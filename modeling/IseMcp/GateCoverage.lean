import IseMcp.GateAgreement
import IseMcp.Text.Regex

set_option autoImplicit false

/-! # The gate in front of `/mcp`

What the gate covers and how it answers. It knows the endpoint by comparing strings, and the router
behind it by a regular expression whose `$` also holds before a final newline, so that one path
gets past the check (`gate_covers_iff`). In front of the endpoint the gate forwards a request or
answers it with one 401, as long as it can decode the headers and compare the token with the API
keys (`gate_answers_iff`).
-/

namespace IseMcp

open Python Interaction Text

/-! ## Coverage -/

/-- `^/mcp$`, the route of the endpoint in the wrapped application. -/
def mcpRoute : Regex := .literal "/mcp".toList

/-- The wrapped application dispatches the path to the endpoint. -/
def RoutedToMcp (path : String) : Prop := mcpRoute.matchDollar path.toList = true

theorem routedToMcp_iff {path : String} : RoutedToMcp path ↔ path = "/mcp" ∨ path = "/mcp\n" := by
  rw [RoutedToMcp, mcpRoute, Regex.matchDollar_literal, ← String.toList_inj, ← String.toList_inj]
  exact Iff.rfl

/-- The steps `es` are a call of `session_valid` on the token of the request that was true. -/
def TokenChecked (deps : Deps) (scope : Scope) (es : List (Event Ise)) : Prop :=
  ∃ tok, gateToken deps scope = .ok tok ∧
    Prog.Path (deps.sessionValid tok).run es (.ret (.ok true))

/-- Every request for the path that reaches the endpoint had its token checked, whatever the
answers of the session store were. -/
def Covers (deps : Deps) (path : String) : Prop :=
  ∀ (headers : RawHeaders) (es : List (Event Ise)),
    Prog.Path (RequireAuthOnMcp.call deps ⟨"http", path, headers⟩).run es (.ret (.ok .forward)) →
      RoutedToMcp path → TokenChecked deps ⟨"http", path, headers⟩ es

/-- A path that the gate does not take for the endpoint is forwarded at once. -/
theorem call_elsewhere (deps : Deps) (scope : Scope) (h : rstripSlash scope.path ≠ "/mcp") :
    (RequireAuthOnMcp.call deps scope).run = .ret (.ok .forward) := by
  rw [RequireAuthOnMcp.call, if_neg fun hall => h hall.2.1]
  rfl

/-- In front of the endpoint the gate forwards only what `session_valid` accepts. -/
theorem call_forwards {deps : Deps} (scope : Scope) (hmode : deps.cfg.authMode = "passthrough")
    (htype : scope.type = "http") (hpath : rstripSlash scope.path = "/mcp")
    {es : List (Event Ise)}
    (h : Prog.Path (RequireAuthOnMcp.call deps scope).run es (.ret (.ok .forward))) :
    TokenChecked deps scope es := by
  rw [RequireAuthOnMcp.call, if_pos ⟨htype, hpath, hmode⟩, Coro.run_ofExcept_bind] at h
  rcases hdec : decodeHeaders scope.headers with e | headers
  · rw [hdec] at h
    cases ((Prog.path_ret_iff _ _ _).mp h).2
  · rw [hdec, Coro.next_ok, Coro.run_bind', Prog.path_bind_ret_iff] at h
    obtain ⟨verdict, es₁, es₂, rfl, hvalid, hrest⟩ := h
    have htok : gateToken deps scope = .ok (RequireAuthOnMcp.sid deps.cfg headers) := by
      rw [gateToken, hdec]
      rfl
    rcases verdict with e | _ | _
    · cases ((Prog.path_ret_iff _ _ _).mp hrest).2
    · cases ((Prog.path_ret_iff _ _ _).mp hrest).2
    · obtain ⟨rfl, _⟩ := (Prog.path_ret_iff _ _ _).mp hrest
      rw [List.append_nil]
      exact ⟨_, htok, hvalid⟩

/-- Without a token nothing is valid. -/
theorem not_sessionValid_none (deps : Deps) (hb : deps.Built)
    (hmode : deps.cfg.authMode = "passthrough") {es : List (Event Ise)} :
    ¬ Prog.Path (deps.sessionValid none).run es (.ret (.ok true)) := by
  rw [Deps.run_sessionValid, hb.passthrough hmode]
  intro h
  cases ((Prog.path_ret_iff _ _ _).mp h).2

/-- **What the gate covers**: every path but `/mcp` with a newline after it. -/
theorem gate_covers_iff (deps : Deps) (hb : deps.Built) (hmode : deps.cfg.authMode = "passthrough")
    (path : String) : Covers deps path ↔ path ≠ "/mcp\n" := by
  constructor
  · rintro h rfl
    -- a request without headers is forwarded, and there is no token to check
    have hpath : rstripSlash "/mcp\n" ≠ "/mcp" := by decide
    have hcall := call_elsewhere deps ⟨"http", "/mcp\n", []⟩ hpath
    obtain ⟨tok, htok, hvalid⟩ :=
      h [] [] (by rw [hcall]; exact .nil _) (routedToMcp_iff.mpr (Or.inr rfl))
    have hnone : tok = none := (Except.ok.inj htok).symm
    rw [hnone] at hvalid
    exact not_sessionValid_none deps hb hmode hvalid
  · intro hne headers es h hroute
    have hmcp : path = "/mcp" := (routedToMcp_iff.mp hroute).resolve_right hne
    subst hmcp
    have hpath : rstripSlash "/mcp" = "/mcp" := by decide
    exact call_forwards ⟨"http", "/mcp", headers⟩ hmode rfl hpath h

theorem gate_covers_mcp : Covers keyDeps "/mcp" :=
  (gate_covers_iff keyDeps (by rfl) (by rfl) "/mcp").mpr (by decide)

/-- `GET /mcp%0A` reaches the endpoint without a token. -/
theorem newline_uncovered : ¬ Covers keyDeps "/mcp\n" := by
  intro h
  have hforward : Prog.Path (RequireAuthOnMcp.call keyDeps ⟨"http", "/mcp\n", []⟩).run []
      (.ret (.ok .forward)) := by
    rw [call_elsewhere keyDeps ⟨"http", "/mcp\n", []⟩ (by decide)]
    exact .nil _
  obtain ⟨tok, htok, hvalid⟩ := h [] [] hforward (routedToMcp_iff.mpr (Or.inr rfl))
  cases htok
  exact not_sessionValid_none keyDeps (by rfl) (by rfl) hvalid

/-! ## Answering -/

/-- What the gate does on the ASGI side. -/
inductive GateAction where
  | forward
  | responseStart (status : Nat) (headers : RawHeaders)
  | responseBody (body : Bytes)

/-- The body of the 401. -/
def unauthorizedBody : Bytes :=
  utf8Encode ("\x7b\"error\":\"unauthorized\","
    ++ "\"error_description\":\"Authenticate to use the ISE MCP tools\"\x7d")

/-- The messages of `__call__` for its verdict. -/
def RequireAuthOnMcp.Verdict.actions : RequireAuthOnMcp.Verdict → List GateAction
  | .forward => [.forward]
  | .unauthorized wwwAuthenticate =>
      [.responseStart 401 [(utf8Encode "content-type", utf8Encode "application/json"),
        (utf8Encode "www-authenticate", utf8Encode wwwAuthenticate)],
        .responseBody unauthorizedBody]

/-- What the gate does with a request in the state `w`, or the exception it raises. -/
def gateActions (deps : Deps) (scope : Scope) (env : Env) (w : World) :
    Except PyExc (List GateAction) :=
  (Prog.exec (serve env) (RequireAuthOnMcp.call deps scope).run w).1.map
    RequireAuthOnMcp.Verdict.actions

/-- The request is forwarded once, or it gets one 401 and nothing else. -/
def Answers (deps : Deps) (scope : Scope) (env : Env) (w : World) : Prop :=
  gateActions deps scope env w = .ok [.forward] ∨
    ∃ headers body,
      gateActions deps scope env w = .ok [.responseStart 401 headers, .responseBody body]

/-- Names and values are UTF-8. -/
def Utf8Headers (headers : RawHeaders) : Prop :=
  ∀ kv ∈ headers, (utf8Decode kv.1).isSome ∧ (utf8Decode kv.2).isSome

/-- The token can be compared with the keys: it is ASCII, and so is every key up to the first one
that is equal to it. Without keys there is nothing to compare. -/
def Comparable (tok : String) (keys : List String) : Prop :=
  ∀ pre k post, keys = pre ++ k :: post → tok ∉ pre → isAscii tok = true ∧ isAscii k = true

theorem decodeHeaders_returns_iff {headers : RawHeaders} :
    (∃ hs, decodeHeaders headers = .ok hs) ↔ Utf8Headers headers := by
  induction headers with
  | nil => simp [decodeHeaders, Utf8Headers]
  | cons kv headers ih =>
      obtain ⟨k, v⟩ := kv
      rw [Utf8Headers, List.forall_mem_cons, ← Utf8Headers, ← ih, decodeHeaders]
      rcases utf8Decode k with _ | name
      · simp
      · rcases utf8Decode v with _ | value
        · simp
        · rcases decodeHeaders headers with e | hs <;> simp [bind, Except.bind, pure, Except.pure]

/-- ASCII is UTF-8. -/
theorem utf8Headers_of_ascii {headers : RawHeaders} (h : AsciiHeaders headers) :
    Utf8Headers headers := by
  intro kv hkv
  obtain ⟨hname, hvalue⟩ := h kv hkv
  rw [utf8Decode_of_ascii hname, utf8Decode_of_ascii hvalue]
  exact ⟨rfl, rfl⟩

/-- `any` stops at the first key that is equal. -/
theorem anyDigest_cons (tok key : String) (keys : List String) :
    Deps.anyDigest tok (key :: keys) =
      match compareDigest tok key with
      | .error e => .error e
      | .ok true => .ok true
      | .ok false => Deps.anyDigest tok keys := by
  rw [Deps.anyDigest]
  rcases compareDigest tok key with e | _ | _ <;> rfl

theorem comparable_cons {tok key : String} {keys : List String} :
    Comparable tok (key :: keys) ↔
      isAscii tok = true ∧ isAscii key = true ∧ (tok ≠ key → Comparable tok keys) := by
  constructor
  · intro h
    obtain ⟨htok, hkey⟩ := h [] key keys rfl List.not_mem_nil
    refine ⟨htok, hkey, ?_⟩
    rintro hne pre k post rfl hpre
    exact h (key :: pre) k post rfl (by simp [hne, hpre])
  · rintro ⟨htok, hkey, hrest⟩ pre k post hkeys hpre
    cases pre with
    | nil =>
        cases hkeys
        exact ⟨htok, hkey⟩
    | cons key' pre =>
        cases hkeys
        rw [List.mem_cons, not_or] at hpre
        exact hrest hpre.1 pre k post rfl hpre.2

/-- The comparison with the keys says whether the token is one of them. -/
theorem anyDigest_ok_iff {tok : String} {keys : List String} {b : Bool} :
    Deps.anyDigest tok keys = .ok b ↔ Comparable tok keys ∧ b = decide (tok ∈ keys) := by
  induction keys with
  | nil => cases b <;> simp [Deps.anyDigest, Comparable]
  | cons key keys ih =>
      rw [anyDigest_cons, comparable_cons, compareDigest]
      by_cases hascii : isAscii tok = true ∧ isAscii key = true
      · rw [if_pos hascii, and_iff_right hascii.1, and_iff_right hascii.2]
        by_cases heq : tok = key
        · subst heq
          simp [eq_comm]
        · have hbeq : (tok == key) = false := beq_false_of_ne heq
          rw [hbeq]
          dsimp only
          rw [ih]
          simp [heq]
      · rw [if_neg hascii]
        exact iff_of_false (fun h => by cases h) fun h => hascii ⟨h.1.1, h.1.2.1⟩

theorem anyDigest_returns_iff {tok : String} {keys : List String} :
    (∃ b, Deps.anyDigest tok keys = .ok b) ↔ Comparable tok keys := by
  simp only [anyDigest_ok_iff]
  exact ⟨fun ⟨_, h, _⟩ => h, fun h => ⟨_, h, rfl⟩⟩

/-- Looking up a session cannot fail, so only the comparison with the keys can. -/
theorem sessionValid_returns_iff (deps : Deps) (tok : Option String) (env : Env) (w : World) :
    (∃ b, (Prog.exec (serve env) (deps.sessionValid tok).run w).1 = .ok b) ↔
      ∃ b, deps.isApiKey tok = .ok b := by
  rw [Deps.run_sessionValid]
  rcases deps.isApiKey tok with e | _ | _
  · simp
  · refine iff_of_true ?_ ⟨false, rfl⟩
    rcases deps.provider with validate | auth
    · dsimp only
      rw [Provider.sessionValid]
      by_cases htok : truthy tok = true
      · rw [PassthroughProvider.run_sessionValid htok]
        exact ⟨_, rfl⟩
      · rw [PassthroughProvider.sessionValid, if_neg htok]
        exact ⟨_, rfl⟩
    · exact ⟨_, rfl⟩
  · exact iff_of_true ⟨_, rfl⟩ ⟨_, rfl⟩

theorem isApiKey_returns_iff (deps : Deps) (tok : Option String) :
    (∃ b, deps.isApiKey tok = .ok b) ↔
      ∀ t, tok = some t → t ≠ "" → Comparable t deps.cfg.apiKeys := by
  rcases tok with _ | t
  · simp [Deps.isApiKey]
  · by_cases ht : t = ""
    · simp [Deps.isApiKey, ht]
    · rw [Deps.isApiKey, if_neg ht, anyDigest_returns_iff]
      constructor
      · intro h t' ht' _
        cases ht'
        exact h
      · intro h
        exact h t rfl ht

/-- **When the gate answers**: exactly if the headers are UTF-8 and a token in them can be compared
with the API keys. -/
theorem gate_answers_iff (deps : Deps) (hmode : deps.cfg.authMode = "passthrough") (scope : Scope)
    (htype : scope.type = "http") (hpath : rstripSlash scope.path = "/mcp") (env : Env)
    (w : World) : Answers deps scope env w ↔
      Utf8Headers scope.headers ∧
        ∀ t, gateToken deps scope = .ok (some t) → t ≠ "" → Comparable t deps.cfg.apiKeys := by
  rw [Answers, gateActions, RequireAuthOnMcp.call, if_pos ⟨htype, hpath, hmode⟩,
    Coro.run_ofExcept_bind, gateToken, ← decodeHeaders_returns_iff]
  rcases decodeHeaders scope.headers with e | headers
  · exact iff_of_false (by simp [Except.map]) (by simp)
  · have hdec : ∃ hs, (Except.ok headers : Except PyExc (List (String × String))) = .ok hs :=
      ⟨headers, rfl⟩
    have htok : ∀ t, (Except.ok headers : Except PyExc _).map (RequireAuthOnMcp.sid deps.cfg)
        = .ok (some t) ↔ RequireAuthOnMcp.sid deps.cfg headers = some t := by
      intro t
      exact ⟨Except.ok.inj, congrArg Except.ok⟩
    rw [and_iff_right hdec]
    simp only [htok]
    rw [← isApiKey_returns_iff, ← sessionValid_returns_iff deps _ env w, Coro.next_ok,
      Coro.run_bind', Prog.exec_bind]
    generalize Prog.exec (serve env)
      (deps.sessionValid (RequireAuthOnMcp.sid deps.cfg headers)).run w = out
    obtain ⟨verdict, w'⟩ := out
    rcases verdict with e | _ | _
    · exact iff_of_false (by simp [Except.map]) (by simp)
    · exact iff_of_true (Or.inr ⟨_, _, rfl⟩) ⟨_, rfl⟩
    · exact iff_of_true (Or.inl rfl) ⟨_, rfl⟩

theorem gate_answers_key : Answers keyDeps (keyScope ["k2"]) (.always 200) (.initial 3600 900) := by
  have hpath : rstripSlash "/mcp" = "/mcp" := by decide
  have hascii : AsciiHeaders (keyScope ["k2"]).headers := by
    show ∀ kv ∈ [(utf8Encode "X-API-Key", utf8Encode "k2")], _
    decide
  refine (gate_answers_iff keyDeps (by rfl) (keyScope ["k2"]) (by rfl) hpath (.always 200)
    (.initial 3600 900)).mpr ⟨utf8Headers_of_ascii hascii, ?_⟩
  intro t ht _
  have hvalues : fieldValues (keyScope ["k2"]).headers "x-api-key" = ["k2"] := by rfl
  rw [gateToken_eq_carried keyDeps hascii, hvalues] at ht
  have hkey : some "k2" = some t := Except.ok.inj ht
  cases hkey
  exact comparable_cons.mpr ⟨by decide, by decide, fun hne => absurd rfl hne⟩

/-- A header value of the one byte `0xff` makes the gate raise instead of answering. -/
theorem undecodable_unanswered :
    ¬ Answers keyDeps ⟨"http", "/mcp", [(utf8Encode "x", [0xff])]⟩ (.always 200)
      (.initial 3600 900) := by
  have hdec : decodeHeaders [(utf8Encode "x", [0xff])]
      = .error (exc (.other "UnicodeDecodeError") "invalid utf-8") := by rfl
  have hpath : rstripSlash "/mcp" = "/mcp" := by decide
  have hraise : gateActions keyDeps ⟨"http", "/mcp", [(utf8Encode "x", [0xff])]⟩ (.always 200)
      (.initial 3600 900) = .error (exc (.other "UnicodeDecodeError") "invalid utf-8") := by
    rw [gateActions, RequireAuthOnMcp.call, if_pos ⟨rfl, hpath, rfl⟩, Coro.run_ofExcept_bind, hdec]
    rfl
  rw [Answers, hraise]
  rintro (h | ⟨_, _, h⟩) <;> cases h

end IseMcp
