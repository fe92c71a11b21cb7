import IseMcp.Server

set_option autoImplicit false

/-! # The gate and the tools

The gate in front of `/mcp` and the tools behind it extract the caller's token from the same
headers, with two implementations. The gate builds a dictionary, which keeps the last value of a
repeated header; the tools ask Starlette, which returns the first. On ASCII headers nothing else
differs: the two agree exactly if the first values and the last values of the three headers that
can carry a token carry the same one (`gate_agrees_iff`).
-/

namespace IseMcp

open Python Interaction Text

/-! ## The values of a header -/

/-- All values of a header in the order of the request, whatever the case of its name. -/
def fieldValues (headers : RawHeaders) (name : String) : List String :=
  (headers.filter fun kv => lower (latin1Decode kv.1) == lower name).map fun kv =>
    latin1Decode kv.2

/-- Names and values are ASCII. -/
def AsciiHeaders (headers : RawHeaders) : Prop :=
  ∀ kv ∈ headers, AsciiBytes kv.1 ∧ AsciiBytes kv.2

theorem headersGet_eq (headers : RawHeaders) (name : String) :
    headersGet headers name = (fieldValues headers name).head? := by
  rw [headersGet, fieldValues, List.head?_map, List.head?_filter]

/-- The gate decodes ASCII headers to lowered names and the same values. -/
theorem decodeHeaders_ascii {headers : RawHeaders} (h : AsciiHeaders headers) :
    decodeHeaders headers
      = .ok (headers.map fun kv => (lower (latin1Decode kv.1), latin1Decode kv.2)) := by
  induction headers with
  | nil => rfl
  | cons kv headers ih =>
      obtain ⟨hname, hvalue⟩ := h kv List.mem_cons_self
      have ih := ih fun kv' hkv' => h kv' (List.mem_cons_of_mem _ hkv')
      simp only [decodeHeaders, utf8Decode_of_ascii hname, utf8Decode_of_ascii hvalue, ih,
        List.map_cons]
      rfl

theorem lastValue_eq (headers : RawHeaders) (name : String) :
    lastValue (headers.map fun kv => (lower (latin1Decode kv.1), latin1Decode kv.2)) (lower name)
      = (fieldValues headers name).getLast? := by
  rw [lastValue, fieldValues, ← List.map_reverse, List.find?_map, List.getLast?_map,
    List.getLast?_eq_head?_reverse, ← List.filter_reverse, List.head?_filter, Option.map_map]
  rfl

theorem isAscii_latin1Decode {b : Bytes} (h : AsciiBytes b) : isAscii (latin1Decode b) = true := by
  rw [isAscii, latin1Decode, String.toList_ofList, List.all_map, List.all_eq_true]
  intro x hx
  have hlt := h x hx
  rw [Function.comp_apply, decide_eq_true_eq, toNat_ofNat_of_lt (by omega)]
  exact hlt

theorem isAscii_fieldValues {headers : RawHeaders} (h : AsciiHeaders headers) {name value : String}
    (hv : value ∈ fieldValues headers name) : isAscii value = true := by
  obtain ⟨kv, hkv, rfl⟩ := List.mem_map.mp hv
  exact isAscii_latin1Decode (h kv (List.mem_of_mem_filter hkv)).2

/-! ## The token -/

/-- What a value of `Authorization` carries: the rest of a `Bearer` value, stripped. -/
def bearer (authz : String) : Option String :=
  if lower (takePrefix 7 authz) = "bearer " then some (strip (dropPrefix 7 authz)) else none

/-- The token that one value of each carrier gives: the API key, else the session header, else a
bearer token. An empty value carries nothing. -/
def carried (key session authz : Option String) : Option String :=
  if truthy key then key
  else if truthy session then session
  else (authz.bind bearer).or session

/-- Reading each carrier by its first value or by its last gives the same token. -/
def OneToken (cfg : Config) (headers : RawHeaders) : Prop :=
  carried (fieldValues headers "x-api-key").head? (fieldValues headers cfg.sessionHeader).head?
      (fieldValues headers "authorization").head?
    = carried (fieldValues headers "x-api-key").getLast?
      (fieldValues headers cfg.sessionHeader).getLast?
      (fieldValues headers "authorization").getLast?

/-! ## The two extractions -/

theorem orStr_of_truthy {a b : Option String} (h : truthy a = true) : orStr a b = a := by
  obtain ⟨s, rfl, hs⟩ := truthy_iff.mp h
  simp [orStr, hs]

theorem orStr_of_not_truthy {a b : Option String} (h : ¬ truthy a = true) : orStr a b = b := by
  rcases a with _ | s
  · rfl
  · have hs : s = "" := by simpa [truthy] using h
    simp [orStr, hs]

/-- The gate's rule, for whatever values it finds. -/
theorem gate_carried (key session authz : Option String) :
    (if truthy (orStr key session) then orStr key session
      else if lower (takePrefix 7 (authz.getD "")) = "bearer " then
        some (strip (dropPrefix 7 (authz.getD "")))
      else orStr key session) = carried key session authz := by
  unfold carried
  by_cases hkey : truthy key = true
  · rw [orStr_of_truthy hkey, if_pos hkey, if_pos hkey]
  · rw [orStr_of_not_truthy hkey, if_neg hkey]
    by_cases hsession : truthy session = true
    · rw [if_pos hsession, if_pos hsession]
    · rw [if_neg hsession, if_neg hsession]
      rcases authz with _ | authz
      · rfl
      · simp only [Option.getD_some, Option.bind_some, bearer]
        split_ifs <;> rfl

/-- The gate reads the last value of each carrier. -/
theorem sid_eq_carried (cfg : Config) (headers : RawHeaders) :
    RequireAuthOnMcp.sid cfg
        (headers.map fun kv => (lower (latin1Decode kv.1), latin1Decode kv.2))
      = carried (fieldValues headers "x-api-key").getLast?
        (fieldValues headers cfg.sessionHeader).getLast?
        (fieldValues headers "authorization").getLast? := by
  rw [← lastValue_eq, ← lastValue_eq, ← lastValue_eq, ← gate_carried]
  rfl

theorem orStr_orStr (a b : Option String) : orStr (orStr a b) b = orStr a b := by
  by_cases ha : truthy a = true
  · rw [orStr_of_truthy ha, orStr_of_truthy ha]
  · rw [orStr_of_not_truthy ha]
    by_cases hb : truthy b = true
    · exact orStr_of_truthy hb
    · exact orStr_of_not_truthy hb

theorem fieldValues_lower (headers : RawHeaders) (name : String) :
    fieldValues headers (lower name) = fieldValues headers name := by
  rw [fieldValues, fieldValues, lower_lower]

/-- The tools read the first; the two prefix tests agree on ASCII. -/
theorem mcpSessionId_eq_carried {headers : RawHeaders} (h : AsciiHeaders headers)
    (headerName : String) :
    mcpSessionId headerName (some headers)
      = carried (fieldValues headers "x-api-key").head?
        (fieldValues headers headerName).head? (fieldValues headers "authorization").head? := by
  by_cases hnil : headers = []
  · subst hnil
    rfl
  · have hascii : isAscii ((fieldValues headers "authorization").head?.getD "") = true := by
      rcases hv : (fieldValues headers "authorization").head? with _ | value
      · rfl
      · exact isAscii_fieldValues h (List.mem_of_mem_head? hv)
    -- the tools lower the whole value, the gate its first seven characters
    have hprefix := startsWith_lower_iff (p := "bearer ") hascii
    rw [mcpSessionId]
    simp only [hnil, if_false, headersGet_eq, fieldValues_lower, orStr_orStr, hprefix]
    exact gate_carried _ _ _

/-! ## Agreement -/

/-- The gate lets the request through when run from `w`. -/
def Forwards (deps : Deps) (scope : Scope) (env : Env) (w : World) : Prop :=
  (Prog.exec (serve env) (RequireAuthOnMcp.call deps scope).run w).1 = .ok .forward

/-- `resolve_auth` for the token `tok`, run from `w`. -/
def resolved (deps : Deps) (env : Env) (w : World) (tok : Option String) :
    Except PyExc AuthContext :=
  (Prog.exec (serve env) (deps.resolveToken tok).run w).1

/-- `resolve_auth` in a tool behind the request, run from `w`. -/
def toolResolved (deps : Deps) (scope : Scope) (env : Env) (w : World) : Except PyExc AuthContext :=
  (Prog.exec (serve env) (deps.resolveAuth (some scope.headers)).run w).1

/-- The token that the gate checks. -/
def gateToken (deps : Deps) (scope : Scope) : Except PyExc (Option String) :=
  (decodeHeaders scope.headers).map (RequireAuthOnMcp.sid deps.cfg)

/-- From the state `w`, at its clock reading, the gate and a tool agree on the caller: on the
token, on whether there is a caller, and on the identity of the token that the gate checked. -/
structure GateAgrees (deps : Deps) (scope : Scope) (env : Env) (w : World) : Prop where
  token : gateToken deps scope = .ok (deps.sessionId (some scope.headers))
  forward : Forwards deps scope env w ↔ ∃ auth, toolResolved deps scope env w = .ok auth
  identity : ∀ tok auth, gateToken deps scope = .ok tok →
    toolResolved deps scope env w = .ok auth → resolved deps env w tok = .ok auth

/-- A token is valid exactly if it resolves to a caller. -/
theorem sessionValid_iff_resolved {deps : Deps} {validate : Validator}
    (hp : deps.provider = .passthrough validate) (env : Env) (w : World) (tok : Option String) :
    (Prog.exec (serve env) (deps.sessionValid tok).run w).1 = .ok true ↔
      ∃ auth, resolved deps env w tok = .ok auth := by
  rw [resolved, Deps.run_sessionValid, Deps.run_resolveToken]
  rcases deps.isApiKey tok with e | _ | _
  · simp
  · dsimp only
    rw [hp, Provider.sessionValid, Provider.resolve, PassthroughProvider.run_resolve,
      Prog.exec_call]
    by_cases htok : truthy tok = true
    · rw [PassthroughProvider.run_sessionValid htok, Prog.exec_call]
      rcases (serve env w (.getSession tok)).1 with _ | sess <;> simp
    · -- an absent token is not looked up by the gate, and not found by the tools
      have hnone : (serve env w (.getSession tok)).1 = none := by
        rcases tok with _ | s
        · rfl
        · have hs : s = "" := by simpa [truthy] using htok
          subst hs
          rfl
      rw [hnone, PassthroughProvider.sessionValid, if_neg htok]
      simp
  · simp

theorem gateToken_eq_carried (deps : Deps) {scope : Scope} (hascii : AsciiHeaders scope.headers) :
    gateToken deps scope = .ok (carried (fieldValues scope.headers "x-api-key").getLast?
      (fieldValues scope.headers deps.cfg.sessionHeader).getLast?
      (fieldValues scope.headers "authorization").getLast?) := by
  rw [gateToken, decodeHeaders_ascii hascii, ← sid_eq_carried]
  rfl

/-- In front of `/mcp` the gate lets exactly the valid tokens through. -/
theorem forwards_iff {deps : Deps} (hmode : deps.cfg.authMode = "passthrough") {scope : Scope}
    (htype : scope.type = "http") (hpath : rstripSlash scope.path = "/mcp")
    {tok : Option String} (htok : gateToken deps scope = .ok tok) (env : Env) (w : World) :
    Forwards deps scope env w ↔
      (Prog.exec (serve env) (deps.sessionValid tok).run w).1 = .ok true := by
  rcases hdec : decodeHeaders scope.headers with e | headers
  · rw [gateToken, hdec] at htok
    cases htok
  · rw [gateToken, hdec] at htok
    cases htok
    rw [Forwards, RequireAuthOnMcp.call, if_pos ⟨htype, hpath, hmode⟩, Coro.run_ofExcept_bind, hdec,
      Coro.next_ok, Coro.run_bind', Prog.exec_bind]
    generalize Prog.exec (serve env)
      (deps.sessionValid (RequireAuthOnMcp.sid deps.cfg headers)).run w = out
    obtain ⟨verdict, w'⟩ := out
    rcases verdict with e | _ | _ <;> simp

/-- A header list in which no carrier has two different values carries one token. -/
theorem oneToken_of_unrepeated {cfg : Config} {headers : RawHeaders}
    (h : ∀ name ∈ ["x-api-key", cfg.sessionHeader, "authorization"],
      ∀ v ∈ fieldValues headers name, ∀ v' ∈ fieldValues headers name, v = v') :
    OneToken cfg headers := by
  have hends : ∀ name ∈ ["x-api-key", cfg.sessionHeader, "authorization"],
      (fieldValues headers name).head? = (fieldValues headers name).getLast? := by
    intro name hname
    rcases hv : fieldValues headers name with _ | ⟨v, vs⟩
    · rfl
    · rw [List.head?_cons, List.getLast?_eq_some_getLast (List.cons_ne_nil v vs), Option.some.injEq]
      refine h name hname v (by rw [hv]; simp) _ ?_
      rw [hv]
      exact List.getLast_mem _
  rw [OneToken, hends "x-api-key" (by simp), hends cfg.sessionHeader (by simp),
    hends "authorization" (by simp)]

/-- **When the gate and the tools agree**: on ASCII headers exactly if the first and the last
values carry one token. -/
theorem gate_agrees_iff (deps : Deps) (hb : deps.Built)
    (hmode : deps.cfg.authMode = "passthrough") (scope : Scope) (htype : scope.type = "http")
    (hpath : rstripSlash scope.path = "/mcp") (hascii : AsciiHeaders scope.headers) (env : Env)
    (w : World) : GateAgrees deps scope env w ↔ OneToken deps.cfg scope.headers := by
  have htool := mcpSessionId_eq_carried hascii deps.cfg.sessionHeader
  have hgate := gateToken_eq_carried deps hascii
  constructor
  · intro h
    -- the agreement on the token already decides it
    have := h.token
    rw [hgate, Deps.sessionId, htool] at this
    exact (Except.ok.inj this).symm
  · intro hone
    have htoken : gateToken deps scope = .ok (deps.sessionId (some scope.headers)) := by
      rw [hgate, Deps.sessionId, htool, hone]
    refine ⟨htoken, ?_, fun tok auth htok hauth => ?_⟩
    · rw [forwards_iff hmode htype hpath htoken, sessionValid_iff_resolved (hb.passthrough hmode)]
      rfl
    · rw [htoken] at htok
      cases htok
      exact hauth

/-- A passthrough server with the API key `k2` for a service account. -/
def keyDeps : Deps where
  cfg := { accountDeps.cfg with authMode := "passthrough", apiKeys := ["k2"] }
  provider := .passthrough (IseClient.validateCredentials
    { accountDeps.cfg with authMode := "passthrough", apiKeys := ["k2"] })
  fromstring := accountDeps.fromstring

/-- A request to `/mcp` with these values of `X-API-Key`. -/
def keyScope (values : List String) : Scope :=
  ⟨"http", "/mcp", values.map fun v => (utf8Encode "X-API-Key", utf8Encode v)⟩

theorem gate_agrees_one_key :
    GateAgrees keyDeps (keyScope ["k2"]) (.always 200) (.initial 3600 900) := by
  have hascii : AsciiHeaders (keyScope ["k2"]).headers := by
    show ∀ kv ∈ [(utf8Encode "X-API-Key", utf8Encode "k2")], _
    decide
  have hone : OneToken keyDeps.cfg (keyScope ["k2"]).headers := by
    unfold OneToken
    rfl
  have hpath : rstripSlash (keyScope ["k2"]).path = "/mcp" := by rfl
  exact (gate_agrees_iff keyDeps (by rfl) (by rfl) (keyScope ["k2"]) (by rfl) hpath hascii
    (.always 200) (.initial 3600 900)).mpr hone

/-- With `k1` before `k2` the gate checks the API key `k2`, and the tool resolves `k1`. -/
theorem gate_disagrees_two_keys :
    ¬ GateAgrees keyDeps (keyScope ["k1", "k2"]) (.always 200) (.initial 3600 900) := by
  intro h
  have hascii : AsciiHeaders (keyScope ["k1", "k2"]).headers := by
    show ∀ kv ∈ [(utf8Encode "X-API-Key", utf8Encode "k1"),
      (utf8Encode "X-API-Key", utf8Encode "k2")], _
    decide
  have htool : keyDeps.sessionId (some (keyScope ["k1", "k2"]).headers) = some "k1" := by rfl
  have hvalues : fieldValues (keyScope ["k1", "k2"]).headers "x-api-key" = ["k1", "k2"] := by rfl
  have htoken := h.token
  rw [gateToken_eq_carried keyDeps hascii, htool, hvalues, Except.ok.injEq] at htoken
  -- `carried` stops at the API key
  have : (some "k2" : Option String) = some "k1" := htoken
  exact absurd this (by decide)

end IseMcp
