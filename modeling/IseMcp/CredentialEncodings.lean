import IseMcp.AuditAttribution
import IseMcp.RequestSteps
import IseMcp.Text.Base64

set_option autoImplicit false

/-! # Credentials in base64

A user name and a password arrive in base64 in two places: in the `Basic` header of a client at
`/token`, and in `ISE_ENCODED_AUTH`. Both decode to what was encoded, up to a colon in the user
name.

A client that follows the OAuth specification quotes both texts before it encodes them, and the
server does not undo that: such a client is served like one that sends the two as fields of the form
exactly if quoting changes neither (`AuthMethodsAgree`).
-/

namespace IseMcp

open Python Interaction Text

/-- `user:pass` in base64. -/
def basicPair (u p : String) : String := b64Text (u ++ ":" ++ p)

theorem basicPair_decoded (u p : String) :
    (b64decode (basicPair u p)).bind utf8Decode = some (u ++ ":" ++ p) := b64Text_decoded _

theorem basicPair_ne_empty (u p : String) : basicPair u p ≠ "" := by
  intro hempty
  have h := basicPair_decoded u p
  rw [hempty] at h
  have hlist := congrArg String.toList (Option.some.inj h)
  simp at hlist

/-- The pair is split at the first colon. -/
theorem partitionColon_pair {u : String} (p : String) (hu : ':' ∉ u.toList) :
    partitionColon (u ++ ":" ++ p) = (u, p) := by
  have hchars : ∀ c ∈ u.toList, (c != ':') = true := by
    intro c hc
    rw [bne_iff_ne]
    rintro rfl
    exact hu hc
  have hlist : (u ++ ":" ++ p).toList = u.toList ++ ':' :: p.toList := by simp
  rw [partitionColon, hlist, List.takeWhile_append_of_pos hchars,
    List.dropWhile_append_of_pos hchars]
  simp

theorem partitionColon_fst (s : String) : ':' ∉ (partitionColon s).1.toList := by
  rw [partitionColon, String.toList_ofList]
  intro hmem
  exact absurd (List.mem_takeWhile_imp hmem) (by decide)

/-! ## The two ways to authenticate at `/token` -/

/-- A form without fields for the credentials. -/
def Anonymous (form : List (String × String)) : Prop :=
  ∀ kv ∈ form, kv.1 ≠ "client_id" ∧ kv.1 ≠ "client_secret"

/-- `client_secret_post` -/
def postRequest (form : List (String × String)) (u p : String) : TokenRequest :=
  ⟨form ++ [("client_id", u), ("client_secret", p)], none⟩

/-- `client_secret_basic`, with the two texts as they are. -/
def plainBasicRequest (form : List (String × String)) (u p : String) : TokenRequest :=
  ⟨form, some ("Basic " ++ basicPair u p)⟩

/-- What the client's form encoder makes of a text. -/
def quoted (safe : FormUrl.SafeBytes) (s : String) : String := .ofList (FormUrl.quotePlus safe s)

/-- `client_secret_basic`, with the two texts quoted. -/
def basicRequest (safe : FormUrl.SafeBytes) (form : List (String × String)) (u p : String) :
    TokenRequest :=
  plainBasicRequest form (quoted safe u) (quoted safe p)

section

variable {form : List (String × String)} {u p : String}

theorem find_of_ne {key : String} (h : ∀ kv ∈ form, kv.1 ≠ key) :
    form.reverse.find? (fun kv => kv.1 == key) = none := by
  rw [List.find?_eq_none]
  intro kv hkv
  simpa using h kv (List.mem_reverse.mp hkv)

theorem lastValue_append_of_ne {key : String} {rest : List (String × String)}
    (h : ∀ kv ∈ rest, kv.1 ≠ key) : lastValue (form ++ rest) key = lastValue form key := by
  unfold lastValue
  rw [List.reverse_append, List.find?_append, find_of_ne h, Option.none_or]

theorem Anonymous.no_id (h : Anonymous form) : lastValue form "client_id" = none := by
  rw [lastValue, find_of_ne fun kv hkv => (h kv hkv).1]
  rfl

theorem Anonymous.no_secret (h : Anonymous form) : lastValue form "client_secret" = none := by
  rw [lastValue, find_of_ne fun kv hkv => (h kv hkv).2]
  rfl

theorem clientCreds_post (hu : u ≠ "") (hp : p ≠ "") :
    clientCreds (postRequest form u p) = (some u, some p) := by
  have hid : lastValue (postRequest form u p).form "client_id" = some u := by
    simp [postRequest, lastValue]
  have hsecret : lastValue (postRequest form u p).form "client_secret" = some p := by
    simp [postRequest, lastValue]
  have htruthy : truthy (some u) ∧ truthy (some p) :=
    ⟨truthy_iff.mpr ⟨u, rfl, hu⟩, truthy_iff.mpr ⟨p, rfl, hp⟩⟩
  rw [clientCreds, hid, hsecret, if_pos htruthy]

theorem clientCreds_plainBasic (hform : Anonymous form) (hcolon : ':' ∉ u.toList) :
    clientCreds (plainBasicRequest form u p) = (some u, some p) := by
  have hscheme : takePrefix 6 ("Basic " ++ basicPair u p) = "Basic " := by
    rw [takePrefix, String.toList_append]
    rfl
  have hrest : dropPrefix 6 ("Basic " ++ basicPair u p) = basicPair u p := by
    rw [dropPrefix, String.toList_append]
    exact String.ofList_toList
  have hlower : lower "Basic " = "basic " := by decide
  unfold clientCreds plainBasicRequest
  simp only [hform.no_id, hform.no_secret, Option.getD_some, hscheme, hrest, hlower, if_true,
    basicPair_decoded, partitionColon_pair p hcolon]
  rfl

/-- The fields but for the credentials are the same. -/
theorem postRequest_field (key : String) (hid : key ≠ "client_id")
    (hsecret : key ≠ "client_secret") :
    lastValue (postRequest form u p).form key = lastValue form key := by
  refine lastValue_append_of_ne fun kv hkv => ?_
  simp only [List.mem_cons, List.not_mem_nil, or_false] at hkv
  rcases hkv with rfl | rfl
  · exact hid.symm
  · exact hsecret.symm

/-- Requests with the same credentials are the same to the server. -/
theorem token_congr (deps : Deps) (h : clientCreds (plainBasicRequest form u p)
    = clientCreds (postRequest form u p)) :
    token deps (plainBasicRequest form u p) = token deps (postRequest form u p) := by
  unfold token
  simp only [h, postRequest_field "grant_type" (by decide) (by decide),
    postRequest_field "code" (by decide) (by decide),
    postRequest_field "redirect_uri" (by decide) (by decide),
    postRequest_field "code_verifier" (by decide) (by decide)]
  rfl

/-- The first step of a `client_credentials` grant tries its credentials. -/
theorem token_first_probe {deps : Deps} (hb : deps.Built) {validate : Validator}
    (hprov : deps.provider = .passthrough validate) {r : TokenRequest}
    (hgrant : r.grantType = "client_credentials") (hcreds : clientCreds r = (some u, some p))
    (hu : u ≠ "") (hp : p ≠ "") :
    ∃ k, (ServerRequest.token r).program deps
      = .call (S := Ise) (.probe (IseClient.probeRequest deps.cfg u p)) k := by
  have hnonempty : ¬ (u = "" ∨ p = "") := not_or.mpr ⟨hu, hp⟩
  unfold TokenRequest.grantType at hgrant
  unfold ServerRequest.program token
  rw [hprov, hb.validator hprov]
  simp only [hgrant, hcreds, if_true, if_neg hnonempty, PassthroughProvider.login,
    IseClient.validateCredentials]
  exact ⟨_, rfl⟩

/-- Quoting leaves the text alone. -/
def FormSafe (safe : FormUrl.SafeBytes) (s : String) : Prop :=
  ∀ b ∈ utf8Encode s, b ≠ 0x20 ∧ safe.keeps b = true

theorem formSafe_iff {safe : FormUrl.SafeBytes} {s : String} :
    quoted safe s = s ↔ FormSafe safe s := by
  rw [FormSafe, quoted, ← FormUrl.quotePlus_eq_self_iff, ← String.toList_inj, String.toList_ofList]

theorem quoted_ne_empty {safe : FormUrl.SafeBytes} {s : String} (h : s ≠ "") :
    quoted safe s ≠ "" := by
  have hlen := FormUrl.length_le_quote safe s.toList
  intro hempty
  have hnil : FormUrl.quotePlus safe s = [] := by
    simpa [quoted] using congrArg String.toList hempty
  rw [FormUrl.quotePlus, utf8Encode] at hnil
  rw [hnil, List.length_nil, Nat.le_zero, List.length_eq_zero_iff] at hlen
  exact h (String.toList_inj.mp hlen)

/-- A quoted text has no colon. -/
theorem quoted_no_colon {safe : FormUrl.SafeBytes}
    (hsafe : ∀ b, safe.keeps b = true → ':' ≠ Char.ofNat b.toNat) (s : String) :
    ':' ∉ (quoted safe s).toList := by
  have hhex : ∀ n < 16, ':' ≠ FormUrl.hexDigit n := by decide
  rw [quoted, String.toList_ofList]
  intro hmem
  rcases FormUrl.mem_quotePlus hmem with h | ⟨b, hb, h⟩ | h | ⟨n, hn, h⟩
  · exact absurd h (by decide)
  · exact hsafe b hb h
  · exact absurd h (by decide)
  · exact hhex n hn h

end

/-- When the two ways to authenticate at `/token` are the same to the server, and what it does when
they are not: it takes the quoted texts, and tries them as user name and password. -/
structure AuthMethodsAgree (deps : Deps) (safe : FormUrl.SafeBytes) (form : List (String × String))
    (u p : String) : Prop where
  agree : FormSafe safe u → FormSafe safe p →
    (ServerRequest.token (basicRequest safe form u p)).program deps
      = (ServerRequest.token (postRequest form u p)).program deps
  only : (postRequest form u p).grantType = "client_credentials" →
    (ServerRequest.token (basicRequest safe form u p)).program deps
      = (ServerRequest.token (postRequest form u p)).program deps →
    FormSafe safe u ∧ FormSafe safe p
  unread : (ServerRequest.token (basicRequest safe form u p)).program deps
    = (ServerRequest.token (postRequest form (quoted safe u) (quoted safe p))).program deps
  tried : (postRequest form u p).grantType = "client_credentials" →
    ∃ k, (ServerRequest.token (basicRequest safe form u p)).program deps
      = .call (S := Ise)
          (.probe (IseClient.probeRequest deps.cfg (quoted safe u) (quoted safe p))) k

/-- **`client_secret_basic` and `client_secret_post` agree** for credentials that quoting leaves
alone; with any others the server tries the quoted texts as user name and password. -/
theorem auth_methods_agree {deps : Deps} (hb : deps.Built) {validate : Validator}
    (hprov : deps.provider = .passthrough validate) {safe : FormUrl.SafeBytes}
    (hsafe : ∀ b, safe.keeps b = true → ':' ≠ Char.ofNat b.toNat) {form : List (String × String)}
    (hform : Anonymous form) {u p : String} (hu : u ≠ "") (hp : p ≠ "") :
    AuthMethodsAgree deps safe form u p := by
  have hcreds := @clientCreds_plainBasic form (quoted safe u) (quoted safe p) hform
    (quoted_no_colon hsafe u)
  have hunread : (ServerRequest.token (basicRequest safe form u p)).program deps
      = (ServerRequest.token (postRequest form (quoted safe u) (quoted safe p))).program deps := by
    have hpost := @clientCreds_post form (quoted safe u) (quoted safe p) (quoted_ne_empty hu)
      (quoted_ne_empty hp)
    rw [basicRequest, ServerRequest.program, token_congr deps (hcreds.trans hpost.symm)]
    rfl
  have htried : (postRequest form u p).grantType = "client_credentials" →
      ∃ k, (ServerRequest.token (basicRequest safe form u p)).program deps = .call (S := Ise)
        (.probe (IseClient.probeRequest deps.cfg (quoted safe u) (quoted safe p))) k := by
    intro hgrant
    refine token_first_probe hb hprov ?_ hcreds (quoted_ne_empty hu) (quoted_ne_empty hp)
    rw [← hgrant, TokenRequest.grantType, TokenRequest.grantType,
      postRequest_field "grant_type" (by decide) (by decide)]
    rfl
  refine ⟨fun hsafeu hsafep => ?_, fun hgrant heq => ?_, hunread, htried⟩
  · rw [hunread, formSafe_iff.mpr hsafeu, formSafe_iff.mpr hsafep]
  · -- the first probe of each carries its credentials
    obtain ⟨k, hpost⟩ := token_first_probe hb hprov hgrant (clientCreds_post hu hp) hu hp
    obtain ⟨k', hbasic⟩ := htried hgrant
    rw [hpost, hbasic] at heq
    have hprobe : IseClient.probeRequest deps.cfg (quoted safe u) (quoted safe p)
        = IseClient.probeRequest deps.cfg u p := by
      injection heq with hop _
      exact Op.probe.inj hop
    have hpair := Prod.mk.inj (congrArg HttpRequest.auth hprobe)
    exact ⟨formSafe_iff.mp hpair.1, formSafe_iff.mp hpair.2⟩

theorem alwaysSafe_no_colon (b : UInt8) (hb : UrlParse.alwaysSafe.keeps b = true) :
    ':' ≠ Char.ofNat b.toNat := by
  intro h
  have hkeeps : ((Char.ofNat b.toNat).isAlphanum ||
      decide (Char.ofNat b.toNat ∈ ['_', '.', '-', '~'])) = true := hb
  rw [← h] at hkeeps
  exact absurd hkeeps (by decide)

/-- A secret with a blank in it. -/
theorem auth_methods_agree_blank :
    (ServerRequest.token (basicRequest UrlParse.alwaysSafe [("grant_type", "client_credentials")]
        "alice" "p w")).program passthroughDeps
      ≠ (ServerRequest.token (postRequest [("grant_type", "client_credentials")]
        "alice" "p w")).program passthroughDeps := by
  have hb : passthroughDeps.Built := rfl
  have hform : Anonymous [("grant_type", "client_credentials")] := by
    intro kv hkv
    rw [List.mem_singleton.mp hkv]
    decide
  intro heq
  have hsafe := (@auth_methods_agree passthroughDeps hb _ rfl UrlParse.alwaysSafe
    alwaysSafe_no_colon _ hform "alice" "p w" (by decide) (by decide)).only (by decide) heq
  exact (hsafe.2 0x20 (by decide)).1 rfl

/-! ## The service account -/

/-- Which pairs a server with a service account and without API keys sends to ISE. -/
structure AccountPairs (deps : Deps) (sys : ServerSys) : Prop where
  plain : deps.cfg.iseEncodedAuth = "" → ∀ e ∈ sys.log, ∀ h, e.event.1 = .send h →
    h.auth = (deps.cfg.iseUsername, deps.cfg.isePassword)
  encoded : ∀ u p, deps.cfg.iseEncodedAuth = basicPair u p → ∀ e ∈ sys.log, ∀ h,
    e.event.1 = .send h → (h.auth = (u, p) ↔ ':' ∉ u.toList)
  undecodable : deps.cfg.iseEncodedAuth ≠ "" →
    (b64decode deps.cfg.iseEncodedAuth).bind utf8Decode = none →
    ∀ e ∈ sys.log, ∀ h, e.event.1 ≠ .send h

section

variable {deps : Deps} {env : Env} {moves : List (Move ServerRequest)}

theorem serviceAccount_context {cfg : Config} {auth : AuthContext}
    (h : serviceAccount cfg = .ok auth) :
    auth.encoded = cfg.iseEncodedAuth ∧ (cfg.iseEncodedAuth = "" →
      auth.username = cfg.iseUsername ∧ auth.password = cfg.isePassword) := by
  unfold serviceAccount at h
  split_ifs at h with hany huser
  · cases h
    exact ⟨rfl, fun _ => ⟨rfl, rfl⟩⟩
  · cases h
    refine ⟨rfl, fun hempty => ?_⟩
    rcases hany with hany | hany
    · exact absurd hempty hany
    · exact absurd hany.1 huser

/-- What is sent carries the pair of the account. -/
theorem account_pair (hb : deps.Built) (hmode : deps.cfg.authMode = "service_account")
    (hkeys : deps.cfg.apiKeys = []) {e : Entry Ise World}
    (he : e ∈ (serverRun deps env moves).log) {h : HttpRequest} (hsend : e.event.1 = .send h) :
    ∃ auth, serviceAccount deps.cfg = .ok auth ∧ auth.basicAuth = .ok h.auth := by
  obtain ⟨req, left, htask, hmay⟩ := run_may_entry hb he
  obtain ⟨headers, call, rfl⟩ : ∃ headers call, req = .tool headers call := by
    rw [hsend] at hmay
    cases hmay with
    | request hr ho => exact ⟨_, _, rfl⟩
    | record hrec => exact ⟨_, _, rfl⟩
  have hev : e.event ∈ eventsOf (serverRun deps env moves).log e.task :=
    mem_eventsOf.mpr ⟨e, he, rfl, rfl⟩
  obtain ⟨auth, es₁, es₂, _, hres, hpair, _⟩ := sender hb htask hev hsend
  obtain ⟨auth', hprov, hauth⟩ := hb.serviceAccount hmode
  have hkey : deps.isApiKey (deps.sessionId headers) ≠ .ok true := by
    intro hkey
    obtain ⟨key, hmem, _⟩ := isApiKey_true hkey
    rw [hkeys] at hmem
    cases hmem
  rw [Deps.resolveAuth, Deps.run_resolveToken] at hres
  rcases hcase : deps.isApiKey (deps.sessionId headers) with e' | _ | _ <;> rw [hcase] at hres
  · cases hres
  · dsimp only at hres
    rw [hprov] at hres
    cases hres
    exact ⟨auth, hauth, hpair⟩
  · exact absurd hcase hkey

/-- **The two ways to configure the service account.** By its name and password, or encoded: then
the pair is the encoded one, cut at the first colon, and nothing is sent if it does not decode. -/
theorem account_pairs (hb : deps.Built) (hmode : deps.cfg.authMode = "service_account")
    (hkeys : deps.cfg.apiKeys = []) : AccountPairs deps (serverRun deps env moves) where
  plain := by
    intro hempty e he h hsend
    obtain ⟨auth, hauth, hpair⟩ := account_pair hb hmode hkeys he hsend
    obtain ⟨henc, hplain⟩ := serviceAccount_context hauth
    rw [AuthContext.basicAuth_of_not_encoded (henc.trans hempty), (hplain hempty).1,
      (hplain hempty).2] at hpair
    exact (Except.ok.inj hpair).symm
  encoded := by
    intro u p henc e he h hsend
    obtain ⟨auth, hauth, hpair⟩ := account_pair hb hmode hkeys he hsend
    have hcoded : auth.encoded = basicPair u p := (serviceAccount_context hauth).1.trans henc
    rw [AuthContext.basicAuth, hcoded, if_pos (basicPair_ne_empty u p), basicPair_decoded] at hpair
    have hcut : partitionColon (u ++ ":" ++ p) = h.auth := Except.ok.inj hpair
    constructor
    · intro hsame
      have hcolon := partitionColon_fst (u ++ ":" ++ p)
      rwa [hcut, hsame] at hcolon
    · intro hcolon
      rw [← hcut, partitionColon_pair p hcolon]
  undecodable := by
    intro hne hnone e he h hsend
    obtain ⟨auth, hauth, hpair⟩ := account_pair hb hmode hkeys he hsend
    have hcoded : auth.encoded = deps.cfg.iseEncodedAuth := (serviceAccount_context hauth).1
    rw [AuthContext.basicAuth, hcoded, if_pos hne, hnone] at hpair
    cases hpair

end

/-- The account whose encoded pair is `svc:pw` reads one endpoint. -/
theorem account_pairs_encoded :
    encodedDeps.cfg.iseEncodedAuth = basicPair "svc" "pw" ∧
      AccountPairs encodedDeps (serverRun encodedDeps sampleEnv readThenWhoami) :=
  ⟨by decide, account_pairs rfl rfl rfl⟩

end IseMcp
