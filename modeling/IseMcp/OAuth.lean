import IseMcp.Auth.Providers
import IseMcp.Python.UrlParse
import IseMcp.Text.Sha256

set_option autoImplicit false

/-! # The OAuth server

`oauth.py`: the checks on a client, the issue of an authorization code after a login, the redirect
that carries it, and its exchange for a token. -/

namespace IseMcp

open Python Interaction Text

/-- The arguments of `login_and_issue_code`. -/
structure LoginArgs where
  username : String
  password : String
  clientId : String
  redirectUri : String
  scope : String
  challenge : String
  deriving DecidableEq

/-- The arguments of `exchange_code`; a missing form field is `none`. The verifier is encoded, the
others are compared only. -/
structure ExchangeArgs where
  code : Option String
  redirectUri : Option String
  clientId : Option String
  clientSecret : Option String
  verifier : Option PyStr
  deriving DecidableEq

/-- `_base_token`; the token type is always `Bearer`. -/
structure BaseToken where
  accessToken : String
  expiresIn : Int
  scope : String
  deriving DecidableEq

def BaseToken.toDict (t : BaseToken) : PyVal :=
  .dict [("access_token", .str t.accessToken), ("token_type", .str "Bearer"),
    ("expires_in", .int t.expiresIn), ("scope", .str t.scope)]

namespace OAuthServer

def enabled (cfg : Config) : Bool := cfg.oauthClientId != "" && cfg.oauthClientSecret != ""

def clientOk (cfg : Config) : Option String → Option String → Except PyExc Bool
  | some cid, some csec => do
      if cid = "" ∨ csec = "" then return false
      else if ← compareDigest cid cfg.oauthClientId then
        compareDigest csec cfg.oauthClientSecret
      else return false
  | _, _ => .ok false

def redirectOk (cfg : Config) (uri : Option String) : Bool :=
  match uri with
  | some u => u != "" && decide (u ∈ cfg.oauthRedirectUris)
  | none => false

/-- What a code issued after a login stands for. -/
def grantOf (cfg : Config) (a : LoginArgs) (sess : Session) : CodeGrant where
  clientId := a.clientId
  redirectUri := a.redirectUri
  scope := if a.scope = "" then cfg.oauthScopes else a.scope
  sessionId := sess.sessionId
  challenge := a.challenge

def loginAndIssueCode (cfg : Config) (validate : Validator) (a : LoginArgs) : Io String := do
  let sess ← PassthroughProvider.login validate a.username a.password
  issueCode (grantOf cfg a sess)

/-- The unpadded base64url SHA-256 of the verifier, which must have an encoding. -/
def s256 (verifier : PyStr) : Except PyExc String := do
  return .ofList (b64UrlEncode (sha256 (← verifier.encode)))

def pkceOk (rec : CodeGrant) (verifier : Option PyStr) : Except PyExc Bool :=
  if rec.challenge = "" then .ok true
  else
    match verifier with
    | some v => if v = "" then .ok false else do compareDigest (← s256 v) rec.challenge
    | none => .ok false

def baseToken (cfg : Config) (rec : CodeGrant) : BaseToken :=
  ⟨rec.sessionId, cfg.sessionTtlSeconds, rec.scope⟩

/-- The end of `exchange_code`, for a popped record. -/
def redeem (cfg : Config) (a : ExchangeArgs) :
    Option Code → Except PyExc (Option BaseToken × Option String)
  | none => .ok (none, some "invalid_grant")
  | some rec => do
      if some rec.grant.clientId ≠ a.clientId ∨ some rec.grant.redirectUri ≠ a.redirectUri then
        return (none, some "invalid_grant")
      else if ← pkceOk rec.grant a.verifier then return (some (baseToken cfg rec.grant), none)
      else return (none, some "invalid_grant")

def exchangeCode (cfg : Config) (a : ExchangeArgs) : Io (Option BaseToken × Option String) := do
  if ← Coro.ofExcept (clientOk cfg a.clientId a.clientSecret) then
    Coro.ofExcept (redeem cfg a (← popCode a.code))
  else return (none, some "invalid_client")

def refresh (cfg : Config) (clientId clientSecret : Option String) :
    Except PyExc (Option BaseToken × Option String) := do
  if ← clientOk cfg clientId clientSecret then return (none, some "invalid_grant")
  else return (none, some "invalid_client")

/-- `redirect_with_code`. How `urlparse` checks an authority with brackets is a parameter. -/
def redirectWithCode (checkBracketed : List Char → Except PyExc Unit) (redirectUri : String)
    (code state : PyStr) : Except PyExc String := do
  let q : List (PyStr × PyStr) := ("code", code) :: if state = "" then [] else [("state", state)]
  let parsed ← UrlParse.urlsplit checkBracketed redirectUri.toList
  let sep := if parsed.query = [] then "?" else "&"
  return redirectUri ++ sep ++ (← UrlParse.urlencode q)

/-! ## The checks -/

/-- Only the configured client passes. -/
theorem clientOk_true {cfg : Config} {cid csec : Option String}
    (h : clientOk cfg cid csec = .ok true) :
    cid = some cfg.oauthClientId ∧ csec = some cfg.oauthClientSecret := by
  rcases cid with _ | cid
  · cases h
  rcases csec with _ | csec
  · cases h
  unfold clientOk at h
  dsimp only at h
  split_ifs at h with hempty
  · cases h
  · obtain ⟨same, hid, h⟩ := bind_eq_ok.mp h
    cases same with
    | false => cases h
    | true =>
        rw [(compareDigest_ok_true.mp hid).1, (compareDigest_ok_true.mp h).1]
        exact ⟨rfl, rfl⟩

theorem isAscii_s256 {v : PyStr} {digest : String} (h : s256 v = .ok digest) :
    isAscii digest = true := by
  obtain ⟨b, _, h⟩ := bind_eq_ok.mp h
  cases h
  simpa [isAscii] using b64UrlEncode_lt _

/-- A verifier has a digest exactly if it has an encoding. -/
theorem s256_returns_iff {v : PyStr} : (∃ digest, s256 v = .ok digest) ↔ v.Encodable := by
  rw [PyStr.encodable_iff]
  constructor
  · rintro ⟨digest, h⟩
    obtain ⟨b, hb, _⟩ := bind_eq_ok.mp h
    obtain ⟨t, rfl, _⟩ := PyStr.encode_ok_iff.mp hb
    exact ⟨t, rfl⟩
  · rintro ⟨t, rfl⟩
    exact ⟨_, bind_of_ok (PyStr.encode_ofString t)⟩

theorem pkceOk_iff {rec : CodeGrant} {verifier : Option PyStr} :
    pkceOk rec verifier = .ok true ↔
      rec.challenge = "" ∨ ∃ v, verifier = some v ∧ v ≠ "" ∧ s256 v = .ok rec.challenge := by
  unfold pkceOk
  split_ifs with h
  · simp [h]
  · rcases verifier with _ | v
    · simp [h]
    · by_cases hv : v = ""
      · simp [h, hv]
      · simp only [hv, if_false, bind_eq_ok, compareDigest_ok_true, h, false_or,
          Option.some.injEq, exists_eq_left', ne_eq, not_false_eq_true, true_and]
        constructor
        · rintro ⟨digest, hdigest, rfl, _⟩
          exact hdigest
        · intro hdigest
          exact ⟨_, hdigest, rfl, isAscii_s256 hdigest⟩

/-! ## What the two calls do -/

/-- What `login_and_issue_code` has done: only its validator ran, and it has no code; or it opened
the session after a yes of the validator, and after that at most issued the code. -/
theorem loginAndIssueCode_path {cfg : Config} {validate : Validator} {a : LoginArgs}
    {es : List (Event Ise)} {q : Prog Ise (Except PyExc String)}
    (h : Prog.Path (loginAndIssueCode cfg validate a).run es q) :
    ((es = [] ∨ ∃ q', Prog.Path (validate a.username a.password).run es q') ∧
      ∀ code, q ≠ .ret (.ok code)) ∨
    ∃ es₀ sess es₁, es = es₀ ++ ⟨Op.createSession a.username
          (PassthroughProvider.authContext a.username a.password), sess⟩ :: es₁ ∧
      Prog.Path (validate a.username a.password).run es₀ (.ret (.ok true)) ∧
      (es₁ = [] ∧ (∀ r, q ≠ .ret r) ∨
        ∃ code, es₁ = [⟨Op.issueCode (grantOf cfg a sess), code⟩] ∧ q = .ret (.ok code)) := by
  rcases (Coro.path_bind_iff _ _ _ _).mp h with ⟨p', hlogin, rfl⟩ | ⟨sess, es₁, es₂, rfl, hlogin, hi⟩
  -- the login goes on or has just returned, or the code comes next
  · rcases PassthroughProvider.login_path hlogin with
      ⟨hes, hno⟩ | ⟨es₀, sess, rfl, rfl, _, _, hv⟩
    · refine Or.inl ⟨hes, fun code heq => ?_⟩
      rcases p' with (e | sess) | ⟨o, k⟩
      · cases heq
      · exact hno sess rfl
      · cases heq
    · exact Or.inr ⟨es₀, sess, [], rfl, hv, Or.inl ⟨rfl, fun r heq => by cases heq⟩⟩
  · obtain ⟨es₀, rfl, hv⟩ := PassthroughProvider.login_returns hlogin
    rw [List.append_assoc]
    refine Or.inr ⟨es₀, sess, es₂, rfl, hv, ?_⟩
    rcases (Coro.path_op_iff (S := Ise) _ _ _).mp hi with ⟨rfl, rfl⟩ | ⟨code, rfl, rfl⟩
    · exact Or.inl ⟨rfl, fun r heq => by cases heq⟩
    · exact Or.inr ⟨code, rfl, rfl⟩

/-- A run that stored a code is over and returns that code; the login it belongs to created the
session just before. -/
theorem loginAndIssueCode_issues {cfg : Config} {validate : Validator} {a : LoginArgs}
    (hv : ∀ u p, Coro.Only (fun o => ∃ h, o = Op.probe h) (validate u p))
    {es es' : List (Event Ise)} {grant : CodeGrant} {code : String}
    {q : Prog Ise (Except PyExc String)}
    (h : Prog.Path (loginAndIssueCode cfg validate a).run
      (es ++ ⟨Op.issueCode grant, code⟩ :: es') q) :
    es' = [] ∧ q = .ret (.ok code) ∧
      ∃ es₀ sess, es = es₀ ++ [⟨Op.createSession a.username
          (PassthroughProvider.authContext a.username a.password), sess⟩] ∧
        (∀ e ∈ es₀, ∃ r, e.1 = Op.probe r) ∧ grant = grantOf cfg a sess := by
  -- the validator and the creation of the session are no issue
  have hprobe : ∀ {es₀ q'}, Prog.Path (validate a.username a.password).run es₀ q' →
      (⟨Op.issueCode grant, code⟩ : Event Ise) ∉ es₀ := by
    intro es₀ q' hpath hmem
    obtain ⟨r, hr⟩ := (hv _ _).event hpath hmem
    cases hr
  rcases loginAndIssueCode_path h with ⟨hnil | ⟨q', hpath⟩, _⟩ | ⟨es₀, sess, es₁, heq, hpath, hi⟩
  · simp at hnil
  · exact absurd (by simp) (hprobe hpath)
  · have hnot : ∀ es'', es₀ ++ [⟨Op.createSession a.username
          (PassthroughProvider.authContext a.username a.password), sess⟩]
        ≠ es ++ ⟨Op.issueCode grant, code⟩ :: es'' := by
      intro es'' heq'
      have hmem : (⟨Op.issueCode grant, code⟩ : Event Ise) ∈ es₀ ++ [⟨Op.createSession a.username
          (PassthroughProvider.authContext a.username a.password), sess⟩] := by
        rw [heq']
        simp
      rcases List.mem_append.mp hmem with hmem | hmem
      · exact hprobe hpath hmem
      · simp at hmem
    rcases hi with ⟨rfl, _⟩ | ⟨code', rfl, rfl⟩
    · exact absurd heq.symm (hnot es')
    · have hlast : (es₀ ++ [⟨Op.createSession a.username (PassthroughProvider.authContext a.username
            a.password), sess⟩]) ++ [⟨Op.issueCode (grantOf cfg a sess), code'⟩]
          = es ++ ⟨Op.issueCode grant, code⟩ :: es' := by
        rw [heq, List.append_assoc]
        rfl
      rcases snoc_eq_split.mp hlast with ⟨hes, hev, hes'⟩ | ⟨es'', hes, _⟩
      · cases hev
        exact ⟨hes', rfl, es₀, sess, hes.symm, fun _ he => (hv _ _).event hpath he, rfl⟩
      · exact absurd hes (hnot es'')

/-- An exchange by another client does nothing, and returns no token. -/
theorem exchangeCode_refused {cfg : Config} {a : ExchangeArgs}
    (h : clientOk cfg a.clientId a.clientSecret ≠ .ok true) :
    ∃ r, (exchangeCode cfg a).run = .ret r ∧ ∀ t err, r ≠ .ok (some t, err) := by
  unfold exchangeCode
  rw [Coro.run_ofExcept_bind]
  rcases hc : clientOk cfg a.clientId a.clientSecret with e | _ | _
  · exact ⟨.error e, rfl, nofun⟩
  · exact ⟨.ok (none, some "invalid_client"), rfl, nofun⟩
  · exact absurd hc h

/-- An exchange by the configured client pops the code and decides from the record. -/
theorem exchangeCode_accepted {cfg : Config} {a : ExchangeArgs}
    (h : clientOk cfg a.clientId a.clientSecret = .ok true) :
    (exchangeCode cfg a).run = .call (S := Ise) (.popCode a.code) fun x => .ret (redeem cfg a x) := by
  unfold exchangeCode
  rw [Coro.run_ofExcept_bind, h]
  rfl

theorem redeem_token_iff {cfg : Config} {a : ExchangeArgs} {x : Option Code} {t : BaseToken}
    {err : Option String} :
    redeem cfg a x = .ok (some t, err) ↔
      ∃ rec, x = some rec ∧ a.clientId = some rec.grant.clientId ∧
        a.redirectUri = some rec.grant.redirectUri ∧ pkceOk rec.grant a.verifier = .ok true ∧
        t = baseToken cfg rec.grant ∧ err = none := by
  rcases x with _ | rec
  · simp [redeem]
  · simp only [redeem, Option.some.injEq, exists_eq_left']
    by_cases hne : some rec.grant.clientId ≠ a.clientId ∨ some rec.grant.redirectUri ≠ a.redirectUri
    · rw [if_pos hne]
      -- issued to another client, or for another redirect
      refine ⟨nofun, fun h => ?_⟩
      exact absurd hne (by simp [h.1, h.2.1])
    · rw [if_neg hne]
      simp only [ne_eq, not_or, not_not] at hne
      rcases hp : pkceOk rec.grant a.verifier with e | _ | _
      · exact ⟨nofun, fun h => by cases h.2.2.1⟩
      · exact ⟨nofun, fun h => by cases h.2.2.1⟩
      · simp [bind, Except.bind, pure, Except.pure, hne.1.symm, hne.2.symm, eq_comm]

/-- An exchange that returns a token has popped the record that the token stands for. -/
theorem exchangeCode_returns {cfg : Config} {a : ExchangeArgs} {es : List (Event Ise)}
    {t : BaseToken} {err : Option String}
    (h : Prog.Path (exchangeCode cfg a).run es (.ret (.ok (some t, err)))) :
    ∃ rec : Code, es = [⟨Op.popCode a.code, some rec⟩] ∧ t = baseToken cfg rec.grant := by
  by_cases hc : clientOk cfg a.clientId a.clientSecret = .ok true
  · rw [exchangeCode_accepted hc, Prog.path_call_ret_iff] at h
    obtain ⟨x, es', rfl, hx⟩ := h
    obtain ⟨rfl, hdecided⟩ := (Prog.path_ret_iff _ _ _).mp hx
    obtain ⟨rec, rfl, _, _, _, ht, _⟩ := redeem_token_iff.mp (Prog.ret.inj hdecided).symm
    exact ⟨rec, rfl, ht⟩
  · obtain ⟨res, hres, hno⟩ := exchangeCode_refused hc
    rw [hres, Prog.path_ret_iff] at h
    exact absurd (Prog.ret.inj h.2).symm (hno t err)

end OAuthServer

end IseMcp
