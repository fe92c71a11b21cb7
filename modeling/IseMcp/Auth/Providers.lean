import IseMcp.Ise.Client

set_option autoImplicit false

/-! # Authentication providers

`auth/passthrough.py` and `auth/service_account.py`. -/

namespace IseMcp

open Python Interaction

/-- What `PassthroughProvider` is given to check a user name and a password. -/
abbrev Validator : Type := String → String → Io Bool

namespace PassthroughProvider

/-- The credentials a login keeps. -/
def authContext (username password : String) : AuthContext := ⟨username, "passthrough", password, ""⟩

/-- The end of `login`, given what came of the validator: only a `True` gets a session. -/
def conclude (username password : String) : Except PyExc Bool → Io Session
  | .error _ => throw (exc .authError "ISE credential validation failed")
  | .ok false => throw (exc .authError "Invalid ISE credentials")
  | .ok true => createSession username (authContext username password)

def login (validate : Validator) (username password : String) : Io Session := do
  if username = "" ∨ password = "" then
    throw (exc .authError "username and password are required")
  else
    conclude username password (← Coro.attempt (validate username password))

/-- It cannot fail, so its caller need not handle an exception. -/
def logout (sid : Option String) : Prog Ise Bool := Prog.op (S := Ise) (.deleteSession sid)

def sessionValid (sid : Option String) : Io Bool := do
  if truthy sid then return (← getSession sid).isSome else return false

def resolve (sid : Option String) : Io AuthContext := do
  match ← getSession sid with
  | none => throw (exc .sessionError "Missing or expired MCP session; call ise_login first")
  | some sess => return sess.auth

end PassthroughProvider

/-- `ServiceAccountProvider(cfg)` -/
def serviceAccount (cfg : Config) : Except PyExc AuthContext :=
  if cfg.iseEncodedAuth ≠ "" ∨ (cfg.iseUsername ≠ "" ∧ cfg.isePassword ≠ "") then
    .ok ⟨if cfg.iseUsername ≠ "" then cfg.iseUsername else "(encoded)", "service_account",
      cfg.isePassword, cfg.iseEncodedAuth⟩
  else
    .error (exc .authError
      "service_account mode needs ISE_USERNAME/ISE_PASSWORD or ISE_ENCODED_AUTH")

/-- The two providers, with what each is built from. -/
inductive Provider where
  | passthrough (validate : Validator)
  | serviceAccount (auth : AuthContext)

namespace Provider

def resolve : Provider → Option String → Io AuthContext
  | .passthrough _, sid => PassthroughProvider.resolve sid
  | .serviceAccount auth, _ => return auth

/-- `getattr(provider, "session_valid", None)`, called if it is there. -/
def sessionValid : Provider → Option String → Io Bool
  | .passthrough _, sid => PassthroughProvider.sessionValid sid
  | .serviceAccount _, _ => return false

end Provider

/-- The provider that `server.build` picks. -/
def buildProvider (cfg : Config) : Except PyExc Provider :=
  if cfg.authMode = "service_account" then (serviceAccount cfg).map .serviceAccount
  else .ok (.passthrough (IseClient.validateCredentials cfg))

/-! ## What each provider does -/

namespace PassthroughProvider

theorem run_resolve (sid : Option String) :
    (resolve sid).run = .call (S := Ise) (.getSession sid) fun
      | none => .ret (.error
          (exc .sessionError "Missing or expired MCP session; call ise_login first"))
      | some sess => .ret (.ok sess.auth) := by
  rw [resolve, run_getSession_bind]
  congr 1
  funext found
  cases found <;> rfl

theorem run_sessionValid {sid : Option String} (h : truthy sid = true) :
    (sessionValid sid).run
      = .call (S := Ise) (.getSession sid) fun (found : Option Session) => .ret (.ok found.isSome) := by
  rw [sessionValid, if_pos h]
  rfl

end PassthroughProvider

/-- A validator that only sends probes with the credentials it is asked about. -/
def Validator.Probes (validate : Validator) : Prop :=
  ∀ u p, Coro.Only (fun o => ∃ h, o = Op.probe h ∧ h.method = .get ∧ h.auth = (u, p)) (validate u p)

theorem probes_validateCredentials (cfg : Config) :
    Validator.Probes (IseClient.validateCredentials cfg) := by
  intro u p
  refine (IseClient.validateCredentials_only cfg u p).mono ?_
  rintro o rfl
  exact ⟨_, rfl, rfl, rfl⟩

/-- The validator of the server's own provider is `validate_credentials`. -/
theorem buildProvider_validator {cfg : Config} {validate : Validator}
    (h : buildProvider cfg = .ok (.passthrough validate)) :
    validate = IseClient.validateCredentials cfg := by
  unfold buildProvider at h
  split_ifs at h
  · cases hs : serviceAccount cfg <;> rw [hs] at h <;> cases h
  · cases h
    rfl

namespace PassthroughProvider

/-- A login without a user name or a password does nothing. -/
theorem login_empty {validate : Validator} {username password : String}
    (h : username = "" ∨ password = "") :
    (login validate username password).run
      = .ret (.error (exc .authError "username and password are required")) := by
  simp [login, h]

theorem login_nonempty {validate : Validator} {username password : String}
    (hu : username ≠ "") (hp : password ≠ "") :
    (login validate username password).run
      = (validate username password).run >>= fun r => (conclude username password r).run := by
  simp only [login, hu, hp, or_self, if_false]
  exact Coro.run_attempt_bind _ _

theorem conclude_calls {username password : String} {r : Except PyExc Bool}
    {es : List (Event Ise)} {o : Op} {k : o.Ans → Prog Ise (Except PyExc Session)}
    (h : Prog.Path (conclude username password r).run es (.call (S := Ise) o k)) :
    r = .ok true ∧ es = [] ∧ o = .createSession username (authContext username password) := by
  rcases r with e | _ | _
  · cases h
  · cases h
  · rcases (Coro.path_op_iff (S := Ise) _ _ _).mp h with ⟨rfl, hq⟩ | ⟨x, _, hq⟩
    · injection hq with ho hk
      exact ⟨rfl, rfl, ho⟩
    · cases hq

/-- Every path of a login that reaches `createSession` has a validator that said yes to exactly
these credentials, and nothing after it. -/
theorem login_calls {validate : Validator} {username password : String}
    {es : List (Event Ise)} {o : Op} {k : o.Ans → Prog Ise (Except PyExc Session)}
    (h : Prog.Path (login validate username password).run es (.call (S := Ise) o k)) :
    (∃ k', Prog.Path (validate username password).run es (.call (S := Ise) o k')) ∨
      o = .createSession username (authContext username password) ∧
        username ≠ "" ∧ password ≠ "" ∧
        Prog.Path (validate username password).run es (.ret (.ok true)) := by
  by_cases hempty : username = "" ∨ password = ""
  · rw [login_empty hempty] at h
    cases h
  · obtain ⟨hu, hp⟩ := not_or.mp hempty
    rw [login_nonempty hu hp] at h
    rcases Prog.path_bind_call h with h | ⟨r, es₁, es₂, rfl, hv, hc⟩
    · exact Or.inl h
    · obtain ⟨rfl, rfl, ho⟩ := conclude_calls hc
      exact Or.inr ⟨ho, hu, hp, by simpa using hv⟩

/-- A login has no session yet and has only validated, or it is over and created its session last,
after the validator said yes. -/
theorem login_path {validate : Validator} {username password : String} {es : List (Event Ise)}
    {q : Prog Ise (Except PyExc Session)}
    (h : Prog.Path (login validate username password).run es q) :
    ((es = [] ∨ ∃ q', Prog.Path (validate username password).run es q') ∧
      ∀ sess, q ≠ .ret (.ok sess)) ∨
    ∃ es₀ sess, es = es₀ ++ [⟨Op.createSession username (authContext username password), sess⟩] ∧
      q = .ret (.ok sess) ∧ username ≠ "" ∧ password ≠ "" ∧
      Prog.Path (validate username password).run es₀ (.ret (.ok true)) := by
  by_cases hempty : username = "" ∨ password = ""
  · rw [login_empty hempty] at h
    obtain ⟨rfl, rfl⟩ := (Prog.path_ret_iff _ _ _).mp h
    exact Or.inl ⟨Or.inl rfl, nofun⟩
  · obtain ⟨hu, hp⟩ := not_or.mp hempty
    rw [login_nonempty hu hp, Prog.path_bind_iff] at h
    rcases h with ⟨p', hv, rfl⟩ | ⟨r, es₁, es₂, rfl, hv, hc⟩
    · refine Or.inl ⟨Or.inr ⟨p', hv⟩, fun sess hsess => ?_⟩
      -- the conclusion of a verdict is not a session yet
      rcases p' with (e | _ | _) | ⟨o, k⟩ <;> cases hsess
    · rcases r with e | _ | _
      · obtain ⟨rfl, rfl⟩ := (Prog.path_ret_iff _ _ _).mp hc
        exact Or.inl ⟨Or.inr ⟨_, by simpa using hv⟩, nofun⟩
      · obtain ⟨rfl, rfl⟩ := (Prog.path_ret_iff _ _ _).mp hc
        exact Or.inl ⟨Or.inr ⟨_, by simpa using hv⟩, nofun⟩
      · rcases (Coro.path_op_iff (S := Ise) _ _ _).mp hc with ⟨rfl, rfl⟩ | ⟨sess, rfl, rfl⟩
        · exact Or.inl ⟨Or.inr ⟨_, by simpa using hv⟩, nofun⟩
        · exact Or.inr ⟨es₁, sess, rfl, rfl, hu, hp, hv⟩

/-- A login that returns a session ended with its creation, after the validator said yes. -/
theorem login_returns {validate : Validator} {username password : String}
    {es : List (Event Ise)} {sess : Session}
    (h : Prog.Path (login validate username password).run es (.ret (.ok sess))) :
    ∃ es₀, es = es₀ ++ [⟨Op.createSession username (authContext username password), sess⟩] ∧
      Prog.Path (validate username password).run es₀ (.ret (.ok true)) := by
  rcases login_path h with ⟨_, hno⟩ | ⟨es₀, sess', rfl, hq, _, _, hv⟩
  · exact absurd rfl (hno sess)
  · cases hq
    exact ⟨es₀, rfl, hv⟩

theorem login_only {P : Op → Prop} {validate : Validator} {username password : String}
    (hv : Coro.Only P (validate username password))
    (hc : P (.createSession username (authContext username password))) :
    Coro.Only P (login validate username password) := by
  unfold login
  split_ifs
  · exact Coro.only_throw _
  · refine Coro.only_bind (Coro.only_attempt hv) fun r => ?_
    rcases r with e | _ | _
    · exact Coro.only_throw _
    · exact Coro.only_throw _
    · exact Coro.only_op hc

end PassthroughProvider

end IseMcp
