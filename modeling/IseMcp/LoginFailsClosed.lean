import IseMcp.Auth.Providers

set_option autoImplicit false

/-! # Which logins succeed

A passthrough login is meant to fail closed: a session only if all four probes of
`validate_credentials` were answered with a 2xx status (`FailsClosed`). The loop rejects a 401
and raises on every other status from 400 on, so a status below 200 or a redirect passes. The
login fails closed exactly if no such answer takes part in four that pass (`login_failsClosed_iff`).
-/

namespace IseMcp

open Python Interaction

/-- Whether the exchange ended with a response whose status satisfies `p`. -/
def HttpOutcome.Answered (p : Nat → Prop) : HttpOutcome → Prop
  | .response r => p r.status
  | _ => False

def Is2xx (status : Nat) : Prop := 200 ≤ status ∧ status < 300

/-- The next four outcomes are responses with a status satisfying `p`. -/
def AllProbes (p : Nat → Prop) (env : Env) (w : World) : Prop :=
  ∀ i < 4, (env.outcome (w.steps + i)).Answered p

/-- A login with the server's validator, run from `w`. -/
def runLogin (cfg : Config) (env : Env) (w : World) (username password : String) :
    Except PyExc Session × World :=
  Prog.exec (serve env)
    (PassthroughProvider.login (IseClient.validateCredentials cfg) username password).run w

/-- A session exactly for non-empty credentials that all four probes confirmed with 2xx, and
otherwise an `AuthError` and an untouched store. -/
def FailsClosed (cfg : Config) (env : Env) (w : World) (username password : String) : Prop :=
  let good := username ≠ "" ∧ password ≠ "" ∧ AllProbes Is2xx env w
  let out := runLogin cfg env w username password
  (good → ∃ s, out.1 = .ok s ∧ s.username = username ∧
    out.2.store.lookup s.sessionId = some s) ∧
  (¬ good → (∃ e, out.1 = .error e ∧ e.type = .authError) ∧ out.2.store = w.store)

/-! ## The loop of probes -/

/-- The credentials pass exactly if every probe is answered with a status below 400. -/
theorem exec_probeLoop_iff (env : Env) (h : HttpRequest) (left : Nat) (w : World) :
    (Prog.exec (serve env) (IseClient.probeLoop h left).run w).1 = .ok true ↔
      ∀ i < left, (env.outcome (w.steps + i)).Answered (· < 400) := by
  induction left generalizing w with
  | zero => simp [IseClient.probeLoop]
  | succ left ih =>
      rw [IseClient.probeLoop, run_probe_bind, Prog.exec_call, Nat.forall_lt_succ_left]
      -- after the first probe, the outcomes that count start one step later
      have hshift : ∀ i, env.outcome (w.steps + (i + 1)) = env.outcome (w.steps + 1 + i) :=
        fun i => congrArg _ (by omega)
      simp only [Nat.add_zero, hshift]
      have ih' := ih { w with steps := w.steps + 1 }
      simp only [serve]
      cases ho : env.outcome w.steps with
      | transportError message => simp [HttpOutcome.Answered]
      | raised e => simp [HttpOutcome.Answered]
      | response r =>
          simp only [HttpOutcome.Answered]
          split_ifs with h401 h400
          · simp [h401]
          · simp [h400]
          · rw [and_iff_right (Nat.lt_of_not_le h400)]
            exact ih'

/-- The validator does not touch the session store. -/
theorem exec_validateCredentials_store (cfg : Config) (env : Env) (w : World)
    (username password : String) :
    (Prog.exec (serve env) (IseClient.validateCredentials cfg username password).run w).2.store
      = w.store := by
  refine (IseClient.validateCredentials_only cfg username password).exec
    (I := fun w' : World => w'.store = w.store) (fun w' o ho hw' => ?_) rfl
  subst ho
  exact hw'

/-! ## The login -/

/-- A login is refused with an `AuthError` and without a trace, or it creates a session for the
user, and the validator said yes. -/
theorem runLogin_cases (cfg : Config) (env : Env) (w : World) {username password : String}
    (hu : username ≠ "") (hp : password ≠ "") :
    (AllProbes (· < 400) env w ∧ ∃ s, (runLogin cfg env w username password).1 = .ok s ∧
      s.username = username ∧
      (runLogin cfg env w username password).2.store.lookup s.sessionId = some s) ∨
    (¬ AllProbes (· < 400) env w ∧
      (∃ e, (runLogin cfg env w username password).1 = .error e ∧ e.type = .authError) ∧
      (runLogin cfg env w username password).2.store = w.store) := by
  have hiff := exec_probeLoop_iff env (IseClient.probeRequest cfg username password) 4 w
  have hstore := exec_validateCredentials_store cfg env w username password
  unfold runLogin
  rw [PassthroughProvider.login_nonempty hu hp, Prog.exec_bind]
  simp only [IseClient.validateCredentials, hu, hp, or_self, if_false] at hstore ⊢
  generalize Prog.exec (serve env)
    (IseClient.probeLoop (IseClient.probeRequest cfg username password) 4).run w = r at hiff hstore ⊢
  obtain ⟨verdict, w'⟩ := r
  -- only the verdict `True` opens a session
  rcases verdict with e | _ | _
  · exact Or.inr ⟨fun h => (by cases hiff.mpr h), ⟨_, rfl, rfl⟩, hstore⟩
  · exact Or.inr ⟨fun h => (by cases hiff.mpr h), ⟨_, rfl, rfl⟩, hstore⟩
  · refine Or.inl ⟨hiff.mp rfl, _, rfl, rfl, ?_⟩
    exact SessionStore.lookup_create_self _ _ _ _ _

theorem AllProbes.mono {p q : Nat → Prop} {env : Env} {w : World} (h : AllProbes p env w)
    (hpq : ∀ n, p n → q n) : AllProbes q env w := by
  intro i hi
  have := h i hi
  cases ho : env.outcome (w.steps + i) with
  | response r =>
      rw [ho] at this
      exact hpq _ this
  | _ => rwa [ho] at this

/-- **When a login fails closed**: unless all four probes pass with a status below 400, one of
them not 2xx. -/
theorem login_failsClosed_iff (cfg : Config) (env : Env) (w : World) (username password : String) :
    FailsClosed cfg env w username password ↔
      ¬ (username ≠ "" ∧ password ≠ "" ∧ AllProbes (· < 400) env w ∧ ¬ AllProbes Is2xx env w) := by
  by_cases hempty : username = "" ∨ password = ""
  -- without a user name or a password no probe is sent
  · have hbad : ¬ (username ≠ "" ∧ password ≠ "" ∧ AllProbes Is2xx env w) := by
      rintro ⟨hu, hp, _⟩
      exact hempty.elim hu hp
    have hrun : runLogin cfg env w username password
        = (.error (exc .authError "username and password are required"), w) := by
      rw [runLogin, PassthroughProvider.login_empty hempty]
      rfl
    refine iff_of_true ⟨fun h => absurd h hbad, fun _ => ?_⟩ fun h => hempty.elim h.1 h.2.1
    rw [hrun]
    exact ⟨⟨_, rfl, rfl⟩, rfl⟩
  · obtain ⟨hu, hp⟩ := not_or.mp hempty
    rcases runLogin_cases cfg env w hu hp with ⟨hpass, hok⟩ | ⟨hfail, herr⟩
    · by_cases h2xx : AllProbes Is2xx env w
      · exact iff_of_true ⟨fun _ => hok, fun h => absurd ⟨hu, hp, h2xx⟩ h⟩ fun h => h.2.2.2 h2xx
      -- a session although some probe was not answered with 2xx
      · refine iff_of_false (fun h => ?_) fun h => h ⟨hu, hp, hpass, h2xx⟩
        obtain ⟨⟨e, he, _⟩, _⟩ := h.2 fun h => h2xx h.2.2
        obtain ⟨s, hs, _⟩ := hok
        rw [hs] at he
        cases he
    · have h2xx : ¬ AllProbes Is2xx env w := fun h =>
        hfail (h.mono fun n hn => lt_trans hn.2 (by decide))
      exact iff_of_true ⟨fun h => absurd h.2.2 h2xx, fun _ => herr⟩ fun h => hfail h.2.2.1

/-- A password that every probe answers with a redirect is accepted. -/
theorem login_accepts_redirects :
    ¬ FailsClosed { Config.default with iseBaseUrl := "https://ise" } (.always 302)
      (.initial 3600 900) "alice" "wrong" := by
  rintro ⟨_, h⟩
  obtain ⟨⟨e, he, _⟩, _⟩ := h (by
    rintro ⟨_, _, h2xx⟩
    exact absurd (h2xx 0 (by decide)).2 (by decide))
  cases he

end IseMcp
