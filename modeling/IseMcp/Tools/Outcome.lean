import IseMcp.Tools.Requests

set_option autoImplicit false

/-! # What a finished run of a tool has done

A run of a tool that has returned looked up its caller, let the inner function do its work, and
recorded the outcome once (`run_returns`). The envelope is read off the outcome (`answer`), and so
are the records (`records`).
-/

namespace IseMcp

open Python Interaction

/-- The envelope for an outcome of the inner function, which builds its own when it returns. -/
def answer : Except PyExc PyVal → PyVal
  | .ok v => v
  | .error e => error e

/-- The audit record of a run, if the audit is switched on. -/
def auditEvents (cfg : Config) (actor : String) (t : Tool) (status : String)
    (detail : Option String) : List (Event Ise) :=
  if cfg.auditLogEnabled then
    [⟨.audit ⟨actor, t.name, redact (.dict t.params), status, detail⟩, ()⟩]
  else []

/-- The records of a run with this outcome. -/
def records (cfg : Config) (actor : String) (t : Tool) : Except PyExc PyVal → List (Event Ise)
  | .ok _ => auditEvents cfg actor t "ok" none
  | .error e =>
      auditEvents cfg actor t "error" (some e.type.name)
        ++ [⟨.log (.toolError t.name e.type.name), ()⟩]

theorem audit_returns {cfg : Config} {actor : String} {t : Tool} {status : String}
    {detail : Option String} {es : List (Event Ise)} {u : Unit}
    (hp : Prog.Path (audit cfg actor t status detail) es (.ret u)) :
    es = auditEvents cfg actor t status detail := by
  unfold audit at hp
  unfold auditEvents
  split_ifs at hp ⊢
  · obtain ⟨x, es', rfl, hp'⟩ := (Prog.path_call_ret_iff (S := Ise) _ _ _ _).mp hp
    obtain ⟨rfl, _⟩ := (Prog.path_ret_iff _ _ _).mp hp'
    rfl
  · exact ((Prog.path_ret_iff _ _ _).mp hp).1

theorem fail_returns {cfg : Config} {actor : String} {t : Tool} {e : PyExc}
    {es : List (Event Ise)} {env : PyVal}
    (hp : Prog.Path (fail cfg actor t e) es (.ret env)) :
    es = records cfg actor t (.error e) ∧ env = answer (.error e) := by
  obtain ⟨u, es₁, es₂, rfl, haudit, hrest⟩ := (Prog.path_bind_ret_iff _ _ _ _).mp hp
  obtain ⟨x, es', rfl, hret⟩ := (Prog.path_call_ret_iff (S := Ise) _ _ _ _).mp hrest
  obtain ⟨rfl, henv⟩ := (Prog.path_ret_iff _ _ _).mp hret
  cases henv
  rw [audit_returns haudit]
  exact ⟨rfl, rfl⟩

theorem perform_returns {cfg : Config} {t : Tool} {auth : AuthContext} {es : List (Event Ise)}
    {env : PyVal} (hp : Prog.Path (perform cfg t auth) es (.ret env)) :
    ∃ es₁ r, Prog.Path (t.fn auth).run es₁ (.ret r) ∧
      es = es₁ ++ records cfg auth.username t r ∧ env = answer r := by
  obtain ⟨r, es₁, es₂, rfl, hfn, hrest⟩ := (Prog.path_bind_ret_iff _ _ _ _).mp hp
  refine ⟨es₁, r, hfn, ?_⟩
  cases r with
  | error e =>
      obtain ⟨rfl, henv⟩ := fail_returns hrest
      exact ⟨rfl, henv⟩
  | ok v =>
      obtain ⟨u, es₃, es₄, rfl, haudit, hret⟩ := (Prog.path_bind_ret_iff _ _ _ _).mp hrest
      obtain ⟨rfl, henv⟩ := (Prog.path_ret_iff _ _ _).mp hret
      cases henv
      rw [audit_returns haudit, List.append_nil]
      exact ⟨rfl, rfl⟩

/-- **A finished run** failed before its caller was known, or it did the inner function's work as
its caller; either way the outcome was recorded, and the envelope is the outcome's. -/
theorem run_returns {deps : Deps} {headers : Option RawHeaders} {t : Tool} {es : List (Event Ise)}
    {env : PyVal} (hp : Prog.Path (run deps headers t) es (.ret env)) :
    (∃ es₁ e, (∀ ev ∈ es₁, ∃ sid, ev.1 = Op.getSession sid) ∧
      es = es₁ ++ records deps.cfg "unknown" t (.error e) ∧ env = answer (.error e)) ∨
    ∃ auth es₁ es₂ r, gates deps.cfg t = .ok () ∧
      Prog.Path (deps.resolveAuth headers).run es₁ (.ret (.ok auth)) ∧
      Prog.Path (t.fn auth).run es₂ (.ret r) ∧
      es = es₁ ++ (es₂ ++ records deps.cfg auth.username t r) ∧ env = answer r := by
  cases hg : gates deps.cfg t with
  | error e =>
      rw [run_refused hg] at hp
      obtain ⟨rfl, henv⟩ := fail_returns hp
      exact Or.inl ⟨[], e, by simp, rfl, henv⟩
  | ok u =>
      rw [run_admitted hg] at hp
      obtain ⟨r, es₁, es₂, rfl, hres, hrest⟩ := (Prog.path_bind_ret_iff _ _ _ _).mp hp
      cases r with
      | error e =>
          obtain ⟨rfl, henv⟩ := fail_returns hrest
          refine Or.inl ⟨es₁, e, fun ev hev => ?_, rfl, henv⟩
          exact (resolveAuth_only deps headers).event hres hev
      | ok auth =>
          obtain ⟨es₃, r, hfn, rfl, henv⟩ := perform_returns hrest
          exact Or.inr ⟨auth, es₁, es₃, r, rfl, hres, hfn, rfl, henv⟩

end IseMcp
