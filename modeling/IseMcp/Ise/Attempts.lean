import IseMcp.Ise.Client

set_option autoImplicit false

/-! # The attempts of a request

`IseClient.request` sends the same HTTP request again and again until an outcome ends its loop.
What a path of the loop has sent and what it returns is determined by the list of outcomes: all
but the last were of the kind that is retried, there are at most `maxRetries` of these, and the
result is read off the last one (`requestLoop_returns`).
-/

namespace IseMcp

open Python Interaction

/-- The outcomes of the HTTP requests sent on a path, in order. -/
def attempts : List (Event Ise) → List HttpOutcome
  | [] => []
  | ⟨.send _, outcome⟩ :: es => outcome :: attempts es
  | _ :: es => attempts es

@[simp] theorem attempts_nil : attempts [] = [] := rfl

theorem attempts_cons_of_ne {e : Event Ise} (h : ∀ r, e.1 ≠ .send r) (es : List (Event Ise)) :
    attempts (e :: es) = attempts es := by
  obtain ⟨o, x⟩ := e
  cases o with
  | send r => exact absurd rfl (h r)
  | _ => rfl

theorem attempts_append (es es' : List (Event Ise)) :
    attempts (es ++ es') = attempts es ++ attempts es' := by
  induction es with
  | nil => rfl
  | cons e es ih =>
      by_cases h : ∃ r, e.1 = .send r
      · obtain ⟨o, x⟩ := e
        obtain ⟨r, rfl⟩ := h
        show x :: attempts (es ++ es') = x :: attempts es ++ attempts es'
        rw [ih, List.cons_append]
      · have hne : ∀ r, e.1 ≠ .send r := fun r hr => h ⟨r, hr⟩
        rw [List.cons_append, attempts_cons_of_ne hne, attempts_cons_of_ne hne, ih]

/-- A path without sends has made no attempt. -/
theorem attempts_eq_nil {es : List (Event Ise)} (h : ∀ e ∈ es, ∀ r, e.1 ≠ .send r) :
    attempts es = [] := by
  induction es with
  | nil => rfl
  | cons e es ih =>
      rw [attempts_cons_of_ne (h e (by simp))]
      exact ih fun e' he' => h e' (by simp [he'])

namespace IseClient

/-- Whether the loop goes on after this outcome, while it has retries left. -/
def retried (cfg : Config) : HttpOutcome → Bool
  | .transportError _ => true
  | .raised _ => false
  | .response r => if r.status = 429 then cfg.rateLimitWait else decide (r.status ∈ transient)

/-- What `request` makes of the outcome that ends its loop. -/
def settle (parse : Parse) : HttpOutcome → Except PyExc PyVal
  | .raised e => .error e
  | .transportError message => .error (exc .iseApiError ("ISE transport error: " ++ message))
  | .response r =>
      if r.status = 429 then .error ⟨.rateLimitError, "ISE rate limit exceeded", none, some 429⟩
      else handleResponse r parse

/-! ## One round -/

theorem run_send_bind {α : Type} (h : HttpRequest) (f : HttpOutcome → Io α) :
    (send h >>= f).run = .call (S := Ise) (.send h) fun (x : HttpOutcome) => (f x).run := rfl

theorem run_log_bind {α : Type} (rec : LogRecord) (f : Unit → Io α) :
    (log rec >>= f).run = .call (S := Ise) (.log rec) fun (_ : Unit) => (f ()).run := rfl

/-- The wait before the next round sends nothing. -/
theorem backoff_returns {attempt : Nat} {retryAfter : Option String} {next : Io PyVal}
    {es : List (Event Ise)} {r : Except PyExc PyVal}
    (hp : Prog.Path (do backoff attempt retryAfter; next : Io PyVal).run es (.ret r)) :
    ∃ es', attempts es = attempts es' ∧ Prog.Path next.run es' (.ret r) := by
  obtain ⟨x, es', rfl, hnext⟩ := (Prog.path_call_ret_iff (S := Ise) _ _ _ _).mp hp
  exact ⟨es', rfl, hnext⟩

variable {cfg : Config} {h : HttpRequest} {parse : Parse}

/-- A round that goes on if `b` says so and another round is there, and ends with `r'` if not. -/
theorem goOn_returns {p : Io PyVal} {b : Bool} {again : Option (Io PyVal)}
    {r r' : Except PyExc PyVal} {es : List (Event Ise)}
    (hgo : ∀ next, again = some next → b = true → ∃ a ra, p = do backoff a ra; next)
    (hstop : again = none ∨ b = false → p.run = .ret r') (hp : Prog.Path p.run es (.ret r)) :
    (∃ next es', again = some next ∧ b = true ∧ attempts es = attempts es' ∧
      Prog.Path next.run es' (.ret r)) ∨
    attempts es = [] ∧ (again = none ∨ b = false) ∧ r = r' := by
  by_cases h : again = none ∨ b = false
  · rw [hstop h] at hp
    obtain ⟨rfl, hr⟩ := (Prog.path_ret_iff _ _ _).mp hp
    cases hr
    exact Or.inr ⟨rfl, h, rfl⟩
  · rw [not_or, Bool.not_eq_false] at h
    obtain ⟨next, hnext⟩ := Option.ne_none_iff_exists'.mp h.1
    obtain ⟨a, ra, rfl⟩ := hgo next hnext h.2
    obtain ⟨es', hes, hp'⟩ := backoff_returns hp
    exact Or.inl ⟨next, es', hnext, h.2, hes, hp'⟩

/-- One round sends once; it hands over to the next round after a retried outcome, and settles
any other. -/
theorem requestOnce_returns {attempt : Nat} {again : Option (Io PyVal)} {es : List (Event Ise)}
    {r : Except PyExc PyVal}
    (hp : Prog.Path (requestOnce cfg h parse attempt again).run es (.ret r)) :
    (∃ o next es', again = some next ∧ retried cfg o = true ∧
      attempts es = o :: attempts es' ∧ Prog.Path next.run es' (.ret r)) ∨
    ∃ o, attempts es = [o] ∧ (again = none ∨ retried cfg o = false) ∧ r = settle parse o := by
  rw [requestOnce, run_send_bind] at hp
  obtain ⟨o, es₁, rfl, hrest⟩ := (Prog.path_call_ret_iff (S := Ise) _ _ _ _).mp hp
  have hcons : attempts (⟨Op.send h, o⟩ :: es₁) = o :: attempts es₁ := rfl
  rw [hcons]
  cases o with
  | raised e =>
      obtain ⟨rfl, hr⟩ := (Prog.path_ret_iff _ _ _).mp hrest
      cases hr
      exact Or.inr ⟨_, rfl, Or.inr rfl, rfl⟩
  | transportError message =>
      cases again with
      | none =>
          obtain ⟨rfl, hr⟩ := (Prog.path_ret_iff _ _ _).mp hrest
          cases hr
          exact Or.inr ⟨_, rfl, Or.inl rfl, rfl⟩
      | some next =>
          obtain ⟨es', hes, hnext⟩ := backoff_returns hrest
          exact Or.inl ⟨_, next, es', rfl, rfl, by rw [hes], hnext⟩
  | response resp =>
      dsimp only at hrest
      rw [run_log_bind] at hrest
      obtain ⟨x, es₂, rfl, hrest'⟩ := (Prog.path_call_ret_iff (S := Ise) _ _ _ _).mp hrest
      have hlog : attempts (⟨Op.log (.iseRequest h.method h.url resp.status), x⟩ :: es₂)
          = attempts es₂ := rfl
      rw [hlog]
      have hround : (∃ next es', again = some next ∧ retried cfg (.response resp) = true ∧
          attempts es₂ = attempts es' ∧ Prog.Path next.run es' (.ret r)) ∨
          attempts es₂ = [] ∧ (again = none ∨ retried cfg (.response resp) = false) ∧
            r = settle parse (.response resp) := by
        by_cases hlimit : resp.status = 429
        · simp only [retried, settle, if_pos hlimit]
          refine goOn_returns (fun next hnext hw => ⟨attempt, resp.retryAfter, ?_⟩) ?_ hrest'
          · rw [if_pos hlimit, hnext, hw]
          · rintro (hnone | hw) <;> rw [if_pos hlimit]
            · rw [hnone]
              cases cfg.rateLimitWait <;> rfl
            · rw [hw]
              rfl
        · simp only [retried, settle, if_neg hlimit]
          refine goOn_returns (fun next hnext ht => ⟨attempt, none, ?_⟩) ?_ hrest'
          · rw [if_neg hlimit, hnext, ht]
          · rintro (hnone | ht) <;> rw [if_neg hlimit]
            · rw [hnone]
              cases decide (resp.status ∈ transient) <;> rfl
            · rw [ht]
              rfl
      rcases hround with ⟨next, es', hnext, hretried, hes, hp'⟩ | ⟨hes, hlast⟩
      · exact Or.inl ⟨_, next, es', hnext, hretried, by rw [hes], hp'⟩
      · exact Or.inr ⟨_, by rw [hes], hlast⟩

/-! ## All rounds -/

/-- **The outcomes decide what the loop returns**: it went on after all but the last, which it
settled because it is not retried or no retry was left. -/
theorem requestLoop_returns {left : Nat} {es : List (Event Ise)} {r : Except PyExc PyVal}
    (hp : Prog.Path (requestLoop cfg h parse left).run es (.ret r)) :
    ∃ earlier last, attempts es = earlier ++ [last] ∧ earlier.length ≤ left ∧
      (∀ o ∈ earlier, retried cfg o = true) ∧
      (retried cfg last = true → earlier.length = left) ∧ r = settle parse last := by
  induction left generalizing es with
  | zero =>
      rcases requestOnce_returns hp with ⟨_, _, _, hnone, _⟩ | ⟨o, hes, _, hr⟩
      · cases hnone
      · exact ⟨[], o, hes, le_rfl, by simp, fun _ => rfl, hr⟩
  | succ left ih =>
      rcases requestOnce_returns hp with ⟨o, next, es', hnext, ho, hes, hp'⟩ | ⟨o, hes, hlast, hr⟩
      · cases hnext
        obtain ⟨earlier, last, hes', hlen, hall, hout, hr⟩ := ih hp'
        refine ⟨o :: earlier, last, by rw [hes, hes']; rfl, by simpa using hlen, ?_, ?_, hr⟩
        · simpa [ho] using hall
        · intro hretried
          rw [List.length_cons, hout hretried]
      · have ho := hlast.resolve_left (by simp)
        exact ⟨[], o, hes, Nat.zero_le _, by simp, by simp [ho], hr⟩

/-- The same for a call of `request` with usable credentials. -/
theorem request_settles {req : IseRequest} {auth : String × String} {es : List (Event Ise)}
    {r : Except PyExc PyVal} (hauth : req.auth.basicAuth = .ok auth)
    (hp : Prog.Path (request cfg req).run es (.ret r)) :
    ∃ earlier last, attempts es = earlier ++ [last] ∧ earlier.length ≤ maxRetries ∧
      (∀ o ∈ earlier, retried cfg o = true) ∧
      (retried cfg last = true → earlier.length = maxRetries) ∧ r = settle req.parse last := by
  rw [run_request, hauth] at hp
  obtain ⟨x, es₁, rfl, hrest⟩ := (Prog.path_call_ret_iff (S := Ise) _ _ _ _).mp hp
  have hinvoke : attempts (⟨Op.invoke req, x⟩ :: es₁) = attempts es₁ := rfl
  rw [hinvoke]
  exact requestLoop_returns hrest

/-- Without usable credentials nothing is sent. -/
theorem request_refused {req : IseRequest} {e : PyExc} {es : List (Event Ise)}
    {r : Except PyExc PyVal} (hauth : req.auth.basicAuth = .error e)
    (hp : Prog.Path (request cfg req).run es (.ret r)) : attempts es = [] ∧ r = .error e := by
  rw [run_request, hauth] at hp
  obtain ⟨x, es₁, rfl, hrest⟩ := (Prog.path_call_ret_iff (S := Ise) _ _ _ _).mp hp
  obtain ⟨rfl, hr⟩ := (Prog.path_ret_iff _ _ _).mp hrest
  cases hr
  exact ⟨rfl, rfl⟩

/-- Every call of `request`. -/
theorem request_returns {req : IseRequest} {es : List (Event Ise)} {r : Except PyExc PyVal}
    (hp : Prog.Path (request cfg req).run es (.ret r)) :
    (attempts es = [] ∧ ∃ e, r = .error e) ∨
    ∃ earlier last, attempts es = earlier ++ [last] ∧ earlier.length ≤ maxRetries ∧
      (∀ o ∈ earlier, retried cfg o = true) ∧
      (retried cfg last = true → earlier.length = maxRetries) ∧ r = settle req.parse last := by
  cases hauth : req.auth.basicAuth with
  | error e =>
      obtain ⟨hes, hr⟩ := request_refused hauth hp
      exact Or.inl ⟨hes, e, hr⟩
  | ok auth => exact Or.inr (request_settles hauth hp)

end IseClient

end IseMcp
