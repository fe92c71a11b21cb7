import IseMcp.Tools.Writes

set_option autoImplicit false

/-! # Reported success

A write should be reported as done exactly if ISE said so with a 2xx status. `_handle` raises on
every status from 400 on and reads the body of any other response, so a redirect, which the client
does not follow, is reported as success as well (`success_reported_iff`).
-/

namespace IseMcp

open Python Interaction

/-- The status is in 200..299. -/
def HttpResponse.isSuccess (r : HttpResponse) : Bool := decide (200 ≤ r.status ∧ r.status < 300)

/-- The outcome that ended the loop of the request is a success response. -/
def succeeded (es : List (Event Ise)) : Bool :=
  match (attempts es).getLast? with
  | some (.response r) => r.isSuccess
  | _ => false

/-- Reading the body raises nothing; that it is not JSON is no error. -/
def HttpResponse.Readable (r : HttpResponse) (parse : Parse) : Prop :=
  parse = .text ∨ r.hasContent = false ∨ ∀ e, r.json = .error e → e.type = .valueError

/-- If the last attempt was answered below 400, it was with a 2xx, and then only if its body can
be read. -/
def ReadsSuccesses (parse : Parse) (es : List (Event Ise)) : Prop :=
  ∀ r, (attempts es).getLast? = some (.response r) → r.status < 400 →
    (r.Readable parse ↔ r.isSuccess = true)

namespace IseClient

/-- `_handle` returns on every response below 400 with a readable body. -/
theorem handleResponse_ok_iff {r : HttpResponse} {parse : Parse} :
    (∃ v, handleResponse r parse = .ok v) ↔ r.status < 400 ∧ r.Readable parse := by
  unfold handleResponse
  by_cases h : r.status < 400
  · rw [if_neg (by omega), if_neg (by omega), if_neg (by omega), if_neg (by omega),
      and_iff_right h, HttpResponse.Readable]
    cases parse with
    | text => simp
    | json =>
        simp only [reduceCtorEq, false_or]
        by_cases hc : r.hasContent = false
        · simp [hc]
        · rw [if_neg hc, or_iff_right hc]
          cases hj : r.json with
          | ok v => simp
          | error e => by_cases he : e.type = .valueError <;> simp [he]
  · -- the ladder has a branch for every status from 400 on
    rw [iff_false_intro (fun hr : r.status < 400 ∧ r.Readable parse => h hr.1), iff_false]
    split_ifs
    all_goals
      rintro ⟨v, hv⟩
      first
        | cases hv
        | omega

theorem settle_ok_iff {o : HttpOutcome} {parse : Parse} :
    (∃ v, settle parse o = .ok v) ↔ ∃ r, o = .response r ∧ r.status < 400 ∧ r.Readable parse := by
  cases o with
  | transportError message => simp [settle]
  | raised e => simp [settle]
  | response r =>
      simp only [settle, HttpOutcome.response.injEq, exists_eq_left']
      split_ifs with h429
      · simp [h429]
      · exact handleResponse_ok_iff

/-- **When `request` returns exactly on success.** -/
theorem settle_matches_iff {earlier : List HttpOutcome} {last : HttpOutcome} {parse : Parse}
    {es : List (Event Ise)} (hes : attempts es = earlier ++ [last]) :
    ((∃ v, settle parse last = .ok v) ↔ succeeded es = true) ↔ ReadsSuccesses parse es := by
  rw [settle_ok_iff, succeeded, ReadsSuccesses, hes, List.getLast?_concat]
  cases last with
  | transportError message => simp
  | raised e => simp
  | response r =>
      simp only [Option.some.injEq, HttpOutcome.response.injEq, forall_eq', exists_eq_left']
      by_cases h : r.status < 400
      · simp [h]
      · have hno : r.isSuccess = false := by
          simp only [HttpResponse.isSuccess, decide_eq_false_iff_not]
          omega
        simp [h, hno]

end IseClient

/-- A request without an attempt did not succeed. -/
theorem succeeded_of_no_attempt {es : List (Event Ise)} (h : attempts es = []) :
    succeeded es = false := by
  rw [succeeded, h]
  rfl

theorem readsSuccesses_of_no_attempt {parse : Parse} {es : List (Event Ise)}
    (h : attempts es = []) : ReadsSuccesses parse es := by
  intro r hr
  rw [h] at hr
  cases hr

theorem request_success_iff {cfg : Config} {req : IseRequest} {es : List (Event Ise)}
    {out : Except PyExc PyVal} (hp : Prog.Path (IseClient.request cfg req).run es (.ret out)) :
    ((∃ v, out = .ok v) ↔ succeeded es = true) ↔ ReadsSuccesses req.parse es := by
  rcases IseClient.request_returns hp with ⟨hnone, e, rfl⟩ | ⟨earlier, last, hes, _, _, _, rfl⟩
  · simp [succeeded_of_no_attempt hnone, readsSuccesses_of_no_attempt hnone]
  · exact IseClient.settle_matches_iff hes

/-- The envelope of a write says `ok` as its request returned or not. -/
theorem field_answer_ok (r : Except PyExc PyVal) (b : Bool) :
    field (answer (r.map okData)) "ok" = some (.bool b) ↔ ((∃ v, r = .ok v) ↔ b = true) := by
  cases r with
  | ok v =>
      have hok : field (answer ((Except.ok v : Except PyExc PyVal).map okData)) "ok"
          = some (.bool true) := rfl
      rw [hok]
      cases b <;> simp
  | error e =>
      have hok : field (answer ((Except.error e : Except PyExc PyVal).map okData)) "ok"
          = some (.bool false) := field_ok_error e
      rw [hok]
      cases b <;> simp

/-- **When success is reported exactly for success**: `request` returns normally, and a write tool
answers `ok`, exactly on a 2xx, unless the last attempt was answered with another status below 400
or with a body that cannot be read. -/
theorem success_reported_iff (deps : Deps) :
    (∀ (req : IseRequest) (es : List (Event Ise)) (out : Except PyExc PyVal),
      Prog.Path (IseClient.request deps.cfg req).run es (.ret out) →
      (((∃ v, out = .ok v) ↔ succeeded es = true) ↔ ReadsSuccesses req.parse es)) ∧
    ∀ (headers : Option RawHeaders) (call : ToolCall) (es : List (Event Ise)) (env : PyVal),
      call.name ∈ writeTools → Prog.Path (call.invoke deps headers) es (.ret env) →
      (field env "ok" = some (.bool (succeeded es)) ↔ ReadsSuccesses .json es) := by
  refine ⟨fun req es out hp => request_success_iff hp, fun headers call es env hw hp => ?_⟩
  rcases write_returns hw hp with ⟨hnone, e, rfl⟩ | ⟨earlier, last, hes, _, _, _, rfl⟩
  · rw [succeeded_of_no_attempt hnone, field_ok_error]
    simp [readsSuccesses_of_no_attempt hnone]
  · rw [field_answer_ok]
    exact IseClient.settle_matches_iff hes

/-- An endpoint is created, and ISE answers 201. -/
theorem success_reported_created :
    ∃ es env, Prog.Path ((ToolCall.iseCreateEndpoint "aabbccddeeff" none "").invoke writerDeps none)
      es (.ret env) ∧ field env "ok" = some (.bool (succeeded es)) := by
  have hpath := Prog.path_exec (serve (.always 201))
    ((ToolCall.iseCreateEndpoint "aabbccddeeff" none "").invoke writerDeps none)
    (.initial 3600 900)
  refine ⟨_, _, hpath, ((success_reported_iff writerDeps).2 none _ _ _ (by decide) hpath).mpr ?_⟩
  have hlast : (attempts (Prog.events (serve (.always 201))
      ((ToolCall.iseCreateEndpoint "aabbccddeeff" none "").invoke writerDeps none)
      (.initial 3600 900))).getLast?
      = some (.response ⟨201, none, false, "", .ok .none⟩) := by rfl
  intro r hr _
  rw [hlast] at hr
  cases hr
  exact iff_of_true (Or.inr (Or.inl rfl)) rfl

/-- A redirect is reported as a created endpoint. -/
theorem redirect_reported_ok :
    ∃ es env, Prog.Path ((ToolCall.iseCreateEndpoint "aabbccddeeff" none "").invoke writerDeps none)
      es (.ret env) ∧ field env "ok" = some (.bool true) ∧ succeeded es = false := by
  refine ⟨_, _, Prog.path_exec (serve (.always 302)) _ (.initial 3600 900), ?_, ?_⟩
  · rfl
  · rfl

end IseMcp
