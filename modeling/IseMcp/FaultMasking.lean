import IseMcp.Interaction.Masking
import IseMcp.Ise.Attempts
import IseMcp.Tools.Asks
import IseMcp.WriteSafety

set_option autoImplicit false

/-! # Faults that the retries mask

Some attempts fail in a way that `IseClient.request` tries again. Unless four attempts at one
request fail, a client of the server sees nothing of them: it gets the reply that the attempts
without faults lead to, with the same records (`faults_masked`). The rules of sequencing are those
of `Interaction.Faults`; the loop is the one place with an induction.
-/

namespace IseMcp

open Python Interaction

namespace IseClient

/-! ## One round -/

/-- The record of a reply. -/
def replyLog (h : HttpRequest) : HttpOutcome → Prog Ise Unit
  | .response r => Prog.op (S := Ise) (.log (.iseRequest h.method h.url r.status))
  | _ => .ret ()

/-- The `Retry-After` that the wait is told. -/
def waitHint : HttpOutcome → Option String
  | .response r => if r.status = 429 then r.retryAfter else none
  | _ => none

/-- What a round does once its attempt has ended: go on, or settle. -/
def afterReply (cfg : Config) (parse : Parse) (attempt : Nat) (o : HttpOutcome) :
    Option (Io PyVal) → Prog Ise (Except PyExc PyVal)
  | none => .ret (settle parse o)
  | some next =>
      if retried cfg o then
        .call (S := Ise) (.backoff attempt (waitHint o)) fun (_ : Unit) => next.run
      else .ret (settle parse o)

/-- The record of a reply, as events. -/
def replyEvents (h : HttpRequest) : HttpOutcome → List (Event Ise)
  | .response r => [⟨.log (.iseRequest h.method h.url r.status), ()⟩]
  | _ => []

/-- The events of an attempt. -/
def attempted (h : HttpRequest) (o : HttpOutcome) : List (Event Ise) :=
  ⟨.send h, o⟩ :: replyEvents h o

variable {cfg : Config} {h : HttpRequest} {parse : Parse}

theorem afterReply_goesOn {attempt : Nat} {o : HttpOutcome} (hretried : retried cfg o = true)
    (next : Io PyVal) : afterReply cfg parse attempt o (some next)
      = (do backoff attempt (waitHint o); next : Io PyVal).run :=
  if_pos hretried

theorem afterReply_settles {attempt : Nat} {o : HttpOutcome} {again : Option (Io PyVal)}
    (hlast : again = none ∨ retried cfg o = false) :
    afterReply cfg parse attempt o again = .ret (settle parse o) := by
  cases again with
  | none => rfl
  | some next =>
      have hnot : ¬ retried cfg o = true := by simpa using hlast
      exact if_neg hnot

theorem run_requestOnce (attempt : Nat) (again : Option (Io PyVal)) :
    (requestOnce cfg h parse attempt again).run = .call (S := Ise) (.send h)
      fun (o : HttpOutcome) => replyLog h o >>= fun _ => afterReply cfg parse attempt o again := by
  rw [requestOnce, run_send_bind]
  refine congrArg _ (funext fun o => ?_)
  cases o with
  | raised e => cases again <;> rfl
  | transportError message => cases again <;> rfl
  | response resp =>
      rw [run_log_bind]
      refine congrArg _ (funext fun _ => ?_)
      show _ = afterReply cfg parse attempt (.response resp) again
      by_cases hlimit : resp.status = 429
      · have hretried : retried cfg (.response resp) = cfg.rateLimitWait := if_pos hlimit
        have hsettle : settle parse (.response resp)
            = .error ⟨.rateLimitError, "ISE rate limit exceeded", none, some 429⟩ := if_pos hlimit
        have hhint : waitHint (.response resp) = resp.retryAfter := if_pos hlimit
        rw [if_pos hlimit]
        cases again with
        | none => rw [afterReply_settles (Or.inl rfl), hsettle]; cases cfg.rateLimitWait <;> rfl
        | some next =>
            cases hw : cfg.rateLimitWait with
            | true => rw [afterReply_goesOn (hretried.trans hw), hhint]
            | false => rw [afterReply_settles (Or.inr (hretried.trans hw)), hsettle]; rfl
      · have hretried : retried cfg (.response resp) = decide (resp.status ∈ transient) :=
          if_neg hlimit
        have hsettle : settle parse (.response resp) = handleResponse resp parse := if_neg hlimit
        have hhint : waitHint (.response resp) = none := if_neg hlimit
        rw [if_neg hlimit]
        cases again with
        | none =>
            rw [afterReply_settles (Or.inl rfl), hsettle]
            cases decide (resp.status ∈ transient) <;> rfl
        | some next =>
            cases ht : decide (resp.status ∈ transient) with
            | true => rw [afterReply_goesOn (hretried.trans ht), hhint]
            | false => rw [afterReply_settles (Or.inr (hretried.trans ht)), hsettle]; rfl

theorem replyLog_path_iff (o : HttpOutcome) (es : List (Event Ise)) (u : Unit) :
    Prog.Path (replyLog h o) es (.ret u) ↔ es = replyEvents h o := by
  constructor
  · intro hp
    cases o with
    | response resp =>
        obtain ⟨x, es', rfl, hnil⟩ := (Prog.path_call_ret_iff (S := Ise) _ _ _ _).mp hp
        rw [((Prog.path_ret_iff _ _ _).mp hnil).1]
        rfl
    | _ => exact ((Prog.path_ret_iff _ _ _).mp hp).1
  · rintro rfl
    cases o with
    | response resp => exact .cons (.nil _)
    | _ => exact .nil _

/-- An attempt is made and recorded before anything else. -/
theorem requestOnce_path_iff (attempt : Nat) (again : Option (Io PyVal)) (es : List (Event Ise))
    (r : Except PyExc PyVal) :
    Prog.Path (requestOnce cfg h parse attempt again).run es (.ret r) ↔
      ∃ o es', es = attempted h o ++ es' ∧
        Prog.Path (afterReply cfg parse attempt o again) es' (.ret r) := by
  rw [run_requestOnce, Prog.path_call_ret_iff]
  refine exists_congr fun o => ?_
  constructor
  · rintro ⟨es₁, rfl, hrest⟩
    obtain ⟨u, es₂, es', rfl, hlog, hafter⟩ := (Prog.path_bind_ret_iff _ _ _ _).mp hrest
    rw [(replyLog_path_iff o es₂ u).mp hlog]
    exact ⟨es', rfl, hafter⟩
  · rintro ⟨es', rfl, hafter⟩
    have hlog := (replyLog_path_iff (h := h) o _ ()).mpr rfl
    exact ⟨_, rfl, (Prog.path_bind_ret_iff _ _ _ _).mpr ⟨(), _, es', rfl, hlog, hafter⟩⟩

/-- An outcome that is not tried again ends the loop, however many retries are left. -/
theorem requestLoop_settles {o : HttpOutcome} (ho : retried cfg o = false) (left : Nat) :
    Prog.Path (requestLoop cfg h parse left).run (attempted h o) (.ret (settle parse o)) := by
  cases left with
  | zero =>
      refine (requestOnce_path_iff _ none _ _).mpr ⟨o, [], (List.append_nil _).symm, ?_⟩
      rw [afterReply_settles (Or.inl rfl)]
      exact .nil _
  | succ left =>
      refine (requestOnce_path_iff _ (some _) _ _).mpr ⟨o, [], (List.append_nil _).symm, ?_⟩
      rw [afterReply_settles (Or.inr ho)]
      exact .nil _

end IseClient

/-! ## Faults -/

/-- The call is not an attempt that is tried again, nor the wait after one. -/
def Sound (cfg : Config) : Event Ise → Prop
  | ⟨.send _, o⟩ => IseClient.retried cfg o = false
  | ⟨.backoff _ _, _⟩ => False
  | _ => True

/-- Attempts, their records and the waits between them are the client's own affair. -/
def Op.Visible : Op → Bool
  | .send _ | .backoff _ _ | .log (.iseRequest _ _ _) => false
  | _ => true

/-- So many attempts at one request, and each of them ended in a way that is tried again. -/
structure Failed (cfg : Config) (h : HttpRequest) (n : Nat) (es : List (Event Ise)) : Prop where
  tries : (attempts es).length = n
  retried : ∀ o ∈ attempts es, IseClient.retried cfg o = true
  same : ∀ ev ∈ es, ∀ h', ev.1 = .send h' → h' = h

/-- Among the steps the client gave up on a request, which had failed with every retry. -/
def GaveUp (cfg : Config) (es : List (Event Ise)) : Prop :=
  ∃ h pre mid post, es = pre ++ mid ++ post ∧ Failed cfg h (IseClient.maxRetries + 1) mid

def iseFaults (cfg : Config) : Faults Ise where
  clean := Sound cfg
  lost := GaveUp cfg
  visible ev := ev.1.Visible
  lost_within := by
    rintro pre _ post ⟨h, pre', mid, post', rfl, hfailed⟩
    exact ⟨h, pre ++ pre', mid, post' ++ post, by simp only [List.append_assoc], hfailed⟩

/-! ## One request -/

section

variable {cfg : Config}

theorem attempts_attempted (h : HttpRequest) (o : HttpOutcome) :
    attempts (IseClient.attempted h o) = [o] := by
  cases o <;> rfl

/-- What is done of an attempt, apart from the attempt itself, is a record. -/
theorem mem_attempted {h : HttpRequest} {o : HttpOutcome} {ev : Event Ise}
    (hev : ev ∈ IseClient.attempted h o) :
    ev = ⟨.send h, o⟩ ∨ ∃ method url status, ev.1 = .log (.iseRequest method url status) := by
  rcases List.mem_cons.mp hev with hsend | hlog
  · exact Or.inl hsend
  · cases o with
    | response r => exact Or.inr ⟨_, _, _, by rw [List.mem_singleton.mp hlog]⟩
    | _ => cases hlog

theorem attempted_invisible {h : HttpRequest} {o : HttpOutcome} :
    ∀ ev ∈ IseClient.attempted h o, ev.1.Visible = false := by
  intro ev hev
  rcases mem_attempted hev with rfl | ⟨_, _, _, hlog⟩
  · rfl
  · rw [hlog]
    rfl

/-- An attempt that is not tried again is left as it is. -/
theorem attempted_thins (h : HttpRequest) {o : HttpOutcome} (ho : IseClient.retried cfg o = false) :
    (iseFaults cfg).Thins (IseClient.attempted h o) (IseClient.attempted h o) := by
  refine Faults.Thins.refl fun ev hev => ?_
  obtain ⟨op, x⟩ := ev
  rcases mem_attempted hev with heq | ⟨_, _, _, hlog⟩
  · cases heq
    exact ho
  · cases hlog
    exact trivial

/-- One more failed attempt. -/
theorem Failed.cons {h : HttpRequest} {n : Nat} {o : HttpOutcome} {es fs : List (Event Ise)}
    (ho : IseClient.retried cfg o = true) (hfs : ∀ ev ∈ fs, ∀ h', ev.1 ≠ .send h')
    (hes : Failed cfg h n es) : Failed cfg h (n + 1) (IseClient.attempted h o ++ fs ++ es) := by
  have hattempts : attempts (IseClient.attempted h o ++ fs ++ es) = o :: attempts es := by
    rw [attempts_append, attempts_append, attempts_attempted, attempts_eq_nil hfs]
    rfl
  refine ⟨by rw [hattempts, List.length_cons, hes.tries], ?_, ?_⟩
  · rw [hattempts, List.forall_mem_cons]
    exact ⟨ho, hes.retried⟩
  · intro ev hev h' heq
    rcases List.mem_append.mp hev with hev | hev
    · rcases List.mem_append.mp hev with hev | hev
      · rcases mem_attempted hev with rfl | ⟨_, _, _, hlog⟩
        · exact (Op.send.inj heq).symm
        · rw [hlog] at heq
          cases heq
      · exact absurd heq (hfs ev hev h')
    · exact hes.same ev hev h' heq

theorem Failed.nil (h : HttpRequest) : Failed cfg h 0 [] := ⟨rfl, by simp, by simp⟩

/-- **The loop fails with every retry, or settles an outcome** as if it had been the first. -/
theorem requestLoop_masks {h : HttpRequest} {parse : Parse} {left : Nat} {es : List (Event Ise)}
    {r : Except PyExc PyVal}
    (hp : Prog.Path (IseClient.requestLoop cfg h parse left).run es (.ret r)) :
    Failed cfg h (left + 1) es ∨ ∃ o, IseClient.retried cfg o = false ∧
      r = IseClient.settle parse o ∧ (iseFaults cfg).Thins (IseClient.attempted h o) es := by
  induction left generalizing es with
  | zero =>
      obtain ⟨o, es', rfl, hafter⟩ := (IseClient.requestOnce_path_iff _ none _ _).mp hp
      rw [IseClient.afterReply_settles (Or.inl rfl)] at hafter
      obtain ⟨rfl, hr⟩ := (Prog.path_ret_ret_iff _ _ _).mp hafter
      cases ho : IseClient.retried cfg o with
      | false =>
          rw [List.append_nil]
          exact Or.inr ⟨o, ho, hr, attempted_thins h ho⟩
      | true =>
          have hfailed := Failed.cons (h := h) ho (List.forall_mem_nil _) (Failed.nil h)
          rw [List.append_assoc] at hfailed
          exact Or.inl hfailed
  | succ left ih =>
      obtain ⟨o, es', rfl, hafter⟩ := (IseClient.requestOnce_path_iff _ (some _) _ _).mp hp
      cases ho : IseClient.retried cfg o with
      | false =>
          rw [IseClient.afterReply_settles (Or.inr ho)] at hafter
          obtain ⟨rfl, hr⟩ := (Prog.path_ret_ret_iff _ _ _).mp hafter
          rw [List.append_nil]
          exact Or.inr ⟨o, ho, hr, attempted_thins h ho⟩
      | true =>
          rw [IseClient.afterReply_goesOn ho] at hafter
          obtain ⟨x, es₁, rfl, hnext⟩ := (Prog.path_call_ret_iff (S := Ise) _ _ _ _).mp hafter
          rw [← List.singleton_append, ← List.append_assoc]
          rcases ih hnext with hfailed | ⟨last, hlast, hr, hthin⟩
          · refine Or.inl (Failed.cons ho ?_ hfailed)
            intro ev hev h' heq
            rw [List.mem_singleton.mp hev] at heq
            cases heq
          · refine Or.inr ⟨last, hlast, hr, hthin.skip fun ev hev => ?_⟩
            rcases List.mem_append.mp hev with hev | hev
            · exact attempted_invisible ev hev
            · rw [List.mem_singleton.mp hev]
              rfl

/-- An operation that neither sends nor waits. -/
def Op.Steady : Op → Prop
  | .send _ | .backoff _ _ => False
  | _ => True

theorem steady_masks {α : Type} {p : Prog Ise α} {P : Op → Prop} (hP : ∀ o, P o → o.Steady)
    (h : Prog.Only (S := Ise) P p) : (iseFaults cfg).Masks p := by
  refine Faults.masks_only (fun ev hev => ?_) h
  have hsteady := hP _ hev
  obtain ⟨o, x⟩ := ev
  cases o with
  | send h => exact hsteady.elim
  | backoff attempt retryAfter => exact hsteady.elim
  | _ => exact trivial

theorem request_masks (r : IseRequest) : (iseFaults cfg).MasksIn (IseClient.request cfg r) := by
  have hinvoke : (iseFaults cfg).MasksIn (invoke r) :=
    steady_masks (P := (· = Op.invoke r)) (fun _ ho => ho ▸ trivial) (Coro.only_op rfl)
  refine hinvoke.bind fun _ => (Faults.masksIn_ofExcept _).bind fun auth => ?_
  intro es out hp
  rcases requestLoop_masks hp with hfailed | ⟨o, ho, rfl, hthin⟩
  · exact Or.inl ⟨_, [], es, [], by simp, hfailed⟩
  · exact Or.inr ⟨_, hthin, IseClient.requestLoop_settles ho _⟩

/-- What is put together from requests masks the faults of each. -/
theorem Asks.masks {α : Type} {k : Nat} {x : Io α} (h : Asks cfg k x) :
    (iseFaults cfg).MasksIn x := by
  induction h with
  | ofExcept r => exact Faults.masksIn_ofExcept r
  | request r => exact request_masks r
  | bind _ _ ihx ihf => exact ihx.bind ihf
  | attempt _ ih => exact ih.attempt
  | mono _ _ ih => exact ih

end

/-! ## One request of a client -/

section

variable {deps : Deps}

theorem run_masks {headers : Option RawHeaders} {call : ToolCall} {t : Tool}
    (ht : call.tool deps = some t) : (iseFaults deps.cfg).Masks (run deps headers t) := by
  have hrecord : ∀ o : Op, o.IsRecord → o.Steady := by
    rintro o (⟨rec, rfl⟩ | ⟨rec, rfl⟩) <;> exact trivial
  have hfail (actor : String) (e : PyExc) :
      (iseFaults deps.cfg).Masks (fail deps.cfg actor t e) :=
    steady_masks hrecord (fail_only deps.cfg actor t e)
  cases hg : gates deps.cfg t with
  | error e =>
      rw [run_refused hg]
      exact hfail _ _
  | ok _ =>
      rw [run_admitted hg]
      have hresolve : ∀ o : Op, (∃ sid, o = .getSession sid) → o.Steady := by
        rintro o ⟨sid, rfl⟩
        exact trivial
      refine (steady_masks hresolve (resolveAuth_only deps headers)).bind fun r => ?_
      cases r with
      | error e => exact hfail _ _
      | ok auth =>
          refine Faults.Masks.bind (fn_asks ht auth).masks fun out => ?_
          cases out with
          | error e => exact hfail _ _
          | ok result =>
              exact (steady_masks hrecord (audit_only _ _ _ _ _)).bind fun _ => Faults.masks_ret _

/-- Every request of a client masks the faults. -/
theorem program_masks (hb : deps.Built) (req : ServerRequest) :
    (iseFaults deps.cfg).Masks (req.program deps) := by
  by_cases hg : req.Gated deps
  · cases req with
    | tool headers call =>
        obtain ⟨t, ht⟩ := Option.isSome_iff_exists.mp hg
        rw [gated_program ht]
        exact (run_masks ht).bind fun _ => Faults.masks_ret _
    | _ => exact hg.elim
  · refine steady_masks (fun o ho => ?_) (ungated_only hb hg)
    cases ho with
    | lookup h => cases h <;> exact trivial
    | probe _ => exact trivial
    | createSession _ _ => exact trivial
    | issueCode _ => exact trivial

end

/-- **Faults are masked**: in every run, a request that has its reply gave up on a lookup after four
failed attempts, or it has the reply, and has left the records, that its steps lead to without the
failed attempts and the waits. -/
theorem faults_masked {deps : Deps} (hb : deps.Built) (env : Env)
    (moves : List (Move ServerRequest)) {i : Nat} {req : ServerRequest} {reply : ServerReply}
    (htask : (serverRun deps env moves).tasks[i]? = some ⟨req, .ret reply⟩) :
    GaveUp deps.cfg (eventsOf (serverRun deps env moves).log i) ∨
      ∃ es, (iseFaults deps.cfg).Thins es (eventsOf (serverRun deps env moves).log i) ∧
        Prog.Path (req.program deps) es (.ret reply) :=
  program_masks hb req _ _ (serverRun_path htask)

/-- An ISE that is not available for the first two steps. -/
def flakyEnv : Env :=
  { Env.always 201 with
    outcome := fun n => .response ⟨if n < 2 then 503 else 201, none, false, "", .ok .none⟩ }

def flakyMoves : List (Move ServerRequest) :=
  .spawn (.tool none (.iseCreateEndpoint "aabbccddeeff" none "")) :: List.replicate 7 (.advance 0)

/-- The endpoint is created with the second attempt, and nothing shows of the first. -/
theorem faults_masked_create : ∃ reply,
    (serverRun writeDeps flakyEnv flakyMoves).tasks[0]?
      = some ⟨.tool none (.iseCreateEndpoint "aabbccddeeff" none ""), .ret reply⟩ ∧
    attempts (eventsOf (serverRun writeDeps flakyEnv flakyMoves).log 0)
      = [.response ⟨503, none, false, "", .ok .none⟩, .response ⟨201, none, false, "", .ok .none⟩] ∧
    (GaveUp writeDeps.cfg (eventsOf (serverRun writeDeps flakyEnv flakyMoves).log 0) ∨
      ∃ es, (iseFaults writeDeps.cfg).Thins es
          (eventsOf (serverRun writeDeps flakyEnv flakyMoves).log 0) ∧
        Prog.Path ((ServerRequest.tool none (.iseCreateEndpoint "aabbccddeeff" none "")).program
          writeDeps) es (.ret reply)) := by
  have hb : writeDeps.Built := rfl
  refine ⟨_, rfl, rfl, ?_⟩
  exact faults_masked hb flakyEnv flakyMoves rfl

end IseMcp
