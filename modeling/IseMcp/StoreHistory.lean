import IseMcp.Auth.SessionTrace
import IseMcp.Server

set_option autoImplicit false

/-! # The session store over a run

The log of a run, read as a history of the session store: the operations of `Auth/SessionTrace.lean`
with the clock readings of their entries. The store of the machine is the one this history leads to
(`run_store`), so what is proved of histories holds of runs of the server. -/

namespace IseMcp

open Python Interaction

/-- What an entry does to the session store, at its clock reading. -/
def storeOp (env : Env) (e : Entry Ise World) : Option TimedOp :=
  match e.event.1 with
  | .createSession username auth =>
      some ⟨env.now e.before.steps, .create username auth (env.token e.before.steps)⟩
  | .getSession sid => some ⟨env.now e.before.steps, .get sid⟩
  | .deleteSession sid => some ⟨env.now e.before.steps, .delete sid⟩
  | _ => none

def storeHistory (env : Env) (l : ServerLog) : List TimedOp := l.filterMap (storeOp env)

section

variable {env : Env}

@[simp] theorem storeHistory_append (l l' : ServerLog) :
    storeHistory env (l ++ l') = storeHistory env l ++ storeHistory env l' :=
  List.filterMap_append

variable (env) in
/-- The history around an entry that opens a session. -/
theorem storeHistory_opened (pre post : ServerLog) {c : Entry Ise World} {username : String}
    {auth : AuthContext} {sess : Session}
    (hc : c.event = ⟨Op.createSession username auth, sess⟩) :
    storeHistory env (pre ++ c :: post) = storeHistory env pre ++
      ⟨env.now c.before.steps, .create username auth (env.token c.before.steps)⟩
        :: storeHistory env post := by
  have hop : storeOp env c
      = some ⟨env.now c.before.steps, .create username auth (env.token c.before.steps)⟩ := by
    rw [storeOp, hc]
  rw [storeHistory_append]
  exact congrArg _ (List.filterMap_cons_some hop)

theorem storeOp_time {e : Entry Ise World} {op : TimedOp} (h : storeOp env e = some op) :
    op.time = env.now e.before.steps := by
  unfold storeOp at h
  split at h <;> cases h <;> rfl

/-- An operation that creates an id drew it at the step of its entry. -/
theorem storeOp_creates {e : Entry Ise World} {op : TimedOp} (h : storeOp env e = some op)
    {sid : String} (hc : op.creates sid = true) : sid = (env.token e.before.steps).text := by
  unfold storeOp at h
  split at h <;> cases h
  · exact (beq_iff_eq.mp hc).symm
  · cases hc
  · cases hc

theorem storeOp_purges {e : Entry Ise World} {op : TimedOp} (h : storeOp env e = some op) :
    op.purges = false := by
  unfold storeOp at h
  split at h <;> cases h <;> rfl

/-- A session is deleted by an entry that deletes it. -/
theorem storeOp_deletes {e : Entry Ise World} {op : TimedOp} (h : storeOp env e = some op)
    {sid : String} (hd : op.deletes sid = true) : e.event.1 = .deleteSession (some sid) := by
  unfold storeOp at h
  split at h
  · cases h
    cases hd
  · cases h
    cases hd
  · rename_i o hev
    cases h
    rw [hev, beq_iff_eq.mp hd]
  · cases h

/-- Nothing in the server purges the store. -/
theorem not_purges_of_mem_storeHistory {l : ServerLog} {op : TimedOp}
    (h : op ∈ storeHistory env l) : op.purges = false := by
  obtain ⟨e, _, hop⟩ := List.mem_filterMap.mp h
  exact storeOp_purges hop

theorem serve_store (w : World) (i : Nat) (o : Op) :
    (serve env w o).2.store
      = w.store.after (storeHistory env [⟨i, w, ⟨o, (serve env w o).1⟩⟩]) := by
  cases o <;> rfl

end

/-! ## Runs -/

section

variable {deps : Deps} {env : Env} {moves : List (Move ServerRequest)}

/-- The store at the start. -/
def Config.emptyStore (cfg : Config) : SessionStore :=
  .empty cfg.sessionTtlSeconds cfg.sessionIdleTimeoutSeconds

theorem store_step (l : ServerLog) (w : World) (i : Nat) (o : Op)
    (h : w.store = deps.cfg.emptyStore.after (storeHistory env l)) :
    (serve env w o).2.store = deps.cfg.emptyStore.after
      (storeHistory env (l ++ [⟨i, w, ⟨o, (serve env w o).1⟩⟩])) := by
  rw [storeHistory_append, SessionStore.after_append, ← h]
  exact serve_store w i o

/-- **The store after an entry** is the one its history leads to. -/
theorem run_store_after {pre post : ServerLog} {e : Entry Ise World}
    (hlog : (serverRun deps env moves).log = pre ++ e :: post) :
    (serve env e.before e.event.1).2.store
      = deps.cfg.emptyStore.after (storeHistory env (pre ++ [e])) :=
  run_history_after (I := fun l w => w.store = deps.cfg.emptyStore.after (storeHistory env l)) rfl
    store_step hlog

/-- The store at the end of a run. -/
theorem run_store : (serverRun deps env moves).world.store
    = deps.cfg.emptyStore.after (storeHistory env (serverRun deps env moves).log) :=
  run_history_end (ServerRequest.program deps) (serve env)
    (I := fun l w => w.store = deps.cfg.emptyStore.after (storeHistory env l)) rfl store_step moves

theorem run_steps : (serverRun deps env moves).world.steps
    = (serverRun deps env moves).log.length :=
  run_history_end (ServerRequest.program deps) (serve env)
    (I := fun (l : ServerLog) w => w.steps = l.length) rfl
    (fun l w i o h => by rw [serve_steps, h, List.length_append, List.length_singleton]) moves

theorem run_getElem_steps (i : Nat) (h : i < (serverRun deps env moves).log.length) :
    (serverRun deps env moves).log[i].before.steps = i := by
  have hsplit : (serverRun deps env moves).log = (serverRun deps env moves).log.take i
      ++ (serverRun deps env moves).log[i] :: (serverRun deps env moves).log.drop (i + 1) := by
    rw [List.getElem_cons_drop, List.take_append_drop]
  rw [run_index hsplit, List.length_take, Nat.min_eq_left (Nat.le_of_lt h)]

/-- The entries come in the order of their steps. -/
theorem run_steps_lt : (serverRun deps env moves).log.Pairwise fun e e' =>
    e.before.steps < e'.before.steps := by
  rw [List.pairwise_iff_getElem]
  intro i j hi hj hij
  rw [run_getElem_steps, run_getElem_steps]
  exact hij

variable (deps moves) in
/-- With a clock that never goes back, the history of a run is in the order of time. -/
theorem storeHistory_monotonic (hmono : Monotone env.now) :
    Monotonic (storeHistory env (serverRun deps env moves).log)
      (env.now (serverRun deps env moves).world.steps) := by
  rw [Monotonic, List.pairwise_append, List.pairwise_map, storeHistory, List.pairwise_filterMap]
  refine ⟨run_steps_lt.imp ?_, List.pairwise_singleton _ _, ?_⟩
  · intro e e' hlt op hop op' hop'
    rw [storeOp_time hop, storeOp_time hop']
    exact hmono (Nat.le_of_lt hlt)
  · intro t ht t' ht'
    obtain ⟨op, hop, rfl⟩ := List.mem_map.mp ht
    obtain ⟨e, he, hstep⟩ := List.mem_filterMap.mp hop
    obtain ⟨i, hi, rfl⟩ := List.getElem_of_mem he
    rw [List.mem_singleton.mp ht', storeOp_time hstep, run_getElem_steps, run_steps]
    exact hmono (Nat.le_of_lt hi)

variable (deps moves) in
/-- With fresh tokens, no id is created twice. -/
theorem storeHistory_fresh (hfresh : Function.Injective fun n => (env.token n).text) :
    FreshIds (storeHistory env (serverRun deps env moves).log) := by
  rw [FreshIds, List.Nodup, createdIds, storeHistory, List.pairwise_filterMap,
    List.pairwise_filterMap]
  refine run_steps_lt.imp ?_
  intro e e' hlt op hop op' hop' sid hsid sid' hsid' heq
  subst heq
  have hcreates : ∀ {op : TimedOp}, sid ∈ createdIds [op] → op.creates sid = true := by
    intro op hmem
    obtain ⟨op', hmem, hc⟩ := mem_createdIds.mp hmem
    rwa [List.mem_singleton.mp hmem] at hc
  have h := storeOp_creates hop (hcreates (List.mem_filterMap.mpr ⟨op, List.mem_cons_self, hsid⟩))
  have h' := storeOp_creates hop'
    (hcreates (List.mem_filterMap.mpr ⟨op', List.mem_cons_self, hsid'⟩))
  have hsteps : e.before.steps = e'.before.steps := hfresh (h.symm.trans h')
  omega

end

end IseMcp
