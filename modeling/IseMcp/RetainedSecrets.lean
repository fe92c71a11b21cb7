import IseMcp.AuthorizationCode
import IseMcp.ConfusedDeputy
import IseMcp.StoreHistory

set_option autoImplicit false

/-! # What outlives its limit

A session is dropped when it is presented after its limit or logged out, a code when it is
presented. `SessionStore.purge_expired` is never called and the table of codes has no counterpart of
it, so what is left alone stays in memory. A run therefore retains nothing that has expired exactly
if, at each of its steps, everything that was still in time when it was last presented is in time
now (`nothing_retained_iff`).
-/

namespace IseMcp

open Python Interaction

/-- At `t` nothing in the memory of the server has expired. -/
structure NothingExpired (w : World) (t : Time) : Prop where
  sessions : ∀ sid s, w.store.lookup sid = some s → s.isExpired t = false
  codes : ∀ code rec, w.codes.lookup code = some rec → t - rec.created ≤ codeTtl

/-- This holds after every step of the run, at the time of the step. -/
def NothingRetained (env : Env) (s : ServerSys) : Prop :=
  ∀ e ∈ s.log, NothingExpired (serve env e.before e.event.1).2 (env.now e.before.steps)

/-- What was opened or issued in the entries `l`, and not given up since, is in time at `t`. A
session is given up when it is logged out or presented out of time, a code when it is presented. -/
structure AllInTime (cfg : Config) (env : Env) (l : ServerLog) (t : Time) : Prop where
  sessions :
    KeptInTime cfg.sessionTtlSeconds cfg.sessionIdleTimeoutSeconds (storeHistory env l) t
  codes : ∀ code rec, Outstanding env l code rec → t - rec.created ≤ codeTtl

section

variable {deps : Deps} {env : Env} {moves : List (Move ServerRequest)}

/-- The state after one entry. -/
theorem nothing_expired_iff (hfresh : Function.Injective fun n => (env.token n).text)
    {pre post : ServerLog} {e : Entry Ise World}
    (hlog : (serverRun deps env moves).log = pre ++ e :: post) :
    NothingExpired (serve env e.before e.event.1).2 (env.now e.before.steps) ↔
      AllInTime deps.cfg env (pre ++ [e]) (env.now e.before.steps) := by
  have hids : FreshIds (storeHistory env (pre ++ [e])) := by
    have hall := storeHistory_fresh deps moves hfresh
    rw [hlog, List.append_cons, storeHistory_append] at hall
    exact hall.left
  have hstore : (∀ sid s, (serve env e.before e.event.1).2.store.lookup sid = some s →
        s.isExpired (env.now e.before.steps) = false) ↔
      KeptInTime deps.cfg.sessionTtlSeconds deps.cfg.sessionIdleTimeoutSeconds
        (storeHistory env (pre ++ [e])) (env.now e.before.steps) := by
    rw [run_store_after hlog]
    exact none_expired_iff hids fun _ hop => not_purges_of_mem_storeHistory hop
  have hcodes : CodesInv env (pre ++ [e]) (serve env e.before e.event.1).2 :=
    run_history_after (I := CodesInv env) (CodesInv.initial env _ _)
      (fun _ _ i o h => h.step hfresh i o) hlog
  constructor
  · intro h
    exact ⟨hstore.mp h.sessions, fun code rec hout =>
      h.codes code rec ((hcodes.table code rec).mpr hout)⟩
  · intro h
    exact ⟨hstore.mpr h.sessions, fun code rec hrec =>
      h.codes code rec ((hcodes.table code rec).mp hrec)⟩

/-- **When a run retains nothing that has expired**: exactly if at each step everything that is not
given up is in time. -/
theorem nothing_retained_iff (deps : Deps) (env : Env)
    (hfresh : Function.Injective fun n => (env.token n).text) (moves : List (Move ServerRequest)) :
    NothingRetained env (serverRun deps env moves) ↔
      ∀ pre e post, (serverRun deps env moves).log = pre ++ e :: post →
        AllInTime deps.cfg env (pre ++ [e]) (env.now e.before.steps) := by
  constructor
  · intro h pre e post hlog
    exact (nothing_expired_iff hfresh hlog).mp (h e (by rw [hlog]; simp))
  · intro h e he
    obtain ⟨pre, post, hlog⟩ := List.append_of_mem he
    exact (nothing_expired_iff hfresh hlog).mpr (h pre e post hlog)

end

/-- The login of alice. -/
def aliceLogin : List (Move ServerRequest) :=
  .spawn (.tool none (.iseLogin "alice" "pw")) :: List.replicate 5 (.advance 0)

theorem nothing_retained_login :
    NothingRetained sampleEnv (serverRun passthroughDeps sampleEnv aliceLogin) := by
  refine (nothing_retained_iff passthroughDeps sampleEnv sampleEnv_fresh aliceLogin).mpr ?_
  intro pre e post hlog
  constructor
  · -- her session is opened by the last entry
    rintro sid t0 username auth times ⟨ops, tok, ops', hops, _, _, rfl, _⟩
    have hhistory : storeHistory sampleEnv (serverRun passthroughDeps sampleEnv aliceLogin).log
        = [⟨4, .create "alice" (PassthroughProvider.authContext "alice" "pw")
          (sampleEnv.token 4)⟩] := by
      with_unfolding_all rfl
    rw [hlog, List.append_cons, storeHistory_append, hops, List.append_assoc, List.cons_append,
      List.append_eq_singleton_iff] at hhistory
    rcases hhistory with ⟨_, hrest⟩ | ⟨_, hnil⟩
    swap
    · cases hnil
    obtain ⟨hop, hnil⟩ := List.cons.inj hrest
    obtain ⟨hops', _⟩ := List.append_eq_nil_iff.mp hnil
    have ht0 : t0 = 4 := congrArg TimedOp.time hop
    rw [hops', ht0]
    have hlt : e.before.steps < 5 := by
      have hlen : (serverRun passthroughDeps sampleEnv aliceLogin).log.length = 5 := rfl
      rw [hlog, List.length_append, List.length_cons] at hlen
      rw [run_index hlog]
      omega
    have htime : sampleEnv.now e.before.steps - 4 ≤ 1 := by
      have : ((e.before.steps : ℕ) : ℚ) < 5 := by exact_mod_cast hlt
      show ((e.before.steps : ℕ) : ℚ) - 4 ≤ 1
      linarith
    refine ⟨fun x hx => Or.inr ?_, Or.inr ?_⟩
    · rw [List.mem_singleton.mp hx]
      exact le_trans htime (by norm_num [passthroughDeps, Config.default])
    · refine List.isChain_cons_cons.mpr ⟨?_, List.isChain_singleton _⟩
      exact le_trans htime (by norm_num [passthroughDeps, Config.default])
  · rintro code rec ⟨pre', e', post', grant, hl, he, _⟩
    have hops : (serverRun passthroughDeps sampleEnv aliceLogin).log.map (fun e => e.event.1)
        = List.replicate 4 (.probe (IseClient.probeRequest passthroughDeps.cfg "alice" "pw"))
          ++ [.createSession "alice" (PassthroughProvider.authContext "alice" "pw")] := rfl
    have hmem : e'.event.1 ∈ (serverRun passthroughDeps sampleEnv aliceLogin).log.map
        (fun e => e.event.1) := by
      refine List.mem_map.mpr ⟨e', ?_, rfl⟩
      rw [hlog, List.append_cons, hl]
      simp
    rw [hops, he] at hmem
    simp at hmem

/-- Alice logs in in the first five seconds; the next step is an hour later. -/
def lateEnv : Env := { sampleEnv with now := fun n => if n < 5 then n else 4000 }

/-- After that step, a logout without a session id, her session is still there with her
password. -/
theorem late_session_retained :
    ¬ NothingRetained lateEnv (serverRun passthroughDeps lateEnv
      (aliceLogin ++ [.spawn (.tool none .iseLogout), .advance 1])) := by
  intro h
  have hlast : ∃ e s, (serverRun passthroughDeps lateEnv
        (aliceLogin ++ [.spawn (.tool none .iseLogout), .advance 1])).log[5]? = some e ∧
      (serve lateEnv e.before e.event.1).2.store.lookup (sampleEnv.token 4).text = some s ∧
      s.isExpired (lateEnv.now e.before.steps) = true := by
    with_unfolding_all exact ⟨_, _, rfl, rfl, rfl⟩
  obtain ⟨e, s, he, hs, hexp⟩ := hlast
  rw [(h e (List.mem_of_getElem? he)).sessions _ s hs] at hexp
  cases hexp

end IseMcp
