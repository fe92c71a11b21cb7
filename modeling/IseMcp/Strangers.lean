import IseMcp.Interaction.Restrict
import IseMcp.AuthorizationCode
import IseMcp.ConfusedDeputy
import IseMcp.StoreHistory

set_option autoImplicit false

/-! # Strangers make no difference

The only state that requests share is the two tables, and a request touches one entry of them at a
time. So if no session id and no code is touched both by our requests and by those of strangers,
ours do and get exactly what they would do and get if the strangers' requests were never served, at
the same clock readings, tokens and replies of ISE (`strangers_irrelevant`).
-/

namespace IseMcp

open Python Interaction

/-! ## Entries of the tables -/

/-- An entry of one of the two tables. -/
inductive Key where
  | session (sid : String)
  | code (code : String)
  deriving DecidableEq

/-- The entry that a call touches. -/
def touched : Event Ise → Option Key
  | ⟨.createSession _ _, sess⟩ => some (.session (sess : Session).sessionId)
  | ⟨.getSession sid, _⟩ => sid.map .session
  | ⟨.deleteSession sid, _⟩ => sid.map .session
  | ⟨.issueCode _, code⟩ => some (.code code)
  | ⟨.popCode code, _⟩ => code.map .code
  | _ => none

/-- Two machines with the same limits and the same entries under the keys in `M`. -/
structure AgreeOn (M : Set Key) (w w' : World) : Prop where
  ttl : w'.store.ttl = w.store.ttl
  idle : w'.store.idle = w.store.idle
  sessions : ∀ sid, Key.session sid ∈ M → w'.store.lookup sid = w.store.lookup sid
  codes : ∀ code, Key.code code ∈ M → w'.codes.lookup code = w.codes.lookup code

theorem AgreeOn.refl (M : Set Key) (w : World) : AgreeOn M w w :=
  ⟨rfl, rfl, fun _ _ => rfl, fun _ _ => rfl⟩

theorem AgreeOn.trans {M : Set Key} {w w' w'' : World} (h : AgreeOn M w w')
    (h' : AgreeOn M w' w'') : AgreeOn M w w'' where
  ttl := h'.ttl.trans h.ttl
  idle := h'.idle.trans h.idle
  sessions sid hsid := (h'.sessions sid hsid).trans (h.sessions sid hsid)
  codes code hcode := (h'.codes code hcode).trans (h.codes code hcode)

theorem AgreeOn.symm {M : Set Key} {w w' : World} (h : AgreeOn M w w') : AgreeOn M w' w where
  ttl := h.ttl.symm
  idle := h.idle.symm
  sessions sid hsid := (h.sessions sid hsid).symm
  codes code hcode := (h.codes code hcode).symm

/-- A call that touches no entry of `M` leaves those entries as they are. -/
theorem AgreeOn.untouched {M : Set Key} (env : Env) (w : World) (o : Op)
    (h : ∀ k ∈ M, touched ⟨o, (serve env w o).1⟩ ≠ some k) : AgreeOn M w (serve env w o).2 := by
  cases o with
  | createSession username auth =>
      refine ⟨rfl, rfl, fun sid hsid => ?_, fun _ _ => rfl⟩
      refine SessionStore.lookup_create_ne _ _ _ _ fun heq => h _ hsid ?_
      rw [heq]
      rfl
  | getSession tok =>
      have hlimits := SessionStore.get_limits w.store (env.now w.steps) tok
      refine ⟨hlimits.1, hlimits.2, fun sid hsid => ?_, fun _ _ => rfl⟩
      refine SessionStore.lookup_get_ne _ _ fun heq => h _ hsid ?_
      rw [heq]
      rfl
  | deleteSession tok =>
      have hlimits := SessionStore.delete_limits w.store tok
      refine ⟨hlimits.1, hlimits.2, fun sid hsid => ?_, fun _ _ => rfl⟩
      refine SessionStore.lookup_delete_ne _ fun heq => h _ hsid ?_
      rw [heq]
      rfl
  | issueCode grant =>
      refine ⟨rfl, rfl, fun _ _ => rfl, fun code hcode => ?_⟩
      refine CodeTable.lookup_issue_ne _ _ _ fun heq => h _ hcode ?_
      rw [heq]
      rfl
  | popCode tok =>
      refine ⟨rfl, rfl, fun _ _ => rfl, fun code hcode => ?_⟩
      refine CodeTable.lookup_remove_ne _ fun heq => h _ hcode ?_
      rw [heq]
      rfl
  | _ => exact ⟨rfl, rfl, fun _ _ => rfl, fun _ _ => rfl⟩

/-! ## The same step at two machines -/

/-- At these two steps the outside is the same. -/
structure Env.SameAt (env env' : Env) (n n' : Nat) : Prop where
  now : env'.now n' = env.now n
  token : env'.token n' = env.token n
  outcome : env'.outcome n' = env.outcome n

namespace SessionStore

variable {st st' : SessionStore} {sid : String}

/-- A read of one session finds and leaves the same in two stores that agree on it. -/
theorem get_congr (h : st'.lookup sid = st.lookup sid) (now : Time) :
    (st'.get now (some sid)).1 = (st.get now (some sid)).1 ∧
      (st'.get now (some sid)).2.lookup sid = (st.get now (some sid)).2.lookup sid := by
  by_cases hempty : sid = ""
  · subst hempty
    exact ⟨rfl, h⟩
  · have hfst : (st'.get now (some sid)).1 = (st.get now (some sid)).1 := by
      rw [get_fst st' now hempty, get_fst st now hempty, h]
    refine ⟨hfst, ?_⟩
    rw [lookup_get_self st' now hempty, lookup_get_self st now hempty, hfst]

theorem delete_congr (h : st'.lookup sid = st.lookup sid) :
    (st'.delete (some sid)).1 = (st.delete (some sid)).1 ∧
      (st'.delete (some sid)).2.lookup sid = (st.delete (some sid)).2.lookup sid := by
  by_cases hempty : sid = ""
  · subst hempty
    exact ⟨rfl, h⟩
  · refine ⟨?_, ?_⟩
    · simp only [delete, hempty, if_false, h]
    · rw [lookup_delete_self st' hempty, lookup_delete_self st hempty]

end SessionStore

/-- A key of `M` is the one that is touched, or it is left alone. -/
theorem untouched_diff {M : Set Key} {ev : Event Ise} {k k' : Key} (hk : touched ev = some k)
    (hk' : k' ∈ M \ {k}) : touched ev ≠ some k' := by
  rw [hk]
  intro heq
  exact hk'.2 (Option.some.inj heq).symm

/-- What agrees apart from one key and at that key agrees. -/
theorem AgreeOn.insert_session {M : Set Key} {w w' : World} {sid : String}
    (h : AgreeOn (M \ {.session sid}) w w')
    (hsid : w'.store.lookup sid = w.store.lookup sid) : AgreeOn M w w' where
  ttl := h.ttl
  idle := h.idle
  sessions sid' hmem := by
    by_cases heq : sid' = sid
    · rw [heq, hsid]
    · exact h.sessions sid' ⟨hmem, fun hin => heq (Key.session.inj hin)⟩
  codes code hmem := h.codes code ⟨hmem, nofun⟩

theorem AgreeOn.insert_code {M : Set Key} {w w' : World} {code : String}
    (h : AgreeOn (M \ {.code code}) w w') (hcode : w'.codes.lookup code = w.codes.lookup code) :
    AgreeOn M w w' where
  ttl := h.ttl
  idle := h.idle
  sessions sid hmem := h.sessions sid ⟨hmem, nofun⟩
  codes code' hmem := by
    by_cases heq : code' = code
    · rw [heq, hcode]
    · exact h.codes code' ⟨hmem, fun hin => heq (Key.code.inj hin)⟩

theorem AgreeOn.mono {M M' : Set Key} {w w' : World} (h : AgreeOn M w w') (hM : M' ⊆ M) :
    AgreeOn M' w w' :=
  ⟨h.ttl, h.idle, fun sid hsid => h.sessions sid (hM hsid),
    fun code hcode => h.codes code (hM hcode)⟩

variable {M : Set Key} {env env' : Env} {w w' : World}

/-- The answer to a call that touches only entries of `M` is read off those entries. -/
theorem serve_answer (hw : AgreeOn M w w') (henv : env.SameAt env' w.steps w'.steps) (o : Op)
    (hM : ∀ k, touched ⟨o, (serve env w o).1⟩ = some k → k ∈ M) :
    (serve env' w' o).1 = (serve env w o).1 := by
  cases o with
  | createSession username auth =>
      show (w'.store.create _ _ _ _).1 = (w.store.create _ _ _ _).1
      rw [henv.now, henv.token]
      simp only [SessionStore.create, hw.ttl, hw.idle]
  | getSession tok =>
      cases tok with
      | none => rfl
      | some sid =>
          show (w'.store.get _ _).1 = (w.store.get _ _).1
          rw [henv.now]
          exact (SessionStore.get_congr (hw.sessions sid (hM _ rfl)) _).1
  | deleteSession tok =>
      cases tok with
      | none => rfl
      | some sid => exact (SessionStore.delete_congr (hw.sessions sid (hM _ rfl))).1
  | issueCode grant => exact congrArg Token.text henv.token
  | popCode tok =>
      cases tok with
      | none => rfl
      | some code =>
          show w'.codes.fresh _ _ = w.codes.fresh _ _
          rw [henv.now]
          simp only [CodeTable.fresh, Option.bind_some, hw.codes code (hM _ rfl)]
  | send h => exact henv.outcome
  | probe h => exact henv.outcome
  | _ => rfl

/-- Keys that neither call touches stay as they agree. -/
theorem AgreeOn.serve_untouched (hw : AgreeOn M w w') {o : Op}
    (h : ∀ k ∈ M, touched ⟨o, (serve env w o).1⟩ ≠ some k)
    (h' : ∀ k ∈ M, touched ⟨o, (serve env' w' o).1⟩ ≠ some k) :
    AgreeOn M (serve env w o).2 (serve env' w' o).2 :=
  ((AgreeOn.untouched env w o h).symm.trans hw).trans (AgreeOn.untouched env' w' o h')

/-- Such a call leaves the entries as they agree. -/
theorem serve_agrees (hw : AgreeOn M w w') (henv : env.SameAt env' w.steps w'.steps) (o : Op)
    (hM : ∀ k, touched ⟨o, (serve env w o).1⟩ = some k → k ∈ M) :
    AgreeOn M (serve env w o).2 (serve env' w' o).2 := by
  have hans := serve_answer hw henv o hM
  cases hk : touched ⟨o, (serve env w o).1⟩ with
  | none =>
      refine hw.serve_untouched (fun k _ => ?_) fun k _ => ?_
      · rw [hk]
        exact nofun
      · rw [hans, hk]
        exact nofun
  | some k =>
      have hk' : touched ⟨o, (serve env' w' o).1⟩ = some k := by rw [hans, hk]
      have hrest : AgreeOn (M \ {k}) (serve env w o).2 (serve env' w' o).2 :=
        (hw.mono Set.sdiff_subset).serve_untouched (fun _ h => untouched_diff hk h)
          fun _ h => untouched_diff hk' h
      have hmem := hM k hk
      cases o with
      | createSession username auth =>
          cases hk
          refine hrest.insert_session ?_
          show (w'.store.create _ _ _ _).2.lookup (env.token w.steps).text
            = (w.store.create _ _ _ _).2.lookup (env.token w.steps).text
          rw [henv.now, henv.token, SessionStore.lookup_create_self,
            SessionStore.lookup_create_self, hw.ttl, hw.idle]
      | getSession tok =>
          obtain ⟨sid, rfl, rfl⟩ := Option.map_eq_some_iff.mp hk
          refine hrest.insert_session ?_
          show (w'.store.get _ _).2.lookup sid = (w.store.get _ _).2.lookup sid
          rw [henv.now]
          exact (SessionStore.get_congr (hw.sessions sid hmem) _).2
      | deleteSession tok =>
          obtain ⟨sid, rfl, rfl⟩ := Option.map_eq_some_iff.mp hk
          exact hrest.insert_session (SessionStore.delete_congr (hw.sessions sid hmem)).2
      | issueCode grant =>
          cases hk
          refine hrest.insert_code ?_
          show (w'.codes.issue _ _ _).lookup (env.token w.steps).text
            = (w.codes.issue _ _ _).lookup (env.token w.steps).text
          rw [henv.now, henv.token, CodeTable.lookup_issue_self, CodeTable.lookup_issue_self]
      | popCode tok =>
          obtain ⟨code, rfl, rfl⟩ := Option.map_eq_some_iff.mp hk
          refine hrest.insert_code ?_
          show (w'.codes.remove _).lookup code = (w.codes.remove _).lookup code
          rw [CodeTable.lookup_remove_self, CodeTable.lookup_remove_self]
      | _ => cases hk

/-! ## Runs -/

/-- The outside as it is at the steps `pick 0`, `pick 1`, … -/
def Env.sampled (env : Env) (pick : Nat → Nat) : Env where
  now n := env.now (pick n)
  token n := env.token (pick n)
  outcome n := env.outcome (pick n)

/-- The steps of these entries, and then those from `m` on. -/
def stepsOf (l : ServerLog) (m n : Nat) : Nat := (l.map (·.before.steps))[n]?.getD (m + n)

theorem stepsOf_eq {l pre post : ServerLog} {e : Entry Ise World} (hl : l = pre ++ e :: post)
    (m : Nat) : stepsOf l m pre.length = e.before.steps := by
  rw [stepsOf, hl, List.map_append, List.map_cons,
    List.getElem?_append_right (by rw [List.length_map]), List.length_map, Nat.sub_self,
    List.getElem?_cons_zero, Option.getD_some]

/-- With the steps of these entries the outside is at each of them as it was. -/
theorem sampled_sameAt {l pre post : ServerLog} {e : Entry Ise World} (env : Env)
    (hl : l = pre ++ e :: post) (m : Nat) :
    env.SameAt (env.sampled (stepsOf l m)) e.before.steps pre.length := by
  rw [← stepsOf_eq hl m]
  exact ⟨rfl, rfl, rfl⟩

/-- The steps of our calls, in their order. -/
def ourSteps (mine : Nat → Bool) (log : ServerLog) : Nat → Nat :=
  stepsOf (log.filter (mine ·.task)) log.length

/-- The keys that our calls touch. -/
def ourKeys (mine : Nat → Bool) (log : ServerLog) : Set Key :=
  {k | ∃ e ∈ log, mine e.task = true ∧ touched e.event = some k}

/-- No session id and no code is touched by a call of ours and by a call of another. -/
def Apart (mine : Nat → Bool) (log : ServerLog) : Prop :=
  ∀ e ∈ log, ∀ e' ∈ log, mine e.task = true → mine e'.task = false →
    touched e.event ≠ none → touched e'.event ≠ touched e.event

instance (mine : Nat → Bool) (log : ServerLog) : Decidable (Apart mine log) :=
  inferInstanceAs (Decidable (∀ e ∈ log, _))

section

variable {deps : Deps} {env : Env} {moves : List (Move ServerRequest)} {mine : Nat → Bool}

/-- An increasing list of numbers below `m`, and then the numbers from `m` on. -/
theorem strictMono_getD {l : List Nat} {m : Nat} (hl : l.Pairwise (· < ·)) (hm : ∀ n ∈ l, n < m) :
    StrictMono fun n => l[n]?.getD (m + n) := by
  refine strictMono_nat_of_lt_succ fun n => ?_
  by_cases hsucc : n + 1 < l.length
  · have hn : n < l.length := by omega
    simp only [List.getElem?_eq_getElem hn, List.getElem?_eq_getElem hsucc, Option.getD_some]
    exact List.pairwise_iff_getElem.mp hl n (n + 1) hn hsucc (Nat.lt_succ_self n)
  · have hnone : l[n + 1]? = none := List.getElem?_eq_none (by omega)
    rw [hnone, Option.getD_none]
    cases hn : l[n]? with
    | none =>
        rw [Option.getD_none]
        omega
    | some x =>
        have hx := hm x (List.mem_of_getElem? hn)
        rw [Option.getD_some]
        omega

theorem steps_lt_length {e : Entry Ise World} (he : e ∈ (serverRun deps env moves).log) :
    e.before.steps < (serverRun deps env moves).log.length := by
  obtain ⟨i, hi, rfl⟩ := List.getElem_of_mem he
  rw [run_getElem_steps]
  exact hi

/-- Our steps come one after the other. -/
theorem ourSteps_strictMono : StrictMono (ourSteps mine (serverRun deps env moves).log) := by
  refine strictMono_getD (List.pairwise_map.mpr (run_steps_lt.filter _)) fun n hn => ?_
  obtain ⟨e, he, rfl⟩ := List.mem_map.mp hn
  exact steps_lt_length (List.mem_filter.mp he).1

end

/-- **Strangers make no difference**: if no session id and no code is touched both by requests of
ours and by others, ours do and get what they would do and get without the others, where at each of
our calls the clock, the drawn tokens and ISE are as they were at that call. -/
theorem strangers_irrelevant (deps : Deps) (env : Env) (moves : List (Move ServerRequest))
    (mine : Nat → Bool) (hapart : Apart mine (serverRun deps env moves).log) :
    StrictMono (ourSteps mine (serverRun deps env moves).log) ∧
      SameFor mine (serverRun deps env moves)
        (serverRun deps (env.sampled (ourSteps mine (serverRun deps env moves).log))
          (moves.filter (Move.ours mine))) := by
  refine ⟨@ourSteps_strictMono deps env moves mine, ?_⟩
  -- the machines agree on what our calls touch, and the second counts only our steps
  refine (run_restrict mine (R := fun pre w w' =>
    AgreeOn (ourKeys mine (serverRun deps env moves).log) w w' ∧
      w'.steps = (pre.filter (mine ·.task)).length) ⟨.refl _ _, rfl⟩ moves
    (fun pre e post w' hlog he hR => ?_) fun pre e post w' hlog he hR => ?_).1
  · obtain ⟨hagree, hsteps⟩ := hR
    change (serverRun deps env moves).log = pre ++ e :: post at hlog
    have hours : (serverRun deps env moves).log.filter (mine ·.task)
        = pre.filter (mine ·.task) ++ e :: post.filter (mine ·.task) := by
      rw [hlog, List.filter_append,
        List.filter_cons_of_pos (p := fun e : Entry Ise World => mine e.task) he]
    have hsame := sampled_sameAt env hours (serverRun deps env moves).log.length
    rw [← hsteps] at hsame
    have hans := (run_before hlog).2
    have hkeys : ∀ k, touched ⟨e.event.1, (serve env e.before e.event.1).1⟩ = some k →
        k ∈ ourKeys mine (serverRun deps env moves).log := by
      rw [← hans]
      exact fun k hk => ⟨e, hlog ▸ List.mem_append_right _ List.mem_cons_self, he, hk⟩
    refine ⟨(serve_answer hagree hsame _ hkeys).trans hans.symm,
      serve_agrees hagree hsame _ hkeys, ?_⟩
    rw [serve_steps, hsteps, List.filter_append, List.length_append,
      List.filter_cons_of_pos (p := fun e : Entry Ise World => mine e.task) he]
    rfl
  · obtain ⟨hagree, hsteps⟩ := hR
    have hans := (run_before hlog).2
    have hkeys : ∀ k ∈ ourKeys mine (serverRun deps env moves).log,
        touched ⟨e.event.1, (serve env e.before e.event.1).1⟩ ≠ some k := by
      rw [← hans]
      rintro k ⟨e', he', hours, hk⟩
      rw [← hk]
      exact hapart e' he' e (hlog ▸ List.mem_append_right _ List.mem_cons_self) hours he
        (by rw [hk]; exact nofun)
    refine ⟨(AgreeOn.untouched env e.before _ hkeys).symm.trans hagree, ?_⟩
    rw [hsteps, List.filter_append, List.length_append, List.filter_cons_of_neg (by simp [he])]
    rfl

/-- Alice and Bob log in at the same time, and Alice asks who she is. -/
def twoLogins : List (Move ServerRequest) :=
  [.spawn (.tool none (.iseLogin "alice" "pw")), .spawn (.tool none (.iseLogin "bob" "pw2"))]
    ++ (List.replicate 5 [.advance 0, .advance 1]).flatten
    ++ [.spawn (.tool (some [(Text.utf8Encode "X-MCP-Session", Text.utf8Encode "aaaaaaaaa")])
          .iseWhoami), .advance 2]

/-- The tasks of Alice. -/
def ofAlice (i : Nat) : Bool := i != 1

/-- Alice would have been answered the same had Bob not come. -/
theorem strangers_irrelevant_alice :
    StrictMono (ourSteps ofAlice (serverRun passthroughDeps sampleEnv twoLogins).log) ∧
      SameFor ofAlice (serverRun passthroughDeps sampleEnv twoLogins)
        (serverRun passthroughDeps
          (sampleEnv.sampled (ourSteps ofAlice (serverRun passthroughDeps sampleEnv twoLogins).log))
          (twoLogins.filter (Move.ours ofAlice))) :=
  strangers_irrelevant passthroughDeps sampleEnv twoLogins ofAlice (by decide +kernel)

end IseMcp
