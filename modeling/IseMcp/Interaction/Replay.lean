import IseMcp.Interaction.Interleave

set_option autoImplicit false

/-! # Replaying a log

A list of calls with their answers can be replayed at a machine if each call is answered there as
it is in the list (`Answered`), and the calls of every task are a path of its program. Then the run
that advances the tasks in the order of the list makes exactly these calls (`run_replay`). So a run
is reordered by reordering its log.
-/

namespace Interaction

open Prog

variable {S : Sig} {W W' Req α : Type}

/-- The calls, made one after the other, are answered by the machine as they are in the list. -/
def Answered (serve : W → (o : S.Op) → S.Ans o × W) (w : W) (l : List (Entry S W')) : Prop :=
  ∀ pre e post, l = pre ++ e :: post →
    e.event.2 = (serve (runOps serve w (pre.map (·.event.1))) e.event.1).1

/-- The moves that start these tasks, and advance them in the order of the list. -/
def replay (tasks : List (Task S Req α)) (l : List (Entry S W')) : List (Move Req) :=
  tasks.map (fun t => .spawn t.req) ++ l.map (fun e => .advance e.task)

variable {program : Req → Prog S α} {serve : W → (o : S.Op) → S.Ans o × W} {w : W}

theorem run_spawns (tasks : List (Task S Req α)) :
    Sys.run program serve w (tasks.map fun t => .spawn t.req)
      = ⟨w, tasks.map fun t => ⟨t.req, program t.req⟩, []⟩ := by
  induction tasks using List.reverseRecOn with
  | nil => rfl
  | append_singleton tasks t ih =>
      rw [List.map_append, List.map_singleton, run_snoc, ih, List.map_append, List.map_singleton]
      rfl

/-- Replaying the calls of other tasks, or earlier ones, needs the same requests. -/
theorem replay_set {tasks : List (Task S Req α)} {i : Nat} {t : Task S Req α}
    (ht : tasks[i]? = some t) (p : Prog S α) (l : List (Entry S W')) :
    replay (tasks.set i ⟨t.req, p⟩) l = replay tasks l := by
  obtain ⟨hi, rfl⟩ := List.getElem?_eq_some_iff.mp ht
  have hreqs : (tasks.set i ⟨tasks[i].req, p⟩).map (fun t => (.spawn t.req : Move Req))
      = tasks.map fun t => .spawn t.req := by
    refine List.ext_getElem (by simp) fun j h _ => ?_
    rw [List.getElem_map, List.getElem_map, List.getElem_set]
    split_ifs with hj
    · subst hj
      rfl
    · rfl
  rw [replay, replay, hreqs]

/-- The last call of a path, and what is left before it. -/
theorem Prog.Path.last {p q : Prog S α} {es : List (Event S)} {ev : Event S}
    (h : Path p (es ++ [ev]) q) : ∃ k, Path p es (.call ev.1 k) ∧ q = k ev.2 := by
  obtain ⟨k, hk⟩ := h.before
  obtain ⟨o, x⟩ := ev
  cases hk.rest h with
  | cons hnil => exact ⟨k, hk, (path_nil_iff _ _).mp hnil⟩

/-- **A log that is answered by the machine is made by a run.** -/
theorem run_replay {l : List (Entry S W')} {tasks : List (Task S Req α)}
    (hpath : ∀ i t, tasks[i]? = some t → Path (program t.req) (eventsOf l i) t.left)
    (htask : ∀ e ∈ l, e.task < tasks.length) (hans : Answered serve w l) :
    (Sys.run program serve w (replay tasks l)).tasks = tasks ∧
      (∀ i, eventsOf (Sys.run program serve w (replay tasks l)).log i = eventsOf l i) ∧
      (Sys.run program serve w (replay tasks l)).world
        = runOps serve w (l.map (·.event.1)) := by
  induction l using List.reverseRecOn generalizing tasks with
  | nil =>
      have hstart : replay tasks ([] : List (Entry S W')) = tasks.map fun t => .spawn t.req :=
        List.append_nil _
      rw [hstart, run_spawns]
      refine ⟨List.ext_getElem? fun i => ?_, fun _ => rfl, rfl⟩
      rw [List.getElem?_map]
      cases hi : tasks[i]? with
      | none => rfl
      | some t =>
          have hleft := (path_nil_iff _ _).mp (hpath i t hi)
          rw [Option.map_some, ← hleft]
  | append_singleton l e ih =>
      have hlen : e.task < tasks.length := htask e (by simp)
      obtain ⟨t, ht⟩ : ∃ t, tasks[e.task]? = some t := ⟨_, List.getElem?_eq_getElem hlen⟩
      -- before the last call its task is at that call
      have hlast := hpath e.task t ht
      rw [eventsOf_append, eventsOf_cons_self, eventsOf_nil] at hlast
      obtain ⟨k, hk, hleft⟩ := hlast.last
      have hpath' : ∀ i u, (tasks.set e.task ⟨t.req, .call e.event.1 k⟩)[i]? = some u →
          Path (program u.req) (eventsOf l i) u.left := by
        intro i u hu
        by_cases hi : e.task = i
        · subst hi
          rw [List.getElem?_set_self hlen] at hu
          cases hu
          exact hk
        · rw [List.getElem?_set_ne hi] at hu
          have hother := hpath i u hu
          rwa [eventsOf_append, eventsOf_singleton_ne hi, List.append_nil] at hother
      have htask' : ∀ x ∈ l, x.task < (tasks.set e.task ⟨t.req, .call e.event.1 k⟩).length := by
        intro x hx
        rw [List.length_set]
        exact htask x (List.mem_append_left _ hx)
      have hans' : Answered serve w l := fun pre x post hl =>
        hans pre x (post ++ [e]) (by rw [hl, List.append_assoc, List.cons_append])
      have hnow := hans l e [] rfl
      obtain ⟨htasks, hevents, hworld⟩ := ih hpath' htask' hans'
      rw [replay_set ht] at htasks hevents hworld
      have hmoves : replay tasks (l ++ [e]) = replay tasks l ++ [.advance e.task] := by
        rw [replay, replay, List.map_append, ← List.append_assoc]
        rfl
      have hset : (tasks.set e.task ⟨t.req, .call e.event.1 k⟩)[e.task]?
          = some ⟨t.req, .call e.event.1 k⟩ := List.getElem?_set_self hlen
      rw [hmoves, run_snoc, Sys.move, htasks, hset]
      dsimp only
      rw [hworld, ← hnow]
      refine ⟨?_, fun i => ?_, ?_⟩
      · rw [List.set_set, ← hleft]
        exact List.ext_getElem? fun i => by
          by_cases hi : e.task = i
          · rw [← hi, List.getElem?_set_self hlen, ht]
          · rw [List.getElem?_set_ne hi]
      · rw [eventsOf_append, eventsOf_append, hevents i]
        simp only [eventsOf, List.filter_cons, List.filter_nil]
        split_ifs <;> rfl
      · rw [List.map_append, runOps_append]
        rfl

/-! ## One task after the other -/

/-- The task of the first entry may come before that of the second. -/
def rankLe (rank : Nat → Nat) (e e' : Entry S W) : Bool := decide (rank e.task ≤ rank e'.task)

/-- The calls of the log, sorted by the ranks of their tasks; each task keeps its order. -/
def sortTasks (rank : Nat → Nat) (l : List (Entry S W)) : List (Entry S W) :=
  l.mergeSort (rankLe rank)

variable {rank : Nat → Nat}

theorem rankLe_trans (a b c : Entry S W) (hab : rankLe rank a b) (hbc : rankLe rank b c) :
    rankLe rank a c :=
  decide_eq_true ((of_decide_eq_true hab).trans (of_decide_eq_true hbc))

theorem rankLe_total (a b : Entry S W) : rankLe rank a b || rankLe rank b a := by
  rw [rankLe, rankLe, Bool.or_eq_true, decide_eq_true_eq, decide_eq_true_eq]
  exact le_total _ _

theorem sortTasks_perm (l : List (Entry S W)) : (sortTasks rank l).Perm l :=
  List.mergeSort_perm l _

theorem sortTasks_sorted (l : List (Entry S W)) :
    (sortTasks rank l).Pairwise fun e e' => rank e.task ≤ rank e'.task :=
  (List.pairwise_mergeSort rankLe_trans rankLe_total l).imp of_decide_eq_true

/-- What is in order already stays as it is. -/
theorem filter_sortTasks {l : List (Entry S W)} {p : Entry S W → Bool}
    (h : (l.filter p).Pairwise fun e e' => rank e.task ≤ rank e'.task) :
    (sortTasks rank l).filter p = l.filter p := by
  have hsorted : (l.filter p).Pairwise fun e e' => rankLe rank e e' = true :=
    h.imp fun hle => decide_eq_true hle
  have hsub : (l.filter p).Sublist (sortTasks rank l) :=
    List.sublist_mergeSort rankLe_trans rankLe_total hsorted List.filter_sublist
  have hfilter := hsub.filter p
  simp only [List.filter_filter, Bool.and_self] at hfilter
  exact (hfilter.eq_of_length ((sortTasks_perm l).filter p).length_eq.symm).symm

/-- Every task keeps its entries in their order. -/
theorem filter_task_sortTasks (l : List (Entry S W)) (i : Nat) :
    (sortTasks rank l).filter (·.task == i) = l.filter (·.task == i) := by
  refine filter_sortTasks (List.pairwise_of_forall_mem_list fun e he e' he' => ?_)
  rw [beq_iff_eq.mp (List.mem_filter.mp he).2, beq_iff_eq.mp (List.mem_filter.mp he').2]

theorem eventsOf_sortTasks (l : List (Entry S W)) (i : Nat) :
    eventsOf (sortTasks rank l) i = eventsOf l i := by
  rw [eventsOf, eventsOf, filter_task_sortTasks]

end Interaction
