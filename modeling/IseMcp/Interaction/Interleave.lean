import IseMcp.Interaction.Prog

set_option autoImplicit false

/-! # Tasks that share a machine

Any number of tasks, each running a program, take turns at one machine. A task is started by a
request; a move of the system starts a task or lets one task make its next call, which the
machine answers at once. The order of the moves is arbitrary, so a statement about every list of
moves is a statement about every interleaving.

The log records each call with the task that made it and the machine just before it. Two facts
reduce a run of the system to the two things it is made of:

* `run_path`: the entries of one task form a path of that task's program, so an entry is a call
  that the program makes after the entries before it (`run_call`);
* `run_before`: the machine before an entry is the one that the calls before it lead to, so every
  invariant of the machine holds there (`run_history`).
-/

namespace Interaction

open Prog

variable {S : Sig} {W Req α : Type}

/-- One call in the log: the task that made it, the machine before it, the call and its
answer. -/
structure Entry (S : Sig) (W : Type) where
  task : Nat
  before : W
  event : Event S

/-- A request and what is left of the program that serves it. -/
structure Task (S : Sig) (Req α : Type) where
  req : Req
  left : Prog S α

/-- The machine, the tasks in the order they were started, and the log. -/
structure Sys (S : Sig) (W Req α : Type) where
  world : W
  tasks : List (Task S Req α)
  log : List (Entry S W)

/-- A move of the scheduler. -/
inductive Move (Req : Type) where
  | spawn (r : Req)
  | advance (i : Nat)

section

variable (program : Req → Prog S α) (serve : W → (o : S.Op) → S.Ans o × W)

/-- One move. Advancing a task that has finished or does not exist changes nothing. -/
def Sys.move (s : Sys S W Req α) : Move Req → Sys S W Req α
  | .spawn r => { s with tasks := s.tasks ++ [⟨r, program r⟩] }
  | .advance i =>
      match s.tasks[i]? with
      | some ⟨r, .call o k⟩ =>
          { world := (serve s.world o).2
            tasks := s.tasks.set i ⟨r, k (serve s.world o).1⟩
            log := s.log ++ [⟨i, s.world, ⟨o, (serve s.world o).1⟩⟩] }
      | _ => s

/-- The system after a list of moves, from the machine `w` with no task. -/
def Sys.run (w : W) (moves : List (Move Req)) : Sys S W Req α :=
  moves.foldl (Sys.move program serve) ⟨w, [], []⟩

/-- The machine after a list of calls. -/
def runOps (w : W) (ops : List S.Op) : W := ops.foldl (fun w o => (serve w o).2) w

end

/-- What task `i` did, in order. -/
def eventsOf (log : List (Entry S W)) (i : Nat) : List (Event S) :=
  (log.filter (·.task == i)).map (·.event)

@[simp] theorem eventsOf_nil (i : Nat) : eventsOf ([] : List (Entry S W)) i = [] := rfl

theorem eventsOf_append (l l' : List (Entry S W)) (i : Nat) :
    eventsOf (l ++ l') i = eventsOf l i ++ eventsOf l' i := by
  simp [eventsOf]

theorem eventsOf_cons_self (e : Entry S W) (l : List (Entry S W)) :
    eventsOf (e :: l) e.task = e.event :: eventsOf l e.task := by
  simp [eventsOf]

theorem eventsOf_singleton_ne {e : Entry S W} {i : Nat} (h : e.task ≠ i) :
    eventsOf [e] i = [] := by
  simp [eventsOf, h]

theorem mem_eventsOf {log : List (Entry S W)} {i : Nat} {ev : Event S} :
    ev ∈ eventsOf log i ↔ ∃ e ∈ log, e.task = i ∧ e.event = ev := by
  simp [eventsOf, and_assoc]

/-- Two things that one task did in order stand in the log in that order. -/
theorem eventsOf_split {log : List (Entry S W)} {i : Nat} {ev : Event S} {es₁ es₂ : List (Event S)}
    (h : eventsOf log i = es₁ ++ ev :: es₂) :
    ∃ pre e post, log = pre ++ e :: post ∧ e.task = i ∧ e.event = ev ∧
      eventsOf pre i = es₁ ∧ eventsOf post i = es₂ := by
  induction log generalizing es₁ with
  | nil => simp at h
  | cons e log ih =>
      by_cases hi : e.task = i
      -- the first entry is of this task: the event, or the first of `es₁`
      · subst hi
        rw [eventsOf_cons_self] at h
        cases es₁ with
        | nil =>
            obtain ⟨h₁, h₂⟩ := List.cons.inj h
            exact ⟨[], e, log, rfl, rfl, h₁, rfl, h₂⟩
        | cons a es₁ =>
            obtain ⟨h₁, h₂⟩ := List.cons.inj h
            obtain ⟨pre, e', post, rfl, ht, hev, hpre, hpost⟩ := ih h₂
            refine ⟨e :: pre, e', post, rfl, ht, hev, ?_, hpost⟩
            rw [eventsOf_cons_self, hpre, h₁]
      · have hne : eventsOf (e :: log) i = eventsOf log i := by
          rw [← List.singleton_append, eventsOf_append, eventsOf_singleton_ne hi, List.nil_append]
        rw [hne] at h
        obtain ⟨pre, e', post, rfl, ht, hev, hpre, hpost⟩ := ih h
        refine ⟨e :: pre, e', post, rfl, ht, hev, ?_, hpost⟩
        rw [← List.singleton_append, eventsOf_append, eventsOf_singleton_ne hi, List.nil_append,
          hpre]

/-- The first event of a task has an entry. -/
theorem eventsOf_head {log : List (Entry S W)} {i : Nat} {ev : Event S} {es : List (Event S)}
    (h : eventsOf log i = ev :: es) :
    ∃ pre e post, log = pre ++ e :: post ∧ e.task = i ∧ e.event = ev := by
  obtain ⟨pre, e, post, hlog, htask, hev, _, _⟩ :=
    eventsOf_split (h.trans (List.nil_append _).symm)
  exact ⟨pre, e, post, hlog, htask, hev⟩

variable {program : Req → Prog S α} {serve : W → (o : S.Op) → S.Ans o × W}

theorem run_snoc (w : W) (moves : List (Move Req)) (m : Move Req) :
    Sys.run program serve w (moves ++ [m])
      = Sys.move program serve (Sys.run program serve w moves) m := by
  simp [Sys.run]

theorem runOps_append (w : W) (ops ops' : List S.Op) :
    runOps serve w (ops ++ ops') = runOps serve (runOps serve w ops) ops' := by
  simp [runOps]

variable (program serve) in
/-- What one move does: it starts a task, lets a task make its next call, or nothing. -/
theorem move_cases (s : Sys S W Req α) (m : Move Req) :
    (∃ r, Sys.move program serve s m = { s with tasks := s.tasks ++ [⟨r, program r⟩] }) ∨
    (∃ i r o k, s.tasks[i]? = some ⟨r, .call o k⟩ ∧
      Sys.move program serve s m =
        { world := (serve s.world o).2
          tasks := s.tasks.set i ⟨r, k (serve s.world o).1⟩
          log := s.log ++ [⟨i, s.world, ⟨o, (serve s.world o).1⟩⟩] }) ∨
    Sys.move program serve s m = s := by
  cases m with
  | spawn r => exact Or.inl ⟨r, rfl⟩
  | advance i =>
      rcases ht : s.tasks[i]? with _ | ⟨r, a | ⟨o, k⟩⟩
      · exact Or.inr (Or.inr (by simp [Sys.move, ht]))
      · exact Or.inr (Or.inr (by simp [Sys.move, ht]))
      · exact Or.inr (Or.inl ⟨i, r, o, k, ht, by simp [Sys.move, ht]⟩)

/-- Induction over the moves of a run: what holds of the empty system and is kept by every
move holds of every run. -/
theorem run_induction {P : Sys S W Req α → Prop} {w : W} (h0 : P ⟨w, [], []⟩)
    (hmove : ∀ s m, P s → P (Sys.move program serve s m)) (moves : List (Move Req)) :
    P (Sys.run program serve w moves) := by
  induction moves using List.reverseRecOn with
  | nil => exact h0
  | append_singleton moves m ih =>
      rw [run_snoc]
      exact hmove _ _ ih

/-! ## The entries of one task -/

/-- Every task is where its own entries of the log lead, and every entry has a task. -/
def Sys.Coherent (program : Req → Prog S α) (s : Sys S W Req α) : Prop :=
  (∀ i t, s.tasks[i]? = some t → Path (program t.req) (eventsOf s.log i) t.left) ∧
  ∀ e ∈ s.log, e.task < s.tasks.length

theorem coherent_move {s : Sys S W Req α} (m : Move Req) (hs : s.Coherent program) :
    (Sys.move program serve s m).Coherent program := by
  obtain ⟨hpath, hlt⟩ := hs
  rcases move_cases program serve s m with ⟨r, h⟩ | ⟨i, r, o, k, hi, h⟩ | h <;> rw [h]
  -- a new task has made no entry yet
  · refine ⟨fun j t hj => ?_, fun e he => ?_⟩
    · by_cases hlen : j < s.tasks.length
      · rw [List.getElem?_append_left hlen] at hj
        exact hpath j t hj
      · rw [List.getElem?_append_right (Nat.le_of_not_lt hlen)] at hj
        have hnone : eventsOf s.log j = [] := by
          rw [List.eq_nil_iff_forall_not_mem]
          intro ev hev
          obtain ⟨e, he, rfl, _⟩ := mem_eventsOf.mp hev
          exact hlen (hlt e he)
        have ht := List.mem_singleton.mp (List.mem_of_getElem? hj)
        rw [ht, hnone]
        exact .nil _
    · have := hlt e he
      simp only [List.length_append]
      omega
  -- a step moves its own task along its path and leaves the others
  · have hilt : i < s.tasks.length := (List.getElem?_eq_some_iff.mp hi).1
    refine ⟨fun j t hj => ?_, fun e he => ?_⟩
    · simp only [eventsOf_append]
      by_cases hij : i = j
      · subst hij
        rw [List.getElem?_set_self hilt, Option.some.injEq] at hj
        subst hj
        have := (hpath i _ hi).snoc (serve s.world o).1
        simpa [eventsOf] using this
      · rw [List.getElem?_set_ne hij] at hj
        rw [eventsOf_singleton_ne (by simpa using hij), List.append_nil]
        exact hpath j t hj
    · simp only [List.length_set]
      rcases List.mem_append.mp he with he | he
      · exact hlt e he
      · rw [List.mem_singleton] at he
        rw [he]
        exact hilt
  · exact ⟨hpath, hlt⟩

theorem run_coherent (w : W) (moves : List (Move Req)) :
    (Sys.run program serve w moves).Coherent program :=
  run_induction ⟨by simp, by simp⟩ (fun _ m hs => coherent_move m hs) moves

/-- **The entries of a task form a path of its program.** -/
theorem run_path {w : W} {moves : List (Move Req)} {i : Nat} {t : Task S Req α}
    (h : (Sys.run program serve w moves).tasks[i]? = some t) :
    Path (program t.req) (eventsOf (Sys.run program serve w moves).log i) t.left :=
  (run_coherent w moves).1 i t h

/-- Every entry was made by a task. -/
theorem run_task {w : W} {moves : List (Move Req)} {e : Entry S W}
    (he : e ∈ (Sys.run program serve w moves).log) :
    ∃ t, (Sys.run program serve w moves).tasks[e.task]? = some t :=
  ⟨_, List.getElem?_eq_getElem ((run_coherent w moves).2 e he)⟩

/-- **An entry is a call that a path of its task's program reaches**, after what the same task
did before. -/
theorem run_call {w : W} {moves : List (Move Req)} {pre post : List (Entry S W)} {e : Entry S W}
    (hlog : (Sys.run program serve w moves).log = pre ++ e :: post) :
    ∃ t k, (Sys.run program serve w moves).tasks[e.task]? = some t ∧
      Path (program t.req) (eventsOf pre e.task) (.call e.event.1 k) := by
  have he : e ∈ (Sys.run program serve w moves).log := by
    rw [hlog]
    simp
  obtain ⟨t, ht⟩ := run_task he
  have hpath := run_path ht
  rw [hlog, eventsOf_append, eventsOf_cons_self] at hpath
  obtain ⟨k, hk⟩ := hpath.before
  exact ⟨t, k, ht, hk⟩

/-! ## The machine -/

/-- Each entry of the log starts where the one before it left the machine, and records the
answer of the machine. -/
def Linked (serve : W → (o : S.Op) → S.Ans o × W) : W → List (Entry S W) → Prop
  | _, [] => True
  | w, e :: es =>
      e.before = w ∧ e.event.2 = (serve w e.event.1).1 ∧ Linked serve (serve w e.event.1).2 es

theorem linked_append {w : W} {l l' : List (Entry S W)} :
    Linked serve w (l ++ l') ↔
      Linked serve w l ∧ Linked serve (runOps serve w (l.map (·.event.1))) l' := by
  induction l generalizing w with
  | nil => simp [Linked, runOps]
  | cons e l ih =>
      simp only [List.cons_append, Linked, ih, List.map_cons, runOps, List.foldl_cons, and_assoc]

variable (program serve) in
theorem run_linked (w : W) (moves : List (Move Req)) :
    Linked serve w (Sys.run program serve w moves).log ∧
      (Sys.run program serve w moves).world
        = runOps serve w ((Sys.run program serve w moves).log.map (·.event.1)) := by
  refine run_induction (P := fun s => Linked serve w s.log ∧
    s.world = runOps serve w (s.log.map (·.event.1))) ⟨trivial, rfl⟩ (fun s m hs => ?_) moves
  obtain ⟨hl, hw⟩ := hs
  rcases move_cases program serve s m with
    ⟨r, h⟩ | ⟨i, r, o, k, hi, h⟩ | h <;> rw [h]
  · exact ⟨hl, hw⟩
  · refine ⟨linked_append.mpr ⟨hl, ?_⟩, ?_⟩
    · rw [← hw]
      exact ⟨rfl, rfl, trivial⟩
    · rw [List.map_append, runOps_append, ← hw]
      rfl
  · exact ⟨hl, hw⟩

/-- **The machine before an entry is the one the earlier calls lead to**, and the entry records
its answer. -/
theorem run_before {w : W} {moves : List (Move Req)} {pre post : List (Entry S W)}
    {e : Entry S W} (hlog : (Sys.run program serve w moves).log = pre ++ e :: post) :
    e.before = runOps serve w (pre.map (·.event.1)) ∧
      e.event.2 = (serve e.before e.event.1).1 := by
  have h := (run_linked program serve w moves).1
  rw [hlog, linked_append] at h
  obtain ⟨_, hb, ha, _⟩ := h
  exact ⟨hb, hb ▸ ha⟩

/-- The answer in an entry is the machine's. -/
theorem run_answer {w : W} {moves : List (Move Req)} {pre post : List (Entry S W)}
    {e : Entry S W} (hlog : (Sys.run program serve w moves).log = pre ++ e :: post) {o : S.Op}
    {x : S.Ans o} (hev : e.event = ⟨o, x⟩) : x = (serve e.before o).1 := by
  have hans := (run_before hlog).2
  rw [hev] at hans
  exact hans

/-- Invariants of the machine that speak about the log: what holds at the start and is kept by
every answered call holds after every part of every run. -/
theorem linked_history {I : List (Entry S W) → W → Prop} {w : W} (h0 : I [] w)
    (hstep : ∀ l w' i o, I l w' →
      I (l ++ [⟨i, w', ⟨o, (serve w' o).1⟩⟩]) (serve w' o).2)
    {l : List (Entry S W)} (hl : Linked serve w l) :
    I l (runOps serve w (l.map (·.event.1))) := by
  induction l using List.reverseRecOn with
  | nil => exact h0
  | append_singleton l e ih =>
      rw [linked_append] at hl
      obtain ⟨hl, hb, ha, _⟩ := hl
      obtain ⟨i, b, ⟨o, x⟩⟩ := e
      simp only at hb ha
      subst hb ha
      have := hstep l _ i o (ih hl)
      simpa [runOps] using this

/-- The invariant at an entry of a run: it holds of what came before and of the machine there. -/
theorem run_history {I : List (Entry S W) → W → Prop} {w : W} (h0 : I [] w)
    (hstep : ∀ l w' i o, I l w' →
      I (l ++ [⟨i, w', ⟨o, (serve w' o).1⟩⟩]) (serve w' o).2)
    {moves : List (Move Req)} {pre post : List (Entry S W)} {e : Entry S W}
    (hlog : (Sys.run program serve w moves).log = pre ++ e :: post) : I pre e.before := by
  have hl := (run_linked program serve w moves).1
  rw [hlog, linked_append] at hl
  rw [(run_before hlog).1]
  exact linked_history h0 hstep hl.1

/-- The invariant just after an entry. -/
theorem run_history_after {I : List (Entry S W) → W → Prop} {w : W} (h0 : I [] w)
    (hstep : ∀ l w' i o, I l w' →
      I (l ++ [⟨i, w', ⟨o, (serve w' o).1⟩⟩]) (serve w' o).2)
    {moves : List (Move Req)} {pre post : List (Entry S W)} {e : Entry S W}
    (hlog : (Sys.run program serve w moves).log = pre ++ e :: post) :
    I (pre ++ [e]) (serve e.before e.event.1).2 := by
  have hI := hstep pre e.before e.task e.event.1 (run_history h0 hstep hlog)
  rw [← (run_before hlog).2] at hI
  exact hI

variable (program serve) in
/-- The invariant at the end of a run. -/
theorem run_history_end {I : List (Entry S W) → W → Prop} {w : W} (h0 : I [] w)
    (hstep : ∀ l w' i o, I l w' →
      I (l ++ [⟨i, w', ⟨o, (serve w' o).1⟩⟩]) (serve w' o).2) (moves : List (Move Req)) :
    I (Sys.run program serve w moves).log (Sys.run program serve w moves).world := by
  obtain ⟨hl, hw⟩ := run_linked program serve w moves
  rw [hw]
  exact linked_history h0 hstep hl

end Interaction
