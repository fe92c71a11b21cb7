import IseMcp.Interaction.Coroutine
import IseMcp.Interaction.Interleave

set_option autoImplicit false

/-! # How much a program does

Every operation has a weight. `Prog.Costs w n p` says that no path of `p` weighs more than `n`,
whatever the answers are. The bound of a sequence is the sum of the bounds of its parts. In a run
of several tasks the log weighs what its tasks weigh together (`cost_log`), so a bound for each
program bounds the whole run (`run_cost_le`). With the weight one a bound is a number of calls, and
a task that is advanced so many times is done (`run_served`).
-/

namespace Interaction

variable {S : Sig} {ε α β : Type}

/-- The weight of a list of calls. -/
def cost (w : S.Op → Nat) (es : List (Event S)) : Nat := (es.map fun ev => w ev.1).sum

section

variable {w : S.Op → Nat}

@[simp] theorem cost_nil : cost w [] = 0 := rfl

@[simp] theorem cost_cons (ev : Event S) (es : List (Event S)) :
    cost w (ev :: es) = w ev.1 + cost w es := by
  rw [cost, cost, List.map_cons, List.sum_cons]

theorem cost_append (es fs : List (Event S)) : cost w (es ++ fs) = cost w es + cost w fs := by
  rw [cost, cost, cost, List.map_append, List.sum_append]

theorem cost_eq_zero {es : List (Event S)} (h : ∀ ev ∈ es, w ev.1 = 0) : cost w es = 0 :=
  List.sum_eq_zero fun _ hx =>
    let ⟨ev, hev, heq⟩ := List.mem_map.mp hx
    heq ▸ h ev hev

end

namespace Prog

/-- No path of the program weighs more than `n`. -/
def Costs (w : S.Op → Nat) (n : Nat) (p : Prog S α) : Prop :=
  ∀ es q, Path p es q → cost w es ≤ n

variable {w : S.Op → Nat} {m n : Nat}

theorem costs_ret (a : α) : Costs w 0 (.ret a : Prog S α) := by
  intro es q h
  rw [((path_ret_iff _ _ _).mp h).1, cost_nil]

theorem costs_call {o : S.Op} {k : S.Ans o → Prog S α} (h : ∀ x, Costs w n (k x)) :
    Costs w (w o + n) (.call o k) := by
  intro es q hp
  rcases (path_call_iff _ _ _ _).mp hp with ⟨rfl, _⟩ | ⟨x, es', rfl, hx⟩
  · exact Nat.zero_le _
  · rw [cost_cons]
    exact Nat.add_le_add_left (h x es' q hx) _

theorem costs_op (o : S.Op) : Costs w (w o) (op o) := costs_call fun _ => costs_ret _

theorem Costs.mono {p : Prog S α} (h : Costs w m p) (hmn : m ≤ n) : Costs w n p :=
  fun es q hp => (h es q hp).trans hmn

theorem Costs.bind {p : Prog S α} {f : α → Prog S β} (hp : Costs w m p)
    (hf : ∀ a, Costs w n (f a)) : Costs w (m + n) (p >>= f) := by
  intro es q h
  rcases (path_bind_iff _ _ _ _).mp h with ⟨p', hpath, _⟩ | ⟨a, es₁, es₂, rfl, h₁, h₂⟩
  · exact (hp es p' hpath).trans (Nat.le_add_right _ _)
  · rw [cost_append]
    exact Nat.add_le_add (hp es₁ _ h₁) (hf a es₂ q h₂)

/-- A program that makes only calls without weight costs nothing. -/
theorem Only.costs {p : Prog S α} (h : Only (fun o => w o = 0) p) : Costs w 0 p :=
  fun _ _ hp => (cost_eq_zero fun _ hev => h.event hp hev).le

end Prog

namespace Coro

/-- No path of the coroutine weighs more than `n`. -/
def Costs (w : S.Op → Nat) (n : Nat) (x : Coro S ε α) : Prop := Prog.Costs w n x.run

variable {w : S.Op → Nat} {m n : Nat}

theorem costs_pure (a : α) : Costs w 0 (pure a : Coro S ε α) := Prog.costs_ret _

theorem costs_throw (e : ε) : Costs w 0 (throw e : Coro S ε α) := Prog.costs_ret _

theorem costs_ofExcept (r : Except ε α) : Costs w 0 (ofExcept r : Coro S ε α) := Prog.costs_ret _

theorem costs_op (o : S.Op) : Costs w (w o) (op o : Coro S ε _) :=
  Prog.costs_call fun _ => Prog.costs_ret _

theorem Costs.mono {x : Coro S ε α} (h : Costs w m x) (hmn : m ≤ n) : Costs w n x :=
  Prog.Costs.mono h hmn

theorem costs_bind {x : Coro S ε α} {f : α → Coro S ε β} (hx : Costs w m x)
    (hf : ∀ a, Costs w n (f a)) : Costs w (m + n) (x >>= f) := by
  unfold Costs
  rw [run_bind']
  refine Prog.Costs.bind hx fun r => ?_
  cases r with
  | ok a => exact hf a
  | error e => exact (Prog.costs_ret _).mono (Nat.zero_le _)

/-- Sequencing after a pure step costs what comes after it. -/
theorem costs_ofExcept_bind {r : Except ε α} {f : α → Coro S ε β} (hf : ∀ a, Costs w n (f a)) :
    Costs w n (ofExcept r >>= f) :=
  (costs_bind (costs_ofExcept r) hf).mono (Nat.zero_add n).le

/-- A pure end costs nothing. -/
theorem costs_bind_pure {x : Coro S ε α} {f : α → Coro S ε β} (hx : Costs w n x)
    (hf : ∀ a, Costs w 0 (f a)) : Costs w n (x >>= f) :=
  costs_bind hx hf

theorem costs_attempt {x : Coro S ε α} (hx : Costs w n x) : Costs w n (attempt x) :=
  Prog.Costs.bind hx fun _ => Prog.costs_ret _

end Coro

/-! ## Runs of several tasks -/

section

variable {W Req : Type} {w : S.Op → Nat}

/-- A log weighs what its tasks weigh together. -/
theorem cost_log {log : List (Entry S W)} {n : Nat} (h : ∀ e ∈ log, e.task < n) :
    cost w (log.map (·.event)) = ∑ i ∈ Finset.range n, cost w (eventsOf log i) := by
  induction log with
  | nil => simp
  | cons e log ih =>
      rw [List.forall_mem_cons] at h
      have hsplit : ∀ i ∈ Finset.range n, cost w (eventsOf (e :: log) i)
          = (if i = e.task then w e.event.1 else 0) + cost w (eventsOf log i) := by
        intro i _
        split_ifs with hi
        · rw [hi, eventsOf_cons_self, cost_cons]
        · rw [← List.singleton_append, eventsOf_append, eventsOf_singleton_ne (Ne.symm hi),
            List.nil_append, Nat.zero_add]
      rw [Finset.sum_congr rfl hsplit, Finset.sum_add_distrib,
        Finset.sum_ite_eq' (Finset.range n) e.task, if_pos (Finset.mem_range.mpr h.1),
        List.map_cons, cost_cons, ih h.2]

/-- If the program of every request costs at most `n`, a run with `k` requests costs at most
`n * k`. -/
theorem run_cost_le {program : Req → Prog S α} {serve : W → (o : S.Op) → S.Ans o × W} {n : Nat}
    (h : ∀ r, Prog.Costs w n (program r)) (w₀ : W) (moves : List (Move Req)) :
    cost w ((Sys.run program serve w₀ moves).log.map (·.event))
      ≤ n * (Sys.run program serve w₀ moves).tasks.length := by
  have hcoherent : (Sys.run program serve w₀ moves).Coherent program := run_coherent w₀ moves
  rw [cost_log hcoherent.2]
  have hbound : ∀ i ∈ Finset.range (Sys.run program serve w₀ moves).tasks.length,
      cost w (eventsOf (Sys.run program serve w₀ moves).log i) ≤ n := fun i hi =>
    h _ _ _ (hcoherent.1 i _ (List.getElem?_eq_getElem (Finset.mem_range.mp hi)))
  calc ∑ i ∈ Finset.range (Sys.run program serve w₀ moves).tasks.length,
        cost w (eventsOf (Sys.run program serve w₀ moves).log i)
      ≤ (Finset.range (Sys.run program serve w₀ moves).tasks.length).card • n :=
        Finset.sum_le_card_nsmul _ _ _ hbound
    _ = n * (Sys.run program serve w₀ moves).tasks.length := by
        rw [Finset.card_range, smul_eq_mul, Nat.mul_comm]

end

/-! ## Tasks that come to their end -/

section

variable {W Req : Type}

/-- The weight of a single call. -/
def steps (_ : S.Op) : Nat := 1

theorem cost_steps (es : List (Event S)) : cost steps es = es.length := by
  induction es with
  | nil => rfl
  | cons ev es ih =>
      rw [cost_cons, ih, List.length_cons]
      exact Nat.add_comm 1 es.length

/-- Whether the move advances task `i`. -/
def Move.advances (i : Nat) : Move Req → Bool
  | .spawn _ => false
  | .advance j => j == i

variable {program : Req → Prog S α} (serve : W → (o : S.Op) → S.Ans o × W)

/-- One move takes a task a call further if it advances the task, and leaves it alone otherwise;
a task that is done stays so. -/
theorem move_task {s : Sys S W Req α} {i : Nat} {r : Req} {p : Prog S α}
    (h : s.tasks[i]? = some ⟨r, p⟩) (m : Move Req) :
    ∃ es q, (Sys.move program serve s m).tasks[i]? = some ⟨r, q⟩ ∧ Prog.Path p es q ∧
      (m.advances i = true → es.length = 1 ∨ ∃ a, q = .ret a) := by
  have hlt : i < s.tasks.length := (List.getElem?_eq_some_iff.mp h).1
  cases m with
  | spawn r' =>
      refine ⟨[], p, ?_, .nil p, nofun⟩
      exact (List.getElem?_append_left hlt).trans h
  | advance j =>
      by_cases hj : j = i
      · subst hj
        cases p with
        | ret a =>
            refine ⟨[], .ret a, ?_, .nil _, fun _ => Or.inr ⟨a, rfl⟩⟩
            rw [Sys.move, h]
            exact h
        | call o k =>
            refine ⟨[⟨o, (serve s.world o).1⟩], k (serve s.world o).1, ?_,
              (Prog.Path.nil _).snoc _, fun _ => Or.inl rfl⟩
            rw [Sys.move, h]
            exact List.getElem?_set_self hlt
      · refine ⟨[], p, ?_, .nil p, fun hadv => absurd (beq_iff_eq.mp hadv) hj⟩
        rcases hother : s.tasks[j]? with _ | ⟨r', a | ⟨o, k⟩⟩
        · rw [Sys.move, hother]
          exact h
        · rw [Sys.move, hother]
          exact h
        · rw [Sys.move, hother]
          exact (List.getElem?_set_ne hj).trans h

/-- After some moves a task is done, or it has made a call for each of its advances. -/
theorem foldl_task {s : Sys S W Req α} {i : Nat} {r : Req} {p : Prog S α}
    (h : s.tasks[i]? = some ⟨r, p⟩) (moves : List (Move Req)) :
    ∃ es q, (moves.foldl (Sys.move program serve) s).tasks[i]? = some ⟨r, q⟩ ∧
      Prog.Path p es q ∧ (moves.countP (Move.advances i) ≤ es.length ∨ ∃ a, q = .ret a) := by
  induction moves generalizing s p with
  | nil => exact ⟨[], p, h, .nil p, Or.inl (Nat.zero_le _)⟩
  | cons m moves ih =>
      obtain ⟨es₁, p', h', hpath₁, hstep⟩ := move_task serve h m
      obtain ⟨es₂, q, hq, hpath₂, hend⟩ := ih h'
      refine ⟨es₁ ++ es₂, q, hq, hpath₁.trans hpath₂, ?_⟩
      rcases hend with hcount | hdone
      · by_cases hadv : m.advances i = true
        · rcases hstep hadv with hone | ⟨a, rfl⟩
          · refine Or.inl ?_
            rw [List.countP_cons_of_pos hadv, List.length_append, hone]
            omega
          · exact Or.inr ⟨a, ((Prog.path_ret_iff _ _ _).mp hpath₂).2⟩
        · refine Or.inl ?_
          rw [List.countP_cons_of_neg hadv, List.length_append]
          omega
      · exact Or.inr hdone

variable {serve}

/-- **A task is done after as many advances as its program has calls at most**, whatever the other
moves are. -/
theorem run_served {n : Nat} {r : Req} (hcost : Prog.Costs steps n (program r)) (w : W)
    (before after : List (Move Req))
    (hcount : n ≤ after.countP
      (Move.advances (Sys.run program serve w before).tasks.length)) :
    ∃ a, (Sys.run program serve w (before ++ .spawn r :: after)).tasks[(Sys.run program serve w
      before).tasks.length]? = some ⟨r, .ret a⟩ := by
  have hspawned : (Sys.move program serve (Sys.run program serve w before) (.spawn r)).tasks[
      (Sys.run program serve w before).tasks.length]? = some ⟨r, program r⟩ :=
    List.getElem?_concat_length
  have hrun : Sys.run program serve w (before ++ .spawn r :: after)
      = after.foldl (Sys.move program serve)
        (Sys.move program serve (Sys.run program serve w before) (.spawn r)) := by
    rw [Sys.run, List.foldl_append, List.foldl_cons]
    rfl
  obtain ⟨es, q, hq, hpath, hend⟩ := foldl_task serve hspawned after
  rw [hrun, hq]
  cases q with
  | ret a => exact ⟨a, rfl⟩
  | call o k =>
      -- one call more would be too many
      have hmore := hcost _ _ (hpath.snoc (serve w o).1)
      rw [cost_steps, List.length_append, List.length_singleton] at hmore
      rcases hend with hcalls | ⟨a, ha⟩
      · omega
      · cases ha

end

end Interaction
