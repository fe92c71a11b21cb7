import IseMcp.Interaction.Coroutine
import IseMcp.Interaction.Interleave
import Mathlib.Data.List.Forall2
import Mathlib.Data.Option.Defs

set_option autoImplicit false

/-! # Two programs in step

`Prog.Sim R A Q p p'`: the two programs make calls that `R` relates, one for one; after answers
that `A` relates they are again in step; and they end in results that `Q` relates. Statements
about two runs are proved with it.

* It commutes with `>>=` (`Sim.bind`), so it is proved function by function; the rules for
  coroutines are in `Coro`.
* A program in step with another makes only calls that `R` allows (`Sim.only`), so one proof gives
  both what a function may do and that it does the same in two runs.
* Two systems whose machines answer related calls alike stay in step along every list of moves
  (`run_sim`).
-/

namespace Interaction

/-- A relation between the answers to two operations. -/
abbrev AnsRel (S : Sig) : Type := (o o' : S.Op) → S.Ans o → S.Ans o' → Prop

variable {S : Sig} {α α' β β' : Type}

namespace Prog

inductive Sim (R : S.Op → S.Op → Prop) (A : AnsRel S) (Q : α → α' → Prop) :
    Prog S α → Prog S α' → Prop where
  | ret {a : α} {a' : α'} (h : Q a a') : Sim R A Q (.ret a) (.ret a')
  | call {o o' : S.Op} {k : S.Ans o → Prog S α} {k' : S.Ans o' → Prog S α'} (ho : R o o')
      (hk : ∀ x x', A o o' x x' → Sim R A Q (k x) (k' x')) : Sim R A Q (.call o k) (.call o' k')

variable {R : S.Op → S.Op → Prop} {A : AnsRel S} {Q : α → α' → Prop}

theorem Sim.bind {Q' : β → β' → Prop} {p : Prog S α} {p' : Prog S α'} {f : α → Prog S β}
    {f' : α' → Prog S β'} (h : Sim R A Q p p') (hf : ∀ a a', Q a a' → Sim R A Q' (f a) (f' a')) :
    Sim R A Q' (p >>= f) (p' >>= f') := by
  induction h with
  | ret ha => exact hf _ _ ha
  | call ho _ ih => exact .call ho ih

theorem Sim.mono {R' : S.Op → S.Op → Prop} {Q' : α → α' → Prop} {p : Prog S α} {p' : Prog S α'}
    (h : Sim R A Q p p') (hR : ∀ o o', R o o' → R' o o') (hQ : ∀ a a', Q a a' → Q' a a') :
    Sim R' A Q' p p' := by
  induction h with
  | ret ha => exact .ret (hQ _ _ ha)
  | call ho _ ih => exact .call (hR _ _ ho) ih

/-- The first program makes only calls that `R` allows, if every answer it can get has a
counterpart. -/
theorem Sim.only {P : S.Op → Prop} {p : Prog S α} {p' : Prog S α'} (h : Sim R A Q p p')
    (hP : ∀ o o', R o o' → P o) (hA : ∀ o o', R o o' → ∀ x, ∃ x', A o o' x x') : Only P p := by
  induction h with
  | ret _ => exact .ret _
  | call ho _ ih =>
      refine .call (hP _ _ ho) fun x => ?_
      obtain ⟨x', hx⟩ := hA _ _ ho x
      exact ih x x' hx

/-- A program is in step with itself where related answers to its calls are equal. -/
theorem Only.sim {P : S.Op → Prop} {p : Prog S α} (hp : Only P p) (hR : ∀ o, P o → R o o)
    (hA : ∀ o, P o → ∀ x x', A o o x x' → x = x') : Sim R A Eq p p := by
  induction hp with
  | ret a => exact .ret rfl
  | call ho _ ih =>
      refine .call (hR _ ho) fun x x' hx => ?_
      rw [← hA _ ho x x' hx]
      exact ih x

/-- What a finished program returned. -/
def result : Prog S α → Option α
  | .ret a => some a
  | .call _ _ => none

/-- Programs in step finish together. -/
theorem Sim.result {p : Prog S α} {p' : Prog S α'} (h : Sim R A Q p p') :
    Option.Rel Q p.result p'.result := by
  cases h with
  | ret ha => exact .some ha
  | call _ _ => exact .none

end Prog

/-! ## Coroutines -/

/-- The same exception, or values that `Q` relates. -/
inductive ExRel {ε : Type} (Q : α → α' → Prop) : Except ε α → Except ε α' → Prop where
  | ok {a : α} {a' : α'} (h : Q a a') : ExRel Q (.ok a) (.ok a')
  | error (e : ε) : ExRel Q (.error e) (.error e)

theorem exRel_eq_iff {ε : Type} {r r' : Except ε α} : ExRel Eq r r' ↔ r = r' := by
  constructor
  · rintro (⟨rfl⟩ | _) <;> rfl
  · rintro rfl
    cases r with
    | ok a => exact .ok rfl
    | error e => exact .error e

/-- The relation may use where the first value comes from. -/
theorem ExRel.eq_left {ε : Type} {Q : α → α' → Prop} {r : Except ε α} {r' : Except ε α'}
    (h : ExRel Q r r') : ExRel (fun a a' => r = .ok a ∧ Q a a') r r' := by
  cases h with
  | ok ha => exact .ok ⟨rfl, ha⟩
  | error e => exact .error e

namespace Coro

variable {ε : Type} {R : S.Op → S.Op → Prop} {A : AnsRel S} {Q : α → α' → Prop}

/-- Two coroutines in step: they also raise the same exceptions. -/
def Sim (R : S.Op → S.Op → Prop) (A : AnsRel S) (Q : α → α' → Prop) (x : Coro S ε α)
    (x' : Coro S ε α') : Prop :=
  Prog.Sim R A (ExRel Q) x.run x'.run

theorem sim_pure {a : α} {a' : α'} (h : Q a a') :
    Sim R A Q (pure a : Coro S ε α) (pure a' : Coro S ε α') := .ret (.ok h)

theorem sim_throw (e : ε) : Sim R A Q (throw e : Coro S ε α) (throw e : Coro S ε α') :=
  .ret (.error e)

theorem sim_ofExcept {r : Except ε α} {r' : Except ε α'} (h : ExRel Q r r') :
    Sim R A Q (ofExcept r : Coro S ε α) (ofExcept r' : Coro S ε α') := .ret h

/-- The same outcome on both sides. -/
theorem sim_ofExcept_eq (r : Except ε α) :
    Sim R A Eq (ofExcept r : Coro S ε α) (ofExcept r : Coro S ε α) :=
  sim_ofExcept (exRel_eq_iff.mpr rfl)

theorem sim_op (o o' : S.Op) (ho : R o o') :
    Sim R A (A o o') (op o : Coro S ε _) (op o' : Coro S ε _) :=
  .call ho fun _ _ hx => .ret (.ok hx)

theorem sim_bind {Q' : β → β' → Prop} {x : Coro S ε α} {x' : Coro S ε α'} {f : α → Coro S ε β}
    {f' : α' → Coro S ε β'} (hx : Sim R A Q x x')
    (hf : ∀ a a', Q a a' → Sim R A Q' (f a) (f' a')) : Sim R A Q' (x >>= f) (x' >>= f') := by
  unfold Sim
  rw [run_bind', run_bind']
  refine Prog.Sim.bind hx fun r r' hr => ?_
  cases hr with
  | ok h => exact hf _ _ h
  | error e => exact .ret (.error e)

/-- The usual case of a sequence: the first parts return the same. -/
theorem sim_bind_eq {Q' : β → β' → Prop} {x x' : Coro S ε α} {f : α → Coro S ε β}
    {f' : α → Coro S ε β'} (hx : Sim R A Eq x x') (hf : ∀ a, Sim R A Q' (f a) (f' a)) :
    Sim R A Q' (x >>= f) (x' >>= f') := by
  refine sim_bind hx fun a a' ha => ?_
  subst ha
  exact hf a

/-- After the same `ofExcept` the continuations only matter on its value. -/
theorem sim_ofExcept_bind {Q' : β → β' → Prop} {r : Except ε α} {f : α → Coro S ε β}
    {f' : α → Coro S ε β'} (hf : ∀ a, r = .ok a → Sim R A Q' (f a) (f' a)) :
    Sim R A Q' (ofExcept r >>= f) (ofExcept r >>= f') := by
  unfold Sim
  rw [run_ofExcept_bind, run_ofExcept_bind]
  cases r with
  | ok a => exact hf a rfl
  | error e => exact .ret (.error e)

theorem sim_attempt {x : Coro S ε α} {x' : Coro S ε α'} (hx : Sim R A Q x x') :
    Sim R A (ExRel Q) (attempt x) (attempt x') :=
  Prog.Sim.bind hx fun _ _ hr => .ret (.ok hr)

/-- `attempt` returns the same outcome, where values are equal. -/
theorem sim_attempt_eq {x x' : Coro S ε α} (hx : Sim R A Eq x x') :
    Sim R A Eq (attempt x) (attempt x') :=
  (sim_attempt hx).mono (fun _ _ ho => ho) fun r r' hr => by
    cases hr with
    | ok h => exact .ok (exRel_eq_iff.mp h)
    | error e => exact .error e

theorem Sim.mono {R' : S.Op → S.Op → Prop} {x : Coro S ε α} {x' : Coro S ε α'}
    (hx : Sim R A Q x x') (h : ∀ o o', R o o' → R' o o') : Sim R' A Q x x' :=
  Prog.Sim.mono hx h fun _ _ hr => hr

end Coro

/-! ## Systems -/

section

variable {W Req : Type}

/-- The same move, where requests are related by `T`. -/
inductive Move.Rel (T : Req → Req → Prop) : Move Req → Move Req → Prop where
  | spawn {r r' : Req} (h : T r r') : Rel T (.spawn r) (.spawn r')
  | advance (i : Nat) : Rel T (.advance i) (.advance i)

/-- Related machines, tasks in step, and entries of the same tasks with related calls. -/
structure Sys.Sim (R : S.Op → S.Op → Prop) (A : AnsRel S) (Q : α → α' → Prop) (V : W → W → Prop)
    (s : Sys S W Req α) (s' : Sys S W Req α') : Prop where
  world : V s.world s'.world
  tasks : List.Forall₂ (fun t t' => Prog.Sim R A Q t.left t'.left) s.tasks s'.tasks
  log : List.Forall₂ (fun e e' => e.task = e'.task ∧ R e.event.1 e'.event.1) s.log s'.log

theorem forall₂_getElem? {γ γ' : Type} {P : γ → γ' → Prop} {l : List γ} {l' : List γ'}
    (h : List.Forall₂ P l l') (i : Nat) : Option.Rel P l[i]? l'[i]? := by
  induction h generalizing i with
  | nil => exact .none
  | cons hab _ ih =>
      cases i with
      | zero => exact .some hab
      | succ i => exact ih i

theorem forall₂_set {γ γ' : Type} {P : γ → γ' → Prop} {l : List γ} {l' : List γ'} {a : γ} {a' : γ'}
    (h : List.Forall₂ P l l') (ha : P a a') (i : Nat) :
    List.Forall₂ P (l.set i a) (l'.set i a') := by
  induction h generalizing i with
  | nil => exact .nil
  | cons hab hl ih =>
      cases i with
      | zero => exact .cons ha hl
      | succ i => exact .cons hab (ih i)

variable {R : S.Op → S.Op → Prop} {A : AnsRel S} {Q : α → α' → Prop} {V : W → W → Prop}
  {T : Req → Req → Prop} {program : Req → Prog S α} {program' : Req → Prog S α'}
  {serve serve' : W → (o : S.Op) → S.Ans o × W}

theorem move_sim
    (hserve : ∀ w w' o o', V w w' → R o o' →
      A o o' (serve w o).1 (serve' w' o').1 ∧ V (serve w o).2 (serve' w' o').2)
    (hprogram : ∀ r r', T r r' → Prog.Sim R A Q (program r) (program' r'))
    {s : Sys S W Req α} {s' : Sys S W Req α'} (hs : Sys.Sim R A Q V s s') {m m' : Move Req}
    (hm : Move.Rel T m m') :
    Sys.Sim R A Q V (Sys.move program serve s m) (Sys.move program' serve' s' m') := by
  cases hm with
  | spawn h =>
      exact ⟨hs.world, List.rel_append hs.tasks (.cons (hprogram _ _ h) .nil), hs.log⟩
  | advance i =>
      have hi := forall₂_getElem? hs.tasks i
      rcases ht : s.tasks[i]? with _ | ⟨r, left⟩ <;> rcases ht' : s'.tasks[i]? with _ | ⟨r', left'⟩ <;>
        rw [ht, ht'] at hi
      · simpa only [Sys.move, ht, ht'] using hs
      · cases hi
      · cases hi
      · cases hi with
        | some hleft =>
            simp only at hleft
            cases hleft with
            | ret _ => simpa only [Sys.move, ht, ht'] using hs
            | @call o o' k k' ho hk =>
                -- both tasks make their call, and the machines answer alike
                obtain ⟨hans, hworld⟩ := hserve _ _ _ _ hs.world ho
                simp only [Sys.move, ht, ht']
                exact ⟨hworld, forall₂_set hs.tasks (hk _ _ hans) i,
                  List.rel_append hs.log (.cons ⟨rfl, ho⟩ .nil)⟩

/-- **Systems with related machines and requests stay in step** along every list of moves. -/
theorem run_sim
    (hserve : ∀ w w' o o', V w w' → R o o' →
      A o o' (serve w o).1 (serve' w' o').1 ∧ V (serve w o).2 (serve' w' o').2)
    (hprogram : ∀ r r', T r r' → Prog.Sim R A Q (program r) (program' r'))
    {w w' : W} (hw : V w w') {moves moves' : List (Move Req)}
    (hmoves : List.Forall₂ (Move.Rel T) moves moves') :
    Sys.Sim R A Q V (Sys.run program serve w moves) (Sys.run program' serve' w' moves') := by
  suffices h : ∀ s s', Sys.Sim R A Q V s s' →
      Sys.Sim R A Q V (moves.foldl (Sys.move program serve) s)
        (moves'.foldl (Sys.move program' serve') s') from h _ _ ⟨hw, .nil, .nil⟩
  induction hmoves with
  | nil => exact fun s s' hs => hs
  | cons hm _ ih => exact fun s s' hs => ih _ _ (move_sim hserve hprogram hs hm)

/-- What finished tasks returned is related. -/
theorem Sys.Sim.results {s : Sys S W Req α} {s' : Sys S W Req α'} (hs : Sys.Sim R A Q V s s') :
    List.Forall₂ (Option.Rel Q) (s.tasks.map (·.left.result)) (s'.tasks.map (·.left.result)) := by
  rw [List.forall₂_map_left_iff, List.forall₂_map_right_iff]
  exact hs.tasks.imp fun _ _ h => h.result

end

end Interaction
