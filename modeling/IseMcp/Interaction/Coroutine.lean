import IseMcp.Interaction.Prog

set_option autoImplicit false

/-! # Coroutines: programs that may raise

A coroutine over `S` with exceptions `ε` is a program whose result is a value or a raised
exception. It is core's `ExceptT` over `Prog S`, so sequencing and `throw` are the library's; this
file gives the path and `Only` rules for them.
-/

namespace Interaction

abbrev Coro (S : Sig) (ε α : Type) : Type := ExceptT ε (Prog S) α

namespace Coro

open Prog

variable {S : Sig} {ε α β : Type}

/-- Call an operation. -/
def op (o : S.Op) : Coro S ε (S.Ans o) := ExceptT.lift (Prog.op o)

/-- Return or raise, as `r` says. -/
def ofExcept (r : Except ε α) : Coro S ε α := ExceptT.mk (.ret r)

/-- Run `x` and return what came of it, so that nothing is raised. -/
def attempt (x : Coro S ε α) : Coro S ε (Except ε α) := ExceptT.lift x.run

/-! ## What each construct runs to -/

@[simp] theorem run_op (o : S.Op) : (op o : Coro S ε _).run = .call o fun x => .ret (.ok x) := rfl

@[simp] theorem run_ofExcept (r : Except ε α) : (ofExcept r : Coro S ε α).run = .ret r := rfl

@[simp] theorem run_pure' (a : α) : (pure a : Coro S ε α).run = .ret (.ok a) := rfl

@[simp] theorem run_throw' (e : ε) : (throw e : Coro S ε α).run = .ret (.error e) := rfl

/-- The continuation of a sequence: it runs on a value and is skipped by an exception. -/
def next (f : α → Coro S ε β) : Except ε α → Prog S (Except ε β)
  | .ok a => (f a).run
  | .error e => .ret (.error e)

@[simp] theorem next_ok (f : α → Coro S ε β) (a : α) : next f (.ok a) = (f a).run := rfl

@[simp] theorem next_error (f : α → Coro S ε β) (e : ε) :
    next f (.error e) = .ret (.error e) := rfl

theorem run_bind' (x : Coro S ε α) (f : α → Coro S ε β) :
    (x >>= f).run = x.run >>= next f := by
  show x.run >>= ExceptT.bindCont f = x.run >>= next f
  congr 1

theorem run_attempt (x : Coro S ε α) : (attempt x).run = x.run >>= fun r => .ret (.ok r) := rfl

/-- Sequencing after `attempt` hands the outcome to the continuation. -/
theorem run_attempt_bind (x : Coro S ε α) (f : Except ε α → Coro S ε β) :
    (attempt x >>= f).run = x.run >>= fun r => (f r).run := by
  rw [run_bind', run_attempt, bind_bind]
  rfl

@[simp] theorem run_op_bind (o : S.Op) (f : S.Ans o → Coro S ε β) :
    (op o >>= f).run = .call o fun x => (f x).run := rfl

@[simp] theorem run_ofExcept_bind (r : Except ε α) (f : α → Coro S ε β) :
    (ofExcept r >>= f).run = next f r := by
  rw [run_bind', run_ofExcept, ret_bind]

/-- A pure step is applied to the outcome. -/
theorem next_ofExcept (h : α → Except ε β) (r : Except ε α) :
    next (fun a => (ofExcept (h a) : Coro S ε β)) r = .ret (r >>= h) := by
  cases r <;> rfl

/-- Pure steps in a row are one. -/
theorem ofExcept_bind_ofExcept (r : Except ε α) (f : α → Except ε β) :
    (ofExcept r >>= fun a => (ofExcept (f a) : Coro S ε β)) = ofExcept (r >>= f) := by
  cases r <;> rfl

theorem path_ofExcept_iff (x r : Except ε α) (es : List (Event S)) :
    Prog.Path (ofExcept x : Coro S ε α).run es (.ret r) ↔ es = [] ∧ r = x := by
  rw [run_ofExcept, Prog.path_ret_iff]
  refine and_congr_right fun _ => ⟨fun h => ?_, fun h => by rw [h]⟩
  injection h

/-! ## Only -/

/-- Every call the coroutine makes is of an operation satisfying `P`. -/
def Only (P : S.Op → Prop) (x : Coro S ε α) : Prop := Prog.Only P x.run

variable {P : S.Op → Prop}

theorem only_pure (a : α) : Only P (pure a : Coro S ε α) := .ret _

theorem only_throw (e : ε) : Only P (throw e : Coro S ε α) := .ret _

theorem only_ofExcept (r : Except ε α) : Only P (ofExcept r : Coro S ε α) := .ret _

theorem only_op {o : S.Op} (h : P o) : Only P (op o : Coro S ε _) := .call h fun _ => .ret _

theorem only_bind {x : Coro S ε α} {f : α → Coro S ε β} (hx : Only P x)
    (hf : ∀ a, Only P (f a)) : Only P (x >>= f) := by
  unfold Only
  rw [run_bind']
  refine Prog.Only.bind hx fun r => ?_
  cases r with
  | ok a => exact hf a
  | error e => exact .ret _

/-- After an `ofExcept` the continuation only matters on its value. -/
theorem only_ofExcept_bind {r : Except ε α} {f : α → Coro S ε β}
    (hf : ∀ a, r = .ok a → Only P (f a)) : Only P (ofExcept r >>= f) := by
  unfold Only
  rw [run_ofExcept_bind]
  cases r with
  | ok a => exact hf a rfl
  | error e => exact .ret _

theorem only_attempt {x : Coro S ε α} (hx : Only P x) : Only P (attempt x) :=
  Prog.Only.bind hx fun _ => .ret _

theorem Only.mono {P' : S.Op → Prop} {x : Coro S ε α} (hx : Only P x) (h : ∀ o, P o → P' o) :
    Only P' x :=
  Prog.Only.mono hx h

/-! ## Paths -/

theorem path_op_iff (o : S.Op) (es : List (Event S)) (q : Prog S (Except ε (S.Ans o))) :
    Path (op o : Coro S ε _).run es q ↔
      (es = [] ∧ q = .call o fun x => .ret (.ok x)) ∨ ∃ x, es = [⟨o, x⟩] ∧ q = .ret (.ok x) := by
  rw [run_op, path_call_iff]
  refine or_congr_right (exists_congr fun x => ⟨?_, ?_⟩)
  · rintro ⟨es', rfl, h⟩
    obtain ⟨rfl, rfl⟩ := (path_ret_iff _ _ _).mp h
    exact ⟨rfl, rfl⟩
  · rintro ⟨rfl, rfl⟩
    exact ⟨[], rfl, .nil _⟩

/-- A path of a sequence stays in the first part, ends with its exception, or continues in the
second part with its value. -/
theorem path_bind_iff (x : Coro S ε α) (f : α → Coro S ε β) (es : List (Event S))
    (q : Prog S (Except ε β)) :
    Path (x >>= f).run es q ↔
      (∃ p', Path x.run es p' ∧ q = p' >>= next f) ∨
      ∃ a es₁ es₂, es = es₁ ++ es₂ ∧ Path x.run es₁ (.ret (.ok a)) ∧ Path (f a).run es₂ q := by
  rw [run_bind', Prog.path_bind_iff]
  constructor
  · rintro (h | ⟨r, es₁, es₂, rfl, hx, hf⟩)
    · exact Or.inl h
    · cases r with
      | ok a => exact Or.inr ⟨a, es₁, es₂, rfl, hx, hf⟩
      | error e =>
          rw [next_error, path_ret_iff] at hf
          obtain ⟨rfl, rfl⟩ := hf
          exact Or.inl ⟨_, by simpa using hx, rfl⟩
  · rintro (h | ⟨a, es₁, es₂, rfl, hx, hf⟩)
    · exact Or.inl h
    · exact Or.inr ⟨.ok a, es₁, es₂, rfl, hx, hf⟩

/-- A finished path of a sequence is one of the first part, and after a value one of the second. -/
theorem path_bind_ret_iff (x : Coro S ε α) (f : α → Coro S ε β) (es : List (Event S))
    (r : Except ε β) :
    Path (x >>= f).run es (.ret r) ↔
      ∃ a es₁ es₂, es = es₁ ++ es₂ ∧ Path x.run es₁ (.ret a) ∧ Path (next f a) es₂ (.ret r) := by
  rw [run_bind', Prog.path_bind_ret_iff]

theorem path_attempt_bind_iff (x : Coro S ε α) (f : Except ε α → Coro S ε β)
    (es : List (Event S)) (r : Except ε β) :
    Path (attempt x >>= f).run es (.ret r) ↔
      ∃ a es₁ es₂, es = es₁ ++ es₂ ∧ Path x.run es₁ (.ret a) ∧ Path (f a).run es₂ (.ret r) := by
  rw [run_attempt_bind, Prog.path_bind_ret_iff]

/-! ## Returns -/

/-- Whatever the answers are, a value that the coroutine returns satisfies `P`. -/
def Returns (P : α → Prop) (x : Coro S ε α) : Prop :=
  ∀ es a, Path x.run es (.ret (.ok a)) → P a

theorem returns_pure {P : α → Prop} {a : α} (h : P a) : Returns P (pure a : Coro S ε α) := by
  intro es b hp
  cases ((path_ret_iff _ _ _).mp hp).2
  exact h

theorem returns_ofExcept {P : α → Prop} {r : Except ε α} (h : ∀ a, r = .ok a → P a) :
    Returns P (ofExcept r : Coro S ε α) := by
  intro es b hp
  cases ((path_ret_iff _ _ _).mp hp).2
  exact h b rfl

/-- The rest of a sequence may use what its first part returns. -/
theorem Returns.bind {Q : α → Prop} {P : β → Prop} {x : Coro S ε α} {f : α → Coro S ε β}
    (hx : Returns Q x) (hf : ∀ a, Q a → Returns P (f a)) : Returns P (x >>= f) := by
  intro es b hp
  rw [run_bind', Prog.path_bind_ret_iff] at hp
  obtain ⟨r, es₁, es₂, rfl, hfirst, hrest⟩ := hp
  cases r with
  | error e => cases ((path_ret_iff _ _ _).mp hrest).2
  | ok a => exact hf a (hx es₁ a hfirst) es₂ b hrest

/-- A sequence returns what its last part returns. -/
theorem returns_bind {P : β → Prop} {x : Coro S ε α} {f : α → Coro S ε β}
    (hf : ∀ a, Returns P (f a)) : Returns P (x >>= f) :=
  Returns.bind (fun _ _ _ => trivial) fun a _ => hf a

end Coro

end Interaction
