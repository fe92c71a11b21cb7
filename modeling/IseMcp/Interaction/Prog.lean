import Mathlib.Tactic

set_option autoImplicit false

/-! # Programs that call operations

A program over a signature `S` is a finite tree: it returns a value, or it calls an operation
of `S` and continues with the answer. The tree fixes no meaning for the operations. What a
program may do whatever the answers are is said with `Prog.Path` (the calls made and the answers
received so far); what it does against a machine that answers is said with `Prog.exec`.

The rules for `Path` commute with `>>=`, so what a program may do is proved function by function
(`Prog.path_bind_call`, `Prog.path_bind_ret_iff`). `Prog.Only` is the special case of a bound on
the operations it calls.
-/

namespace Interaction

/-- The operations a program may call and the type of the answer to each. -/
structure Sig where
  Op : Type
  Ans : Op → Type

/-- One call together with the answer it received. -/
abbrev Event (S : Sig) : Type := (o : S.Op) × S.Ans o

inductive Prog (S : Sig) (α : Type) : Type where
  | ret (a : α) : Prog S α
  | call (o : S.Op) (k : S.Ans o → Prog S α) : Prog S α

/-- A place in a list that is extended at the end is the last one or a place of the list. -/
theorem snoc_eq_split {α : Type} {l pre post : List α} {a b : α} :
    l ++ [a] = pre ++ b :: post ↔
      (l = pre ∧ a = b ∧ post = []) ∨ ∃ post', l = pre ++ b :: post' ∧ post = post' ++ [a] := by
  constructor
  · intro h
    rcases List.eq_nil_or_concat post with rfl | ⟨post', c, rfl⟩
    · obtain ⟨hl, hab⟩ := List.append_inj' h rfl
      exact Or.inl ⟨hl, List.singleton_inj.mp hab, rfl⟩
    · rw [List.concat_eq_append, ← List.cons_append, ← List.append_assoc] at h
      obtain ⟨hl, hac⟩ := List.append_inj' h rfl
      exact Or.inr ⟨post', hl, by rw [List.concat_eq_append, hac]⟩
  · rintro (⟨rfl, rfl, rfl⟩ | ⟨post', rfl, rfl⟩) <;> simp

namespace Prog

variable {S : Sig} {α β : Type}

def bind : Prog S α → (α → Prog S β) → Prog S β
  | .ret a, f => f a
  | .call o k, f => .call o (fun x => (k x).bind f)

instance : Monad (Prog S) where
  pure := .ret
  bind := Prog.bind

/-- The program that makes one call and returns the answer. -/
def op (o : S.Op) : Prog S (S.Ans o) := .call o .ret

@[simp] theorem pure_eq (a : α) : (pure a : Prog S α) = .ret a := rfl

@[simp] theorem ret_bind (a : α) (f : α → Prog S β) : (Prog.ret a >>= f) = f a := rfl

@[simp] theorem call_bind (o : S.Op) (k : S.Ans o → Prog S α) (f : α → Prog S β) :
    (Prog.call o k >>= f) = .call o (fun x => k x >>= f) := rfl

@[simp] theorem op_bind (o : S.Op) (f : S.Ans o → Prog S β) :
    (op o >>= f) = .call o f := rfl

theorem bind_ret (p : Prog S α) : p >>= Prog.ret = p := by
  induction p with
  | ret a => rfl
  | call o k ih =>
      rw [call_bind]
      exact congrArg _ (funext ih)

theorem bind_bind {γ : Type} (p : Prog S α) (f : α → Prog S β) (g : β → Prog S γ) :
    (p >>= f) >>= g = p >>= fun a => f a >>= g := by
  induction p with
  | ret a => rfl
  | call o k ih =>
      rw [call_bind, call_bind, call_bind]
      exact congrArg _ (funext ih)

instance : LawfulMonad (Prog S) :=
  LawfulMonad.mk' (Prog S) bind_ret (fun _ _ => rfl) bind_bind

/-! ## Paths -/

/-- `Path p es q`: with the answers recorded in `es`, the program `p` makes exactly the calls
in `es`, in that order, and what is left to do is `q`. -/
inductive Path : Prog S α → List (Event S) → Prog S α → Prop where
  | nil (p : Prog S α) : Path p [] p
  | cons {o : S.Op} {k : S.Ans o → Prog S α} {x : S.Ans o} {es : List (Event S)} {q : Prog S α}
      (h : Path (k x) es q) : Path (.call o k) (⟨o, x⟩ :: es) q

@[simp] theorem path_ret_iff (a : α) (es : List (Event S)) (q : Prog S α) :
    Path (.ret a) es q ↔ es = [] ∧ q = .ret a := by
  constructor
  · intro h
    cases h with
    | nil => exact ⟨rfl, rfl⟩
  · rintro ⟨rfl, rfl⟩
    exact .nil _

/-- A finished program stays where it is. -/
theorem path_ret_ret_iff (a b : α) (es : List (Event S)) :
    Path (.ret a) es (.ret b) ↔ es = [] ∧ b = a := by
  rw [path_ret_iff, ret.injEq]

@[simp] theorem path_nil_iff (p q : Prog S α) : Path p [] q ↔ q = p := by
  constructor
  · intro h
    cases h with
    | nil => rfl
  · rintro rfl
    exact .nil _

/-- A path of a call node is empty or starts with that call. -/
theorem path_call_iff (o : S.Op) (k : S.Ans o → Prog S α) (es : List (Event S))
    (q : Prog S α) :
    Path (.call o k) es q ↔
      (es = [] ∧ q = .call o k) ∨ ∃ x es', es = ⟨o, x⟩ :: es' ∧ Path (k x) es' q := by
  constructor
  · intro h
    cases h with
    | nil => exact Or.inl ⟨rfl, rfl⟩
    | @cons _ _ x es' _ h => exact Or.inr ⟨x, es', rfl, h⟩
  · rintro (⟨rfl, rfl⟩ | ⟨x, es', rfl, h⟩)
    · exact .nil _
    · exact .cons h

/-- A path that ends in a result has made the call of its first node. -/
theorem path_call_ret_iff (o : S.Op) (k : S.Ans o → Prog S α) (es : List (Event S)) (a : α) :
    Path (.call o k) es (.ret a) ↔ ∃ x es', es = ⟨o, x⟩ :: es' ∧ Path (k x) es' (.ret a) := by
  rw [path_call_iff]
  constructor
  · rintro (⟨_, h⟩ | h)
    · cases h
    · exact h
  · exact Or.inr

theorem Path.trans {p q r : Prog S α} {es fs : List (Event S)} (h : Path p es q)
    (h' : Path q fs r) : Path p (es ++ fs) r := by
  induction h with
  | nil => exact h'
  | cons _ ih => exact .cons (ih h')

/-- What is left after a path goes on with the rest of a longer one. -/
theorem Path.rest {p q r : Prog S α} {es fs : List (Event S)} (h : Path p es q)
    (h' : Path p (es ++ fs) r) : Path q fs r := by
  induction h with
  | nil => exact h'
  | cons _ ih =>
      cases h' with
      | cons h' => exact ih h'

/-- A path of the first program of a sequence is one of the sequence. -/
theorem Path.bind_left {p q : Prog S α} {es : List (Event S)} (h : Path p es q)
    (f : α → Prog S β) : Path (p >>= f) es (q >>= f) := by
  induction h with
  | nil => exact .nil _
  | cons _ ih => exact .cons ih

/-- One more call at the end of a path. -/
theorem Path.snoc {p : Prog S α} {es : List (Event S)} {o : S.Op} {k : S.Ans o → Prog S α}
    (h : Path p es (.call o k)) (x : S.Ans o) : Path p (es ++ [⟨o, x⟩]) (k x) :=
  h.trans (.cons (.nil _))

/-- A path of a sequence stays in the first program, or runs it to a result and continues
in the second. -/
theorem path_bind_iff (p : Prog S α) (f : α → Prog S β) (es : List (Event S)) (q : Prog S β) :
    Path (p >>= f) es q ↔
      (∃ p', Path p es p' ∧ q = p' >>= f) ∨
      ∃ a es₁ es₂, es = es₁ ++ es₂ ∧ Path p es₁ (.ret a) ∧ Path (f a) es₂ q := by
  constructor
  · intro h
    -- the induction is on the first program, along which the path runs
    induction p generalizing es with
    | ret a => exact Or.inr ⟨a, [], es, rfl, .nil _, h⟩
    | call o k ih =>
        rw [call_bind, path_call_iff] at h
        rcases h with ⟨rfl, rfl⟩ | ⟨x, es', rfl, h⟩
        · exact Or.inl ⟨_, .nil _, rfl⟩
        · rcases ih x es' h with ⟨p', hp, rfl⟩ | ⟨a, es₁, es₂, rfl, hp, hf⟩
          · exact Or.inl ⟨p', .cons hp, rfl⟩
          · exact Or.inr ⟨a, _ :: es₁, es₂, rfl, .cons hp, hf⟩
  · rintro (⟨p', hp, rfl⟩ | ⟨a, es₁, es₂, rfl, hp, hf⟩)
    · exact hp.bind_left f
    · exact (hp.bind_left f).trans hf

/-- A finished path of a sequence is a finished path of the first program followed by a
finished path of the second. -/
theorem path_bind_ret_iff (p : Prog S α) (f : α → Prog S β) (es : List (Event S)) (b : β) :
    Path (p >>= f) es (.ret b) ↔
      ∃ a es₁ es₂, es = es₁ ++ es₂ ∧ Path p es₁ (.ret a) ∧ Path (f a) es₂ (.ret b) := by
  rw [path_bind_iff]
  constructor
  · rintro (⟨p', hp, h⟩ | h)
    · cases p' with
      | ret a => exact ⟨a, es, [], by simp, hp, by rw [ret_bind] at h; rw [← h]; exact .nil _⟩
      | call o k => cases h
    · exact h
  · exact Or.inr

/-- The paths of a program whose result is only wrapped are those of the program. -/
theorem path_map {p : Prog S α} {f : α → β} {es : List (Event S)} {q : Prog S β}
    (h : Path (p >>= fun a => .ret (f a)) es q) :
    ∃ p', Path p es p' ∧ q = p' >>= fun a => .ret (f a) := by
  rcases (path_bind_iff _ _ _ _).mp h with h | ⟨a, es₁, es₂, rfl, hp, hret⟩
  · exact h
  · obtain ⟨rfl, rfl⟩ := (path_ret_iff _ _ _).mp hret
    exact ⟨.ret a, by simpa using hp, rfl⟩

/-- A call reached on a path of a sequence is made by the first program, or by the second after
the first has finished. -/
theorem path_bind_call {p : Prog S α} {f : α → Prog S β} {es : List (Event S)} {o : S.Op}
    {k : S.Ans o → Prog S β} (h : Path (p >>= f) es (.call o k)) :
    (∃ k', Path p es (.call o k')) ∨
      ∃ a es₁ es₂, es = es₁ ++ es₂ ∧ Path p es₁ (.ret a) ∧ Path (f a) es₂ (.call o k) := by
  rcases (path_bind_iff _ _ _ _).mp h with ⟨p', hp, hq⟩ | h
  · cases p' with
    | ret a =>
        rw [ret_bind] at hq
        exact Or.inr ⟨a, es, [], by simp, hp, by rw [hq]; exact .nil _⟩
    | call o' k' =>
        rw [call_bind] at hq
        injection hq with ho hk
        subst ho
        exact Or.inl ⟨k', hp⟩
  · exact Or.inr h

/-- A path that has made a call reached that call first. -/
theorem Path.before {p q : Prog S α} {es es' : List (Event S)} {e : Event S}
    (h : Path p (es ++ e :: es') q) : ∃ k, Path p es (.call e.1 k) := by
  induction es generalizing p with
  | nil =>
      cases h with
      | @cons _ k _ _ _ h => exact ⟨k, .nil _⟩
  | cons a es ih =>
      cases h with
      | cons h =>
          obtain ⟨k, hk⟩ := ih h
          exact ⟨k, .cons hk⟩

/-! ## Programs that call only certain operations -/

/-- Every call of the program, on every path, is of an operation satisfying `P`. -/
inductive Only (P : S.Op → Prop) : Prog S α → Prop where
  | ret (a : α) : Only P (.ret a)
  | call {o : S.Op} {k : S.Ans o → Prog S α} (ho : P o) (hk : ∀ x, Only P (k x)) :
      Only P (.call o k)

variable {P : S.Op → Prop}

theorem only_call_iff (o : S.Op) (k : S.Ans o → Prog S α) :
    Only P (.call o k) ↔ P o ∧ ∀ x, Only P (k x) := by
  constructor
  · intro h
    cases h with
    | call ho hk => exact ⟨ho, hk⟩
  · rintro ⟨ho, hk⟩
    exact .call ho hk

theorem Only.bind {p : Prog S α} {f : α → Prog S β} (hp : Only P p)
    (hf : ∀ a, Only P (f a)) : Only P (p >>= f) := by
  induction hp with
  | ret a => exact hf a
  | call ho _ ih => exact .call ho ih

theorem Only.mono {P' : S.Op → Prop} {p : Prog S α} (hp : Only P p) (hP : ∀ o, P o → P' o) :
    Only P' p := by
  induction hp with
  | ret a => exact .ret a
  | call ho _ ih => exact .call (hP _ ho) ih

theorem Only.path {p q : Prog S α} {es : List (Event S)} (hp : Only P p) (h : Path p es q) :
    (∀ e ∈ es, P e.1) ∧ Only P q := by
  induction h with
  | nil => exact ⟨by simp, hp⟩
  | cons _ ih =>
      obtain ⟨ho, hk⟩ := (only_call_iff _ _).mp hp
      obtain ⟨hes, hq⟩ := ih (hk _)
      refine ⟨fun e he => ?_, hq⟩
      rcases List.mem_cons.mp he with rfl | he
      · exact ho
      · exact hes e he

/-- Every call made on a path is of that kind. -/
theorem Only.event {p q : Prog S α} {es : List (Event S)} (hp : Only P p) (h : Path p es q)
    {e : Event S} (he : e ∈ es) : P e.1 :=
  (hp.path h).1 e he

/-- The call a path stops at is of that kind too. -/
theorem Only.next {p : Prog S α} {es : List (Event S)} {o : S.Op} {k : S.Ans o → Prog S α}
    (hp : Only P p) (h : Path p es (.call o k)) : P o :=
  ((only_call_iff _ _).mp (hp.path h).2).1

/-! ## Running against a machine -/

section

variable {W : Type} (serve : W → (o : S.Op) → S.Ans o × W)

/-- Run a program against a machine that answers each call and moves to a new state. -/
def exec : Prog S α → W → α × W
  | .ret a, w => (a, w)
  | .call o k, w => exec (k (serve w o).1) (serve w o).2

/-- The calls and answers of that run. -/
def events : Prog S α → W → List (Event S)
  | .ret _, _ => []
  | .call o k, w => ⟨o, (serve w o).1⟩ :: events (k (serve w o).1) (serve w o).2

variable {serve}

@[simp] theorem exec_ret (a : α) (w : W) : exec serve (.ret a : Prog S α) w = (a, w) := rfl

@[simp] theorem exec_call (o : S.Op) (k : S.Ans o → Prog S α) (w : W) :
    exec serve (.call o k) w = exec serve (k (serve w o).1) (serve w o).2 := rfl

theorem exec_bind (p : Prog S α) (g : α → Prog S β) (w : W) :
    exec serve (p >>= g) w = exec serve (g (exec serve p w).1) (exec serve p w).2 := by
  induction p generalizing w with
  | ret a => rfl
  | call o k ih => exact ih _ _

theorem events_bind (p : Prog S α) (g : α → Prog S β) (w : W) :
    events serve (p >>= g) w
      = events serve p w ++ events serve (g (exec serve p w).1) (exec serve p w).2 := by
  induction p generalizing w with
  | ret a => rfl
  | call o k ih => exact congrArg _ (ih _ _)

/-- What every call of one kind keeps is kept by a run that makes no other calls. -/
theorem Only.exec {P : S.Op → Prop} {p : Prog S α} (hp : Only P p) {I : W → Prop}
    (hstep : ∀ w o, P o → I w → I (serve w o).2) {w : W} (hw : I w) :
    I (exec serve p w).2 := by
  induction hp generalizing w with
  | ret a => exact hw
  | call ho _ ih => exact ih _ (hstep w _ ho hw)

variable (serve) in
/-- A run is a finished path. -/
theorem path_exec (p : Prog S α) (w : W) :
    Path p (events serve p w) (.ret (exec serve p w).1) := by
  induction p generalizing w with
  | ret a => exact .nil _
  | call o k ih => exact .cons (ih _ _)

/-- Every call of a run is of the kind the program makes. -/
theorem Only.mem_events {P : S.Op → Prop} {p : Prog S α} (hp : Only P p) {w : W} {e : Event S}
    (he : e ∈ events serve p w) : P e.1 :=
  hp.event (path_exec serve p w) he

end

end Prog

end Interaction
