import IseMcp.Interaction.Coroutine

set_option autoImplicit false

/-! # Faults that do not show

Some answers are faults. A program masks them if it returns what it would have returned without
them: its path can be thinned out to a clean one with the same result and the same visible calls
(`Faults.Masks`), unless there were too many faults. Sequencing keeps this, so what is left for a
program is the loop that tries again.
-/

namespace Interaction

/-- Which calls went without a fault, how many faults are too many, and which calls are visible
from outside. -/
structure Faults (S : Sig) where
  clean : Event S → Prop
  lost : List (Event S) → Prop
  visible : Event S → Bool
  /-- What is lost stays lost. -/
  lost_within : ∀ pre mid post : List (Event S), lost mid → lost (pre ++ mid ++ post)

namespace Faults

variable {S : Sig} {ε α β : Type} (F : Faults S)

/-- The clean path that is left of `es` without the faults: the same visible calls. -/
structure Thins (es' es : List (Event S)) : Prop where
  sublist : es'.Sublist es
  visible : es'.filter F.visible = es.filter F.visible
  clean : ∀ ev ∈ es', F.clean ev

/-- A finished path with faults is lost, or without them the program returns the same. -/
def Masks (p : Prog S α) : Prop :=
  ∀ es a, Prog.Path p es (.ret a) →
    F.lost es ∨ ∃ es', F.Thins es' es ∧ Prog.Path p es' (.ret a)

/-- The coroutine masks the faults. -/
def MasksIn (x : Coro S ε α) : Prop := F.Masks x.run

variable {F}

theorem lost_left {es fs : List (Event S)} (h : F.lost es) : F.lost (es ++ fs) :=
  F.lost_within [] es fs h

theorem lost_right {es fs : List (Event S)} (h : F.lost fs) : F.lost (es ++ fs) := by
  have hwithin := F.lost_within es fs [] h
  rwa [List.append_nil] at hwithin

theorem Thins.append {es es' fs fs' : List (Event S)} (h : F.Thins es' es) (h' : F.Thins fs' fs) :
    F.Thins (es' ++ fs') (es ++ fs) where
  sublist := h.sublist.append h'.sublist
  visible := by rw [List.filter_append, List.filter_append, h.visible, h'.visible]
  clean ev hev := (List.mem_append.mp hev).elim (h.clean ev) (h'.clean ev)

/-- A path without faults is left as it is. -/
theorem Thins.refl {es : List (Event S)} (h : ∀ ev ∈ es, F.clean ev) : F.Thins es es :=
  ⟨.refl es, rfl, h⟩

/-- Invisible calls are left out. -/
theorem Thins.skip {es es' fs : List (Event S)} (hfs : ∀ ev ∈ fs, F.visible ev = false)
    (h : F.Thins es' es) : F.Thins es' (fs ++ es) where
  sublist := h.sublist.trans (List.sublist_append_right fs es)
  visible := by
    have hnone : fs.filter F.visible = [] := by simpa [List.filter_eq_nil_iff] using hfs
    rw [List.filter_append, hnone, List.nil_append, h.visible]
  clean := h.clean

theorem masks_ret (a : α) : F.Masks (.ret a : Prog S α) := by
  intro es b hp
  obtain ⟨rfl, hb⟩ := (Prog.path_ret_iff _ _ _).mp hp
  exact Or.inr ⟨[], .refl (by simp), by rw [hb]; exact .nil _⟩

/-- Calls that never go wrong mask everything. -/
theorem masks_only {P : S.Op → Prop} (hP : ∀ ev : Event S, P ev.1 → F.clean ev) {p : Prog S α}
    (h : Prog.Only P p) : F.Masks p := by
  intro es a hp
  exact Or.inr ⟨es, .refl fun ev hev => hP ev (h.event hp hev), hp⟩

theorem Masks.bind {p : Prog S α} {f : α → Prog S β} (hp : F.Masks p) (hf : ∀ a, F.Masks (f a)) :
    F.Masks (p >>= f) := by
  intro es b h
  obtain ⟨a, es₁, es₂, rfl, h₁, h₂⟩ := (Prog.path_bind_ret_iff _ _ _ _).mp h
  rcases hp es₁ a h₁ with hlost | ⟨fs₁, hthin₁, hpath₁⟩
  · exact Or.inl (lost_left hlost)
  · rcases hf a es₂ b h₂ with hlost | ⟨fs₂, hthin₂, hpath₂⟩
    · exact Or.inl (lost_right hlost)
    · refine Or.inr ⟨fs₁ ++ fs₂, hthin₁.append hthin₂, ?_⟩
      exact (Prog.path_bind_ret_iff _ _ _ _).mpr ⟨a, fs₁, fs₂, rfl, hpath₁, hpath₂⟩

theorem masksIn_ofExcept (r : Except ε α) : F.MasksIn (Coro.ofExcept r : Coro S ε α) :=
  masks_ret r

theorem MasksIn.bind {x : Coro S ε α} {f : α → Coro S ε β} (hx : F.MasksIn x)
    (hf : ∀ a, F.MasksIn (f a)) : F.MasksIn (x >>= f) := by
  unfold MasksIn
  rw [Coro.run_bind']
  refine Masks.bind hx fun r => ?_
  cases r with
  | ok a => exact hf a
  | error e => exact masks_ret _

theorem MasksIn.attempt {x : Coro S ε α} (hx : F.MasksIn x) : F.MasksIn (Coro.attempt x) :=
  Masks.bind hx fun _ => masks_ret _

end Faults

end Interaction
