import Mathlib.Tactic

set_option autoImplicit false

/-! # Lines

A text is split into lines at a separator. The lines of a text that is put together are those of
its parts, but for the line that runs across a seam (`splitOn_append`). A line that does not contain
the words at a seam cannot run across it, so it is looked for in each part between the words around
it (`hasLine_concat`). -/

namespace Text

variable {α : Type} [BEq α] {sep : α} {line : List α}

/-- `line` is one of the lines of `s`. -/
def HasLine (sep : α) (line s : List α) : Prop := line ∈ s.splitOn sep

variable (sep) in
/-- The last line of the first part and the first line of the second become one line. -/
theorem splitOn_append (a b : List α) :
    ∃ init last first rest, a.splitOn sep = init ++ [last] ∧ b.splitOn sep = first :: rest ∧
      (a ++ b).splitOn sep = init ++ (last ++ first) :: rest := by
  induction a with
  | nil =>
      obtain ⟨first, rest, hb⟩ := List.exists_cons_of_ne_nil (List.splitOn_ne_nil sep b)
      exact ⟨[], [], first, rest, rfl, hb, hb⟩
  | cons c a ih =>
      obtain ⟨init, last, first, rest, ha, hb, hab⟩ := ih
      rw [List.cons_append, List.splitOn_cons_eq_if_modifyHead,
        List.splitOn_cons_eq_if_modifyHead, ha, hab]
      by_cases hc : (c == sep) = true
      · rw [if_pos hc, if_pos hc]
        exact ⟨[] :: init, last, first, rest, rfl, hb, rfl⟩
      · rw [if_neg hc, if_neg hc]
        cases init with
        | nil => exact ⟨[], c :: last, first, rest, rfl, hb, rfl⟩
        | cons l init => exact ⟨(c :: l) :: init, last, first, rest, rfl, hb, rfl⟩

variable [LawfulBEq α]

/-- Lines do not run across a separator. -/
theorem hasLine_append_cons (a b : List α) :
    HasLine sep line (a ++ sep :: b) ↔ HasLine sep line a ∨ HasLine sep line b := by
  rw [HasLine, List.splitOn_append_cons_self, List.mem_append]
  exact Iff.rfl

theorem hasLine_of_not_mem {s : List α} (h : sep ∉ s) : HasLine sep line s ↔ line = s := by
  rw [HasLine, List.splitOn_eq_singleton h, List.mem_singleton]

/-- The lines of texts joined by the separator are those of the texts. -/
theorem hasLine_intercalate {ls : List (List α)} (h : ls ≠ []) :
    HasLine sep line ([sep].intercalate ls) ↔ ∃ l ∈ ls, HasLine sep line l := by
  induction ls with
  | nil => exact absurd rfl h
  | cons l ls ih =>
      cases ls with
      | nil => simp
      | cons m ls =>
          rw [List.intercalate_cons_cons, List.append_assoc, List.singleton_append,
            hasLine_append_cons, ih (by simp), List.exists_mem_cons_iff (a := l)]

/-- Texts that are ended by a separator each are the lines, with an empty one behind the last. -/
theorem splitOn_terminated {ls : List (List α)} (h : ∀ l ∈ ls, sep ∉ l) :
    (ls.flatMap (· ++ [sep])).splitOn sep = ls ++ [[]] := by
  induction ls with
  | nil => rfl
  | cons l ls ih =>
      rw [List.forall_mem_cons] at h
      rw [List.flatMap_cons, List.append_assoc, List.singleton_append,
        List.splitOn_append_cons_self, List.splitOn_eq_singleton h.1, ih h.2]
      rfl

/-- A line without the words `m` does not run across them. -/
theorem hasLine_seam {m : List α} (hm : sep ∉ m) (hline : ¬ m <:+: line) (a b : List α) :
    HasLine sep line (a ++ (m ++ b)) ↔ HasLine sep line (a ++ m) ∨ HasLine sep line (m ++ b) := by
  have hmono : m.splitOn sep = [m] := List.splitOn_eq_singleton hm
  obtain ⟨init, last, first, rest, ha, hfirst, ham⟩ := splitOn_append sep a m
  obtain ⟨init', last', first', rest', hm', hb, hmb⟩ := splitOn_append sep m b
  obtain ⟨init₂, last₂, first₂, rest₂, ha₂, hmb₂, hall⟩ := splitOn_append sep a (m ++ b)
  -- `m` is a single line, so both seams are at it
  rw [hmono] at hfirst hm'
  obtain ⟨rfl, rfl⟩ := List.cons.inj hfirst
  have hone : [] ++ [m] = init' ++ [last'] := hm'
  obtain ⟨rfl, hlast⟩ := List.append_inj' hone rfl
  obtain rfl : m = last' := by simpa using hlast
  rw [ha] at ha₂
  obtain ⟨rfl, hlast₂⟩ := List.append_inj' ha₂ rfl
  obtain rfl : last = last₂ := by simpa using hlast₂
  rw [List.nil_append] at hmb
  rw [hmb] at hmb₂
  obtain ⟨rfl, rfl⟩ := List.cons.inj hmb₂
  have hne : ∀ x y : List α, line ≠ x ++ (m ++ y) := by
    rintro x y rfl
    exact hline ⟨x, y, by simp⟩
  have h₁ := hne last first'
  have h₂ := hne last []
  have h₃ := hne [] first'
  rw [List.append_nil] at h₂
  rw [List.nil_append] at h₃
  simp only [HasLine, ham, hmb, hall, List.mem_append, List.mem_cons, List.not_mem_nil, or_false,
    h₁, h₂, h₃, false_or]

/-- A text with the fixed words before and behind it. -/
structure Piece (α : Type) where
  before : List α
  text : List α
  after : List α

def Piece.all (p : Piece α) : List α := p.before ++ p.text ++ p.after

/-- Every text between the words around it, which include those before the next one. -/
def framed : List (Piece α) → List (List α)
  | [] => []
  | [p] => [p.all]
  | p :: q :: ps => (p.all ++ q.before) :: framed (q :: ps)

/-- A line that contains none of the words between the parts is a line of one of them. -/
theorem hasLine_concat {p : Piece α} {ps : List (Piece α)}
    (h : ∀ q ∈ ps, sep ∉ q.before ∧ ¬ q.before <:+: line) :
    HasLine sep line (((p :: ps).map Piece.all).flatten) ↔
      ∃ s ∈ framed (p :: ps), HasLine sep line s := by
  induction ps generalizing p with
  | nil => simp [framed]
  | cons q ps ih =>
      rw [List.forall_mem_cons] at h
      have hsplit : ((p :: q :: ps).map Piece.all).flatten
          = p.all ++ (q.before ++ (q.text ++ q.after ++ (ps.map Piece.all).flatten)) := by
        simp [Piece.all]
      have hrest : q.before ++ (q.text ++ q.after ++ (ps.map Piece.all).flatten)
          = ((q :: ps).map Piece.all).flatten := by
        simp [Piece.all]
      rw [hsplit, hasLine_seam h.1.1 h.1.2, hrest, ih h.2, framed, List.exists_mem_cons_iff]

end Text
