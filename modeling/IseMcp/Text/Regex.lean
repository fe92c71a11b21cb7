import Mathlib.Computability.Language
import Mathlib.Tactic

set_option autoImplicit false

/-! # Bounded regular expressions

Regular expressions over character classes, without an unbounded star: sequence, alternative and
the counted repetition `r{lo,hi}`. `Regex.rests` is a backtracking matcher, which returns what
is left of the input after each way to match a prefix of it; `Regex.lang` is the language, in
the sense of Mathlib's `Language`. `mem_rests_iff` says that the two agree.
-/

namespace Text

inductive Regex where
  | eps
  | cls (p : Char → Bool)
  | seq (r s : Regex)
  | alt (r s : Regex)
  | rep (r : Regex) (lo hi : Nat)

namespace Regex

/-! ## The matcher -/

/-- `n` matches of `f` in a row. -/
def times (f : List Char → List (List Char)) : Nat → List Char → List (List Char)
  | 0, s => [s]
  | n + 1, s => (f s).flatMap (times f n)

/-- At most `n` matches of `f` in a row. -/
def upTo (f : List Char → List (List Char)) : Nat → List Char → List (List Char)
  | 0, s => [s]
  | n + 1, s => s :: (f s).flatMap (upTo f n)

/-- What can be left of the input after matching a prefix of it. -/
def rests : Regex → List Char → List (List Char)
  | eps, s => [s]
  | cls _, [] => []
  | cls p, c :: s => if p c then [s] else []
  | seq r t, s => (rests r s).flatMap (rests t)
  | alt r t, s => rests r s ++ rests t s
  | rep r lo hi, s => (times (rests r) lo s).flatMap (upTo (rests r) (hi - lo))

/-- A match from the start up to `$`, which also holds before a final newline. -/
def matchDollar (r : Regex) (s : List Char) : Bool :=
  (rests r s).any fun t => t == [] || t == ['\n']

/-- One given character. -/
def chr (c : Char) : Regex := cls (· == c)

/-- Exactly `n` times. -/
def exactly (n : Nat) (r : Regex) : Regex := rep r n n

/-- `r?` -/
def opt (r : Regex) : Regex := rep r 0 1

/-! ## The language -/

def lang : Regex → Language Char
  | eps => 1
  | cls p => {s | ∃ c, p c = true ∧ s = [c]}
  | seq r t => lang r * lang t
  | alt r t => lang r + lang t
  | rep r lo hi => {s | ∃ m ≤ hi - lo, s ∈ lang r ^ (lo + m)}

theorem mem_lang_seq {r t : Regex} {s : List Char} :
    s ∈ (seq r t).lang ↔ ∃ a b, a ∈ r.lang ∧ b ∈ t.lang ∧ a ++ b = s := by
  show s ∈ r.lang * t.lang ↔ _
  simp only [Language.mem_mul]
  constructor
  · rintro ⟨a, ha, b, hb, h⟩
    exact ⟨a, b, ha, hb, h⟩
  · rintro ⟨a, b, ha, hb, h⟩
    exact ⟨a, ha, b, hb, h⟩

theorem mem_lang_alt {r t : Regex} {s : List Char} :
    s ∈ (alt r t).lang ↔ s ∈ r.lang ∨ s ∈ t.lang := Language.mem_add _ _ _

theorem mem_lang_rep {r : Regex} {lo hi : Nat} {s : List Char} :
    s ∈ (rep r lo hi).lang ↔ ∃ m ≤ hi - lo, s ∈ r.lang ^ (lo + m) := Iff.rfl

theorem mem_pow_add {l : Language Char} {m n : Nat} {s : List Char} :
    s ∈ l ^ (m + n) ↔ ∃ a b, a ∈ l ^ m ∧ b ∈ l ^ n ∧ a ++ b = s := by
  rw [pow_add, Language.mem_mul]
  constructor
  · rintro ⟨a, ha, b, hb, h⟩
    exact ⟨a, b, ha, hb, h⟩
  · rintro ⟨a, b, ha, hb, h⟩
    exact ⟨a, ha, b, hb, h⟩

theorem mem_pow_succ {l : Language Char} {n : Nat} {s : List Char} :
    s ∈ l ^ (n + 1) ↔ ∃ a b, a ∈ l ∧ b ∈ l ^ n ∧ a ++ b = s := by
  rw [Nat.add_comm, mem_pow_add, pow_one]

theorem mem_pow_zero {l : Language Char} {s : List Char} : s ∈ l ^ 0 ↔ s = [] := by
  rw [pow_zero, Language.mem_one]

theorem mem_lang_chr {c : Char} {s : List Char} : s ∈ (chr c).lang ↔ s = [c] := by
  constructor
  · rintro ⟨d, hd, rfl⟩
    rw [beq_iff_eq.mp hd]
  · rintro rfl
    exact ⟨c, beq_self_eq_true c, rfl⟩

theorem lang_chr (c : Char) : (chr c).lang = {[c]} := Set.ext fun _ => mem_lang_chr

theorem mem_lang_exactly {r : Regex} {n : Nat} {s : List Char} :
    s ∈ (exactly n r).lang ↔ s ∈ r.lang ^ n := by
  rw [exactly, mem_lang_rep]
  simp

theorem mem_lang_opt {r : Regex} {s : List Char} : s ∈ (opt r).lang ↔ s = [] ∨ s ∈ r.lang := by
  rw [opt, mem_lang_rep]
  constructor
  · rintro ⟨m, hm, hs⟩
    interval_cases m
    · exact Or.inl (mem_pow_zero.mp hs)
    · exact Or.inr (by simpa using hs)
  · rintro (rfl | hs)
    · exact ⟨0, by omega, mem_pow_zero.mpr rfl⟩
    · exact ⟨1, by omega, by simpa using hs⟩

/-! ## The matcher recognises the language -/

section

variable {f : List Char → List (List Char)} {l : Language Char}

theorem mem_times_iff (hf : ∀ s t, t ∈ f s ↔ ∃ a ∈ l, a ++ t = s) :
    ∀ (n : Nat) (s t : List Char), t ∈ times f n s ↔ ∃ a ∈ l ^ n, a ++ t = s
  | 0, s, t => by
      simp only [times, List.mem_singleton, mem_pow_zero, exists_eq_left, List.nil_append]
  | n + 1, s, t => by
      simp only [times, List.mem_flatMap, hf, mem_times_iff hf n, mem_pow_succ]
      constructor
      · rintro ⟨u, ⟨a, ha, rfl⟩, b, hb, rfl⟩
        exact ⟨a ++ b, ⟨a, b, ha, hb, rfl⟩, by simp⟩
      · rintro ⟨_, ⟨a, b, ha, hb, rfl⟩, rfl⟩
        exact ⟨b ++ t, ⟨a, ha, by simp⟩, b, hb, rfl⟩

theorem mem_upTo_iff (hf : ∀ s t, t ∈ f s ↔ ∃ a ∈ l, a ++ t = s) :
    ∀ (n : Nat) (s t : List Char), t ∈ upTo f n s ↔ ∃ m ≤ n, ∃ a ∈ l ^ m, a ++ t = s
  | 0, s, t => by
      simp only [upTo, List.mem_singleton, Nat.le_zero_eq, exists_eq_left, mem_pow_zero,
        List.nil_append]
  | n + 1, s, t => by
      simp only [upTo, List.mem_cons, List.mem_flatMap, hf, mem_upTo_iff hf n]
      constructor
      · rintro (rfl | ⟨u, ⟨a, ha, rfl⟩, m, hm, b, hb, rfl⟩)
        · exact ⟨0, Nat.zero_le _, [], mem_pow_zero.mpr rfl, rfl⟩
        · exact ⟨m + 1, by omega, a ++ b, mem_pow_succ.mpr ⟨a, b, ha, hb, rfl⟩, by simp⟩
      · rintro ⟨m, hm, c, hc, rfl⟩
        cases m with
        | zero =>
            rw [mem_pow_zero] at hc
            subst hc
            exact Or.inl rfl
        | succ m =>
            obtain ⟨a, b, ha, hb, rfl⟩ := mem_pow_succ.mp hc
            exact Or.inr ⟨b ++ t, ⟨a, ha, by simp⟩, m, by omega, b, hb, rfl⟩

end

/-- **The matcher recognises the language**: `t` can be left exactly when the input is a word
of the language followed by `t`. -/
theorem mem_rests_iff (r : Regex) :
    ∀ s t : List Char, t ∈ rests r s ↔ ∃ a ∈ r.lang, a ++ t = s := by
  induction r with
  | eps =>
      intro s t
      simp only [rests, List.mem_singleton, lang, Language.mem_one, exists_eq_left,
        List.nil_append]
  | cls p =>
      intro s t
      cases s with
      | nil =>
          simp only [rests, List.not_mem_nil, List.append_eq_nil_iff, false_iff]
          rintro ⟨a, ⟨c, _, rfl⟩, h, _⟩
          cases h
      | cons c s =>
          constructor
          · intro h
            by_cases hp : p c = true
            · simp only [rests, hp, if_true, List.mem_singleton] at h
              exact ⟨[c], ⟨c, hp, rfl⟩, by simp [h]⟩
            · simp [rests, hp] at h
          · rintro ⟨_, ⟨d, hd, rfl⟩, h⟩
            obtain ⟨rfl, rfl⟩ := List.cons.inj h
            simp [rests, hd]
  | seq r₁ r₂ ih₁ ih₂ =>
      intro s t
      simp only [rests, List.mem_flatMap, ih₁, ih₂, mem_lang_seq]
      constructor
      · rintro ⟨u, ⟨a, ha, rfl⟩, b, hb, rfl⟩
        exact ⟨a ++ b, ⟨a, b, ha, hb, rfl⟩, by simp⟩
      · rintro ⟨_, ⟨a, b, ha, hb, rfl⟩, rfl⟩
        exact ⟨b ++ t, ⟨a, ha, by simp⟩, b, hb, rfl⟩
  | alt r₁ r₂ ih₁ ih₂ =>
      intro s t
      simp only [rests, List.mem_append, ih₁, ih₂, mem_lang_alt]
      constructor
      · rintro (⟨a, ha, h⟩ | ⟨a, ha, h⟩)
        · exact ⟨a, Or.inl ha, h⟩
        · exact ⟨a, Or.inr ha, h⟩
      · rintro ⟨a, ha | ha, h⟩
        · exact Or.inl ⟨a, ha, h⟩
        · exact Or.inr ⟨a, ha, h⟩
  | rep r lo hi ih =>
      intro s t
      -- a repetition is the least number of rounds and then some of the others
      simp only [rests, List.mem_flatMap, mem_times_iff ih, mem_upTo_iff ih, mem_lang_rep]
      constructor
      · rintro ⟨u, ⟨a, ha, rfl⟩, m, hm, b, hb, rfl⟩
        exact ⟨a ++ b, ⟨m, hm, mem_pow_add.mpr ⟨a, b, ha, hb, rfl⟩⟩, by simp⟩
      · rintro ⟨_, ⟨m, hm, hc⟩, rfl⟩
        obtain ⟨a, b, ha, hb, rfl⟩ := mem_pow_add.mp hc
        exact ⟨b ++ t, ⟨a, ha, by simp⟩, m, hm, b, hb, rfl⟩

/-- Where the input does not end in a newline, `$` is the end of the input. -/
theorem matchDollar_iff {r : Regex} {s : List Char} (hs : s.getLast? ≠ some '\n') :
    matchDollar r s = true ↔ s ∈ r.lang := by
  simp only [matchDollar, List.any_eq_true, Bool.or_eq_true, beq_iff_eq, mem_rests_iff]
  constructor
  · rintro ⟨t, ⟨a, ha, rfl⟩, rfl | rfl⟩
    · simpa using ha
    · simp at hs
  · intro h
    exact ⟨[], ⟨s, h, by simp⟩, Or.inl rfl⟩

/-- The expression that matches one given text. -/
def literal : List Char → Regex
  | [] => eps
  | c :: w => seq (chr c) (literal w)

theorem lang_literal (w : List Char) : (literal w).lang = {w} := by
  induction w with
  | nil => rfl
  | cons c w ih =>
      ext s
      rw [literal, mem_lang_seq, ih]
      show _ ↔ s = c :: w
      constructor
      · rintro ⟨a, _, ha, rfl, rfl⟩
        rw [mem_lang_chr.mp ha]
        rfl
      · rintro rfl
        exact ⟨[c], w, mem_lang_chr.mpr rfl, rfl, rfl⟩

/-- `$` lets one newline follow the text. -/
theorem matchDollar_literal {w s : List Char} :
    (literal w).matchDollar s = true ↔ s = w ∨ s = w ++ ['\n'] := by
  have hrests : ∀ t, t ∈ rests (literal w) s ↔ w ++ t = s := by
    intro t
    rw [mem_rests_iff, lang_literal]
    exact exists_eq_left
  simp only [matchDollar, List.any_eq_true, Bool.or_eq_true, beq_iff_eq, hrests]
  constructor
  · rintro ⟨t, rfl, rfl | rfl⟩
    · exact Or.inl (List.append_nil w)
    · exact Or.inr rfl
  · rintro (rfl | rfl)
    · exact ⟨[], List.append_nil s, Or.inl rfl⟩
    · exact ⟨['\n'], rfl, Or.inr rfl⟩

/-- A counted class: that many characters of the class. -/
theorem mem_exactly_cls {p : Char → Bool} {n : Nat} {s : List Char} :
    s ∈ (exactly n (cls p)).lang ↔ s.length = n ∧ ∀ c ∈ s, p c = true := by
  rw [mem_lang_exactly]
  induction n generalizing s with
  | zero =>
      rw [mem_pow_zero, List.length_eq_zero_iff]
      constructor
      · rintro rfl
        exact ⟨rfl, by simp⟩
      · exact fun h => h.1
  | succ n ih =>
      rw [mem_pow_succ]
      constructor
      · rintro ⟨_, b, ⟨c, hc, rfl⟩, hb, rfl⟩
        obtain ⟨hlen, hall⟩ := ih.mp hb
        exact ⟨by simp [hlen], by simpa [hc] using hall⟩
      · rintro ⟨hlen, hall⟩
        cases s with
        | nil => simp at hlen
        | cons c s =>
            rw [List.forall_mem_cons] at hall
            exact ⟨[c], s, ⟨c, hall.1, rfl⟩, ih.mpr ⟨by simpa using hlen, hall.2⟩, rfl⟩

/-! ## Parts with a separator between them -/

/-- The separators of a join, each put behind the part before it. -/
theorem intercalate_snoc (t q : List Char) (ps : List (List Char)) :
    t.intercalate (ps ++ [q]) = (ps.map (· ++ t)).flatten ++ q := by
  induction ps with
  | nil => simp
  | cons p ps ih =>
      rw [List.cons_append, List.intercalate_cons_of_ne_nil (by simp), ih]
      simp

section

variable {r sep : Regex} {t : List Char}

/-- A repeated group of a part and its separator. -/
theorem mem_group_pow (hsep : sep.lang = {t}) {n : Nat} {s : List Char} :
    s ∈ (seq r sep).lang ^ n ↔
      ∃ ps : List (List Char), ps.length = n ∧ (∀ p ∈ ps, p ∈ r.lang) ∧
        s = (ps.map (· ++ t)).flatten := by
  induction n generalizing s with
  | zero =>
      rw [mem_pow_zero]
      constructor
      · rintro rfl
        exact ⟨[], rfl, by simp, rfl⟩
      · rintro ⟨ps, hlen, _, rfl⟩
        rw [List.length_eq_zero_iff.mp hlen]
        rfl
  | succ n ih =>
      rw [mem_pow_succ]
      constructor
      · rintro ⟨_, b, ha, hb, rfl⟩
        obtain ⟨p, t', hp, ht, rfl⟩ := mem_lang_seq.mp ha
        obtain ⟨ps, hlen, hps, rfl⟩ := ih.mp hb
        rw [hsep] at ht
        obtain rfl : t' = t := ht
        exact ⟨p :: ps, by rw [List.length_cons, hlen], List.forall_mem_cons.mpr ⟨hp, hps⟩, rfl⟩
      · rintro ⟨ps, hlen, hps, rfl⟩
        cases ps with
        | nil => cases hlen
        | cons p ps =>
            rw [List.forall_mem_cons] at hps
            refine ⟨p ++ t, _, mem_lang_seq.mpr ⟨p, t, hps.1, ?_, rfl⟩,
              ih.mpr ⟨ps, by simpa using hlen, hps.2, rfl⟩, rfl⟩
            rw [hsep]
            rfl

/-- Such groups and a last part are the parts joined by the separator. -/
theorem mem_joined (hsep : sep.lang = {t}) {n : Nat} {s : List Char} :
    s ∈ (seq (exactly n (seq r sep)) r).lang ↔
      ∃ ps : List (List Char), ps.length = n + 1 ∧ (∀ p ∈ ps, p ∈ r.lang) ∧
        s = t.intercalate ps := by
  constructor
  · intro h
    obtain ⟨u, q, hu, hq, rfl⟩ := mem_lang_seq.mp h
    obtain ⟨ps, hlen, hps, rfl⟩ := (mem_group_pow hsep).mp (mem_lang_exactly.mp hu)
    refine ⟨ps ++ [q], by simp [hlen], ?_, (intercalate_snoc t q ps).symm⟩
    intro p hp
    rcases List.mem_append.mp hp with hp | hp
    · exact hps p hp
    · rwa [List.mem_singleton.mp hp]
  · rintro ⟨ps, hlen, hps, rfl⟩
    obtain ⟨ps, q, rfl⟩ : ∃ ps' q, ps = ps' ++ [q] := by
      rcases List.eq_nil_or_concat ps with rfl | ⟨ps', q, rfl⟩
      · cases hlen
      · exact ⟨ps', q, List.concat_eq_append⟩
    rw [intercalate_snoc]
    refine mem_lang_seq.mpr
      ⟨_, q, mem_lang_exactly.mpr ((mem_group_pow hsep).mpr ⟨ps, ?_, ?_, rfl⟩),
        hps q (by simp), rfl⟩
    · simpa using hlen
    · exact fun p hp => hps p (by simp [hp])

end

/-! ## What the words of a language are made of -/

/-- Every class of the expression is within `P`. -/
def Within (P : Char → Prop) : Regex → Prop
  | eps => True
  | cls p => ∀ c, p c = true → P c
  | seq r t => Within P r ∧ Within P t
  | alt r t => Within P r ∧ Within P t
  | rep r _ _ => Within P r

theorem forall_mem_pow {P : Char → Prop} {l : Language Char} (hl : ∀ s ∈ l, ∀ c ∈ s, P c) :
    ∀ (n : Nat), ∀ s ∈ l ^ n, ∀ c ∈ s, P c
  | 0, s, hs, c, hc => by
      rw [mem_pow_zero] at hs
      simp [hs] at hc
  | n + 1, s, hs, c, hc => by
      obtain ⟨a, b, ha, hb, rfl⟩ := mem_pow_succ.mp hs
      rcases List.mem_append.mp hc with hc | hc
      · exact hl a ha c hc
      · exact forall_mem_pow hl n b hb c hc

theorem Within.forall_mem {P : Char → Prop} {r : Regex} (h : r.Within P) :
    ∀ s ∈ r.lang, ∀ c ∈ s, P c := by
  induction r with
  | eps =>
      intro s hs c hc
      rw [lang, Language.mem_one] at hs
      simp [hs] at hc
  | cls p =>
      rintro s ⟨d, hd, rfl⟩ c hc
      rw [List.mem_singleton] at hc
      subst hc
      exact h c hd
  | seq r t ihr iht =>
      intro s hs c hc
      obtain ⟨a, b, ha, hb, rfl⟩ := mem_lang_seq.mp hs
      rcases List.mem_append.mp hc with hc | hc
      · exact ihr h.1 a ha c hc
      · exact iht h.2 b hb c hc
  | alt r t ihr iht =>
      intro s hs
      rcases mem_lang_alt.mp hs with hs | hs
      · exact ihr h.1 s hs
      · exact iht h.2 s hs
  | rep r lo hi ih =>
      rintro s ⟨m, _, hs⟩
      exact forall_mem_pow (ih h) _ s hs

/-- A lower bound on the length of the words. -/
def minLength : Regex → Nat
  | eps => 0
  | cls _ => 1
  | seq r t => minLength r + minLength t
  | alt r t => min (minLength r) (minLength t)
  | rep r lo _ => lo * minLength r

theorem mul_le_length_of_mem_pow {l : Language Char} {k : Nat} (hl : ∀ s ∈ l, k ≤ s.length) :
    ∀ (n : Nat), ∀ s ∈ l ^ n, n * k ≤ s.length
  | 0, s, _ => by simp
  | n + 1, s, hs => by
      obtain ⟨a, b, ha, hb, rfl⟩ := mem_pow_succ.mp hs
      have h₁ := hl a ha
      have h₂ := mul_le_length_of_mem_pow hl n b hb
      rw [List.length_append, Nat.add_mul]
      omega

theorem minLength_le (r : Regex) : ∀ s ∈ r.lang, r.minLength ≤ s.length := by
  induction r with
  | eps =>
      intro s _
      exact Nat.zero_le _
  | cls p =>
      rintro s ⟨d, _, rfl⟩
      exact Nat.le_refl 1
  | seq r t ihr iht =>
      intro s hs
      obtain ⟨a, b, ha, hb, rfl⟩ := mem_lang_seq.mp hs
      rw [List.length_append]
      exact Nat.add_le_add (ihr a ha) (iht b hb)
  | alt r t ihr iht =>
      intro s hs
      rcases mem_lang_alt.mp hs with hs | hs
      · exact Nat.le_trans (Nat.min_le_left _ _) (ihr s hs)
      · exact Nat.le_trans (Nat.min_le_right _ _) (iht s hs)
  | rep r lo hi ih =>
      rintro s ⟨m, _, hs⟩
      have h := mul_le_length_of_mem_pow ih (lo + m) s hs
      calc lo * r.minLength ≤ (lo + m) * r.minLength := Nat.mul_le_mul_right _ (by omega)
        _ ≤ s.length := h

end Regex

end Text
