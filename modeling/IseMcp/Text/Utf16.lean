import Mathlib.Tactic

set_option autoImplicit false

/-! # UTF-16

Text as code units: a character above U+FFFF is two of them, a high and a low surrogate.
`utf16Decode` puts pairs together and refuses a surrogate on its own, and it reads back what was
encoded (`utf16Decode_encode`).
-/

namespace Text

def utf16Char (c : Char) : List Nat :=
  if c.toNat < 0x10000 then [c.toNat]
  else [0xD800 + (c.toNat - 0x10000) / 0x400, 0xDC00 + (c.toNat - 0x10000) % 0x400]

def utf16Encode (s : List Char) : List Nat := s.flatMap utf16Char

def isHighSurrogate (u : Nat) : Bool := 0xD800 ≤ u && u < 0xDC00
def isLowSurrogate (u : Nat) : Bool := 0xDC00 ≤ u && u < 0xE000

def utf16Decode : List Nat → Option (List Char)
  | [] => some []
  | u :: us =>
      if isHighSurrogate u then
        match us with
        | [] => none
        | v :: vs =>
            if isLowSurrogate v then
              (utf16Decode vs).map
                (Char.ofNat (0x10000 + (u - 0xD800) * 0x400 + (v - 0xDC00)) :: ·)
            else none
      else if isLowSurrogate u then none
      else (utf16Decode us).map (Char.ofNat u :: ·)

/-- The units of a character are units. -/
theorem utf16Char_lt {c : Char} {u : Nat} (h : u ∈ utf16Char c) : u < 0x10000 := by
  have hmax : c.toNat < 0x110000 := by
    have := c.valid
    rw [UInt32.isValidChar, Nat.isValidChar] at this
    show c.val.toNat < _
    omega
  unfold utf16Char at h
  split_ifs at h with hc
  · rw [List.mem_singleton] at h
    omega
  · simp only [List.mem_cons, List.not_mem_nil, or_false] at h
    omega

/-- The units of one character are read as that character, whatever follows. -/
theorem utf16Decode_append (c : Char) (us : List Nat) :
    utf16Decode (utf16Char c ++ us) = (utf16Decode us).map (c :: ·) := by
  have hvalid : c.toNat < 0xD800 ∨ (0xDFFF < c.toNat ∧ c.toNat < 0x110000) := c.valid
  unfold utf16Char
  split_ifs with hc
  · have hhigh : isHighSurrogate c.toNat = false := by
      simp only [isHighSurrogate, Bool.and_eq_false_iff, decide_eq_false_iff_not]
      omega
    have hlow : isLowSurrogate c.toNat = false := by
      simp only [isLowSurrogate, Bool.and_eq_false_iff, decide_eq_false_iff_not]
      omega
    rw [List.singleton_append, utf16Decode.eq_def]
    dsimp only
    rw [if_neg (by simp [hhigh]), if_neg (by simp [hlow]), Char.ofNat_toNat]
  · have hhigh : isHighSurrogate (0xD800 + (c.toNat - 0x10000) / 0x400) = true := by
      simp only [isHighSurrogate, Bool.and_eq_true, decide_eq_true_eq]
      omega
    have hlow : isLowSurrogate (0xDC00 + (c.toNat - 0x10000) % 0x400) = true := by
      simp only [isLowSurrogate, Bool.and_eq_true, decide_eq_true_eq]
      omega
    have hpair : 0x10000 + (0xD800 + (c.toNat - 0x10000) / 0x400 - 0xD800) * 0x400
        + (0xDC00 + (c.toNat - 0x10000) % 0x400 - 0xDC00) = c.toNat := by omega
    rw [List.cons_append, List.singleton_append, utf16Decode.eq_def]
    dsimp only
    rw [if_pos hhigh, if_pos hlow, hpair, Char.ofNat_toNat]

/-- **What was encoded is decoded.** -/
theorem utf16Decode_encode (s : List Char) : utf16Decode (utf16Encode s) = some s := by
  induction s with
  | nil => rfl
  | cons c s ih =>
      show utf16Decode (utf16Char c ++ utf16Encode s) = _
      rw [utf16Decode_append, ih]
      rfl

end Text
