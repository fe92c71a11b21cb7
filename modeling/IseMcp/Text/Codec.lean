import Mathlib.Tactic

set_option autoImplicit false

/-! # Byte encodings

UTF-8, Latin-1 and base64 on lists of bytes. `utf8Decode` accepts exactly well-formed UTF-8 (no
overlong form, no surrogate, nothing above U+10FFFF); `utf8DecodeLossy` accepts everything and puts
U+FFFD for what is not well-formed. `b64decode` is the lenient decoder:
characters outside the alphabet are skipped, and the data ends at the padding that completes a
group.
-/

namespace Text

abbrev Bytes : Type := List UInt8

/-! ## UTF-8 and Latin-1 -/

def utf8Encode (s : String) : Bytes := s.toList.flatMap String.utf8EncodeChar

/-- The six bits of a continuation byte in the range `lo` to `hi`. -/
def contBits (lo hi : Nat) (b : UInt8) : Option Nat :=
  if lo ≤ b.toNat ∧ b.toNat ≤ hi then some (b.toNat % 64) else none

/-- The first continuation byte may be restricted by the lead byte. -/
def secondRange (lead : Nat) : Nat × Nat :=
  if lead = 0xE0 then (0xA0, 0xBF)
  else if lead = 0xED then (0x80, 0x9F)
  else if lead = 0xF0 then (0x90, 0xBF)
  else if lead = 0xF4 then (0x80, 0x8F)
  else (0x80, 0xBF)

def utf8DecodeChars : Bytes → Option (List Char)
  | [] => some []
  | b :: rest =>
      let n := b.toNat
      if n < 0x80 then (utf8DecodeChars rest).map (Char.ofNat n :: ·)
      else
        match rest with
        | [] => none
        | b₁ :: rest₁ =>
            match contBits (secondRange n).1 (secondRange n).2 b₁ with
            | none => none
            | some c₁ =>
                if 0xC2 ≤ n ∧ n ≤ 0xDF then
                  (utf8DecodeChars rest₁).map (Char.ofNat (n % 32 * 64 + c₁) :: ·)
                else
                  match rest₁ with
                  | [] => none
                  | b₂ :: rest₂ =>
                      match contBits 0x80 0xBF b₂ with
                      | none => none
                      | some c₂ =>
                          if 0xE0 ≤ n ∧ n ≤ 0xEF then
                            (utf8DecodeChars rest₂).map
                              (Char.ofNat ((n % 16 * 64 + c₁) * 64 + c₂) :: ·)
                          else
                            match rest₂ with
                            | [] => none
                            | b₃ :: rest₃ =>
                                match contBits 0x80 0xBF b₃ with
                                | none => none
                                | some c₃ =>
                                    if 0xF0 ≤ n ∧ n ≤ 0xF4 then
                                      (utf8DecodeChars rest₃).map
                                        (Char.ofNat (((n % 8 * 64 + c₁) * 64 + c₂) * 64 + c₃) :: ·)
                                    else none

def utf8Decode (b : Bytes) : Option String := (utf8DecodeChars b).map String.ofList

def latin1Decode (b : Bytes) : String := .ofList (b.map fun x => Char.ofNat x.toNat)

/-- Every byte is below 128. -/
def AsciiBytes (b : Bytes) : Prop := ∀ x ∈ b, x.toNat < 128

instance (b : Bytes) : Decidable (AsciiBytes b) := inferInstanceAs (Decidable (∀ x ∈ b, _))

theorem toNat_ofNat_of_lt {n : Nat} (h : n < 0xD800) : (Char.ofNat n).toNat = n := by
  rw [Char.ofNat, dif_pos (Or.inl h)]
  rfl

/-- On ASCII bytes the two decodings agree. -/
theorem utf8Decode_of_ascii {b : Bytes} (h : AsciiBytes b) :
    utf8Decode b = some (latin1Decode b) := by
  suffices hc : utf8DecodeChars b = some (b.map fun x => Char.ofNat x.toNat) by
    simp [utf8Decode, latin1Decode, hc]
  induction b with
  | nil => rfl
  | cons x b ih =>
      have hx : x.toNat < 128 := h x List.mem_cons_self
      rw [utf8DecodeChars.eq_def]
      simp only [hx, if_true, ih fun y hy => h y (List.mem_cons_of_mem _ hy), Option.map_some,
        List.map_cons]

/-! ## UTF-8 with replacements

The decoder of browsers and of `errors="replace"`: a byte that cannot go on a sequence ends it,
which leaves U+FFFD for the part read so far, and is looked at again as the start of another. -/

/-- U+FFFD -/
def replacement : Char := Char.ofNat 0xFFFD

/-- A sequence in progress: its bits so far, the number of missing bytes, and the range of the
next one. -/
structure Pending where
  bits : Nat
  missing : Nat
  lo : Nat
  hi : Nat

/-- A byte between two sequences. -/
def utf8Start (n : Nat) : List Char × Option Pending :=
  if n < 0x80 then ([Char.ofNat n], none)
  else if 0xC2 ≤ n ∧ n ≤ 0xDF then ([], some ⟨n % 32, 1, 0x80, 0xBF⟩)
  else if 0xE0 ≤ n ∧ n ≤ 0xEF then ([], some ⟨n % 16, 2, (secondRange n).1, (secondRange n).2⟩)
  else if 0xF0 ≤ n ∧ n ≤ 0xF4 then ([], some ⟨n % 8, 3, (secondRange n).1, (secondRange n).2⟩)
  else ([replacement], none)

def utf8Step : Option Pending → Nat → List Char × Option Pending
  | none, n => utf8Start n
  | some p, n =>
      if p.lo ≤ n ∧ n ≤ p.hi then
        if p.missing = 1 then ([Char.ofNat (p.bits * 64 + n % 64)], none)
        else ([], some ⟨p.bits * 64 + n % 64, p.missing - 1, 0x80, 0xBF⟩)
      else (replacement :: (utf8Start n).1, (utf8Start n).2)

def utf8Run : Option Pending → Bytes → List Char
  | none, [] => []
  | some _, [] => [replacement]
  | st, b :: rest => (utf8Step st b.toNat).1 ++ utf8Run (utf8Step st b.toNat).2 rest

def utf8DecodeLossy (b : Bytes) : List Char := utf8Run none b

theorem utf8Run_cons (st : Option Pending) (b : UInt8) (rest : Bytes) :
    utf8Run st (b :: rest)
      = (utf8Step st b.toNat).1 ++ utf8Run (utf8Step st b.toNat).2 rest := by
  cases st <;> rfl

/-- The last byte of a sequence. -/
theorem utf8Step_last {bits lo hi n : Nat} (hlo : lo ≤ n) (hhi : n ≤ hi) :
    utf8Step (some ⟨bits, 1, lo, hi⟩) n = ([Char.ofNat (bits * 64 + n % 64)], none) := by
  rw [utf8Step, if_pos ⟨hlo, hhi⟩, if_pos rfl]

/-- A byte after which others are missing. -/
theorem utf8Step_more {bits lo hi n : Nat} (m : Nat) (hlo : lo ≤ n) (hhi : n ≤ hi) :
    utf8Step (some ⟨bits, m + 2, lo, hi⟩) n
      = ([], some ⟨bits * 64 + n % 64, m + 1, 0x80, 0xBF⟩) := by
  rw [utf8Step, if_pos ⟨hlo, hhi⟩, if_neg (by simp)]
  rfl

/-- The encoding of one character is read as that character. -/
theorem utf8Run_encodeChar (c : Char) (rest : Bytes) :
    utf8Run none (String.utf8EncodeChar c ++ rest) = c :: utf8Run none rest := by
  have hc : Char.ofNat c.val.toNat = c := Char.ofNat_toNat c
  have hvalid : c.val.toNat < 0xD800 ∨ 0xDFFF < c.val.toNat ∧ c.val.toNat < 0x110000 := c.valid
  unfold String.utf8EncodeChar
  generalize c.val.toNat = v at hc hvalid ⊢
  have hbyte : ∀ n, n < 256 → (UInt8.ofNat n).toNat = n := by
    intro n hn
    rw [UInt8.toNat_ofNat', Nat.mod_eq_of_lt hn]
  simp only
  split_ifs with h₁ h₂ h₃
  · rw [List.singleton_append, utf8Run_cons, hbyte v (by omega), utf8Step, utf8Start,
      if_pos (by omega), hc]
    rfl
  · simp only [List.cons_append, List.nil_append, utf8Run_cons]
    rw [hbyte _ (by omega), hbyte _ (by omega), utf8Step, utf8Start, if_neg (by omega),
      if_pos (by omega), utf8Step_last (by omega) (by omega)]
    have hv : (v / 64 % 32 + 0xC0) % 32 * 64 + (v % 64 + 0x80) % 64 = v := by omega
    rw [hv, hc]
    rfl
  · simp only [List.cons_append, List.nil_append, utf8Run_cons]
    -- E0 and ED restrict the next byte, as the character is no shorter and no surrogate
    have hsecond : (secondRange (v / 4096 % 16 + 0xE0)).1 ≤ v / 64 % 64 + 0x80 ∧
        v / 64 % 64 + 0x80 ≤ (secondRange (v / 4096 % 16 + 0xE0)).2 := by
      unfold secondRange
      split_ifs <;> dsimp only <;> omega
    rw [hbyte _ (by omega), hbyte _ (by omega), hbyte _ (by omega), utf8Step, utf8Start,
      if_neg (by omega), if_neg (by omega), if_pos (by omega),
      utf8Step_more 0 hsecond.1 hsecond.2, utf8Step_last (by omega) (by omega)]
    have hv : ((v / 4096 % 16 + 0xE0) % 16 * 64 + (v / 64 % 64 + 0x80) % 64) * 64
        + (v % 64 + 0x80) % 64 = v := by omega
    rw [hv, hc]
    rfl
  · simp only [List.cons_append, List.nil_append, utf8Run_cons]
    have hsecond : (secondRange (v / 262144 % 8 + 0xF0)).1 ≤ v / 4096 % 64 + 0x80 ∧
        v / 4096 % 64 + 0x80 ≤ (secondRange (v / 262144 % 8 + 0xF0)).2 := by
      unfold secondRange
      split_ifs <;> dsimp only <;> omega
    rw [hbyte _ (by omega), hbyte _ (by omega), hbyte _ (by omega), hbyte _ (by omega), utf8Step,
      utf8Start, if_neg (by omega), if_neg (by omega), if_neg (by omega), if_pos (by omega),
      utf8Step_more 1 hsecond.1 hsecond.2, utf8Step_more 0 (by omega) (by omega),
      utf8Step_last (by omega) (by omega)]
    have hv : (((v / 262144 % 8 + 0xF0) % 8 * 64 + (v / 4096 % 64 + 0x80) % 64) * 64
        + (v / 64 % 64 + 0x80) % 64) * 64 + (v % 64 + 0x80) % 64 = v := by omega
    rw [hv, hc]
    rfl

/-- **What was encoded is decoded.** -/
theorem utf8DecodeLossy_encode (s : String) : utf8DecodeLossy (utf8Encode s) = s.toList := by
  unfold utf8DecodeLossy utf8Encode
  induction s.toList with
  | nil => rfl
  | cons c cs ih => rw [List.flatMap_cons, utf8Run_encodeChar, ih]

/-! ## Base64 -/

def b64Value (c : Char) : Option Nat :=
  if 'A' ≤ c ∧ c ≤ 'Z' then some (c.toNat - 65)
  else if 'a' ≤ c ∧ c ≤ 'z' then some (c.toNat - 71)
  else if '0' ≤ c ∧ c ≤ '9' then some (c.toNat + 4)
  else if c = '+' then some 62
  else if c = '/' then some 63
  else none

/-- The decoder: position in the group of four, bits left over, padding seen in this group, and
the bytes so far in reverse. -/
def b64Go : List Char → Nat → Nat → Nat → Bytes → Option Bytes
  | [], quad, _, _, acc => if quad = 0 then some acc.reverse else none
  | c :: cs, quad, left, pads, acc =>
      if c = '=' then
        if 2 ≤ quad then
          if 4 ≤ quad + (pads + 1) then some acc.reverse else b64Go cs quad left (pads + 1) acc
        else b64Go cs quad left pads acc
      else
        match b64Value c, quad with
        | none, _ => b64Go cs quad left pads acc
        | some v, 0 => b64Go cs 1 v 0 acc
        | some v, 1 => b64Go cs 2 (v % 16) 0 (UInt8.ofNat (left * 4 + v / 16) :: acc)
        | some v, 2 => b64Go cs 3 (v % 4) 0 (UInt8.ofNat (left * 16 + v / 4) :: acc)
        | some v, _ => b64Go cs 0 0 0 (UInt8.ofNat (left * 64 + v) :: acc)

/-- Decode an ASCII string; a string that is not ASCII is refused. -/
def b64decode (s : String) : Option Bytes :=
  if s.toList.all (·.toNat < 128) then b64Go s.toList 0 0 0 [] else none

/-- The digit of the URL-safe alphabet. -/
def b64UrlDigit (n : Nat) : Char :=
  if n < 26 then Char.ofNat (n + 65)
  else if n < 52 then Char.ofNat (n + 71)
  else if n < 62 then Char.ofNat (n - 4)
  else if n = 62 then '-'
  else '_'

/-- URL-safe base64 without the `=` padding. -/
def b64UrlEncode : Bytes → List Char
  | [] => []
  | [a] => [b64UrlDigit (a.toNat / 4), b64UrlDigit (a.toNat % 4 * 16)]
  | [a, b] =>
      [b64UrlDigit (a.toNat / 4), b64UrlDigit (a.toNat % 4 * 16 + b.toNat / 16),
        b64UrlDigit (b.toNat % 16 * 4)]
  | a :: b :: c :: rest =>
      b64UrlDigit (a.toNat / 4) :: b64UrlDigit (a.toNat % 4 * 16 + b.toNat / 16) ::
        b64UrlDigit (b.toNat % 16 * 4 + c.toNat / 64) :: b64UrlDigit (c.toNat % 64) ::
        b64UrlEncode rest

theorem b64UrlDigit_lt (n : Nat) : (b64UrlDigit n).toNat < 128 := by
  unfold b64UrlDigit
  split_ifs with h₁ h₂ h₃
  · interval_cases n <;> decide
  · interval_cases n <;> decide
  · interval_cases n <;> decide
  · decide
  · decide

/-- The encoding is ASCII. -/
theorem b64UrlEncode_lt (b : Bytes) : ∀ c ∈ b64UrlEncode b, c.toNat < 128 := by
  induction b using b64UrlEncode.induct with
  | case1 => simp [b64UrlEncode]
  | case2 a => simp [b64UrlEncode, b64UrlDigit_lt]
  | case3 a b => simp [b64UrlEncode, b64UrlDigit_lt]
  | case4 a b c rest ih =>
      simp only [b64UrlEncode, List.forall_mem_cons]
      exact ⟨b64UrlDigit_lt _, b64UrlDigit_lt _, b64UrlDigit_lt _, b64UrlDigit_lt _, ih⟩

end Text
