import IseMcp.Text.Codec

set_option autoImplicit false

/-! # Base64, encoded and decoded

The encoder with padding, and that the lenient decoder reads what it writes
(`b64decode_encode`). With `utf8Decode_encode`, that the strict decoder of UTF-8 reads every string
back, a string survives both encodings together.
-/

namespace Text

/-! ## UTF-8 -/

theorem contBits_ofNat {lo hi v : Nat} (hlo : lo ≤ v % 64 + 0x80) (hhi : v % 64 + 0x80 ≤ hi) :
    contBits lo hi (UInt8.ofNat (v % 64 + 0x80)) = some (v % 64) := by
  have hbyte : (UInt8.ofNat (v % 64 + 0x80)).toNat = v % 64 + 0x80 := by
    rw [UInt8.toNat_ofNat', Nat.mod_eq_of_lt (by omega)]
  rw [contBits, hbyte, if_pos ⟨hlo, hhi⟩]
  congr 1
  omega

/-- The encoding of one character is read as that character. -/
theorem utf8DecodeChars_encodeChar (c : Char) (rest : Bytes) :
    utf8DecodeChars (String.utf8EncodeChar c ++ rest)
      = (utf8DecodeChars rest).map (c :: ·) := by
  have hc : Char.ofNat c.val.toNat = c := Char.ofNat_toNat c
  have hvalid : c.val.toNat < 0xD800 ∨ 0xDFFF < c.val.toNat ∧ c.val.toNat < 0x110000 := c.valid
  unfold String.utf8EncodeChar
  generalize c.val.toNat = v at hc hvalid ⊢
  have hbyte : ∀ n, n < 256 → (UInt8.ofNat n).toNat = n := by
    intro n hn
    rw [UInt8.toNat_ofNat', Nat.mod_eq_of_lt hn]
  simp only
  split_ifs with h₁ h₂ h₃
  · rw [List.singleton_append, utf8DecodeChars.eq_def]
    simp only [hbyte v (by omega)]
    rw [if_pos (by omega), hc]
  · simp only [List.cons_append, List.nil_append]
    rw [utf8DecodeChars.eq_def]
    have hlead : v / 64 % 32 + 0xC0 = v / 64 + 0xC0 := by omega
    have hsecond : secondRange (v / 64 + 0xC0) = (0x80, 0xBF) := by
      unfold secondRange
      rw [if_neg (by omega), if_neg (by omega), if_neg (by omega), if_neg (by omega)]
    have hv : (v / 64 + 0xC0) % 32 * 64 + v % 64 = v := by omega
    simp only [hlead, hbyte (v / 64 + 0xC0) (by omega), hsecond,
      @contBits_ofNat 0x80 0xBF v (by omega) (by omega)]
    rw [if_neg (by omega), if_pos (by omega), hv, hc]
  · simp only [List.cons_append, List.nil_append]
    rw [utf8DecodeChars.eq_def]
    have hlead : v / 4096 % 16 + 0xE0 = v / 4096 + 0xE0 := by omega
    -- E0 and ED restrict the next byte, as the character is no shorter and no surrogate
    have hsecond : (secondRange (v / 4096 + 0xE0)).1 ≤ v / 64 % 64 + 0x80 ∧
        v / 64 % 64 + 0x80 ≤ (secondRange (v / 4096 + 0xE0)).2 := by
      unfold secondRange
      split_ifs <;> dsimp only <;> omega
    have hv : ((v / 4096 + 0xE0) % 16 * 64 + v / 64 % 64) * 64 + v % 64 = v := by omega
    simp only [hlead, hbyte (v / 4096 + 0xE0) (by omega),
      contBits_ofNat (v := v / 64) hsecond.1 hsecond.2,
      @contBits_ofNat 0x80 0xBF v (by omega) (by omega)]
    rw [if_neg (by omega), if_neg (by omega), if_pos (by omega), hv, hc]
  · simp only [List.cons_append, List.nil_append]
    rw [utf8DecodeChars.eq_def]
    have hlead : v / 262144 % 8 + 0xF0 = v / 262144 + 0xF0 := by omega
    have hsecond : (secondRange (v / 262144 + 0xF0)).1 ≤ v / 4096 % 64 + 0x80 ∧
        v / 4096 % 64 + 0x80 ≤ (secondRange (v / 262144 + 0xF0)).2 := by
      unfold secondRange
      split_ifs <;> dsimp only <;> omega
    have hv : (((v / 262144 + 0xF0) % 8 * 64 + v / 4096 % 64) * 64 + v / 64 % 64) * 64
        + v % 64 = v := by omega
    simp only [hlead, hbyte (v / 262144 + 0xF0) (by omega),
      contBits_ofNat (v := v / 4096) hsecond.1 hsecond.2,
      @contBits_ofNat 0x80 0xBF (v / 64) (by omega) (by omega),
      @contBits_ofNat 0x80 0xBF v (by omega) (by omega)]
    rw [if_neg (by omega), if_neg (by omega), if_neg (by omega), if_pos (by omega), hv, hc]

/-- **Every string is read back.** -/
theorem utf8Decode_encode (s : String) : utf8Decode (utf8Encode s) = some s := by
  have hchars : utf8DecodeChars (s.toList.flatMap String.utf8EncodeChar) = some s.toList := by
    induction s.toList with
    | nil => rfl
    | cons c cs ih =>
        rw [List.flatMap_cons, utf8DecodeChars_encodeChar, ih]
        rfl
  rw [utf8Decode, utf8Encode, hchars, Option.map_some, String.ofList_toList]

/-! ## Base64 -/

/-- The digit of the standard alphabet. -/
def b64Digit (n : Nat) : Char :=
  if n < 26 then Char.ofNat (n + 65)
  else if n < 52 then Char.ofNat (n + 71)
  else if n < 62 then Char.ofNat (n - 4)
  else if n = 62 then '+'
  else '/'

/-- `base64.b64encode` -/
def b64Encode : Bytes → List Char
  | [] => []
  | [a] => [b64Digit (a.toNat / 4), b64Digit (a.toNat % 4 * 16), '=', '=']
  | [a, b] =>
      [b64Digit (a.toNat / 4), b64Digit (a.toNat % 4 * 16 + b.toNat / 16),
        b64Digit (b.toNat % 16 * 4), '=']
  | a :: b :: c :: rest =>
      b64Digit (a.toNat / 4) :: b64Digit (a.toNat % 4 * 16 + b.toNat / 16) ::
        b64Digit (b.toNat % 16 * 4 + c.toNat / 64) :: b64Digit (c.toNat % 64) :: b64Encode rest

theorem b64Digit_spec {n : Nat} (h : n < 64) :
    b64Value (b64Digit n) = some n ∧ (b64Digit n).toNat < 128 ∧ b64Digit n ≠ '=' := by
  interval_cases n <;> decide

theorem b64Encode_lt (b : Bytes) : ∀ c ∈ b64Encode b, c.toNat < 128 := by
  have hdigit : ∀ n, n < 64 → (b64Digit n).toNat < 128 := fun n hn => (b64Digit_spec hn).2.1
  induction b using b64Encode.induct with
  | case1 => simp [b64Encode]
  | case2 a =>
      have ha := a.toNat_lt
      simp only [b64Encode, List.forall_mem_cons]
      exact ⟨hdigit _ (by omega), hdigit _ (by omega), by decide, by decide, by simp⟩
  | case3 a b =>
      have ha := a.toNat_lt
      have hb := b.toNat_lt
      simp only [b64Encode, List.forall_mem_cons]
      exact ⟨hdigit _ (by omega), hdigit _ (by omega), hdigit _ (by omega), by decide, by simp⟩
  | case4 a b c rest ih =>
      have ha := a.toNat_lt
      have hb := b.toNat_lt
      have hc := c.toNat_lt
      simp only [b64Encode, List.forall_mem_cons]
      exact ⟨hdigit _ (by omega), hdigit _ (by omega), hdigit _ (by omega), hdigit _ (by omega), ih⟩

section

variable {n : Nat} (cs : List Char) (left pads : Nat) (acc : Bytes)

/-! One digit at each position of a group. -/

theorem b64Go_first (h : n < 64) :
    b64Go (b64Digit n :: cs) 0 left pads acc = b64Go cs 1 n 0 acc := by
  obtain ⟨hvalue, _, hne⟩ := b64Digit_spec h
  rw [b64Go.eq_def]
  simp only [if_neg hne, hvalue]

theorem b64Go_second (h : n < 64) :
    b64Go (b64Digit n :: cs) 1 left pads acc
      = b64Go cs 2 (n % 16) 0 (UInt8.ofNat (left * 4 + n / 16) :: acc) := by
  obtain ⟨hvalue, _, hne⟩ := b64Digit_spec h
  rw [b64Go.eq_def]
  simp only [if_neg hne, hvalue]

theorem b64Go_third (h : n < 64) :
    b64Go (b64Digit n :: cs) 2 left pads acc
      = b64Go cs 3 (n % 4) 0 (UInt8.ofNat (left * 16 + n / 4) :: acc) := by
  obtain ⟨hvalue, _, hne⟩ := b64Digit_spec h
  rw [b64Go.eq_def]
  simp only [if_neg hne, hvalue]

theorem b64Go_fourth (h : n < 64) :
    b64Go (b64Digit n :: cs) 3 left pads acc
      = b64Go cs 0 0 0 (UInt8.ofNat (left * 64 + n) :: acc) := by
  obtain ⟨hvalue, _, hne⟩ := b64Digit_spec h
  rw [b64Go.eq_def]
  simp only [if_neg hne, hvalue]

end

theorem ofNat_toNat_byte {a : UInt8} {n : Nat} (h : n = a.toNat) : UInt8.ofNat n = a := by
  rw [h, UInt8.ofNat_toNat]

/-- The decoder takes the groups of three bytes off one after the other. -/
theorem b64Go_encode (bs acc : Bytes) :
    b64Go (b64Encode bs) 0 0 0 acc = some (acc.reverse ++ bs) := by
  induction bs using b64Encode.induct generalizing acc with
  | case1 => simp [b64Encode, b64Go]
  | case2 a =>
      have ha := a.toNat_lt
      have hbyte : UInt8.ofNat (a.toNat / 4 * 4 + a.toNat % 4 * 16 / 16) = a :=
        ofNat_toNat_byte (by omega)
      rw [b64Encode, b64Go_first _ _ _ _ (by omega), b64Go_second _ _ _ _ (by omega), hbyte]
      simp [b64Go]
  | case3 a b =>
      have ha := a.toNat_lt
      have hb := b.toNat_lt
      have hfirst : UInt8.ofNat (a.toNat / 4 * 4 + (a.toNat % 4 * 16 + b.toNat / 16) / 16) = a :=
        ofNat_toNat_byte (by omega)
      have hsecond : UInt8.ofNat ((a.toNat % 4 * 16 + b.toNat / 16) % 16 * 16
          + b.toNat % 16 * 4 / 4) = b := ofNat_toNat_byte (by omega)
      rw [b64Encode, b64Go_first _ _ _ _ (by omega), b64Go_second _ _ _ _ (by omega),
        b64Go_third _ _ _ _ (by omega),
        hfirst, hsecond]
      simp [b64Go]
  | case4 a b c rest ih =>
      have ha := a.toNat_lt
      have hb := b.toNat_lt
      have hc := c.toNat_lt
      have hfirst : UInt8.ofNat (a.toNat / 4 * 4 + (a.toNat % 4 * 16 + b.toNat / 16) / 16) = a :=
        ofNat_toNat_byte (by omega)
      have hsecond : UInt8.ofNat ((a.toNat % 4 * 16 + b.toNat / 16) % 16 * 16
          + (b.toNat % 16 * 4 + c.toNat / 64) / 4) = b := ofNat_toNat_byte (by omega)
      have hthird : UInt8.ofNat ((b.toNat % 16 * 4 + c.toNat / 64) % 4 * 64 + c.toNat % 64) = c :=
        ofNat_toNat_byte (by omega)
      rw [b64Encode, b64Go_first _ _ _ _ (by omega), b64Go_second _ _ _ _ (by omega),
        b64Go_third _ _ _ _ (by omega),
        b64Go_fourth _ _ _ _ (by omega), hfirst, hsecond, hthird, ih]
      simp

/-- **What was encoded is decoded.** -/
theorem b64decode_encode (bs : Bytes) : b64decode (.ofList (b64Encode bs)) = some bs := by
  have hascii : (b64Encode bs).all (·.toNat < 128) = true := by
    simpa using b64Encode_lt bs
  rw [b64decode, String.toList_ofList, if_pos hascii, b64Go_encode]
  rfl

/-- The text that stands for a string in UTF-8 and base64. -/
def b64Text (s : String) : String := .ofList (b64Encode (utf8Encode s))

theorem b64Text_decoded (s : String) : (b64decode (b64Text s)).bind utf8Decode = some s := by
  rw [b64Text, b64decode_encode, Option.bind_some, utf8Decode_encode]

end Text
