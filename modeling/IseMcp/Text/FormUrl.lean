import IseMcp.Text.Codec
import IseMcp.Text.Uri

set_option autoImplicit false

/-! # Form data in a URL

The encoding `application/x-www-form-urlencoded`. `encode` writes pairs of texts as `name=value`
with `&` between them, each text in UTF-8 with a space as `+` and all bytes but those of a set in
percent notation; encoders differ in that set. `decode` is the parser: it splits at `&`, skips empty
parts, and splits each part at its first `=`. What was encoded is decoded (`decode_encode`), and
form data with a `&` between them are read one after the other (`decode_append`).
-/

namespace Text

namespace FormUrl

/-! ## Encoding -/

/-- The bytes that stand for themselves. None of them has a meaning in form data. -/
structure SafeBytes where
  keeps : UInt8 → Bool
  ascii : ∀ b, keeps b = true → b.toNat < 128
  plain : ∀ b, keeps b = true → Char.ofNat b.toNat ∉ ['%', '+', '&', '=']

/-- ASCII letters and digits, and some marks. -/
def alphanumericAnd (marks : List Char)
    (h : ∀ c ∈ marks, c.toNat < 128 ∧ c ∉ ['%', '+', '&', '=']) : SafeBytes where
  keeps b := (Char.ofNat b.toNat).isAlphanum || decide (Char.ofNat b.toNat ∈ marks)
  ascii b hb := by
    have hall : ∀ n < 256, (Char.ofNat n).isAlphanum = true → n < 128 := by decide +kernel
    have hval : (Char.ofNat b.toNat).toNat = b.toNat :=
      toNat_ofNat_of_lt (lt_trans b.toNat_lt (by decide))
    rcases Bool.or_eq_true_iff.mp hb with hb | hb
    · exact hall b.toNat b.toNat_lt hb
    · rw [← hval]
      exact (h _ (of_decide_eq_true hb)).1
  plain b hb := by
    have hall : ∀ c ∈ ['%', '+', '&', '='], c.isAlphanum = false := by decide
    rcases Bool.or_eq_true_iff.mp hb with hb | hb
    · intro hmem
      rw [hall _ hmem] at hb
      cases hb
    · exact (h _ (of_decide_eq_true hb)).2

/-- A digit of the percent notation. -/
def hexDigit (n : Nat) : Char := if n < 10 then Char.ofNat (n + 48) else Char.ofNat (n + 55)

def percent (b : UInt8) : List Char := ['%', hexDigit (b.toNat / 16), hexDigit (b.toNat % 16)]

def quoteByte (safe : SafeBytes) (b : UInt8) : List Char :=
  if b = 0x20 then ['+'] else if safe.keeps b then [Char.ofNat b.toNat] else percent b

def quotePlus (safe : SafeBytes) (s : String) : List Char :=
  (utf8Encode s).flatMap (quoteByte safe)

def encodePair (safe : SafeBytes) (kv : String × String) : List Char :=
  quotePlus safe kv.1 ++ '=' :: quotePlus safe kv.2

def encode (safe : SafeBytes) (kvs : List (String × String)) : List Char :=
  ['&'].intercalate (kvs.map (encodePair safe))

/-! ## Decoding -/

def hexValue (c : Char) : Option Nat :=
  if '0' ≤ c ∧ c ≤ '9' then some (c.toNat - 48)
  else if 'A' ≤ c ∧ c ≤ 'F' then some (c.toNat - 55)
  else if 'a' ≤ c ∧ c ≤ 'f' then some (c.toNat - 87)
  else none

/-- The byte that a percent sign and the next two characters stand for. -/
def escapedByte : List Char → Option UInt8
  | '%' :: a :: b :: _ => (hexValue a).bind fun x => (hexValue b).map fun y => .ofNat (16 * x + y)
  | _ => none

/-- The bytes of a text of which the first `skip` characters are read already. A percent sign that
two hex digits do not follow stands for itself. -/
def percentDecodeFrom : Nat → List Char → Bytes
  | _, [] => []
  | skip + 1, _ :: s => percentDecodeFrom skip s
  | 0, c :: s =>
      match escapedByte (c :: s) with
      | some b => b :: percentDecodeFrom 2 s
      | none => String.utf8EncodeChar c ++ percentDecodeFrom 0 s

def percentDecode (s : List Char) : Bytes := percentDecodeFrom 0 s

def plusToSpace (c : Char) : Char := if c = '+' then ' ' else c

def unquotePlus (s : List Char) : String :=
  .ofList (utf8DecodeLossy (percentDecode (s.map plusToSpace)))

/-- A part without `=` is a name with an empty value. -/
def decodePair (s : List Char) : String × String :=
  (unquotePlus (Uri.cut '=' s).1, unquotePlus ((Uri.cut '=' s).2.getD []))

def decode (s : List Char) : List (String × String) :=
  ((s.splitOn '&').filter (· != [])).map decodePair

/-! ## One text -/

theorem hexValue_hexDigit {n : Nat} (h : n < 16) : hexValue (hexDigit n) = some n := by
  interval_cases n <;> rfl

theorem plusToSpace_hexDigit {n : Nat} (h : n < 16) : plusToSpace (hexDigit n) = hexDigit n := by
  interval_cases n <;> rfl

theorem hexDigit_plain {n : Nat} (h : n < 16) : hexDigit n ∉ ['&', '='] := by
  interval_cases n <;> decide

theorem percentDecode_percent (b : UInt8) (s : List Char) :
    percentDecode (percent b ++ s) = b :: percentDecode s := by
  have hb : b.toNat < 256 := b.toNat_lt
  have hbyte : 16 * (b.toNat / 16) + b.toNat % 16 = b.toNat := Nat.div_add_mod _ _
  have hescaped : escapedByte (percent b ++ s) = some b := by
    show (hexValue _).bind _ = _
    rw [hexValue_hexDigit (by omega), Option.bind_some, hexValue_hexDigit (by omega),
      Option.map_some, hbyte, UInt8.ofNat_toNat]
  show percentDecodeFrom 0 (percent b ++ s) = b :: percentDecodeFrom 0 s
  rw [percent, List.cons_append, List.cons_append, List.cons_append, List.nil_append] at hescaped ⊢
  rw [percentDecodeFrom, hescaped]
  rfl

theorem escapedByte_of_ne {c : Char} (h : c ≠ '%') (s : List Char) :
    escapedByte (c :: s) = none := by
  unfold escapedByte
  split
  · rename_i heq
    exact absurd (List.cons.inj heq).1 h
  · rfl

/-- A character of ASCII stands for one byte. -/
theorem percentDecode_ascii {b : UInt8} (hb : b.toNat < 128) (hne : Char.ofNat b.toNat ≠ '%')
    (s : List Char) : percentDecode (Char.ofNat b.toNat :: s) = b :: percentDecode s := by
  have hval : (Char.ofNat b.toNat).val.toNat = b.toNat := toNat_ofNat_of_lt (by omega)
  have henc : String.utf8EncodeChar (Char.ofNat b.toNat) = [b] := by
    unfold String.utf8EncodeChar
    rw [hval]
    simp only
    rw [if_pos (by omega), UInt8.ofNat_toNat]
  show percentDecodeFrom 0 (Char.ofNat b.toNat :: s) = b :: percentDecodeFrom 0 s
  rw [percentDecodeFrom, escapedByte_of_ne hne, henc]
  rfl

/-- A quoted byte is read as that byte. -/
theorem percentDecode_quoteByte (safe : SafeBytes) (b : UInt8) (s : List Char) :
    percentDecode ((quoteByte safe b).map plusToSpace ++ s) = b :: percentDecode s := by
  have hb : b.toNat < 256 := b.toNat_lt
  unfold quoteByte
  split_ifs with hspace hsafe
  · rw [hspace]
    rfl
  · have hplain := safe.plain b hsafe
    simp only [List.mem_cons, List.not_mem_nil, or_false, not_or] at hplain
    rw [List.map_singleton, plusToSpace, if_neg hplain.2.1]
    exact percentDecode_ascii (safe.ascii b hsafe) hplain.1 s
  · have hmap : (percent b).map plusToSpace = percent b := by
      rw [percent, List.map_cons, List.map_cons, List.map_singleton,
        plusToSpace_hexDigit (by omega), plusToSpace_hexDigit (by omega)]
      rfl
    rw [hmap, percentDecode_percent]

theorem percentDecode_quote (safe : SafeBytes) (bs : Bytes) :
    percentDecode ((bs.flatMap (quoteByte safe)).map plusToSpace) = bs := by
  induction bs with
  | nil => rfl
  | cons b bs ih => rw [List.flatMap_cons, List.map_append, percentDecode_quoteByte, ih]

/-- **One text is read as it was written.** -/
theorem unquotePlus_quotePlus (safe : SafeBytes) (s : String) :
    unquotePlus (quotePlus safe s) = s := by
  rw [unquotePlus, quotePlus, percentDecode_quote, utf8DecodeLossy_encode, String.ofList_toList]

/-- A text of ASCII without a percent sign and a plus is read as it stands. -/
theorem unquotePlus_plain {s : List Char} (h : ∀ c ∈ s, c.toNat < 128 ∧ c ∉ ['%', '+']) :
    unquotePlus s = .ofList s := by
  have hmap : s.map plusToSpace = s := by
    refine (List.map_congr_left fun c hc => if_neg ?_).trans (List.map_id' s)
    rintro rfl
    exact (h '+' hc).2 (by decide)
  have hdecode : percentDecode s = utf8Encode (.ofList s) := by
    rw [utf8Encode, String.toList_ofList]
    show percentDecodeFrom 0 s = _
    clear hmap
    induction s with
    | nil => rfl
    | cons c s ih =>
        have hc : c ≠ '%' := by
          rintro rfl
          exact (h '%' List.mem_cons_self).2 (by decide)
        rw [percentDecodeFrom, escapedByte_of_ne hc, List.flatMap_cons,
          ih fun d hd => h d (List.mem_cons_of_mem _ hd)]
  rw [unquotePlus, hmap, hdecode, utf8DecodeLossy_encode, String.toList_ofList]

/-! ## Several texts -/

/-- What a quoted text consists of. -/
theorem mem_quotePlus {safe : SafeBytes} {s : String} {c : Char} (h : c ∈ quotePlus safe s) :
    c = '+' ∨ (∃ b, safe.keeps b = true ∧ c = Char.ofNat b.toNat) ∨ c = '%' ∨
      ∃ n < 16, c = hexDigit n := by
  obtain ⟨b, _, hcb⟩ := List.mem_flatMap.mp h
  have hb : b.toNat < 256 := b.toNat_lt
  unfold quoteByte at hcb
  split_ifs at hcb with hspace hsafe
  · exact Or.inl (List.mem_singleton.mp hcb)
  · exact Or.inr (Or.inl ⟨b, hsafe, List.mem_singleton.mp hcb⟩)
  · simp only [percent, List.mem_cons, List.not_mem_nil, or_false] at hcb
    rcases hcb with rfl | rfl | rfl
    · exact Or.inr (Or.inr (Or.inl rfl))
    · exact Or.inr (Or.inr (Or.inr ⟨_, by omega, rfl⟩))
    · exact Or.inr (Or.inr (Or.inr ⟨_, by omega, rfl⟩))

theorem quotePlus_plain (safe : SafeBytes) (s : String) :
    ∀ c ∈ quotePlus safe s, c ∉ ['&', '='] := by
  intro c hc
  rcases mem_quotePlus hc with rfl | ⟨b, hb, rfl⟩ | rfl | ⟨n, hn, rfl⟩
  · decide
  · have hplain := safe.plain b hb
    simp only [List.mem_cons, List.not_mem_nil, or_false, not_or] at hplain ⊢
    exact ⟨hplain.2.2.1, hplain.2.2.2⟩
  · decide
  · exact hexDigit_plain hn

theorem not_mem_encodePair (safe : SafeBytes) (kv : String × String) :
    '&' ∉ encodePair safe kv := by
  rw [encodePair, List.mem_append, List.mem_cons]
  rintro (h | h | h)
  · exact quotePlus_plain safe _ _ h (by decide)
  · exact absurd h (by decide)
  · exact quotePlus_plain safe _ _ h (by decide)

theorem decodePair_encodePair (safe : SafeBytes) (kv : String × String) :
    decodePair (encodePair safe kv) = kv := by
  have hname : '=' ∉ quotePlus safe kv.1 := fun h => quotePlus_plain safe _ _ h (by decide)
  rw [decodePair, encodePair, Uri.cut_append_cons hname, unquotePlus_quotePlus, Option.getD_some,
    unquotePlus_quotePlus]

/-- Form data with a `&` between them are read one after the other. -/
theorem decode_append (s t : List Char) : decode (s ++ '&' :: t) = decode s ++ decode t := by
  rw [decode, List.splitOn_append_cons_self, List.filter_append, List.map_append]
  rfl

/-- One part is one pair. -/
theorem decode_single {s : List Char} (hne : s ≠ []) (h : '&' ∉ s) : decode s = [decodePair s] := by
  have hsplit : s.splitOn '&' = [s] := by
    have hjoin : (['&'].intercalate [s]).splitOn '&' = [s] :=
      List.splitOn_intercalate '&' (by simpa using h) (by simp)
    simpa using hjoin
  rw [decode, hsplit]
  simp [hne]

/-- Only the first pair reads what stands before the encoding. -/
theorem decode_prefix_encode (safe : SafeBytes) {s : List Char} (h : '&' ∉ s)
    (kv : String × String) (kvs : List (String × String)) :
    decode (s ++ encode safe (kv :: kvs)) = decodePair (s ++ encodePair safe kv) :: kvs := by
  induction kvs generalizing s kv with
  | nil =>
      have henc : encode safe [kv] = encodePair safe kv := by simp [encode]
      rw [henc, decode_single (by simp [encodePair])]
      rw [List.mem_append, not_or]
      exact ⟨h, not_mem_encodePair safe kv⟩
  | cons kv' kvs ih =>
      have henc : encode safe (kv :: kv' :: kvs)
          = encodePair safe kv ++ '&' :: encode safe (kv' :: kvs) := by
        simp [encode, List.intercalate_cons_cons]
      rw [henc, ← List.append_assoc, decode_append, decode_single (by simp [encodePair])]
      · have hrest := ih (s := []) (by simp) kv'
        rw [List.nil_append, List.nil_append, decodePair_encodePair] at hrest
        rw [hrest]
        rfl
      · rw [List.mem_append, not_or]
        exact ⟨h, not_mem_encodePair safe kv⟩

/-- **What was encoded is decoded.** -/
theorem decode_encode (safe : SafeBytes) (kvs : List (String × String)) :
    decode (encode safe kvs) = kvs := by
  cases kvs with
  | nil => rfl
  | cons kv kvs =>
      have h := decode_prefix_encode safe (s := []) (by simp) kv kvs
      rwa [List.nil_append, List.nil_append, decodePair_encodePair] at h

/-- The characters of an encoding that are not of its syntax stand for themselves. -/
theorem not_mem_encode {safe : SafeBytes} {c : Char} (hmarks : c ∉ ['%', '+', '&', '='])
    (hhex : ∀ n < 16, c ≠ hexDigit n) (hsafe : ∀ b, safe.keeps b = true → c ≠ Char.ofNat b.toNat)
    (kvs : List (String × String)) : c ∉ encode safe kvs := by
  simp only [List.mem_cons, List.not_mem_nil, or_false, not_or] at hmarks
  have hquote : ∀ s, c ∉ quotePlus safe s := by
    intro s hmem
    rcases mem_quotePlus hmem with h | ⟨b, hb, h⟩ | h | ⟨n, hn, h⟩
    · exact hmarks.2.1 h
    · exact hsafe b hb h
    · exact hmarks.1 h
    · exact hhex n hn h
  intro hmem
  obtain ⟨l, hl, hmem⟩ := (Uri.mem_join hmarks.2.2.1).mp hmem
  obtain ⟨kv, _, rfl⟩ := List.mem_map.mp hl
  rcases List.mem_append.mp hmem with h | h
  · exact hquote _ h
  · rcases List.mem_cons.mp h with h | h
    · exact hmarks.2.2.2 h
    · exact hquote _ h

/-! ## Texts that quoting leaves alone -/

/-- The bytes of a character: itself, or bytes above ASCII. -/
theorem utf8EncodeChar_cases (c : Char) :
    (c.toNat < 128 ∧ String.utf8EncodeChar c = [UInt8.ofNat c.toNat]) ∨
      ∃ b bs, String.utf8EncodeChar c = b :: bs ∧ 128 ≤ b.toNat := by
  have hbyte : ∀ n, n < 256 → (UInt8.ofNat n).toNat = n := by
    intro n hn
    rw [UInt8.toNat_ofNat', Nat.mod_eq_of_lt hn]
  have hval : c.val.toNat = c.toNat := rfl
  unfold String.utf8EncodeChar
  rw [hval]
  simp only
  split_ifs with h₁ h₂ h₃
  · exact Or.inl ⟨by omega, rfl⟩
  · exact Or.inr ⟨_, _, rfl, by rw [hbyte _ (by omega)]; omega⟩
  · exact Or.inr ⟨_, _, rfl, by rw [hbyte _ (by omega)]; omega⟩
  · exact Or.inr ⟨_, _, rfl, by rw [hbyte _ (by omega)]; omega⟩

/-- Quoting never makes a text shorter. -/
theorem length_le_quote (safe : SafeBytes) (cs : List Char) :
    cs.length ≤ ((cs.flatMap String.utf8EncodeChar).flatMap (quoteByte safe)).length := by
  have hone : ∀ b, 1 ≤ (quoteByte safe b).length := by
    intro b
    unfold quoteByte percent
    split_ifs <;> simp
  induction cs with
  | nil => exact Nat.zero_le _
  | cons c cs ih =>
      obtain ⟨b, bs, hbytes⟩ : ∃ b bs, String.utf8EncodeChar c = b :: bs := by
        rcases utf8EncodeChar_cases c with ⟨_, h⟩ | ⟨b, bs, h, _⟩
        · exact ⟨_, _, h⟩
        · exact ⟨_, _, h⟩
      have hb := hone b
      rw [List.flatMap_cons, List.flatMap_append, hbytes, List.flatMap_cons]
      simp only [List.length_cons, List.length_append]
      omega

/-- **Quoting leaves a text alone exactly if it has safe bytes only.** -/
theorem quotePlus_eq_self_iff (safe : SafeBytes) (s : String) :
    quotePlus safe s = s.toList ↔ ∀ b ∈ utf8Encode s, b ≠ 0x20 ∧ safe.keeps b = true := by
  unfold quotePlus utf8Encode
  induction s.toList with
  | nil => simp
  | cons c cs ih =>
      rw [List.flatMap_cons, List.flatMap_append, List.forall_mem_append, ← ih]
      rcases utf8EncodeChar_cases c with ⟨hc, henc⟩ | ⟨b, bs, henc, hb⟩
      · have hval : (UInt8.ofNat c.toNat).toNat = c.toNat := by
          rw [UInt8.toNat_ofNat', Nat.mod_eq_of_lt (by omega)]
        have hchar : Char.ofNat (UInt8.ofNat c.toNat).toNat = c := by
          rw [hval]
          exact Char.ofNat_toNat c
        rw [henc]
        simp only [List.flatMap_cons, List.flatMap_nil, List.append_nil, List.forall_mem_cons,
          List.not_mem_nil, false_imp_iff, implies_true, and_true]
        generalize UInt8.ofNat c.toNat = b at hval hchar
        by_cases hspace : b = 0x20
        · -- a space becomes a plus
          have hquote : quoteByte safe b = ['+'] := by rw [quoteByte, if_pos hspace]
          have hne : '+' ≠ c := by
            rintro rfl
            rw [hspace] at hval
            exact absurd hval (by decide)
          rw [hquote]
          simp [hspace, hne]
        · by_cases hsafe : safe.keeps b = true
          · have hquote : quoteByte safe b = [c] := by
              rw [quoteByte, if_neg hspace, if_pos hsafe, hchar]
            rw [hquote]
            simp [hspace, hsafe]
          · -- the percent notation is longer than the rest of the text allows
            have hquote : quoteByte safe b = percent b := by
              rw [quoteByte, if_neg hspace, if_neg hsafe]
            have hlen := length_le_quote safe cs
            refine iff_of_false (fun heq => ?_) fun h => hsafe h.1.2
            rw [hquote, percent, List.cons_append, List.cons_append] at heq
            have htail := congrArg List.length (List.cons.inj heq).2
            simp only [List.length_cons, List.length_append] at htail
            omega
      · have hunsafe : ¬ safe.keeps b = true := fun h => absurd (safe.ascii b h) (by omega)
        have hspace : b ≠ 0x20 := by
          rintro rfl
          exact absurd hb (by decide)
        rw [henc]
        refine iff_of_false (fun heq => ?_) fun h => hunsafe (h.1 b List.mem_cons_self).2
        rw [List.flatMap_cons, quoteByte, if_neg hspace, if_neg hunsafe, percent] at heq
        -- the text starts with a percent sign, which is one byte
        have hpercent : '%' = c := (List.cons.inj heq).1
        have hbytes : String.utf8EncodeChar '%' = [0x25] := by decide
        rw [← hpercent, hbytes] at henc
        obtain ⟨rfl, _⟩ := List.cons.inj henc
        exact absurd hb (by decide)

end FormUrl

end Text
