import Mathlib.Data.List.DropRight
import Mathlib.Data.List.Infix
import Mathlib.Tactic

set_option autoImplicit false

/-! # Python's `str`

The methods of `str` that the server uses, on Lean's `String`. A Lean string holds Unicode
scalar values, so the lone surrogates of Python are left out. Where the server encodes a string that
may hold them, it is a `PyStr` (`Python.Surrogates`).
-/

namespace Python

/-- Facts about every character of a string are decided along the string. The instance for finite
types, which is there with the whole of Mathlib, goes through all characters. -/
instance (priority := high) decidableForallMem {α : Type} (p : α → Prop) [DecidablePred p]
    (l : List α) : Decidable (∀ a ∈ l, p a) := List.decidableBAll p l

/-- `str.isspace` on one character; this is also what `\s` matches. -/
def isSpace (c : Char) : Bool :=
  let n := c.toNat
  (9 ≤ n && n ≤ 13) || (28 ≤ n && n ≤ 32) || n == 0x85 || n == 0xA0 || n == 0x1680 ||
    (0x2000 ≤ n && n ≤ 0x200A) || n == 0x2028 || n == 0x2029 || n == 0x202F || n == 0x205F ||
    n == 0x3000

def stripChars (s : List Char) : List Char := (s.dropWhile isSpace).rdropWhile isSpace

/-- `s.strip()` -/
def strip (s : String) : String := .ofList (stripChars s.toList)

/-- `s.rstrip("/")` -/
def rstripSlash (s : String) : String := .ofList (s.toList.rdropWhile (· == '/'))

/-- `c.lower()` for the characters whose lower case holds an ASCII letter. Every other
character is left alone: the server compares lowered strings with ASCII words only, and those
characters differ from every ASCII word before and after. -/
def lowerChar (c : Char) : List Char :=
  if c.toNat = 0x130 then ['i', Char.ofNat 0x307]
  else if c.toNat = 0x212A then ['k']
  else [c.toLower]

/-- `s.lower()` -/
def lower (s : String) : String := .ofList (s.toList.flatMap lowerChar)

/-- `c.upper()` for the characters whose upper case holds an ASCII letter. Every other character is
left alone, as in `lowerChar`. -/
def upperChar (c : Char) : List Char :=
  match c.toNat with
  | 0xDF => ['S', 'S']
  | 0x131 => ['I']
  | 0x149 => [Char.ofNat 0x2BC, 'N']
  | 0x17F => ['S']
  | 0x1F0 => ['J', Char.ofNat 0x30C]
  | 0x1E96 => ['H', Char.ofNat 0x331]
  | 0x1E97 => ['T', Char.ofNat 0x308]
  | 0x1E98 => ['W', Char.ofNat 0x30A]
  | 0x1E99 => ['Y', Char.ofNat 0x30A]
  | 0x1E9A => ['A', Char.ofNat 0x2BE]
  | 0xFB00 => ['F', 'F']
  | 0xFB01 => ['F', 'I']
  | 0xFB02 => ['F', 'L']
  | 0xFB03 => ['F', 'F', 'I']
  | 0xFB04 => ['F', 'F', 'L']
  | 0xFB05 | 0xFB06 => ['S', 'T']
  | _ => [c.toUpper]

/-- `s.upper()` -/
def upper (s : String) : String := .ofList (s.toList.flatMap upperChar)

/-- `part in s` -/
def contains (part s : String) : Bool := decide (part.toList <:+: s.toList)

/-- `s.startswith(p)` -/
def startsWith (p s : String) : Bool := p.toList.isPrefixOf s.toList

/-- `s[n:]` -/
def dropPrefix (n : Nat) (s : String) : String := .ofList (s.toList.drop n)

/-- `s[:n]` -/
def takePrefix (n : Nat) (s : String) : String := .ofList (s.toList.take n)

/-- Whether `s.isascii()`. -/
def isAscii (s : String) : Bool := s.toList.all (·.toNat < 128)

/-- The digits of `\xhh` and `\uhhhh`. -/
def hexDigits : Nat → Nat → List Char
  | 0, _ => []
  | width + 1, n => hexDigits width (n / 16) ++ [Nat.digitChar (n % 16)]

def quote : Char := Char.ofNat 39
def doubleQuote : Char := Char.ofNat 34
def backslash : Char := Char.ofNat 92

/-- One character of `repr(s)` inside the quotes `q`. Characters that are not printable are
escaped; beyond ASCII that is only done here for the C1 controls and the separators. -/
def reprChar (q c : Char) : List Char :=
  if c = q ∨ c = backslash then [backslash, c]
  else if c = '\n' then [backslash, 'n']
  else if c = '\r' then [backslash, 'r']
  else if c = '\t' then [backslash, 't']
  else if c.toNat < 32 ∨ (127 ≤ c.toNat ∧ c.toNat ≤ 0xA0) ∨ c.toNat = 0xAD then
    backslash :: 'x' :: hexDigits 2 c.toNat
  else if isSpace c ∧ c ≠ ' ' then backslash :: 'u' :: hexDigits 4 c.toNat
  else [c]

/-- `repr(s)`: single quotes, unless the string has one and no double quote. -/
def pyRepr (s : String) : String :=
  let q := if quote ∈ s.toList ∧ doubleQuote ∉ s.toList then doubleQuote else quote
  .ofList (q :: s.toList.flatMap (reprChar q) ++ [q])

/-- `a or b` on optional strings: `None` and `""` are false. -/
def orStr (a b : Option String) : Option String :=
  match a with
  | some s => if s = "" then b else some s
  | none => b

/-- Whether an optional string is true. -/
def truthy : Option String → Bool
  | some s => s != ""
  | none => false

@[simp] theorem truthy_none : truthy none = false := rfl

theorem truthy_iff {a : Option String} : truthy a = true ↔ ∃ s, a = some s ∧ s ≠ "" := by
  cases a <;> simp [truthy]

/-- `d.get(key)` for a dictionary built from pairs in order, where a repeated key keeps its last
value. -/
def lastValue (pairs : List (String × String)) (key : String) : Option String :=
  (pairs.reverse.find? fun kv => kv.1 == key).map (·.2)

/-! ## Lower case -/

theorem lowerChar_of_ne {c : Char} (h₁ : c.toNat ≠ 0x130) (h₂ : c.toNat ≠ 0x212A) :
    lowerChar c = [c.toLower] := by
  rw [lowerChar, if_neg h₁, if_neg h₂]

/-- Outside the capital letters `toLower` changes nothing. -/
theorem toLower_of_not_upper {c : Char} (h : ¬ (65 ≤ c.toNat ∧ c.toNat ≤ 90)) : c.toLower = c :=
  dif_neg h

/-- A capital letter becomes a small one. -/
theorem toLower_of_upper {c : Char} (h : 65 ≤ c.toNat ∧ c.toNat ≤ 90) :
    c.toLower.toNat = c.toNat + 32 := by
  have hc : c = Char.ofNat c.toNat := (Char.ofNat_toNat c).symm
  obtain ⟨h₁, h₂⟩ := h
  generalize c.toNat = n at hc h₁ h₂
  subst hc
  interval_cases n <;> rfl

theorem toLower_toLower (c : Char) : c.toLower.toLower = c.toLower := by
  by_cases h : 65 ≤ c.toNat ∧ c.toNat ≤ 90
  · exact toLower_of_not_upper (by rw [toLower_of_upper h]; omega)
  · rw [toLower_of_not_upper h, toLower_of_not_upper h]

/-- `toLower` maps nothing new to a character beyond ASCII. -/
theorem toLower_toNat_ne {c : Char} {n : Nat} (hn : 128 ≤ n) (h : c.toNat ≠ n) :
    c.toLower.toNat ≠ n := by
  by_cases hu : 65 ≤ c.toNat ∧ c.toNat ≤ 90
  · rw [toLower_of_upper hu]
    omega
  · rwa [toLower_of_not_upper hu]

theorem lowerChar_idem (c : Char) : (lowerChar c).flatMap lowerChar = lowerChar c := by
  by_cases h₁ : c.toNat = 0x130
  · rw [lowerChar, if_pos h₁]
    rfl
  · by_cases h₂ : c.toNat = 0x212A
    · rw [lowerChar, if_neg h₁, if_pos h₂]
      rfl
    · rw [lowerChar_of_ne h₁ h₂, List.flatMap_singleton,
        lowerChar_of_ne (toLower_toNat_ne (by decide) h₁) (toLower_toNat_ne (by decide) h₂),
        toLower_toLower]

theorem lower_lower (s : String) : lower (lower s) = lower s := by
  rw [lower, lower, String.toList_ofList, List.flatMap_assoc]
  congr 1
  exact List.flatMap_congr fun c _ => lowerChar_idem c

/-- On ASCII, `lower` is character by character. -/
theorem toList_lower_of_ascii {s : String} (h : isAscii s = true) :
    (lower s).toList = s.toList.map Char.toLower := by
  have hall : ∀ c ∈ s.toList, lowerChar c = [c.toLower] := by
    intro c hc
    have : c.toNat < 128 := by simpa using List.all_eq_true.mp h c hc
    exact lowerChar_of_ne (by omega) (by omega)
  rw [lower, String.toList_ofList, List.flatMap_congr hall, List.map_eq_flatMap]

theorem isAscii_takePrefix {s : String} (h : isAscii s = true) (n : Nat) :
    isAscii (takePrefix n s) = true := by
  rw [isAscii, takePrefix, String.toList_ofList, List.all_eq_true]
  exact fun c hc => List.all_eq_true.mp h c (List.mem_of_mem_take hc)

/-- On ASCII, testing a prefix of the lowered string is lowering that prefix. -/
theorem startsWith_lower_iff {p s : String} (h : isAscii s = true) :
    startsWith p (lower s) = true ↔ lower (takePrefix p.toList.length s) = p := by
  rw [startsWith, List.isPrefixOf_iff_prefix, List.prefix_iff_eq_take, toList_lower_of_ascii h,
    ← List.map_take, ← String.toList_inj, toList_lower_of_ascii (isAscii_takePrefix h _),
    takePrefix, String.toList_ofList]
  exact eq_comm

/-! ## Stripping -/

@[simp] theorem toList_strip (s : String) : (strip s).toList = stripChars s.toList :=
  String.toList_ofList

/-- A stripped string does not end in white space. -/
theorem isSpace_getLast?_stripChars (s : List Char) {c : Char}
    (h : (stripChars s).getLast? = some c) : isSpace c = false := by
  have hne : stripChars s ≠ [] := by
    intro hnil
    simp [hnil] at h
  rw [List.getLast?_eq_some_getLast hne, Option.some.injEq] at h
  have := List.rdropWhile_last_not isSpace (s.dropWhile isSpace) hne
  rw [← h]
  simpa [stripChars] using this

/-- Nothing is cut off both ends of a text without the characters that would be. -/
theorem trim_of_forall {p : Char → Bool} {s : List Char} (h : ∀ c ∈ s, p c = false) :
    (s.dropWhile p).rdropWhile p = s := by
  have hdrop : s.dropWhile p = s := by
    cases s with
    | nil => rfl
    | cons c s => rw [List.dropWhile_cons, h c List.mem_cons_self, if_neg Bool.false_ne_true]
  rw [hdrop, List.rdropWhile_eq_self_iff]
  intro hne
  rw [h _ (List.getLast_mem hne)]
  exact Bool.false_ne_true

/-- Nothing is stripped from a text without white space. -/
theorem stripChars_of_forall {s : List Char} (h : ∀ c ∈ s, isSpace c = false) :
    stripChars s = s :=
  trim_of_forall h

/-- Stripping once is enough. -/
theorem strip_strip (s : String) : strip (strip s) = strip s := by
  have hdrop : (stripChars s.toList).dropWhile isSpace = stripChars s.toList := by
    rw [List.dropWhile_eq_self_iff]
    intro hpos hspace
    have hprefix : stripChars s.toList <+: s.toList.dropWhile isSpace :=
      List.rdropWhile_prefix _ _
    have hhead := hprefix.getElem hpos
    rw [hhead] at hspace
    exact List.dropWhile_get_zero_not isSpace s.toList _ hspace
  rw [strip, toList_strip, stripChars, hdrop, stripChars, List.rdropWhile_idempotent, strip,
    stripChars]

theorem strip_ne_newline (s : String) : (strip s).toList.getLast? ≠ some '\n' := by
  rw [toList_strip]
  intro h
  have := isSpace_getLast?_stripChars _ h
  exact absurd this (by decide)

/-- `rstrip("/")` leaves no slash at the end. -/
theorem rstripSlash_getLast? (s : String) : (rstripSlash s).toList.getLast? ≠ some '/' := by
  rw [rstripSlash, String.toList_ofList]
  intro h
  have hne : s.toList.rdropWhile (· == '/') ≠ [] := by
    intro hnil
    simp [hnil] at h
  have := List.rdropWhile_last_not (· == '/') s.toList hne
  rw [List.getLast?_eq_some_getLast hne, Option.some.injEq] at h
  simp [h] at this

/-- A text without a slash at its end keeps its end. -/
theorem rstripSlash_eq_self {s : String} (h : s.toList.getLast? ≠ some '/') :
    rstripSlash s = s := by
  have hself : s.toList.rdropWhile (· == '/') = s.toList := by
    rw [List.rdropWhile_eq_self_iff]
    intro hne hslash
    rw [List.getLast?_eq_some_getLast hne, beq_iff_eq.mp hslash] at h
    exact h rfl
  rw [rstripSlash, hself, String.ofList_toList]

/-! ## Upper case -/

theorem toUpper_of_lower {c : Char} (h : 97 ≤ c.toNat ∧ c.toNat ≤ 122) :
    c.toUpper.toNat = c.toNat - 32 := by
  have hc : c = Char.ofNat c.toNat := (Char.ofNat_toNat c).symm
  obtain ⟨h₁, h₂⟩ := h
  generalize c.toNat = n at hc h₁ h₂
  subst hc
  interval_cases n <;> rfl

/-- Outside the small letters `toUpper` changes nothing. -/
theorem toUpper_of_not_lower {c : Char} (h : ¬ (97 ≤ c.toNat ∧ c.toNat ≤ 122)) :
    c.toUpper = c :=
  dif_neg h

/-- Characters of ASCII have their own upper case. -/
theorem upperChar_of_ascii {c : Char} (h : c.toNat < 128) : upperChar c = [c.toUpper] := by
  unfold upperChar
  split <;> first | omega | rfl

theorem upperChar_idem (c : Char) : (upperChar c).flatMap upperChar = upperChar c := by
  by_cases hlower : 97 ≤ c.toNat ∧ c.toNat ≤ 122
  · have hupper := toUpper_of_lower hlower
    rw [upperChar_of_ascii (by omega), List.flatMap_singleton, upperChar_of_ascii (by omega),
      toUpper_of_not_lower (by omega)]
  · have hself := toUpper_of_not_lower hlower
    -- either the character is left alone, or its upper case is spelled out
    have hcases : upperChar c = [c] ∨ (upperChar c).flatMap upperChar = upperChar c := by
      unfold upperChar
      split <;> first | exact Or.inl (by rw [hself]) | exact Or.inr rfl
    rcases hcases with h | h
    · rw [h, List.flatMap_singleton, h]
    · exact h

theorem upper_upper (s : String) : upper (upper s) = upper s := by
  rw [upper, upper, String.toList_ofList, List.flatMap_assoc]
  congr 1
  exact List.flatMap_congr fun c _ => upperChar_idem c

end Python
