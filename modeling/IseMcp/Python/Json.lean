import IseMcp.Python.Value
import IseMcp.Text.FormUrl
import IseMcp.Text.Utf16

set_option autoImplicit false

/-! # Python's `json`

`dumps` is `json.dumps` with its defaults: ASCII only, `", "` and `": "` between the parts. `loads`
is `json.loads`, except that a float is kept as the text it is written as. It reads one character
at a time: a `State` is what is being read, and the frames of the lists and dictionaries around
it. This file has the two functions, and what is read of a written string (`feed_quoted`) and of a
written number (`readAtom_int`, `readAtom_float`).
-/

namespace Python

namespace Json

open Text

/-! ## Writing -/

/-- The code units with an escape of their own. -/
def shortEscapes : List (Nat × Char) :=
  [(0x22, doubleQuote), (0x5C, backslash), (0x0A, 'n'), (0x0D, 'r'), (0x09, 't'), (0x0C, 'f'),
    (0x08, 'b')]

def escapeUnit (u : Nat) : List Char :=
  match shortEscapes.lookup u with
  | some c => [backslash, c]
  | none =>
      if 0x20 ≤ u ∧ u ≤ 0x7E then [Char.ofNat u] else backslash :: 'u' :: hexDigits 4 u

def quoted (s : String) : List Char :=
  doubleQuote :: ((utf16Encode s.toList).flatMap escapeUnit ++ [doubleQuote])

/-- How a float is written, given its `repr`. -/
def floatText (r : String) : String :=
  if r = "nan" then "NaN" else if r = "inf" then "Infinity" else if r = "-inf" then "-Infinity"
  else r

mutual

/-- `json.dumps(x)` -/
def dumps : PyVal → List Char
  | .none => "null".toList
  | .bool b => (if b then "true" else "false").toList
  | .int n => (toString n).toList
  | .float r => (floatText r).toList
  | .str s => quoted s
  | .list xs => '[' :: (dumpItems [] xs ++ [']'])
  | .dict kvs => '{' :: (dumpEntries [] kvs ++ ['}'])

/-- The items of a list, with what stands before the first of them. -/
def dumpItems (sep : List Char) : List PyVal → List Char
  | [] => []
  | x :: xs => sep ++ (dumps x ++ dumpItems ", ".toList xs)

def dumpEntries (sep : List Char) : List (String × PyVal) → List Char
  | [] => []
  | (k, x) :: kvs => sep ++ (quoted k ++ (": ".toList ++ (dumps x ++ dumpEntries ", ".toList kvs)))

end

/-! ## Numbers and constants -/

def isAtomChar (c : Char) : Bool := c.isAlphanum || c == '+' || c == '-' || c == '.'

def constants : List (String × PyVal) :=
  [("null", .none), ("true", .bool true), ("false", .bool false), ("NaN", .float "nan"),
    ("Infinity", .float "inf"), ("-Infinity", .float "-inf")]

def unsigned : List Char → List Char
  | '-' :: t => t
  | t => t

/-- The digits before the point. -/
def wholePart (t : List Char) : List Char := (unsigned t).takeWhile Char.isDigit

/-- What follows them. -/
def afterWhole (t : List Char) : List Char := (unsigned t).dropWhile Char.isDigit

/-- A number has digits before the point, without a leading zero. -/
def startsNumber (t : List Char) : Bool :=
  wholePart t ≠ [] && (wholePart t == ['0'] || (wholePart t).head? != some '0')

def isExponent : List Char → Bool
  | [] => false
  | c :: s =>
      let digits := if s.head? = some '+' then s.tail else unsigned s
      (c == 'e' || c == 'E') && (digits ≠ [] && digits.all Char.isDigit)

/-- A fraction, an exponent, or both. -/
def isFloatTail : List Char → Bool
  | '.' :: s =>
      s.takeWhile Char.isDigit ≠ [] &&
        (s.dropWhile Char.isDigit == [] || isExponent (s.dropWhile Char.isDigit))
  | s => isExponent s

def isFloatLiteral (t : List Char) : Bool := startsNumber t && isFloatTail (afterWhole t)

def intValue (t : List Char) : Int :=
  let n : Int := Nat.ofDigitChars 10 (wholePart t) 0
  if t.head? = some '-' then -n else n

def readAtom (t : List Char) : Option PyVal :=
  match constants.lookup (.ofList t) with
  | some v => some v
  | none =>
      if isFloatLiteral t then some (.float (.ofList t))
      else if startsNumber t ∧ afterWhole t = [] then some (.int (intValue t))
      else none

/-! ## Reading -/

/-- Where in a string literal: outside an escape, after a backslash, or in `\uhhhh` with so many
more digits to come after the next. -/
inductive Literal where
  | plain
  | escape
  | hex (left value : Nat)

/-- What is being read. `item` is a value or the end of the empty list, `firstKey` a key or the end
of the empty dictionary, and `after` what follows a value in a list or dictionary. -/
inductive Reading where
  | value
  | item
  | firstKey
  | key
  | colon
  | after
  | string (units : List Nat) (literal : Literal)
  | atom (text : List Char)
  | document (v : PyVal)

/-- A list or dictionary with what has been read of it; `entry` waits for the value of a key. -/
inductive Frame where
  | list (items : List PyVal)
  | dict (items : List (String × PyVal))
  | entry (items : List (String × PyVal)) (key : String)

structure State where
  reading : Reading
  frames : List Frame

/-- A value is complete. -/
def emit (v : PyVal) : List Frame → Option State
  | [] => some ⟨.document v, []⟩
  | .list items :: fs => some ⟨.after, .list (items ++ [v]) :: fs⟩
  | .entry items k :: fs => some ⟨.after, .dict (PyVal.setItem items k v) :: fs⟩
  | .dict _ :: _ => none

/-- A string is complete: a key, where one is due. -/
def emitString (s : String) : List Frame → Option State
  | .dict items :: fs => some ⟨.colon, .entry items s :: fs⟩
  | fs => emit (.str s) fs

/-- The end of a list or dictionary. -/
def close (c : Char) : List Frame → Option State
  | .list items :: fs => if c = ']' then emit (.list items) fs else none
  | .dict items :: fs => if c = '}' then emit (.dict items) fs else none
  | _ => none

/-- The start of a value. -/
def startValue (c : Char) (fs : List Frame) : Option State :=
  if c = doubleQuote then some ⟨.string [] .plain, fs⟩
  else if c = '[' then some ⟨.item, .list [] :: fs⟩
  else if c = '{' then some ⟨.firstKey, .dict [] :: fs⟩
  else if isAtomChar c then some ⟨.atom [c], fs⟩
  else none

/-- A comma. -/
def nextItem : List Frame → Option State
  | .list items :: fs => some ⟨.value, .list items :: fs⟩
  | .dict items :: fs => some ⟨.key, .dict items :: fs⟩
  | _ => none

def isBlank (c : Char) : Bool := c == ' ' || c == '\t' || c == '\n' || c == '\r'

/-- A character between strings, numbers and constants. -/
def stepOutside (r : Reading) (fs : List Frame) (c : Char) : Option State :=
  if isBlank c then some ⟨r, fs⟩
  else
    match r with
    | .value => startValue c fs
    | .item => if c = ']' then close c fs else startValue c fs
    | .firstKey => if c = doubleQuote then some ⟨.string [] .plain, fs⟩ else close c fs
    | .key => if c = doubleQuote then some ⟨.string [] .plain, fs⟩ else none
    | .colon => if c = ':' then some ⟨.value, fs⟩ else none
    | .after => if c = ',' then nextItem fs else close c fs
    | _ => none

/-- The characters after a backslash, with their code units. -/
def unescapes : List (Char × Nat) := ('/', 0x2F) :: shortEscapes.map Prod.swap

/-- A character of a string literal. A surrogate on its own is refused. -/
def stepString (units : List Nat) (literal : Literal) (fs : List Frame) (c : Char) :
    Option State :=
  match literal with
  | .plain =>
      if c = doubleQuote then (utf16Decode units).bind fun s => emitString (.ofList s) fs
      else if c = backslash then some ⟨.string units .escape, fs⟩
      else if c.toNat < 0x20 then none
      else some ⟨.string (units ++ utf16Char c) .plain, fs⟩
  | .escape =>
      if c = 'u' then some ⟨.string units (.hex 3 0), fs⟩
      else (unescapes.lookup c).map fun u => ⟨.string (units ++ [u]) .plain, fs⟩
  | .hex 0 value =>
      (FormUrl.hexValue c).map fun d => ⟨.string (units ++ [16 * value + d]) .plain, fs⟩
  | .hex (left + 1) value =>
      (FormUrl.hexValue c).map fun d => ⟨.string units (.hex left (16 * value + d)), fs⟩

/-- The text of a number or constant is complete. -/
def emitAtom (t : List Char) (fs : List Frame) : Option State :=
  (readAtom t).bind fun v => emit v fs

def step (s : State) (c : Char) : Option State :=
  match s.reading with
  | .string units literal => stepString units literal s.frames c
  | .atom t =>
      if isAtomChar c then some ⟨.atom (t ++ [c]), s.frames⟩
      else (emitAtom t s.frames).bind fun s' => stepOutside s'.reading s'.frames c
  | r => stepOutside r s.frames c

/-- The document, if the text may end here. -/
def finish (s : State) : Option PyVal :=
  match s.reading with
  | .document v => some v
  | .atom t =>
      (emitAtom t s.frames).bind fun s' =>
        match s'.reading with
        | .document v => some v
        | _ => none
  | _ => none

def feed (s : State) : List Char → Option PyVal
  | [] => finish s
  | c :: cs => (step s c).bind fun s' => feed s' cs

/-- `json.loads(text)` -/
def loads (text : List Char) : Option PyVal := feed ⟨.value, []⟩ text

/-! ## Strings -/

theorem feed_string (units : List Nat) (literal : Literal) (fs : List Frame) (c : Char)
    (rest : List Char) : feed ⟨.string units literal, fs⟩ (c :: rest)
      = (stepString units literal fs c).bind fun s => feed s rest := rfl

theorem hexValue_digitChar {n : Nat} (h : n < 16) :
    FormUrl.hexValue (Nat.digitChar n) = some n := by
  interval_cases n <;> rfl

/-- Four digits are read as the unit they stand for. -/
theorem feed_hexDigits {u : Nat} (h : u < 0x10000) (units : List Nat) (fs : List Frame)
    (rest : List Char) :
    feed ⟨.string units (.hex 3 0), fs⟩ (hexDigits 4 u ++ rest)
      = feed ⟨.string (units ++ [u]) .plain, fs⟩ rest := by
  have hu : 16 * (16 * (16 * (16 * 0 + u / 16 / 16 / 16 % 16) + u / 16 / 16 % 16) + u / 16 % 16)
      + u % 16 = u := by omega
  simp only [hexDigits, List.nil_append, List.cons_append, feed_string, stepString,
    hexValue_digitChar (Nat.mod_lt _ (by decide : 0 < 16)), Option.map_some, Option.bind_some, hu]

theorem shortEscapes_unescape :
    ∀ p ∈ shortEscapes, p.2 ≠ 'u' ∧ unescapes.lookup p.2 = some p.1 := by
  decide

/-- A written unit is read back. -/
theorem feed_escapeUnit {u : Nat} (h : u < 0x10000) (units : List Nat) (fs : List Frame)
    (rest : List Char) :
    feed ⟨.string units .plain, fs⟩ (escapeUnit u ++ rest)
      = feed ⟨.string (units ++ [u]) .plain, fs⟩ rest := by
  have hslash (r : List Char) : feed ⟨.string units .plain, fs⟩ (backslash :: r)
      = feed ⟨.string units .escape, fs⟩ r := rfl
  unfold escapeUnit
  cases hshort : shortEscapes.lookup u with
  | some c =>
      obtain ⟨l₁, l₂, hmem, _⟩ := List.lookup_eq_some_iff.mp hshort
      obtain ⟨hne, hback⟩ := shortEscapes_unescape (u, c) (by rw [hmem]; simp)
      show feed _ (backslash :: c :: rest) = _
      rw [hslash, feed_string, stepString.eq_def]
      dsimp only at hne hback ⊢
      rw [if_neg hne, hback]
      rfl
  | none =>
      dsimp only
      split_ifs with hprint
      · have hquote : u ≠ 0x22 := by
          rintro rfl
          cases hshort
        have hback : u ≠ 0x5C := by
          rintro rfl
          cases hshort
        have hvalid : u.isValidChar := Or.inl (by omega)
        have hval : (Char.ofNat u).toNat = u := by
          rw [Char.ofNat, dif_pos hvalid]
          rfl
        have hne (c : Char) (hc : u ≠ c.toNat) : Char.ofNat u ≠ c := by
          rintro rfl
          exact hc hval.symm
        have hunits : utf16Char (Char.ofNat u) = [u] := by
          rw [utf16Char, hval, if_pos h]
        rw [List.singleton_append, feed_string, stepString.eq_def]
        dsimp only
        rw [if_neg (hne doubleQuote hquote), if_neg (hne backslash hback), hval,
          if_neg (by omega), hunits]
        rfl
      · show feed _ (backslash :: 'u' :: (hexDigits 4 u ++ rest)) = _
        rw [hslash, feed_string, stepString.eq_def]
        dsimp only
        rw [if_pos rfl]
        exact feed_hexDigits h units fs rest

theorem feed_units (us : List Nat) (h : ∀ u ∈ us, u < 0x10000) (units : List Nat)
    (fs : List Frame) (rest : List Char) :
    feed ⟨.string units .plain, fs⟩ (us.flatMap escapeUnit ++ rest)
      = feed ⟨.string (units ++ us) .plain, fs⟩ rest := by
  induction us generalizing units with
  | nil => rw [List.flatMap_nil, List.nil_append, List.append_nil]
  | cons u us ih =>
      rw [List.flatMap_cons, List.append_assoc, feed_escapeUnit (h u List.mem_cons_self),
        ih (fun v hv => h v (List.mem_cons_of_mem _ hv)), List.append_assoc, List.singleton_append]

/-- **A string literal is read as the string**, after its first quote. -/
theorem feed_quoted (s : String) (fs : List Frame) (rest : List Char) :
    feed ⟨.string [] .plain, fs⟩ ((utf16Encode s.toList).flatMap escapeUnit
        ++ doubleQuote :: rest)
      = (emitString s fs).bind fun st => feed st rest := by
  have hlt : ∀ u ∈ utf16Encode s.toList, u < 0x10000 := fun u hu =>
    let ⟨_, _, huc⟩ := List.mem_flatMap.mp hu
    utf16Char_lt huc
  rw [feed_units _ hlt, List.nil_append, feed_string, stepString.eq_def]
  dsimp only
  rw [if_pos rfl, utf16Decode_encode, Option.bind_some, String.ofList_toList]

/-! ## Numbers -/

/-- A written number has no leading zero. -/
theorem head_toDigits {n : Nat} (h : 0 < n) : (Nat.toDigits 10 n).head? ≠ some '0' := by
  induction n using Nat.strong_induction_on with
  | _ n ih =>
      rw [Nat.toDigits_eq_if (by decide)]
      split_ifs with hlt
      · have hdigit : ∀ m < 10, 0 < m → [Nat.digitChar m].head? ≠ some '0' := by decide
        exact hdigit n hlt h
      · rw [List.head?_append_of_ne_nil _ Nat.toDigits_ne_nil]
        exact ih (n / 10) (by omega) (by omega)

theorem takeWhile_toDigits (n : Nat) :
    (Nat.toDigits 10 n).takeWhile Char.isDigit = Nat.toDigits 10 n :=
  List.takeWhile_eq_self_iff.mpr fun _ hc => Nat.isDigit_of_mem_toDigits (by decide) (by decide) hc

theorem dropWhile_toDigits (n : Nat) : (Nat.toDigits 10 n).dropWhile Char.isDigit = [] :=
  List.dropWhile_eq_nil_iff.mpr fun _ hc => Nat.isDigit_of_mem_toDigits (by decide) (by decide) hc

theorem unsigned_toDigits (n : Nat) : unsigned (Nat.toDigits 10 n) = Nat.toDigits 10 n := by
  unfold unsigned
  split
  · rename_i t heq
    have hminus : '-'.isDigit = true := Nat.isDigit_of_mem_toDigits (b := 10) (n := n) (by decide)
      (by decide) (by rw [heq]; exact List.mem_cons_self)
    cases hminus
  · rfl

/-- No constant reads like a number. -/
theorem lookup_constants {t : List Char} (h : startsNumber t = true) :
    constants.lookup (.ofList t) = none := by
  have hall : ∀ p ∈ constants, startsNumber p.1.toList = false := by decide
  rw [List.lookup_eq_none_iff]
  intro p hp
  by_contra hne
  have heq : p.1 = .ofList t := (by simpa using hne : String.ofList t = p.1).symm
  have := hall p hp
  rw [heq, String.toList_ofList, h] at this
  cases this

/-- The number that `t` is the text of, when the digits before its point are those of `n`. -/
theorem readAtom_digits {t : List Char} {n : Nat} (hu : unsigned t = Nat.toDigits 10 n) :
    readAtom t = some (.int (if t.head? = some '-' then -n else n)) := by
  have hwhole : wholePart t = Nat.toDigits 10 n := by rw [wholePart, hu, takeWhile_toDigits]
  have hafter : afterWhole t = [] := by rw [afterWhole, hu, dropWhile_toDigits]
  have hstart : startsNumber t = true := by
    rw [startsNumber, hwhole, Bool.and_eq_true, Bool.or_eq_true]
    refine ⟨decide_eq_true Nat.toDigits_ne_nil, ?_⟩
    rcases Nat.eq_zero_or_pos n with rfl | hpos
    · exact Or.inl (by decide)
    · exact Or.inr (by simpa using head_toDigits hpos)
  have hfloat : isFloatLiteral t = false := by
    rw [isFloatLiteral, hafter, hstart]
    rfl
  rw [readAtom, lookup_constants hstart]
  dsimp only
  rw [hfloat, if_neg Bool.false_ne_true, if_pos ⟨hstart, hafter⟩, intValue, hwhole,
    Nat.ofDigitChars_ten_toDigits]

/-- What is written of a negative number: its sign, and its digits. -/
theorem toList_toString_int (n : Int) :
    (∃ m : Nat, n = m ∧ (toString n).toList = Nat.toDigits 10 m) ∨
      ∃ m : Nat, n = -m ∧ (toString n).toList = '-' :: Nat.toDigits 10 m := by
  cases n with
  | ofNat m => exact Or.inl ⟨m, rfl, Nat.toList_repr⟩
  | negSucc m =>
      refine Or.inr ⟨m + 1, rfl, ?_⟩
      show ("-" ++ (m + 1).repr).toList = _
      rw [String.toList_append, Nat.toList_repr]
      rfl

theorem readAtom_int (n : Int) : readAtom (toString n).toList = some (.int n) := by
  rcases toList_toString_int n with ⟨m, rfl, htext⟩ | ⟨m, rfl, htext⟩
  · rw [htext, readAtom_digits (unsigned_toDigits m)]
    have hhead : (Nat.toDigits 10 m).head? ≠ some '-' := by
      intro h
      have := Nat.isDigit_of_mem_toDigits (b := 10) (n := m) (by decide) (by decide)
        (List.mem_of_mem_head? h)
      cases this
    rw [if_neg hhead]
  · rw [htext, readAtom_digits (n := m) rfl]
    rfl

/-- What `repr` gives for a float. -/
def IsFloatRepr (r : String) : Prop :=
  r ∈ ["nan", "inf", "-inf"] ∨ isFloatLiteral r.toList = true

instance (r : String) : Decidable (IsFloatRepr r) := inferInstanceAs (Decidable (_ ∨ _))

theorem floatText_literal {r : String} (h : isFloatLiteral r.toList = true) : floatText r = r := by
  have hne : ∀ s ∈ ["nan", "inf", "-inf"], r ≠ s := by
    intro s hs heq
    have hall : ∀ s ∈ ["nan", "inf", "-inf"], isFloatLiteral s.toList = false := by decide
    rw [heq, hall s hs] at h
    cases h
  rw [floatText, if_neg (hne _ (by decide)), if_neg (hne _ (by decide)),
    if_neg (hne _ (by decide))]

theorem readAtom_float {r : String} (h : IsFloatRepr r) :
    readAtom (floatText r).toList = some (.float r) := by
  rcases h with hspecial | hliteral
  · have hall : ∀ s ∈ ["nan", "inf", "-inf"], readAtom (floatText s).toList = some (.float s) := by
      decide
    exact hall r hspecial
  · have hstart : startsNumber r.toList = true := (Bool.and_eq_true _ _ ▸ hliteral).1
    rw [floatText_literal hliteral, readAtom, lookup_constants hstart]
    dsimp only
    rw [if_pos hliteral, String.ofList_toList]

theorem isAtomChar_of_isDigit {c : Char} (h : c.isDigit = true) : isAtomChar c = true := by
  simp [isAtomChar, Char.isAlphanum, h]

theorem unsigned_chars {t : List Char} (h : ∀ c ∈ unsigned t, isAtomChar c = true) :
    ∀ c ∈ t, isAtomChar c = true := by
  intro c hc
  unfold unsigned at h
  split at h
  · rcases List.mem_cons.mp hc with rfl | hc
    · decide
    · exact h c hc
  · exact h c hc

theorem isExponent_chars {t : List Char} (h : isExponent t = true) :
    ∀ c ∈ t, isAtomChar c = true := by
  cases t with
  | nil => cases h
  | cons e s =>
      simp only [isExponent, Bool.and_eq_true, Bool.or_eq_true, beq_iff_eq, List.all_eq_true] at h
      obtain ⟨he, _, hdigits⟩ := h
      rw [List.forall_mem_cons]
      refine ⟨by rcases he with rfl | rfl <;> decide, ?_⟩
      split_ifs at hdigits with hplus
      · cases s with
        | nil => cases hplus
        | cons p s =>
            cases hplus
            exact List.forall_mem_cons.mpr
              ⟨by decide, fun c hc => isAtomChar_of_isDigit (hdigits c hc)⟩
      · exact unsigned_chars fun c hc => isAtomChar_of_isDigit (hdigits c hc)

theorem isFloatTail_chars {t : List Char} (h : isFloatTail t = true) :
    ∀ c ∈ t, isAtomChar c = true := by
  unfold isFloatTail at h
  split at h
  · rename_i s
    rw [Bool.and_eq_true, Bool.or_eq_true] at h
    rw [List.forall_mem_cons]
    refine ⟨by decide, fun c hc => ?_⟩
    rw [← List.takeWhile_append_dropWhile (p := Char.isDigit) (l := s), List.mem_append] at hc
    rcases hc with hc | hc
    · exact isAtomChar_of_isDigit (List.mem_takeWhile_imp hc)
    · rcases h.2 with hnil | hexp
      · rw [beq_iff_eq.mp hnil] at hc
        cases hc
      · exact isExponent_chars hexp c hc
  · exact isExponent_chars h

theorem isFloatLiteral_chars {t : List Char} (h : isFloatLiteral t = true) :
    ∀ c ∈ t, isAtomChar c = true := by
  refine unsigned_chars fun c hc => ?_
  rw [← List.takeWhile_append_dropWhile (p := Char.isDigit) (l := unsigned t),
    List.mem_append] at hc
  rcases hc with hc | hc
  · exact isAtomChar_of_isDigit (List.mem_takeWhile_imp hc)
  · exact isFloatTail_chars (Bool.and_eq_true _ _ ▸ h).2 c hc

end Json

end Python
