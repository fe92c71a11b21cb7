import IseMcp.Text.Codec
import IseMcp.Text.FormUrl

set_option autoImplicit false

/-! # HTML

The tokenizer of the HTML standard, as a machine that takes one character at a time (`step`) and
runs on the text with its line breaks normalised. A character that a state reconsumes is passed to
the function of the next state. The states for the text of scripts and of `plaintext` are left out.

Character references do not affect what the tokenizer does with the characters around them, so they
are left in the tokens as they stand and are resolved by `unescape`. `escape` is the converse:
text that was escaped stays inside the attribute value or the text it is put into
(`run_attrValue`, `run_text`), and comes back when the references are resolved
(`unescape_escapeChars`).
-/

namespace Text

namespace Html

/-! ## Tokens -/

structure Tag where
  isEnd : Bool
  name : List Char
  attrs : List (List Char × List Char)
  selfClosing : Bool
  deriving DecidableEq

inductive Token where
  | doctype (text : List Char)
  | tag (t : Tag)
  | comment (text : List Char)
  | char (c : Char)
  deriving DecidableEq

/-- Of two attributes with one name, the first counts. -/
def Tag.add (t : Tag) (name value : List Char) : Tag :=
  if t.attrs.any (·.1 == name) then t else { t with attrs := t.attrs ++ [(name, value)] }

def Tag.attr (t : Tag) (name : String) : Option (List Char) := t.attrs.lookup name.toList

/-! ## The tokenizer -/

inductive State where
  | data
  | tagOpen
  | endTagOpen
  | tagName (t : Tag)
  | beforeAttrName (t : Tag)
  | attrName (t : Tag) (name : List Char)
  | afterAttrName (t : Tag) (name : List Char)
  | beforeAttrValue (t : Tag) (name : List Char)
  | attrValueDouble (t : Tag) (name value : List Char)
  | attrValueSingle (t : Tag) (name value : List Char)
  | attrValueUnquoted (t : Tag) (name value : List Char)
  | afterAttrValue (t : Tag)
  | selfClosing (t : Tag)
  | bogusComment (text : List Char)
  | markupDeclaration (text : List Char)
  | commentStart
  | commentStartDash
  | comment (text : List Char)
  | commentEndDash (text : List Char)
  | commentEnd (text : List Char)
  | commentEndBang (text : List Char)
  | doctype (text : List Char)
  /-- The text of an element that only its own end tag ends. -/
  | raw (element : List Char)
  | rawLessThan (element : List Char)
  | rawEndTagOpen (element : List Char)
  | rawEndTagName (element : List Char) (buffer : List Char)
  deriving DecidableEq

/-- The elements whose text is `RCDATA` or `RAWTEXT`. -/
def rawElements : List (List Char) :=
  ["title".toList, "textarea".toList, "style".toList, "xmp".toList, "iframe".toList,
    "noembed".toList, "noframes".toList]

/-- Tab, line feed, form feed and space. -/
def isBlank (c : Char) : Bool := c.toNat == 9 || c.toNat == 10 || c.toNat == 12 || c.toNat == 32

def doubleQuote : Char := Char.ofNat 34
def singleQuote : Char := Char.ofNat 39

/-- NUL is no character of a name or a value. -/
def replaceNul (c : Char) : Char := if c.toNat = 0 then replacement else c

def emit (t : Tag) : State × List Token :=
  (if !t.isEnd && rawElements.contains t.name then .raw t.name else .data, [.tag t])

def dataStep (c : Char) : State × List Token :=
  if c = '<' then (.tagOpen, []) else (.data, [.char c])

def bogusCommentStep (text : List Char) (c : Char) : State × List Token :=
  if c = '>' then (.data, [.comment text]) else (.bogusComment (text ++ [replaceNul c]), [])

def commentStep (text : List Char) (c : Char) : State × List Token :=
  if c = '-' then (.commentEndDash text, []) else (.comment (text ++ [replaceNul c]), [])

def attrValueUnquotedStep (t : Tag) (name value : List Char) (c : Char) : State × List Token :=
  if isBlank c then (.beforeAttrName (t.add name value), [])
  else if c = '>' then emit (t.add name value)
  else (.attrValueUnquoted t name (value ++ [replaceNul c]), [])

/-- A character of an attribute name, or the one after it. -/
def attrNameStep (t : Tag) (name : List Char) (c : Char) : State × List Token :=
  if isBlank c then (.afterAttrName t name, [])
  else if c = '/' then (.selfClosing (t.add name []), [])
  else if c = '>' then emit (t.add name [])
  else if c = '=' then (.beforeAttrValue t name, [])
  else (.attrName t (name ++ [replaceNul c.toLower]), [])

def beforeAttrNameStep (t : Tag) (c : Char) : State × List Token :=
  if isBlank c then (.beforeAttrName t, [])
  else if c = '/' then (.selfClosing t, [])
  else if c = '>' then emit t
  else if c = '=' then (.attrName t ['='], [])
  else attrNameStep t [] c

def rawStep (element : List Char) (c : Char) : State × List Token :=
  if c = '<' then (.rawLessThan element, []) else (.raw element, [.char (replaceNul c)])

/-- The tokens of text in front of what a step does. -/
def behind (text : List Char) (r : State × List Token) : State × List Token :=
  (r.1, text.map .char ++ r.2)

def step : State → Char → State × List Token
  | .data, c => dataStep c
  | .tagOpen, c =>
      if c = '!' then (.markupDeclaration [], [])
      else if c = '/' then (.endTagOpen, [])
      else if c.isAlpha then (.tagName ⟨false, [c.toLower], [], false⟩, [])
      else if c = '?' then bogusCommentStep [] c
      else behind ['<'] (dataStep c)
  | .endTagOpen, c =>
      if c.isAlpha then (.tagName ⟨true, [c.toLower], [], false⟩, [])
      else if c = '>' then (.data, [])
      else bogusCommentStep [] c
  | .tagName t, c =>
      if isBlank c then (.beforeAttrName t, [])
      else if c = '/' then (.selfClosing t, [])
      else if c = '>' then emit t
      else (.tagName { t with name := t.name ++ [replaceNul c.toLower] }, [])
  | .beforeAttrName t, c => beforeAttrNameStep t c
  | .attrName t name, c => attrNameStep t name c
  | .afterAttrName t name, c =>
      if isBlank c then (.afterAttrName t name, [])
      else if c = '/' then (.selfClosing (t.add name []), [])
      else if c = '=' then (.beforeAttrValue t name, [])
      else if c = '>' then emit (t.add name [])
      else attrNameStep (t.add name []) [] c
  | .beforeAttrValue t name, c =>
      if isBlank c then (.beforeAttrValue t name, [])
      else if c = doubleQuote then (.attrValueDouble t name [], [])
      else if c = singleQuote then (.attrValueSingle t name [], [])
      else if c = '>' then emit (t.add name [])
      else attrValueUnquotedStep t name [] c
  | .attrValueDouble t name value, c =>
      if c = doubleQuote then (.afterAttrValue (t.add name value), [])
      else (.attrValueDouble t name (value ++ [replaceNul c]), [])
  | .attrValueSingle t name value, c =>
      if c = singleQuote then (.afterAttrValue (t.add name value), [])
      else (.attrValueSingle t name (value ++ [replaceNul c]), [])
  | .attrValueUnquoted t name value, c => attrValueUnquotedStep t name value c
  | .afterAttrValue t, c => beforeAttrNameStep t c
  | .selfClosing t, c =>
      if c = '>' then emit { t with selfClosing := true } else beforeAttrNameStep t c
  | .bogusComment text, c => bogusCommentStep text c
  | .markupDeclaration text, c =>
      if text ++ [c] = ['-', '-'] then (.commentStart, [])
      else if (text ++ [c]).map Char.toLower = "doctype".toList then (.doctype [], [])
      else if (text ++ [c]).isPrefixOf ['-', '-'] ∨
          ((text ++ [c]).map Char.toLower).isPrefixOf "doctype".toList then
        (.markupDeclaration (text ++ [c]), [])
      else bogusCommentStep text c
  | .commentStart, c =>
      if c = '-' then (.commentStartDash, [])
      else if c = '>' then (.data, [.comment []])
      else commentStep [] c
  | .commentStartDash, c =>
      if c = '-' then (.commentEnd [], [])
      else if c = '>' then (.data, [.comment []])
      else commentStep ['-'] c
  | .comment text, c => commentStep text c
  | .commentEndDash text, c =>
      if c = '-' then (.commentEnd text, []) else commentStep (text ++ ['-']) c
  | .commentEnd text, c =>
      if c = '>' then (.data, [.comment text])
      else if c = '!' then (.commentEndBang text, [])
      else if c = '-' then (.commentEnd (text ++ ['-']), [])
      else commentStep (text ++ ['-', '-']) c
  | .commentEndBang text, c =>
      if c = '-' then (.commentEndDash (text ++ ['-', '-', '!']), [])
      else if c = '>' then (.data, [.comment text])
      else commentStep (text ++ ['-', '-', '!']) c
  | .doctype text, c =>
      if c = '>' then (.data, [.doctype text]) else (.doctype (text ++ [replaceNul c]), [])
  | .raw element, c => rawStep element c
  | .rawLessThan element, c =>
      if c = '/' then (.rawEndTagOpen element, []) else behind ['<'] (rawStep element c)
  | .rawEndTagOpen element, c =>
      if c.isAlpha then (.rawEndTagName element [c], [])
      else behind ['<', '/'] (rawStep element c)
  | .rawEndTagName element buffer, c =>
      let t : Tag := ⟨true, element, [], false⟩
      let own := buffer.map Char.toLower = element
      if isBlank c ∧ own then (.beforeAttrName t, [])
      else if c = '/' ∧ own then (.selfClosing t, [])
      else if c = '>' ∧ own then emit t
      else if c.isAlpha then (.rawEndTagName element (buffer ++ [c]), [])
      else behind (['<', '/'] ++ buffer) (rawStep element c)

def run : State → List Char → State × List Token
  | st, [] => (st, [])
  | st, c :: s => ((run (step st c).1 s).1, (step st c).2 ++ (run (step st c).1 s).2)

/-- What is left at the end of the input. A tag that is not closed is dropped. -/
def finish : State → List Token
  | .tagOpen => [.char '<']
  | .endTagOpen => [.char '<', .char '/']
  | .bogusComment text | .markupDeclaration text | .comment text => [.comment text]
  | .commentStart | .commentStartDash => [.comment []]
  | .commentEndDash text | .commentEnd text | .commentEndBang text => [.comment text]
  | .doctype text => [.doctype text]
  | .rawLessThan _ => [.char '<']
  | .rawEndTagOpen _ => [.char '<', .char '/']
  | .rawEndTagName _ buffer => (['<', '/'] ++ buffer).map .char
  | _ => []

/-- `afterReturn` says that the last character was a carriage return, which a line feed would
belong to. -/
def normalizeFrom (afterReturn : Bool) : List Char → List Char
  | [] => []
  | c :: s =>
      if c = '\n' ∧ afterReturn then normalizeFrom false s
      else if c = '\r' then '\n' :: normalizeFrom true s
      else c :: normalizeFrom false s

/-- Every line break of the input stream becomes a line feed. -/
def normalizeNewlines (s : List Char) : List Char := normalizeFrom false s

def tokenize (s : String) : List Token :=
  let r := run .data (normalizeNewlines s.toList)
  r.2 ++ finish r.1

/-- The tags with the names of their attributes, in order. -/
def outline (ts : List Token) : List (Bool × List Char × List (List Char)) :=
  ts.filterMap fun t =>
    match t with
    | .tag t => some (t.isEnd, t.name, t.attrs.map (·.1))
    | _ => none

/-! ## Character references -/

/-- The table of named references: what stands for a name, which has its semicolon if there is one.
A semicolon ends a name; of the rows, the results use those of four characters. -/
structure EntityTable where
  find : List Char → Option (List Char)
  amp : find "amp;".toList = some ['&']
  lt : find "lt;".toList = some ['<']
  gt : find "gt;".toList = some ['>']
  quot : find "quot;".toList = some [doubleQuote]
  ends : ∀ name rest, find (name ++ ';' :: rest) ≠ none → rest = []

/-- What the numbers of the C1 controls stand for. -/
def c1Replacements : List (Nat × Nat) :=
  [(0x80, 0x20AC), (0x82, 0x201A), (0x83, 0x0192), (0x84, 0x201E), (0x85, 0x2026), (0x86, 0x2020),
    (0x87, 0x2021), (0x88, 0x02C6), (0x89, 0x2030), (0x8A, 0x0160), (0x8B, 0x2039), (0x8C, 0x0152),
    (0x8E, 0x017D), (0x91, 0x2018), (0x92, 0x2019), (0x93, 0x201C), (0x94, 0x201D), (0x95, 0x2022),
    (0x96, 0x2013), (0x97, 0x2014), (0x98, 0x02DC), (0x99, 0x2122), (0x9A, 0x0161), (0x9B, 0x203A),
    (0x9C, 0x0153), (0x9E, 0x017E), (0x9F, 0x0178)]

/-- The character of a number. -/
def charOfNumber (n : Nat) : Char :=
  if n = 0 ∨ n > 0x10FFFF ∨ (0xD800 ≤ n ∧ n ≤ 0xDFFF) then replacement
  else Char.ofNat ((c1Replacements.lookup n).getD n)

/-- The reference that a number in this base starts, behind `&#` or `&#x`: its character and its
length, with the semicolon if it is there. -/
def numberReference (base : Nat) (s : List Char) : Option (Char × Nat) :=
  let digits := (s.map FormUrl.hexValue).takeWhile (·.any (· < base))
  let number := digits.foldl (fun n d => base * n + d.getD 0) 0
  if digits = [] then none
  else some (charOfNumber number,
    digits.length + if (s.drop digits.length).head? = some ';' then 1 else 0)

/-- The longest name of at most `n` characters that `s` starts with. -/
def longestName (table : EntityTable) (s : List Char) : Nat → Option (List Char × Nat)
  | 0 => none
  | n + 1 =>
      match table.find (s.take (n + 1)) with
      | some text => some (text, n + 1)
      | none => longestName table s n

/-- In an attribute, a name without its semicolon is no reference before `=`, a letter or a
digit. -/
def resolves (s : List Char) (n : Nat) : Bool :=
  (s.take n).getLast? == some ';' || !(s.drop n).head?.any fun c => c == '=' || c.isAlphanum

/-- What the text behind an ampersand starts with, as a reference in an attribute: the text it
stands for and its length. -/
def reference (table : EntityTable) : List Char → Option (List Char × Nat)
  | '#' :: 'x' :: s => (numberReference 16 s).map fun r => ([r.1], r.2 + 2)
  | '#' :: 'X' :: s => (numberReference 16 s).map fun r => ([r.1], r.2 + 2)
  | '#' :: s => (numberReference 10 s).map fun r => ([r.1], r.2 + 1)
  | s => (longestName table s s.length).filter fun r => resolves s r.2

/-- Of a text, of which the first `skip` characters are part of a reference before it. -/
def unescapeFrom (table : EntityTable) : Nat → List Char → List Char
  | _, [] => []
  | skip + 1, _ :: s => unescapeFrom table skip s
  | 0, c :: s =>
      if c = '&' then
        match reference table s with
        | some (text, n) => text ++ unescapeFrom table n s
        | none => c :: unescapeFrom table 0 s
      else c :: unescapeFrom table 0 s

/-- The value of an attribute, with its references resolved. -/
def unescape (table : EntityTable) (s : List Char) : List Char := unescapeFrom table 0 s

/-! ## Forms -/

/-- The start tags of the fields of a form. -/
def inputTags (ts : List Token) : List Tag :=
  ts.filterMap fun t =>
    match t with
    | .tag t => if !t.isEnd && t.name == "input".toList then some t else none
    | _ => none

def Tag.isHidden (t : Tag) : Bool :=
  (t.attr "type").any fun value => value.map Char.toLower == "hidden".toList

section

variable (table : EntityTable)

def Tag.text (t : Tag) (name : String) : String :=
  .ofList (unescape table ((t.attr name).getD []))

/-- The names and values of the hidden fields. -/
def hiddenFields (ts : List Token) : List (String × String) :=
  ((inputTags ts).filter Tag.isHidden).map fun t => (t.text table "name", t.text table "value")

/-- Line breaks are sent as a carriage return and a line feed. -/
def toCrlf (s : String) : String :=
  .ofList ((normalizeNewlines s.toList).flatMap fun c => if c = '\n' then ['\r', '\n'] else [c])

/-- The entries of a form that the user has filled in. A hidden field has the value that is in the
page. -/
def entries (typed : String → String) (ts : List Token) : List (String × String) :=
  (inputTags ts).map fun t =>
    (toCrlf (t.text table "name"),
      toCrlf (if t.isHidden then t.text table "value" else typed (t.text table "name")))

/-- The bytes that a browser does not quote. -/
def formSafe : FormUrl.SafeBytes := FormUrl.alphanumericAnd ['*', '-', '.', '_'] (by decide)

/-- The body that a browser posts. -/
def submit (typed : String → String) (ts : List Token) : List Char :=
  FormUrl.encode formSafe (entries table typed ts)

end

/-! ## Escaping -/

/-- `s.replace(c, text)` -/
def replaceChar (c : Char) (text : String) (s : List Char) : List Char :=
  s.flatMap fun d => if d = c then text.toList else [d]

/-- `html.escape(s, quote=True)` -/
def escape (s : String) : String :=
  .ofList (replaceChar singleQuote "&#x27;" (replaceChar doubleQuote "&quot;"
    (replaceChar '>' "&gt;" (replaceChar '<' "&lt;" (replaceChar '&' "&amp;" s.toList)))))

/-- What one character becomes. -/
def escapeChar (c : Char) : List Char :=
  if c = '&' then "&amp;".toList
  else if c = '<' then "&lt;".toList
  else if c = '>' then "&gt;".toList
  else if c = doubleQuote then "&quot;".toList
  else if c = singleQuote then "&#x27;".toList
  else [c]

theorem replaceChar_flatMap (c : Char) (text : String) (s : List Char) (f : Char → List Char) :
    replaceChar c text (s.flatMap f) = s.flatMap fun d => replaceChar c text (f d) :=
  List.flatMap_assoc

theorem replaceChar_of_ne {c d : Char} (h : d ≠ c) (text : String) :
    replaceChar c text [d] = [d] := by
  rw [replaceChar, List.flatMap_singleton, if_neg h]

/-- The ampersand comes first, so the references put in are not escaped again. -/
theorem toList_escape (s : String) : (escape s).toList = s.toList.flatMap escapeChar := by
  rw [escape, String.toList_ofList, replaceChar.eq_def '&', replaceChar_flatMap,
    replaceChar_flatMap, replaceChar_flatMap, replaceChar_flatMap]
  refine List.flatMap_congr fun c _ => ?_
  unfold escapeChar
  split_ifs with h₁ h₂ h₃ h₄ h₅
  · decide
  · subst h₂
    decide
  · subst h₃
    decide
  · subst h₄
    decide
  · subst h₅
    decide
  · rw [replaceChar_of_ne h₂, replaceChar_of_ne h₃, replaceChar_of_ne h₄, replaceChar_of_ne h₅]

/-- The references that are put in. -/
def references : List (List Char) :=
  ["&amp;".toList, "&lt;".toList, "&gt;".toList, "&quot;".toList, "&#x27;".toList]

theorem escapeChar_cases (c : Char) :
    escapeChar c ∈ references ∨
      (escapeChar c = [c] ∧ c ≠ '<' ∧ c ≠ '>' ∧ c ≠ doubleQuote ∧ c ≠ singleQuote) := by
  unfold escapeChar
  split_ifs with h₁ h₂ h₃ h₄ h₅
  · exact Or.inl (by decide)
  · exact Or.inl (by decide)
  · exact Or.inl (by decide)
  · exact Or.inl (by decide)
  · exact Or.inl (by decide)
  · exact Or.inr ⟨rfl, h₂, h₃, h₄, h₅⟩

/-- No character of an escaped text can end a value or start a tag. -/
theorem mem_escapeChar {c d : Char} (h : d ∈ escapeChar c) :
    d ≠ '<' ∧ d ≠ '>' ∧ d ≠ doubleQuote ∧ d ≠ singleQuote := by
  have hplain : ∀ r ∈ references, ∀ d ∈ r,
      d ≠ '<' ∧ d ≠ '>' ∧ d ≠ doubleQuote ∧ d ≠ singleQuote := by decide
  rcases escapeChar_cases c with href | ⟨hself, hne⟩
  · exact hplain _ href d h
  · rw [hself, List.mem_singleton] at h
    rwa [h]

theorem mem_escaped {s : List Char} {d : Char} (h : d ∈ s.flatMap escapeChar) :
    d ≠ '<' ∧ d ≠ '>' ∧ d ≠ doubleQuote ∧ d ≠ singleQuote := by
  obtain ⟨c, _, hc⟩ := List.mem_flatMap.mp h
  exact mem_escapeChar hc

section

variable (table : EntityTable)

/-- A name that ends in its semicolon is not part of a longer one. -/
theorem longestName_append {name : List Char} {text : List Char}
    (h : table.find (name ++ [';']) = some text) (s : List Char) {k : Nat} (hk : k ≤ s.length) :
    longestName table (name ++ ';' :: s) (name.length + 1 + k) = some (text, name.length + 1) := by
  induction k with
  | zero =>
      have htake : (name ++ ';' :: s).take (name.length + 1) = name ++ [';'] := by
        rw [List.take_append, List.take_of_length_le (by omega)]
        simp
      rw [Nat.add_zero, longestName, htake, h]
  | succ k ih =>
      have htake : (name ++ ';' :: s).take (name.length + 1 + k + 1)
          = name ++ ';' :: s.take (k + 1) := by
        rw [List.take_append, List.take_of_length_le (by omega),
          show name.length + 1 + k + 1 - name.length = k + 1 + 1 by omega, List.take_succ_cons]
      have hnone : table.find (name ++ ';' :: s.take (k + 1)) = none := by
        by_contra hne
        have hnil := table.ends _ _ hne
        rw [List.take_eq_nil_iff] at hnil
        rcases hnil with hnil | hnil
        · cases hnil
        · rw [hnil] at hk
          cases hk
      rw [← Nat.add_assoc, longestName, htake, hnone]
      exact ih (by omega)

/-- A reference by a name with its semicolon is resolved, whatever follows. -/
theorem unescapeFrom_name (name : List Char) {text : List Char}
    (h : table.find (name ++ [';']) = some text) (hname : name.head? ≠ some '#' ∧ name ≠ [])
    (s : List Char) :
    unescapeFrom table 0 ('&' :: (name ++ ';' :: s)) = text ++ unescapeFrom table 0 s := by
  have hlong := longestName_append table h s (le_refl s.length)
  have hlen : (name ++ ';' :: s).length = name.length + 1 + s.length := by
    rw [List.length_append, List.length_cons]
    omega
  have hresolves : resolves (name ++ ';' :: s) (name.length + 1) = true := by
    have htake : (name ++ ';' :: s).take (name.length + 1) = name ++ [';'] := by
      rw [List.take_append, List.take_of_length_le (by omega)]
      simp
    rw [resolves, htake, List.getLast?_append]
    rfl
  have href : reference table (name ++ ';' :: s) = some (text, name.length + 1) := by
    obtain ⟨c, rest, rfl⟩ := List.exists_cons_of_ne_nil hname.2
    have hc : c ≠ '#' := by simpa using hname.1
    have hdef : reference table (c :: rest ++ ';' :: s)
        = (longestName table (c :: rest ++ ';' :: s) (c :: rest ++ ';' :: s).length).filter
            fun r => resolves (c :: rest ++ ';' :: s) r.2 := by
      rw [List.cons_append]
      unfold reference
      split
      · rename_i heq
        exact absurd (List.cons.inj heq).1 hc
      · rename_i heq
        exact absurd (List.cons.inj heq).1 hc
      · rename_i heq
        exact absurd (List.cons.inj heq).1 hc
      · rfl
    rw [hdef, hlen, hlong, Option.filter_some, if_pos hresolves]
  have hskip : ∀ u v : List Char,
      unescapeFrom table u.length (u ++ v) = unescapeFrom table 0 v := by
    intro u v
    induction u with
    | nil => rfl
    | cons d u ih => exact ih
  rw [unescapeFrom, if_pos rfl, href]
  show text ++ unescapeFrom table (name.length + 1) (name ++ ';' :: s) = _
  have hsplit : name ++ ';' :: s = (name ++ [';']) ++ s := by simp
  have hcount : name.length + 1 = (name ++ [';']).length := by simp
  rw [hsplit, hcount, hskip]

theorem unescapeFrom_escapeChar (c : Char) (s : List Char) :
    unescapeFrom table 0 (escapeChar c ++ s) = c :: unescapeFrom table 0 s := by
  unfold escapeChar
  split_ifs with h₁ h₂ h₃ h₄ h₅
  · rw [h₁]
    exact unescapeFrom_name table "amp".toList table.amp (by decide) s
  · rw [h₂]
    exact unescapeFrom_name table "lt".toList table.lt (by decide) s
  · rw [h₃]
    exact unescapeFrom_name table "gt".toList table.gt (by decide) s
  · rw [h₄]
    exact unescapeFrom_name table "quot".toList table.quot (by decide) s
  · rw [h₅]
    rfl
  · rw [List.singleton_append, unescapeFrom, if_neg h₁]

/-- Text without an ampersand has no references. -/
theorem unescape_plain {s : List Char} (h : '&' ∉ s) : unescape table s = s := by
  unfold unescape
  induction s with
  | nil => rfl
  | cons c s ih =>
      simp only [List.mem_cons, not_or] at h
      rw [unescapeFrom, if_neg (Ne.symm h.1), ih h.2]

/-- **What was escaped comes back.** -/
theorem unescape_escapeChars (s : List Char) : unescape table (s.flatMap escapeChar) = s := by
  unfold unescape
  induction s with
  | nil => rfl
  | cons c s ih => rw [List.flatMap_cons, unescapeFrom_escapeChar, ih]

end

/-! ## Line breaks -/

/-- Nothing changes where there is no carriage return. -/
theorem normalizeNewlines_append {s : List Char} (h : '\r' ∉ s) (t : List Char) :
    normalizeNewlines (s ++ t) = s ++ normalizeNewlines t := by
  unfold normalizeNewlines
  induction s with
  | nil => rfl
  | cons c s ih =>
      simp only [List.mem_cons, not_or] at h
      rw [List.cons_append, normalizeFrom, if_neg (by simp), if_neg (Ne.symm h.1), ih h.2]
      rfl

theorem normalizeNewlines_plain {s : List Char} (h : '\r' ∉ s) : normalizeNewlines s = s := by
  have happend := normalizeNewlines_append h []
  rwa [List.append_nil, show normalizeNewlines [] = [] from rfl, List.append_nil] at happend

/-- The state of the normalisation only shows in front of a line feed. -/
theorem normalizeFrom_append_cons {c : Char} (hc : c ≠ '\n') (b : Bool) (s t : List Char) :
    normalizeFrom b (s ++ c :: t) = normalizeFrom b s ++ normalizeNewlines (c :: t) := by
  induction s generalizing b with
  | nil =>
      show normalizeFrom b (c :: t) = normalizeFrom false (c :: t)
      simp only [normalizeFrom, hc, false_and, if_false]
  | cons d s ih =>
      rw [List.cons_append, normalizeFrom, normalizeFrom]
      split_ifs
      · exact ih false
      · rw [ih true]
        rfl
      · rw [ih false]
        rfl

theorem normalizeNewlines_append_cons {c : Char} (hc : c ≠ '\n') (s t : List Char) :
    normalizeNewlines (s ++ c :: t) = normalizeNewlines s ++ normalizeNewlines (c :: t) :=
  normalizeFrom_append_cons hc false s t

theorem normalizeFrom_plain {u : List Char} (hu : ∀ d ∈ u, d ≠ '\n' ∧ d ≠ '\r') (hne : u ≠ [])
    (b : Bool) (t : List Char) : normalizeFrom b (u ++ t) = u ++ normalizeFrom false t := by
  induction u generalizing b with
  | nil => exact absurd rfl hne
  | cons d u ih =>
      rw [List.forall_mem_cons] at hu
      rw [List.cons_append, normalizeFrom, if_neg (fun h => hu.1.1 h.1), if_neg hu.1.2]
      cases u with
      | nil => rfl
      | cons e u =>
          rw [ih hu.2 (by simp)]
          rfl

/-- Line breaks are not escaped. -/
theorem normalizeFrom_escape (b : Bool) (s : List Char) :
    normalizeFrom b (s.flatMap escapeChar) = (normalizeFrom b s).flatMap escapeChar := by
  induction s generalizing b with
  | nil => rfl
  | cons c s ih =>
      rw [List.flatMap_cons]
      by_cases hn : c = '\n'
      · subst hn
        show normalizeFrom b ('\n' :: s.flatMap escapeChar) = _
        rw [normalizeFrom, normalizeFrom]
        split_ifs with hb hr
        · exact ih false
        · exact absurd hr (by decide)
        · rw [ih false]
          rfl
      · by_cases hr : c = '\r'
        · subst hr
          show normalizeFrom b ('\r' :: s.flatMap escapeChar) = _
          rw [normalizeFrom, normalizeFrom, if_neg (by simp), if_pos rfl, if_neg (by simp),
            if_pos rfl, ih true]
          rfl
        · -- neither the character nor what stands for it is a line break
          have hplain : ∀ r ∈ references, (∀ d ∈ r, d ≠ '\n' ∧ d ≠ '\r') ∧ r ≠ [] := by decide
          have hesc : (∀ d ∈ escapeChar c, d ≠ '\n' ∧ d ≠ '\r') ∧ escapeChar c ≠ [] := by
            rcases escapeChar_cases c with href | ⟨hself, _⟩
            · exact hplain _ href
            · rw [hself]
              simp [hn, hr]
          rw [normalizeFrom_plain hesc.1 hesc.2, ih false, normalizeFrom, if_neg (by simp [hn]),
            if_neg hr, List.flatMap_cons]

/-! ## The tokenizer on escaped text -/

theorem inputTags_append (ts us : List Token) :
    inputTags (ts ++ us) = inputTags ts ++ inputTags us := List.filterMap_append

theorem outline_append (ts us : List Token) : outline (ts ++ us) = outline ts ++ outline us :=
  List.filterMap_append

theorem inputTags_text (s : List Char) : inputTags (s.map .char) = [] := by
  induction s with
  | nil => rfl
  | cons c s ih => exact ih

theorem outline_text (s : List Char) : outline (s.map .char) = [] := by
  induction s with
  | nil => rfl
  | cons c s ih => exact ih

theorem run_append (st : State) (s t : List Char) :
    run st (s ++ t)
      = ((run (run st s).1 t).1, (run st s).2 ++ (run (run st s).1 t).2) := by
  induction s generalizing st with
  | nil => rfl
  | cons c s ih =>
      rw [List.cons_append, run, run, ih]
      simp only [List.append_assoc]

theorem run_trans {st st' st'' : State} {s t : List Char} {ts us : List Token}
    (hs : run st s = (st', ts)) (ht : run st' t = (st'', us)) :
    run st (s ++ t) = (st'', ts ++ us) := by
  rw [run_append, hs, ht]

theorem step_attrValue {c : Char} (h : c ≠ doubleQuote) (t : Tag) (name value : List Char) :
    step (.attrValueDouble t name value) c
      = (.attrValueDouble t name (value ++ [replaceNul c]), []) :=
  if_neg h

theorem step_text {c : Char} (h : c ≠ '<') : step .data c = (.data, [.char c]) := if_neg h

/-- Text without a quote stays in the value it is put into. -/
theorem run_attrValue {u : List Char} (h : doubleQuote ∉ u) (t : Tag) (name value : List Char) :
    run (.attrValueDouble t name value) u
      = (.attrValueDouble t name (value ++ u.map replaceNul), []) := by
  induction u generalizing value with
  | nil => rw [run, List.map_nil, List.append_nil]
  | cons c u ih =>
      simp only [List.mem_cons, not_or] at h
      rw [run, step_attrValue (Ne.symm h.1), ih h.2]
      simp

/-- Text without an angle bracket is characters and nothing else. -/
theorem run_text {u : List Char} (h : '<' ∉ u) : run .data u = (.data, u.map .char) := by
  induction u with
  | nil => rfl
  | cons c u ih =>
      simp only [List.mem_cons, not_or] at h
      rw [run, step_text (Ne.symm h.1), ih h.2]
      rfl

/-- What a text in an attribute is read as: its line breaks are line feeds, and it has no NUL. -/
def inputText (s : List Char) : List Char := (normalizeNewlines s).map replaceNul

theorem map_replaceNul {s : List Char} (h : Char.ofNat 0 ∉ s) : s.map replaceNul = s := by
  refine (List.map_congr_left fun c hc => if_neg fun h0 => h ?_).trans (List.map_id' s)
  rwa [← h0, Char.ofNat_toNat]

theorem inputText_plain {s : List Char} (hr : '\r' ∉ s) (h0 : Char.ofNat 0 ∉ s) :
    inputText s = s := by
  rw [inputText, normalizeNewlines_plain hr, map_replaceNul h0]

/-- Text on one line is sent as it stands. -/
theorem toCrlf_plain {s : String} (hr : '\r' ∉ s.toList) (hn : '\n' ∉ s.toList) :
    toCrlf s = s := by
  have hchars : s.toList.flatMap (fun c => if c = '\n' then ['\r', '\n'] else [c]) = s.toList := by
    refine (List.flatMap_congr fun c hc => if_neg ?_).trans (List.flatMap_singleton' s.toList)
    rintro rfl
    exact hn hc
  rw [toCrlf, normalizeNewlines_plain hr, hchars, String.ofList_toList]

theorem replaceNul_escape (s : List Char) :
    (s.flatMap escapeChar).map replaceNul = (s.map replaceNul).flatMap escapeChar := by
  have hchar : ∀ c, (escapeChar c).map replaceNul = escapeChar (replaceNul c) := by
    intro c
    by_cases hc : c.toNat = 0
    · have hnul : c = Char.ofNat 0 := by rw [← hc, Char.ofNat_toNat]
      subst hnul
      decide
    · have hplain : ∀ r ∈ references, r.map replaceNul = r := by decide
      rw [replaceNul, if_neg hc]
      rcases escapeChar_cases c with href | ⟨hself, _⟩
      · exact hplain _ href
      · rw [hself, List.map_singleton, replaceNul, if_neg hc]
  rw [List.map_flatMap, List.flatMap_map]
  exact List.flatMap_congr fun c _ => hchar c

/-! ## Pieces of a page -/

/-- Wherever the piece stands between two tags, it is read as these tokens and leaves the tokenizer
between tags. -/
def Reads (u : List Char) (ts : List Token) : Prop :=
  ∃ u', (∀ t, normalizeNewlines (u ++ t) = u' ++ normalizeNewlines t) ∧ run .data u' = (.data, ts)

theorem Reads.append {u v : List Char} {ts us : List Token} (hu : Reads u ts) (hv : Reads v us) :
    Reads (u ++ v) (ts ++ us) := by
  obtain ⟨u', hu, hrun⟩ := hu
  obtain ⟨v', hv, hrun'⟩ := hv
  refine ⟨u' ++ v', fun t => ?_, ?_⟩
  · rw [List.append_assoc, hu, hv, List.append_assoc]
  · exact run_trans hrun hrun'

theorem Reads.tokenize {s : String} {ts : List Token} (h : Reads s.toList ts) :
    tokenize s = ts := by
  obtain ⟨u', hnormal, hrun⟩ := h
  have hs := hnormal []
  rw [List.append_nil, show normalizeNewlines [] = [] from rfl, List.append_nil] at hs
  rw [Html.tokenize, hs, hrun]
  exact List.append_nil ts

/-- Fixed text is run as it stands. -/
theorem reads_of_run {u : List Char} (hplain : '\r' ∉ u) (h : (run .data u).1 = .data) :
    Reads u (run .data u).2 :=
  ⟨u, normalizeNewlines_append hplain, Prod.ext h rfl⟩

/-- Text that is put between two pieces is normalised with them. -/
theorem normalizeNewlines_between {u v : List Char} (hu : '\r' ∉ u) (hv : '\r' ∉ v)
    (hhead : v.head?.any (· != '\n') = true) (s t : List Char) :
    normalizeNewlines (u ++ (s ++ v) ++ t)
      = u ++ (normalizeNewlines s ++ v) ++ normalizeNewlines t := by
  cases v with
  | nil => cases hhead
  | cons c v =>
      have hc : c ≠ '\n' := by simpa using hhead
      rw [List.append_assoc, normalizeNewlines_append hu, List.append_assoc, List.cons_append,
        normalizeNewlines_append_cons hc, ← List.cons_append, normalizeNewlines_append hv]
      simp only [List.append_assoc]

/-- Text that is escaped and put between two pieces. -/
theorem normalizeNewlines_escaped {u v : List Char} (hu : '\r' ∉ u) (hv : '\r' ∉ v)
    (hhead : v.head?.any (· != '\n') = true) (s t : List Char) :
    normalizeNewlines (u ++ (s.flatMap escapeChar ++ v) ++ t)
      = u ++ ((normalizeNewlines s).flatMap escapeChar ++ v) ++ normalizeNewlines t := by
  rw [normalizeNewlines_between hu hv hhead, normalizeNewlines, normalizeFrom_escape,
    ← normalizeNewlines]

end Html

end Text
