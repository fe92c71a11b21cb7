import IseMcp.Python.Json

set_option autoImplicit false

/-! # What `json.dumps` writes, `json.loads` reads

A value that Python can hold (`Proper`) is read back from the text that is written of it, whatever
follows (`feed_dumps`), and that text is printable ASCII (`dumps_printable`).
-/

namespace Python

namespace Json

open Text

/-! ## Atoms -/

/-- The text of an atom: it is not empty, and it reads as the value. -/
structure AtomText (t : List Char) (v : PyVal) : Prop where
  ne_nil : t ≠ []
  chars : ∀ c ∈ t, isAtomChar c = true
  reads : readAtom t = some v

theorem atomText_none : AtomText "null".toList .none := ⟨by decide, by decide, by decide⟩

theorem atomText_bool (b : Bool) : AtomText (if b then "true" else "false").toList (.bool b) := by
  cases b <;> exact ⟨by decide, by decide, by decide⟩

theorem atomText_int (n : Int) : AtomText (toString n).toList (.int n) := by
  have hdigits (m : Nat) : ∀ c ∈ Nat.toDigits 10 m, isAtomChar c = true := fun c hc =>
    isAtomChar_of_isDigit (Nat.isDigit_of_mem_toDigits (by decide) (by decide) hc)
  refine ⟨?_, ?_, readAtom_int n⟩ <;>
    rcases toList_toString_int n with ⟨m, _, htext⟩ | ⟨m, _, htext⟩ <;> rw [htext]
  · exact Nat.toDigits_ne_nil
  · exact List.cons_ne_nil _ _
  · exact hdigits m
  · exact List.forall_mem_cons.mpr ⟨by decide, hdigits m⟩

theorem atomText_float {r : String} (h : IsFloatRepr r) :
    AtomText (floatText r).toList (.float r) := by
  refine ⟨?_, ?_, readAtom_float h⟩
  · intro hnil
    have := readAtom_float h
    rw [hnil] at this
    cases this
  · rcases h with hspecial | hliteral
    · have hall : ∀ s ∈ ["nan", "inf", "-inf"], ∀ c ∈ (floatText s).toList,
          isAtomChar c = true := by decide
      exact hall r hspecial
    · rw [floatText_literal hliteral]
      exact isFloatLiteral_chars hliteral

/-- What may follow a value. -/
def Boundary (rest : List Char) : Prop := ∀ c, rest.head? = some c → isAtomChar c = false

theorem emit_reading {v : PyVal} {fs : List Frame} {s : State} (h : emit v fs = some s) :
    s.reading = .after ∨ ∃ d, s.reading = .document d := by
  unfold emit at h
  split at h <;> cases h
  · exact Or.inr ⟨_, rfl⟩
  · exact Or.inl rfl
  · exact Or.inl rfl

/-- The end of an atom is noticed at the character behind it. -/
theorem feed_atom_end {t rest : List Char} {v : PyVal} (ht : readAtom t = some v)
    (hrest : Boundary rest) (fs : List Frame) :
    feed ⟨.atom t, fs⟩ rest = (emit v fs).bind fun s => feed s rest := by
  cases rest with
  | nil =>
      show (emitAtom t fs).bind _ = _
      rw [emitAtom, ht, Option.bind_some]
      cases hv : emit v fs with
      | none => rfl
      | some s =>
          obtain ⟨r, gs⟩ := s
          rcases emit_reading hv with hr | ⟨d, hr⟩ <;> cases hr <;> rfl
  | cons c rest =>
      rw [feed, step]
      dsimp only
      rw [if_neg (by simp [hrest c rfl]), emitAtom, ht, Option.bind_some]
      cases hv : emit v fs with
      | none => rfl
      | some s =>
          obtain ⟨r, gs⟩ := s
          rcases emit_reading hv with hr | ⟨d, hr⟩ <;> cases hr <;> rfl

theorem feed_atom_chars {t : List Char} (h : ∀ c ∈ t, isAtomChar c = true) (acc : List Char)
    (fs : List Frame) (rest : List Char) :
    feed ⟨.atom acc, fs⟩ (t ++ rest) = feed ⟨.atom (acc ++ t), fs⟩ rest := by
  induction t generalizing acc with
  | nil => rw [List.nil_append, List.append_nil]
  | cons c t ih =>
      rw [List.forall_mem_cons] at h
      rw [List.cons_append, feed, step]
      dsimp only
      rw [if_pos h.1, Option.bind_some, ih h.2, List.append_assoc, List.singleton_append]

/-- An atom is read as its value. -/
theorem feed_atom {t rest : List Char} {v : PyVal} (ht : AtomText t v) (hrest : Boundary rest)
    (fs : List Frame) :
    feed ⟨.value, fs⟩ (t ++ rest) = (emit v fs).bind fun s => feed s rest := by
  obtain ⟨hne, hchars, hread⟩ := ht
  cases t with
  | nil => exact absurd rfl hne
  | cons c t =>
      rw [List.forall_mem_cons] at hchars
      have hspecial : ∀ d ∈ [' ', '\t', '\n', '\r', doubleQuote, '[', '{'], c ≠ d := by
        have hall : ∀ d ∈ [' ', '\t', '\n', '\r', doubleQuote, '[', '{'], isAtomChar d = false := by
          decide
        rintro d hd rfl
        rw [hall _ hd] at hchars
        cases hchars.1
      have hblank : isBlank c = false := by simp [isBlank, hspecial]
      have hstart : step ⟨.value, fs⟩ c = some ⟨.atom [c], fs⟩ := by
        show stepOutside .value fs c = _
        rw [stepOutside, hblank, if_neg Bool.false_ne_true, startValue,
          if_neg (hspecial _ (by decide)), if_neg (hspecial _ (by decide)),
          if_neg (hspecial _ (by decide)), if_pos hchars.1]
      rw [List.cons_append, feed, hstart, Option.bind_some, feed_atom_chars hchars.2]
      exact feed_atom_end hread hrest fs

/-! ## Values -/

mutual

/-- A value that Python can hold: its floats are spelled as `repr` spells them, and its
dictionaries have each key once. -/
def Proper : PyVal → Prop
  | .float r => IsFloatRepr r
  | .list xs => ProperItems xs
  | .dict kvs => (kvs.map (·.1)).Nodup ∧ ProperEntries kvs
  | _ => True

def ProperItems : List PyVal → Prop
  | [] => True
  | x :: xs => Proper x ∧ ProperItems xs

def ProperEntries : List (String × PyVal) → Prop
  | [] => True
  | (_, x) :: kvs => Proper x ∧ ProperEntries kvs

end

/-- A value is due here, and no key. -/
def TakesValue : List Frame → Prop
  | .dict _ :: _ => False
  | _ => True

theorem emitString_of_takesValue {s : String} {fs : List Frame} (h : TakesValue fs) :
    emitString s fs = emit (.str s) fs := by
  unfold TakesValue at h
  split at h
  · exact h.elim
  · rename_i hne
    unfold emitString
    split
    · exact absurd rfl (hne _ _)
    · rfl

theorem boundary_cons {c : Char} (h : isAtomChar c = false) (rest : List Char) :
    Boundary (c :: rest) := by
  intro d hd
  cases hd
  exact h

theorem boundary_items (xs : List PyVal) (rest : List Char) :
    Boundary (dumpItems ", ".toList xs ++ ']' :: rest) := by
  cases xs with
  | nil => exact boundary_cons (by decide) _
  | cons x xs => exact boundary_cons (c := ',') (by decide) _

theorem boundary_entries (kvs : List (String × PyVal)) (rest : List Char) :
    Boundary (dumpEntries ", ".toList kvs ++ '}' :: rest) := by
  cases kvs with
  | nil => exact boundary_cons (by decide) _
  | cons kv kvs => exact boundary_cons (c := ',') (by decide) _

/-- What is written of a value starts with neither a blank nor a bracket that closes. -/
theorem dumps_head {v : PyVal} (h : Proper v) :
    ∃ c t, dumps v = c :: t ∧ isBlank c = false ∧ c ≠ ']' := by
  have hatom {t : List Char} {v : PyVal} (ht : AtomText t v) :
      ∃ c t', t = c :: t' ∧ isBlank c = false ∧ c ≠ ']' := by
    have hall : ∀ d ∈ [' ', '\t', '\n', '\r', ']'], isAtomChar d = false := by decide
    cases t with
    | nil => exact absurd rfl ht.ne_nil
    | cons c t =>
        have hne : ∀ d ∈ [' ', '\t', '\n', '\r', ']'], c ≠ d := by
          rintro d hd rfl
          have := ht.chars _ List.mem_cons_self
          rw [hall _ hd] at this
          cases this
        exact ⟨c, t, rfl, by simp [isBlank, hne], hne _ (by decide)⟩
  cases v with
  | none => exact hatom atomText_none
  | bool b => exact hatom (atomText_bool b)
  | int n => exact hatom (atomText_int n)
  | float r => exact hatom (atomText_float h)
  | str s => exact ⟨doubleQuote, _, rfl, by decide, by decide⟩
  | list xs => exact ⟨'[', _, rfl, by decide, by decide⟩
  | dict kvs => exact ⟨'{', _, rfl, by decide, by decide⟩

/-- The first item of a list is read like any value. -/
theorem feed_item {v : PyVal} (h : Proper v) (fs : List Frame) (rest : List Char) :
    feed ⟨.item, fs⟩ (dumps v ++ rest) = feed ⟨.value, fs⟩ (dumps v ++ rest) := by
  obtain ⟨c, t, htext, hblank, hclose⟩ := dumps_head h
  have hstep : stepOutside .item fs c = stepOutside .value fs c := by
    rw [stepOutside, stepOutside, hblank, if_neg Bool.false_ne_true, if_neg Bool.false_ne_true]
    exact if_neg hclose
  show feed _ (dumps v ++ rest) = feed _ (dumps v ++ rest)
  rw [htext]
  exact congrArg (Option.bind · fun s => feed s (t ++ rest)) hstep

/-- A new key is put at the end. -/
theorem setItem_new {kvs : List (String × PyVal)} {k : String} (h : k ∉ kvs.map (·.1))
    (v : PyVal) : PyVal.setItem kvs k v = kvs ++ [(k, v)] := by
  have hnone : PyVal.lookup kvs k = none := by
    rw [PyVal.lookup, List.lookup_eq_none_iff]
    intro p hp
    rw [bne_iff_ne]
    rintro rfl
    exact h (List.mem_map_of_mem hp)
  rw [PyVal.setItem, hnone]
  rfl

/-- A key and the colon behind it. -/
theorem feed_key {r : Reading} (hr : r = .key ∨ r = .firstKey) (items : List (String × PyVal))
    (k : String) (fs : List Frame) (rest : List Char) :
    feed ⟨r, .dict items :: fs⟩ (quoted k ++ (": ".toList ++ rest))
      = feed ⟨.value, .entry items k :: fs⟩ rest := by
  have hopen : feed ⟨r, .dict items :: fs⟩ (quoted k ++ (": ".toList ++ rest))
      = feed ⟨.string [] .plain, .dict items :: fs⟩ ((utf16Encode k.toList).flatMap escapeUnit
          ++ doubleQuote :: (": ".toList ++ rest)) := by
    rw [quoted, List.cons_append, List.append_assoc]
    rcases hr with rfl | rfl <;> rfl
  rw [hopen, feed_quoted]
  rfl

mutual

/-- **A written value is read back**, whatever follows it. -/
theorem feed_dumps : (v : PyVal) → Proper v → (fs : List Frame) → TakesValue fs →
    (rest : List Char) → Boundary rest →
    feed ⟨.value, fs⟩ (dumps v ++ rest) = (emit v fs).bind fun s => feed s rest
  | .none, _, fs, _, _, hrest => feed_atom atomText_none hrest fs
  | .bool b, _, fs, _, _, hrest => feed_atom (atomText_bool b) hrest fs
  | .int n, _, fs, _, _, hrest => feed_atom (atomText_int n) hrest fs
  | .float _, h, fs, _, _, hrest => feed_atom (atomText_float h) hrest fs
  | .str s, _, fs, htakes, rest, _ => by
      have hquoted := feed_quoted s fs rest
      rw [emitString_of_takesValue htakes] at hquoted
      rw [← hquoted, dumps, quoted, List.cons_append, List.append_assoc]
      rfl
  | .list [], _, fs, _, rest, _ => rfl
  | .list (x :: xs), h, fs, _, rest, _ => by
      show feed ⟨.item, .list [] :: fs⟩ ((dumps x ++ dumpItems ", ".toList xs ++ [']']) ++ rest) = _
      rw [List.append_assoc, List.append_assoc, feed_item h.1, List.singleton_append,
        feed_dumps x h.1 (.list [] :: fs) trivial _ (boundary_items xs rest)]
      exact feed_items xs h.2 [x] fs rest
  | .dict [], _, fs, _, rest, _ => rfl
  | .dict ((k, x) :: kvs), h, fs, _, rest, _ => by
      show feed ⟨.firstKey, .dict [] :: fs⟩ ((quoted k ++ (": ".toList ++ (dumps x
        ++ dumpEntries ", ".toList kvs)) ++ ['}']) ++ rest) = _
      rw [List.append_assoc, List.append_assoc, List.append_assoc, feed_key (Or.inr rfl),
        List.append_assoc, List.singleton_append,
        feed_dumps x h.2.1 (.entry [] k :: fs) trivial _ (boundary_entries kvs rest)]
      exact feed_entries kvs h.2.2 [(k, x)] h.1 fs rest

/-- The rest of a list. -/
theorem feed_items : (xs : List PyVal) → ProperItems xs → (items : List PyVal) →
    (fs : List Frame) → (rest : List Char) →
    feed ⟨.after, .list items :: fs⟩ (dumpItems ", ".toList xs ++ ']' :: rest)
      = (emit (.list (items ++ xs)) fs).bind fun s => feed s rest
  | [], _, items, fs, rest => by
      rw [List.append_nil]
      rfl
  | x :: xs, h, items, fs, rest => by
      show feed ⟨.value, .list items :: fs⟩
        ((dumps x ++ dumpItems ", ".toList xs) ++ ']' :: rest) = _
      rw [List.append_assoc,
        feed_dumps x h.1 (.list items :: fs) trivial _ (boundary_items xs rest)]
      have hrest := feed_items xs h.2 (items ++ [x]) fs rest
      rw [List.append_assoc] at hrest
      exact hrest

/-- The rest of a dictionary. -/
theorem feed_entries : (kvs : List (String × PyVal)) → ProperEntries kvs →
    (items : List (String × PyVal)) → ((items ++ kvs).map (·.1)).Nodup → (fs : List Frame) →
    (rest : List Char) →
    feed ⟨.after, .dict items :: fs⟩ (dumpEntries ", ".toList kvs ++ '}' :: rest)
      = (emit (.dict (items ++ kvs)) fs).bind fun s => feed s rest
  | [], _, items, _, fs, rest => by
      rw [List.append_nil]
      rfl
  | (k, x) :: kvs, h, items, hkeys, fs, rest => by
      have hnew : k ∉ items.map (·.1) := by
        rw [List.map_append, List.map_cons, List.nodup_append] at hkeys
        exact fun hk => hkeys.2.2 k hk k List.mem_cons_self rfl
      have hrest := feed_entries kvs h.2 (items ++ [(k, x)]) (by rwa [List.append_assoc]) fs rest
      rw [List.append_assoc, List.singleton_append] at hrest
      show feed ⟨.key, .dict items :: fs⟩ ((quoted k ++ (": ".toList ++ (dumps x
        ++ dumpEntries ", ".toList kvs))) ++ '}' :: rest) = _
      rw [List.append_assoc, List.append_assoc, feed_key (Or.inl rfl), List.append_assoc,
        feed_dumps x h.1 (.entry items k :: fs) trivial _ (boundary_entries kvs rest), ← hrest,
        ← setItem_new hnew]
      rfl

end

/-- **`loads` undoes `dumps`.** -/
theorem loads_dumps {v : PyVal} (h : Proper v) : loads (dumps v) = some v := by
  have hfeed := feed_dumps v h [] trivial [] (fun _ hc => by cases hc)
  rw [List.append_nil] at hfeed
  exact hfeed

/-! ## The characters of a text -/

/-- A printable ASCII character. -/
def IsPrintable (c : Char) : Prop := 0x20 ≤ c.toNat ∧ c.toNat ≤ 0x7E

instance (c : Char) : Decidable (IsPrintable c) := inferInstanceAs (Decidable (_ ∧ _))

theorem isPrintable_of_isAtomChar {c : Char} (h : isAtomChar c = true) : IsPrintable c := by
  have hranges : isAtomChar c = ((((decide (65 ≤ c.toNat ∧ c.toNat ≤ 90) ||
      (decide (97 ≤ c.toNat) && decide (c.toNat ≤ 122))) ||
      (decide (48 ≤ c.toNat) && decide (c.toNat ≤ 57))) || c == '+' || c == '-' || c == '.')) := rfl
  rw [hranges] at h
  simp only [Bool.or_eq_true, Bool.and_eq_true, decide_eq_true_eq, beq_iff_eq] at h
  rcases h with ((h | rfl) | rfl) | rfl
  · rw [IsPrintable]
    omega
  · decide
  · decide
  · decide

theorem hexDigits_printable (width n : Nat) : ∀ c ∈ hexDigits width n, IsPrintable c := by
  induction width generalizing n with
  | zero => exact fun c hc => absurd hc List.not_mem_nil
  | succ width ih =>
      have hdigit : ∀ m < 16, IsPrintable (Nat.digitChar m) := by decide
      intro c hc
      rcases List.mem_append.mp hc with hc | hc
      · exact ih _ c hc
      · rw [List.mem_singleton.mp hc]
        exact hdigit _ (Nat.mod_lt _ (by decide))

theorem escapeUnit_printable (u : Nat) : ∀ c ∈ escapeUnit u, IsPrintable c := by
  have hslash : IsPrintable backslash := by decide
  unfold escapeUnit
  cases hshort : shortEscapes.lookup u with
  | some c =>
      obtain ⟨l₁, l₂, hmem, _⟩ := List.lookup_eq_some_iff.mp hshort
      have hall : ∀ p ∈ shortEscapes, IsPrintable p.2 := by decide
      have hc := hall (u, c) (by rw [hmem]; simp)
      exact List.forall_mem_cons.mpr ⟨hslash, List.forall_mem_cons.mpr ⟨hc, by simp⟩⟩
  | none =>
      dsimp only
      split_ifs with hprint
      · have hvalid : u.isValidChar := Or.inl (by omega)
        have hval : (Char.ofNat u).toNat = u := by
          rw [Char.ofNat, dif_pos hvalid]
          rfl
        intro c hc
        rw [List.mem_singleton.mp hc, IsPrintable, hval]
        exact hprint
      · exact List.forall_mem_cons.mpr ⟨hslash,
          List.forall_mem_cons.mpr ⟨by decide, hexDigits_printable 4 u⟩⟩

theorem quoted_printable (s : String) : ∀ c ∈ quoted s, IsPrintable c := by
  have hquote : IsPrintable doubleQuote := by decide
  rw [quoted, List.forall_mem_cons, List.forall_mem_append]
  refine ⟨hquote, fun c hc => ?_, by simpa using hquote⟩
  obtain ⟨u, _, hu⟩ := List.mem_flatMap.mp hc
  exact escapeUnit_printable u c hu

theorem AtomText.printable {t : List Char} {v : PyVal} (h : AtomText t v) :
    ∀ c ∈ t, IsPrintable c :=
  fun c hc => isPrintable_of_isAtomChar (h.chars c hc)

mutual

/-- **A text is printable ASCII**, so it has no line break. -/
theorem dumps_printable : (v : PyVal) → Proper v → ∀ c ∈ dumps v, IsPrintable c
  | .none, _ => atomText_none.printable
  | .bool b, _ => (atomText_bool b).printable
  | .int n, _ => (atomText_int n).printable
  | .float _, h => (atomText_float h).printable
  | .str s, _ => quoted_printable s
  | .list xs, h => by
      rw [dumps, List.forall_mem_cons, List.forall_mem_append, List.forall_mem_singleton]
      exact ⟨by decide, dumpItems_printable xs h [] (by simp), by decide⟩
  | .dict kvs, h => by
      rw [dumps, List.forall_mem_cons, List.forall_mem_append, List.forall_mem_singleton]
      exact ⟨by decide, dumpEntries_printable kvs h.2 [] (by simp), by decide⟩

theorem dumpItems_printable : (xs : List PyVal) → ProperItems xs → (sep : List Char) →
    (∀ c ∈ sep, IsPrintable c) → ∀ c ∈ dumpItems sep xs, IsPrintable c
  | [], _, _, _ => by simp [dumpItems]
  | x :: xs, h, sep, hsep => by
      rw [dumpItems, List.forall_mem_append, List.forall_mem_append]
      exact ⟨hsep, dumps_printable x h.1, dumpItems_printable xs h.2 _ (by decide)⟩

theorem dumpEntries_printable : (kvs : List (String × PyVal)) → ProperEntries kvs →
    (sep : List Char) → (∀ c ∈ sep, IsPrintable c) → ∀ c ∈ dumpEntries sep kvs, IsPrintable c
  | [], _, _, _ => by simp [dumpEntries]
  | (k, x) :: kvs, h, sep, hsep => by
      rw [dumpEntries, List.forall_mem_append, List.forall_mem_append, List.forall_mem_append,
        List.forall_mem_append]
      exact ⟨hsep, quoted_printable k, by decide, dumps_printable x h.1,
        dumpEntries_printable kvs h.2 _ (by decide)⟩

end

end Json

end Python
