import IseMcp.Validation

set_option autoImplicit false

/-! # The normal form of a MAC address

`normalize_mac` uses two patterns, one with a back reference to an optional separator, and slices
the text between them. `normalizeMac_grammar` states what comes out of this: the argument, stripped,
is a MAC address (twelve hex digits) in one of three spellings, and the result is its canonical
spelling. -/

namespace IseMcp

open Python Text Text.Regex

/-! ## Pairs of characters -/

/-- `v[2i : 2i+2]` for the first `n` values of `i`. -/
def pairs (n : Nat) (v : List Char) : List (List Char) :=
  (List.range n).map fun i => (v.drop (2 * i)).take 2

theorem pairs_cons_cons (n : Nat) (a b : Char) (v : List Char) :
    pairs (n + 1) (a :: b :: v) = [a, b] :: pairs n v := by
  rw [pairs, List.range_succ_eq_map, List.map_cons, List.map_map]
  refine congrArg _ (List.map_congr_left fun i _ => ?_)
  show ((a :: b :: v).drop (2 * (i + 1))).take 2 = _
  rw [show 2 * (i + 1) = 2 * i + 2 by omega, List.drop_succ_cons, List.drop_succ_cons]

/-- A text of even length is cut into pairs without loss. -/
theorem flatten_pairs {n : Nat} {v : List Char} (h : v.length = 2 * n) :
    (pairs n v).flatten = v := by
  induction n generalizing v with
  | zero =>
      rw [List.length_eq_zero_iff.mp h]
      rfl
  | succ n ih =>
      match v, h with
      | a :: b :: v, h =>
          have hv : v.length = 2 * n := by simpa [Nat.mul_succ] using h
          rw [pairs_cons_cons, List.flatten_cons, ih hv]
          rfl

theorem length_pairs (n : Nat) (v : List Char) : (pairs n v).length = n := by
  simp [pairs]

/-- Pairs that are joined and cut again are the pairs they were. -/
theorem pairs_flatten {ps : List (List Char)} (h : ∀ p ∈ ps, p.length = 2) :
    pairs ps.length ps.flatten = ps := by
  induction ps with
  | nil => rfl
  | cons p ps ih =>
      rw [List.forall_mem_cons] at h
      obtain ⟨a, b, rfl⟩ := List.length_eq_two.mp h.1
      show pairs (ps.length + 1) (a :: b :: ps.flatten) = _
      rw [pairs_cons_cons, ih h.2]

theorem length_of_mem_pairs {n : Nat} {v : List Char} (h : v.length = 2 * n) :
    ∀ p ∈ pairs n v, p.length = 2 := by
  intro p hp
  obtain ⟨i, hi, rfl⟩ := List.mem_map.mp hp
  rw [List.mem_range] at hi
  rw [List.length_take, List.length_drop]
  omega

theorem mem_of_mem_pairs {n : Nat} {v p : List Char} (hp : p ∈ pairs n v) : ∀ c ∈ p, c ∈ v := by
  obtain ⟨i, _, rfl⟩ := List.mem_map.mp hp
  exact fun c hc => List.mem_of_mem_drop (List.mem_of_mem_take hc)

theorem map_pairs (f : Char → Char) (n : Nat) (v : List Char) :
    (pairs n v).map (List.map f) = pairs n (v.map f) := by
  simp [pairs, List.map_take, List.map_drop]

/-! ## Joining -/

theorem map_intercalate (f : Char → Char) (t : List Char) (ps : List (List Char)) :
    (t.intercalate ps).map f = (t.map f).intercalate (ps.map (List.map f)) := by
  rcases List.eq_nil_or_concat ps with rfl | ⟨ps, q, rfl⟩
  · rfl
  · rw [List.concat_eq_append, intercalate_snoc, List.map_append, List.map_append,
      List.map_singleton, intercalate_snoc, List.map_flatten]
    simp [Function.comp_def]

/-! ## Addresses and their spellings -/

/-- Twelve hex digits. -/
structure MacAddress where
  digits : List Char
  length_digits : digits.length = 12
  hex : ∀ c ∈ digits, isHex c = true

/-- What may stand between the pairs. -/
inductive Separator where
  | none
  | colon
  | hyphen

def Separator.text : Separator → List Char
  | .none => []
  | .colon => [':']
  | .hyphen => ['-']

namespace MacAddress

/-- The six pairs of digits with the same separator between any two of them. -/
def spell (m : MacAddress) (sep : Separator) : List Char := sep.text.intercalate (pairs 6 m.digits)

/-- The digits in order, upper-cased, as six pairs joined by colons. -/
def canonical (m : MacAddress) : String :=
  .ofList ([':'].intercalate (pairs 6 (m.digits.map Char.toUpper)))

/-- The same address with its letters upper-cased. -/
def upper (m : MacAddress) : MacAddress where
  digits := m.digits.map Char.toUpper
  length_digits := by rw [List.length_map, m.length_digits]
  hex := by
    intro c hc
    obtain ⟨d, hd, rfl⟩ := List.mem_map.mp hc
    exact isHex_toUpper (m.hex d hd)

theorem canonical_eq (m : MacAddress) : m.canonical = .ofList (m.upper.spell .colon) := rfl

/-- Without a separator the spelling is the digits. -/
theorem spell_none (m : MacAddress) : m.spell .none = m.digits := by
  have hflat : ∀ ps : List (List Char), ([] : List Char).intercalate ps = ps.flatten := by
    intro ps
    rcases List.eq_nil_or_concat ps with rfl | ⟨ps, q, rfl⟩
    · rfl
    · simp [List.concat_eq_append, intercalate_snoc]
  rw [spell, Separator.text, hflat, flatten_pairs m.length_digits]

theorem joinPairs_digits (m : MacAddress) : joinPairs m.digits = m.spell .colon := rfl

/-- No separator is a hex digit, so the digits of a spelling are its hex digits. -/
theorem filter_spell (m : MacAddress) (sep : Separator) :
    (m.spell sep).filter isHex = m.digits := by
  have hsep : sep.text.filter isHex = [] := by cases sep <;> rfl
  have hfilter : ∀ ps : List (List Char), (∀ p ∈ ps, ∀ c ∈ p, isHex c = true) →
      (sep.text.intercalate ps).filter isHex = ps.flatten := by
    intro ps hps
    rcases List.eq_nil_or_concat ps with rfl | ⟨ps, q, rfl⟩
    · rfl
    · rw [List.concat_eq_append] at hps ⊢
      have hq : q.filter isHex = q := List.filter_eq_self.mpr (hps q (by simp))
      have hall : ∀ p ∈ ps, (p ++ sep.text).filter isHex = p := by
        intro p hp
        rw [List.filter_append, hsep, List.append_nil, List.filter_eq_self]
        exact hps p (by simp [hp])
      have hmap : (ps.map (· ++ sep.text)).map (List.filter isHex) = ps := by
        rw [List.map_map]
        exact (List.map_congr_left hall).trans (List.map_id' ps)
      rw [intercalate_snoc, List.filter_append, hq, List.filter_flatten, hmap]
      simp
  have hpairs : ∀ p ∈ pairs 6 m.digits, ∀ c ∈ p, isHex c = true := by
    intro p hp c hc
    exact m.hex c (mem_of_mem_pairs hp c hc)
  calc (m.spell sep).filter isHex
      = (pairs 6 m.digits).flatten := hfilter _ hpairs
    _ = m.digits := flatten_pairs m.length_digits

/-- A text spells at most one address. -/
theorem eq_of_spell_eq {m m' : MacAddress} {sep sep' : Separator}
    (h : m.spell sep = m'.spell sep') : m = m' := by
  have hdigits : m.digits = m'.digits :=
    calc m.digits
        = (m.spell sep).filter isHex := (m.filter_spell sep).symm
      _ = (m'.spell sep').filter isHex := by rw [h]
      _ = m'.digits := m'.filter_spell sep'
  cases m
  cases m'
  simpa using hdigits

end MacAddress

/-! ## What the patterns match -/

/-- Two hex digits. -/
def IsPair (p : List Char) : Prop := p.length = 2 ∧ ∀ c ∈ p, isHex c = true

theorem mem_hexPair {p : List Char} : p ∈ hexPair.lang ↔ IsPair p := mem_exactly_cls

section

variable {sep : Regex} {t : List Char}

/-- With its separator fixed, the pattern matches six pairs joined by it. -/
theorem mem_macWith (hsep : sep.lang = {t}) {s : List Char} :
    s ∈ (macWith sep).lang ↔
      ∃ ps : List (List Char), ps.length = 6 ∧ (∀ p ∈ ps, IsPair p) ∧ s = t.intercalate ps := by
  constructor
  · intro h
    obtain ⟨p, _, hp, h₁, rfl⟩ := mem_lang_seq.mp h
    obtain ⟨t', _, ht, h₂, rfl⟩ := mem_lang_seq.mp h₁
    obtain ⟨ps, hlen, hps, rfl⟩ := (mem_joined hsep).mp h₂
    rw [hsep] at ht
    obtain rfl : t' = t := ht
    refine ⟨p :: ps, by rw [List.length_cons, hlen], ?_, ?_⟩
    · exact List.forall_mem_cons.mpr ⟨mem_hexPair.mp hp, fun q hq => mem_hexPair.mp (hps q hq)⟩
    · rw [List.intercalate_cons_of_ne_nil (List.ne_nil_of_length_eq_add_one hlen),
        List.append_assoc]
  · rintro ⟨ps, hlen, hps, rfl⟩
    -- the first pair stands outside the group
    cases ps with
    | nil => cases hlen
    | cons p ps =>
        rw [List.forall_mem_cons] at hps
        have hlen : ps.length = 5 := by simpa using hlen
        rw [List.intercalate_cons_of_ne_nil (List.ne_nil_of_length_eq_add_one hlen),
          List.append_assoc]
        refine mem_lang_seq.mpr ⟨p, _, mem_hexPair.mpr hps.1, ?_, rfl⟩
        refine mem_lang_seq.mpr ⟨t, _, ?_, (mem_joined hsep).mpr ⟨ps, hlen, ?_, rfl⟩, rfl⟩
        · rw [hsep]
          rfl
        · exact fun q hq => mem_hexPair.mpr (hps.2 q hq)

/-- So it matches the addresses, spelled with this separator. -/
theorem mem_macWith_iff (hsep : sep.lang = {t}) {s : List Char} :
    s ∈ (macWith sep).lang ↔ ∃ m : MacAddress, s = t.intercalate (pairs 6 m.digits) := by
  rw [mem_macWith hsep]
  constructor
  · rintro ⟨ps, hlen, hps, rfl⟩
    have hpairs : pairs 6 ps.flatten = ps := by
      rw [← hlen]
      exact pairs_flatten fun p hp => (hps p hp).1
    have hlength : ps.flatten.length = 12 := by
      have hall : ∀ p ∈ ps, p.length = 2 := fun p hp => (hps p hp).1
      rw [List.length_flatten, List.map_congr_left hall]
      simp [hlen]
    refine ⟨⟨ps.flatten, hlength, ?_⟩, by rw [hpairs]⟩
    intro c hc
    obtain ⟨p, hp, hcp⟩ := List.mem_flatten.mp hc
    exact (hps p hp).2 c hcp
  · rintro ⟨m, rfl⟩
    exact ⟨pairs 6 m.digits, length_pairs _ _, fun p hp =>
      ⟨length_of_mem_pairs m.length_digits p hp,
        fun c hc => m.hex c (mem_of_mem_pairs hp c hc)⟩, rfl⟩

end

/-- `_MAC_RE` matches the spellings of addresses. -/
theorem mem_macRe {s : List Char} :
    s ∈ macRe.lang ↔ ∃ (m : MacAddress) (sep : Separator), s = m.spell sep := by
  rw [macRe, mem_lang_alt, mem_lang_alt, mem_macWith_iff (lang_chr ':'),
    mem_macWith_iff (lang_chr '-'), mem_macWith_iff (t := []) rfl]
  constructor
  · rintro (⟨m, rfl⟩ | ⟨m, rfl⟩ | ⟨m, rfl⟩)
    · exact ⟨m, .colon, rfl⟩
    · exact ⟨m, .hyphen, rfl⟩
    · exact ⟨m, .none, rfl⟩
  · rintro ⟨m, sep, rfl⟩
    cases sep with
    | none => exact Or.inr (Or.inr ⟨m, rfl⟩)
    | colon => exact Or.inl ⟨m, rfl⟩
    | hyphen => exact Or.inr (Or.inl ⟨m, rfl⟩)

/-- `_MAC_PLAIN_RE` matches the digits of addresses. -/
theorem mem_macPlainRe {s : List Char} :
    s ∈ macPlainRe.lang ↔ ∃ m : MacAddress, s = m.digits := by
  rw [macPlainRe, mem_exactly_cls]
  constructor
  · rintro ⟨hlen, hhex⟩
    exact ⟨⟨s, hlen, hhex⟩, rfl⟩
  · rintro ⟨m, rfl⟩
    exact ⟨m.length_digits, m.hex⟩

/-! ## The normal form -/

/-- What `normalizeMac` reads its argument as. -/
def Spells (value : String) (m : MacAddress) : Prop :=
  ∃ sep, (strip value).toList = m.spell sep

theorem Spells.unique {value : String} {m m' : MacAddress} (h : Spells value m)
    (h' : Spells value m') : m = m' := by
  obtain ⟨sep, hsep⟩ := h
  obtain ⟨sep', hsep'⟩ := h'
  exact MacAddress.eq_of_spell_eq (hsep.symm.trans hsep')

/-- Plain digits get colons; any other text is matched as it is. -/
theorem macCandidate_cases (value : String) :
    (∃ m : MacAddress, (strip value).toList = m.digits ∧ macCandidate value = m.spell .colon) ∨
      (∀ m : MacAddress, (strip value).toList ≠ m.digits) ∧
        macCandidate value = (strip value).toList := by
  unfold macCandidate
  simp only
  rw [← toList_strip]
  by_cases h : macPlainRe.matchDollar (strip value).toList = true
  · obtain ⟨m, hm⟩ := mem_macPlainRe.mp ((matchDollar_iff (strip_ne_newline value)).mp h)
    rw [if_pos h, hm, MacAddress.joinPairs_digits]
    exact Or.inl ⟨m, rfl, rfl⟩
  · rw [if_neg h]
    refine Or.inr ⟨fun m hm => h ?_, rfl⟩
    exact (matchDollar_iff (strip_ne_newline value)).mpr (mem_macPlainRe.mpr ⟨m, hm⟩)

/-- The text that is matched spells the address of the argument, with a separator. -/
theorem macCandidate_of_spells {value : String} {m : MacAddress} (h : Spells value m) :
    ∃ sep, sep ≠ .none ∧ macCandidate value = m.spell sep := by
  obtain ⟨sep, hsep⟩ := h
  rcases macCandidate_cases value with ⟨m', hm', hcand⟩ | ⟨hplain, hcand⟩
  · have hspell : m.spell sep = m'.spell .none := by rw [m'.spell_none, ← hsep, hm']
    rw [MacAddress.eq_of_spell_eq hspell]
    exact ⟨.colon, by simp, hcand⟩
  · refine ⟨sep, ?_, hcand.trans hsep⟩
    rintro rfl
    rw [m.spell_none] at hsep
    exact hplain m hsep

theorem spells_of_macCandidate {value : String} (h : macCandidate value ∈ macRe.lang) :
    ∃ m, Spells value m := by
  rcases macCandidate_cases value with ⟨m, hm, _⟩ | ⟨_, hcand⟩
  · exact ⟨m, .none, by rw [hm, m.spell_none]⟩
  · rw [hcand] at h
    obtain ⟨m, sep, hsep⟩ := mem_macRe.mp h
    exact ⟨m, sep, hsep⟩

/-- Once there is a separator, `replace` and `upper` give the canonical spelling. -/
theorem canonMac_spell (m : MacAddress) {sep : Separator} (h : sep ≠ .none) :
    String.ofList (canonMac (m.spell sep)) = m.canonical := by
  have hdigits : m.digits.map (fun c => if c = '-' then ':' else c.toUpper)
      = m.digits.map Char.toUpper := by
    refine List.map_congr_left fun c hc => if_neg ?_
    rintro rfl
    exact absurd (m.hex _ hc) (by decide)
  have hsep : sep.text.map (fun c => if c = '-' then ':' else c.toUpper) = [':'] := by
    cases sep with
    | none => exact absurd rfl h
    | colon => decide
    | hyphen => decide
  rw [canonMac, MacAddress.spell, map_intercalate, map_pairs, hsep, hdigits, MacAddress.canonical]

/-- `normalizeMac` returns exactly on the spellings of an address, and then its canonical
spelling. -/
theorem normalizeMac_eq_ok_iff {value v : String} :
    normalizeMac value = .ok v ↔ ∃ m, Spells value m ∧ v = m.canonical := by
  rw [normalizeMac_ok_iff]
  constructor
  · rintro ⟨rfl, hlang⟩
    obtain ⟨m, hm⟩ := spells_of_macCandidate hlang
    obtain ⟨sep, hsep, hcand⟩ := macCandidate_of_spells hm
    exact ⟨m, hm, by rw [hcand, canonMac_spell m hsep]⟩
  · rintro ⟨m, hm, rfl⟩
    obtain ⟨sep, hsep, hcand⟩ := macCandidate_of_spells hm
    exact ⟨by rw [hcand, canonMac_spell m hsep], mem_macRe.mpr ⟨m, sep, hcand⟩⟩

/-- Hex digits and colons are no white space, so a canonical spelling is read as it stands. -/
theorem spells_canonical (m : MacAddress) : Spells m.canonical m.upper := by
  refine ⟨.colon, ?_⟩
  rw [toList_strip, m.canonical_eq, String.toList_ofList]
  refine stripChars_of_forall fun c hc => ?_
  have hc' : isHex c = true ∨ c = ':' := by
    rw [← MacAddress.joinPairs_digits] at hc
    exact (mem_joinPairs hc).imp_left (m.upper.hex c)
  rcases hc' with hhex | rfl
  · have hall : ∀ d ∈ "0123456789ABCDEFabcdef".toList, isSpace d = false := by decide
    exact hall c (isHex_iff.mp hhex)
  · decide

theorem upper_upper (m : MacAddress) : m.upper.upper = m.upper := by
  have hidem : ∀ d ∈ "0123456789ABCDEFabcdef".toList, d.toUpper.toUpper = d.toUpper := by decide
  have hmap : (m.digits.map Char.toUpper).map Char.toUpper = m.digits.map Char.toUpper := by
    rw [List.map_map]
    exact List.map_congr_left fun c hc => hidem c (isHex_iff.mp (m.hex c hc))
  rw [MacAddress.upper]
  simp only [MacAddress.upper, hmap]

/-- Two hex digits with the same capital are the same digit but for their case. -/
theorem toUpper_eq_iff {c d : Char} (hc : isHex c = true) (hd : isHex d = true) :
    c.toUpper = d.toUpper ↔ c.toLower = d.toLower := by
  have hall : ∀ c ∈ "0123456789ABCDEFabcdef".toList, ∀ d ∈ "0123456789ABCDEFabcdef".toList,
      c.toUpper = d.toUpper ↔ c.toLower = d.toLower := by decide
  exact hall c (isHex_iff.mp hc) d (isHex_iff.mp hd)

theorem map_toUpper_eq_iff (m m' : MacAddress) :
    m.digits.map Char.toUpper = m'.digits.map Char.toUpper ↔
      m.digits.map Char.toLower = m'.digits.map Char.toLower := by
  have hlist : ∀ cs ds : List Char, (∀ c ∈ cs, isHex c = true) → (∀ d ∈ ds, isHex d = true) →
      (cs.map Char.toUpper = ds.map Char.toUpper ↔ cs.map Char.toLower = ds.map Char.toLower) := by
    intro cs
    induction cs with
    | nil =>
        intro ds _ _
        simp [eq_comm]
    | cons c cs ih =>
        intro ds hcs hds
        cases ds with
        | nil => simp
        | cons d ds =>
            rw [List.forall_mem_cons] at hcs hds
            simp only [List.map_cons, List.cons.injEq]
            rw [toUpper_eq_iff hcs.1 hds.1, ih ds hcs.2 hds.2]
  exact hlist _ _ m.hex m'.hex

/-- Canonical spellings are equal exactly when the digits are, ignoring case. -/
theorem canonical_eq_iff (m m' : MacAddress) :
    m.canonical = m'.canonical ↔ m.digits.map Char.toLower = m'.digits.map Char.toLower := by
  rw [← map_toUpper_eq_iff]
  constructor
  · intro h
    have hspell : m.upper.spell .colon = m'.upper.spell .colon := by
      rw [m.canonical_eq, m'.canonical_eq] at h
      exact String.ofList_injective h
    exact congrArg MacAddress.digits (MacAddress.eq_of_spell_eq hspell)
  · intro h
    rw [MacAddress.canonical, MacAddress.canonical, h]

/-- **MAC normalisation accepts exactly its grammar and is canonical**: it returns exactly when
the stripped argument spells an address, which is then unique, and returns the canonical spelling
of that address; any other argument is a `ValidationError`. What it returned it returns again, and
two arguments have one result exactly when their digits agree but for case. -/
theorem normalizeMac_grammar :
    (∀ value v, normalizeMac value = .ok v ↔ ∃ m, Spells value m ∧ v = m.canonical) ∧
    (∀ value, (¬ ∃ m, Spells value m) ↔
      ∃ e, normalizeMac value = .error e ∧ e.type = .validationError) ∧
    (∀ value v, normalizeMac value = .ok v → normalizeMac v = .ok v) ∧
    ∀ value value' m m', Spells value m → Spells value' m' →
      (normalizeMac value = normalizeMac value' ↔
        m.digits.map Char.toLower = m'.digits.map Char.toLower) := by
  have hok : ∀ {value m}, Spells value m → normalizeMac value = .ok m.canonical :=
    fun h => normalizeMac_eq_ok_iff.mpr ⟨_, h, rfl⟩
  refine ⟨fun value v => normalizeMac_eq_ok_iff, fun value => ?_, fun value v h => ?_,
    fun value value' m m' hm hm' => ?_⟩
  · constructor
    · intro hnone
      cases h : normalizeMac value with
      | ok v =>
          obtain ⟨m, hm, _⟩ := normalizeMac_eq_ok_iff.mp h
          exact absurd ⟨m, hm⟩ hnone
      | error e => exact ⟨e, rfl, normalizeMac_error h⟩
    · rintro ⟨e, he, _⟩ ⟨m, hm⟩
      rw [hok hm] at he
      cases he
  · obtain ⟨m, _, rfl⟩ := normalizeMac_eq_ok_iff.mp h
    calc normalizeMac m.canonical
        = .ok m.upper.canonical := hok (spells_canonical m)
      _ = .ok m.canonical := by rw [m.upper.canonical_eq, upper_upper, ← m.canonical_eq]
  · rw [hok hm, hok hm', Except.ok.injEq]
    exact canonical_eq_iff m m'

end IseMcp
