import IseMcp.Tools.Requests

set_option autoImplicit false

/-! # What counts as an IPv4 address

`validate_ip` is meant to accept the dotted quads, so that the text in the filter of ERS and in the
path of MNT denotes one address (`ReadsQuads`). Its pattern is wider at two places: `\d` matches
the decimal digits of every script, and `1?\d?\d` matches a zero before a digit. The groups it
matches are those of `Group`; the validator is right exactly if no group of the argument is
misspelt in one of the two ways (`reads_quads_iff`).
-/

namespace IseMcp

open Python Text Text.Regex

/-! ## Addresses -/

def isAsciiDigit (c : Char) : Bool := '0' ≤ c && c ≤ '9'

/-- Four numbers, each at most 255. -/
structure Ipv4 where
  octets : List Nat
  length_octets : octets.length = 4
  le : ∀ n ∈ octets, n ≤ 255

/-- The dotted quad: decimals without leading zeros. -/
def Ipv4.text (a : Ipv4) : String :=
  .ofList (['.'].intercalate (a.octets.map (Nat.toDigits 10)))

/-- The text consists of ASCII digits and dots, and is the dotted quad of exactly one address. -/
def Denotes (text : String) : Prop :=
  (∀ c ∈ text.toList, isAsciiDigit c = true ∨ c = '.') ∧ ∃! a : Ipv4, text = a.text

/-- What `validate_ip` is meant to guarantee of an argument. -/
structure ReadsQuads (ip : String) : Prop where
  /-- It returns exactly on a dotted quad, which it returns stripped. -/
  returns : ∀ v, validateIp ip = .ok v ↔ v = strip ip ∧ ∃ a : Ipv4, strip ip = a.text
  raises : (¬ ∃ a : Ipv4, strip ip = a.text) →
    ∃ e, validateIp ip = .error e ∧ e.type = .validationError
  /-- The filter of `ise_get_endpoint_by_ip` ends in the text of an address. -/
  filter : ∀ cfg auth inc r, ToolCall.Planned cfg auth (.iseGetEndpointByIp ip inc) r →
    ∃ addr, Denotes addr ∧ r = ErsApi.getRequest cfg "/ers/config/endpoint" auth
      (some (ErsApi.filterParams (some ("ipAddress.EQUALS." ++ addr)) 1 (clampPageSize cfg none)))
  /-- So does the path of `ise_get_active_session_by_ip`. -/
  path : ∀ cfg auth inc r, ToolCall.Planned cfg auth (.iseGetActiveSessionByIp ip inc) r →
    ∃ addr, Denotes addr ∧
      r = MntApi.getRequest cfg ("/admin/API/mnt/Session/IPAddress/" ++ addr) auth

/-! ## The groups of the pattern -/

/-- What `25[0-5]|2[0-4]\d|1?\d?\d` matches. -/
inductive Group : List Char → Prop where
  | one {d : Char} (hd : isDecimal d = true) : Group [d]
  | two {t d : Char} (ht : isDecimal t = true) (hd : isDecimal d = true) : Group [t, d]
  | hundred {t d : Char} (ht : isDecimal t = true) (hd : isDecimal d = true) : Group ['1', t, d]
  | twoHundred {t d : Char} (ht : ('0' ≤ t && t ≤ '4') = true) (hd : isDecimal d = true) :
      Group ['2', t, d]
  | twoFifty {d : Char} (hd : ('0' ≤ d && d ≤ '5') = true) : Group ['2', '5', d]

/-- A group with a digit beyond ASCII, or with a zero before its only other digit. -/
def misspelt (g : List Char) : Bool :=
  g.any (fun c => !isAsciiDigit c) || (g.length == 2 && g.head? == some '0')

/-- Four groups that the pattern matches, one of them misspelt. -/
def MisspeltQuad (s : List Char) : Prop :=
  ∃ gs : List (List Char), gs.length = 4 ∧ (∀ g ∈ gs, Group g) ∧ (∃ g ∈ gs, misspelt g = true) ∧
    s = ['.'].intercalate gs

theorem mem_octetRe {g : List Char} : g ∈ octetRe.lang ↔ Group g := by
  rw [octetRe, mem_lang_alt, mem_lang_alt]
  constructor
  · rintro (h | h | h)
    · obtain ⟨a, _, ha, h₁, rfl⟩ := mem_lang_seq.mp h
      obtain ⟨b, _, hb, ⟨d, hd, rfl⟩, rfl⟩ := mem_lang_seq.mp h₁
      rw [mem_lang_chr.mp ha, mem_lang_chr.mp hb]
      exact .twoFifty hd
    · obtain ⟨a, _, ha, h₁, rfl⟩ := mem_lang_seq.mp h
      obtain ⟨_, _, ⟨t, ht, rfl⟩, ⟨d, hd, rfl⟩, rfl⟩ := mem_lang_seq.mp h₁
      rw [mem_lang_chr.mp ha]
      exact .twoHundred ht hd
    · obtain ⟨a, _, ha, h₁, rfl⟩ := mem_lang_seq.mp h
      obtain ⟨b, _, hb, ⟨d, hd, rfl⟩, rfl⟩ := mem_lang_seq.mp h₁
      -- the one and the digit after it are there or not
      rcases mem_lang_opt.mp ha with rfl | ha <;> rcases mem_lang_opt.mp hb with rfl | ⟨t, ht, rfl⟩
      · exact .one hd
      · exact .two ht hd
      · rw [mem_lang_chr.mp ha]
        exact .two (by decide) hd
      · rw [mem_lang_chr.mp ha]
        exact .hundred ht hd
  · have hopt : ∀ {r : Regex}, [] ∈ (opt r).lang := mem_lang_opt.mpr (Or.inl rfl)
    intro h
    cases h with
    | @one d hd =>
        refine Or.inr (Or.inr (mem_lang_seq.mpr ⟨[], [d], hopt, ?_, rfl⟩))
        exact mem_lang_seq.mpr ⟨[], [d], hopt, ⟨d, hd, rfl⟩, rfl⟩
    | @two t d ht hd =>
        refine Or.inr (Or.inr (mem_lang_seq.mpr ⟨[], [t, d], hopt, ?_, rfl⟩))
        exact mem_lang_seq.mpr ⟨[t], [d], mem_lang_opt.mpr (Or.inr ⟨t, ht, rfl⟩), ⟨d, hd, rfl⟩, rfl⟩
    | @hundred t d ht hd =>
        refine Or.inr (Or.inr (mem_lang_seq.mpr ⟨['1'], [t, d], ?_, ?_, rfl⟩))
        · exact mem_lang_opt.mpr (Or.inr (mem_lang_chr.mpr rfl))
        · exact mem_lang_seq.mpr
            ⟨[t], [d], mem_lang_opt.mpr (Or.inr ⟨t, ht, rfl⟩), ⟨d, hd, rfl⟩, rfl⟩
    | @twoHundred t d ht hd =>
        refine Or.inr (Or.inl (mem_lang_seq.mpr ⟨['2'], [t, d], mem_lang_chr.mpr rfl, ?_, rfl⟩))
        exact mem_lang_seq.mpr ⟨[t], [d], ⟨t, ht, rfl⟩, ⟨d, hd, rfl⟩, rfl⟩
    | @twoFifty d hd =>
        refine Or.inl (mem_lang_seq.mpr ⟨['2'], ['5', d], mem_lang_chr.mpr rfl, ?_, rfl⟩)
        exact mem_lang_seq.mpr ⟨['5'], [d], mem_lang_chr.mpr rfl, ⟨d, hd, rfl⟩, rfl⟩

/-- `_IPV4_RE` matches four groups with dots between them. -/
theorem mem_ipv4Re {s : List Char} :
    s ∈ ipv4Re.lang ↔
      ∃ gs : List (List Char), gs.length = 4 ∧ (∀ g ∈ gs, Group g) ∧ s = ['.'].intercalate gs := by
  rw [ipv4Re, mem_joined (lang_chr '.')]
  simp only [mem_octetRe]

theorem Group.decimal {g : List Char} (h : Group g) : ∀ c ∈ g, isDecimal c = true := by
  cases h with
  | one hd => simpa using hd
  | two ht hd => simpa using ⟨ht, hd⟩
  | hundred ht hd => simpa using ⟨by decide, ht, hd⟩
  | twoHundred ht hd =>
      simpa using ⟨by decide, isDecimal_of_range (by decide) (by decide) ht, hd⟩
  | twoFifty hd =>
      simpa using ⟨by decide, by decide, isDecimal_of_range (by decide) (by decide) hd⟩

/-- A dot is no digit, so the groups can be read off the text. -/
theorem Group.no_dot {g : List Char} (h : Group g) : '.' ∉ g := by
  intro hmem
  exact absurd (h.decimal '.' hmem) (by decide)

/-! ## Canonical decimals -/

/-- The number that ASCII digits denote. -/
def valueOf (g : List Char) : Nat := g.foldl (fun n c => 10 * n + (c.toNat - 48)) 0

theorem isAsciiDigit_iff {c : Char} : isAsciiDigit c = true ↔ c ∈ "0123456789".toList := by
  constructor
  · intro h
    simp only [isAsciiDigit, Bool.and_eq_true, decide_eq_true_eq] at h
    have hc : c = Char.ofNat c.toNat := (Char.ofNat_toNat c).symm
    have h₁ : 48 ≤ c.toNat := h.1
    have h₂ : c.toNat ≤ 57 := h.2
    generalize c.toNat = n at hc h₁ h₂
    subst hc
    interval_cases n <;> decide
  · have hall : ∀ d ∈ "0123456789".toList, isAsciiDigit d = true := by decide
    exact hall c

/-- A group that is not misspelt is the canonical decimal of its value. -/
theorem Group.canonical {g : List Char} (h : Group g) (hg : misspelt g = false) :
    valueOf g ≤ 255 ∧ Nat.toDigits 10 (valueOf g) = g := by
  simp only [misspelt, Bool.or_eq_false_iff, List.any_eq_false, Bool.not_eq_true',
    Bool.not_eq_false] at hg
  obtain ⟨hascii, hlead⟩ := hg
  have hmem : ∀ c ∈ g, c ∈ "0123456789".toList := fun c hc => isAsciiDigit_iff.mp (hascii c hc)
  cases h with
  | @one d _ =>
      have hall : ∀ d ∈ "0123456789".toList,
          valueOf [d] ≤ 255 ∧ Nat.toDigits 10 (valueOf [d]) = [d] := by decide
      exact hall d (hmem d (by simp))
  | @two t d _ _ =>
      have hall : ∀ t ∈ "0123456789".toList, ∀ d ∈ "0123456789".toList, t ≠ '0' →
          valueOf [t, d] ≤ 255 ∧ Nat.toDigits 10 (valueOf [t, d]) = [t, d] := by decide
      exact hall t (hmem t (by simp)) d (hmem d (by simp)) (by simpa using hlead)
  | @hundred t d _ _ =>
      have hall : ∀ t ∈ "0123456789".toList, ∀ d ∈ "0123456789".toList,
          valueOf ['1', t, d] ≤ 255 ∧ Nat.toDigits 10 (valueOf ['1', t, d]) = ['1', t, d] := by
        decide
      exact hall t (hmem t (by simp)) d (hmem d (by simp))
  | @twoHundred t d ht _ =>
      have hall : ∀ t ∈ "0123456789".toList, ∀ d ∈ "0123456789".toList,
          ('0' ≤ t && t ≤ '4') = true →
          valueOf ['2', t, d] ≤ 255 ∧ Nat.toDigits 10 (valueOf ['2', t, d]) = ['2', t, d] := by
        decide
      exact hall t (hmem t (by simp)) d (hmem d (by simp)) ht
  | @twoFifty d hd =>
      have hall : ∀ d ∈ "0123456789".toList, ('0' ≤ d && d ≤ '5') = true →
          valueOf ['2', '5', d] ≤ 255 ∧
            Nat.toDigits 10 (valueOf ['2', '5', d]) = ['2', '5', d] := by
        decide
      exact hall d (hmem d (by simp)) hd

/-- The decimals up to 255 are groups, they are not misspelt, and their values tell them apart. -/
theorem group_toDigits {n : Nat} (h : n ≤ 255) :
    Group (Nat.toDigits 10 n) ∧ misspelt (Nat.toDigits 10 n) = false ∧
      valueOf (Nat.toDigits 10 n) = n := by
  have hall : ∀ n < 256, [] ∈ octetRe.rests (Nat.toDigits 10 n) ∧
      misspelt (Nat.toDigits 10 n) = false ∧ valueOf (Nat.toDigits 10 n) = n := by
    decide +kernel
  obtain ⟨hrest, hspelt⟩ := hall n (by omega)
  obtain ⟨g, hg, heq⟩ := (mem_rests_iff octetRe _ _).mp hrest
  rw [List.append_nil] at heq
  rw [heq] at hg
  exact ⟨mem_octetRe.mp hg, hspelt⟩

/-! ## Quads -/

theorem groups_unique {gs gs' : List (List Char)} (hne : gs ≠ []) (hne' : gs' ≠ [])
    (h : ∀ g ∈ gs, Group g) (h' : ∀ g ∈ gs', Group g)
    (heq : ['.'].intercalate gs = ['.'].intercalate gs') : gs = gs' :=
  calc gs
      = (['.'].intercalate gs).splitOn '.' :=
        (List.splitOn_intercalate '.' (fun g hg => (h g hg).no_dot) hne).symm
    _ = (['.'].intercalate gs').splitOn '.' := by rw [heq]
    _ = gs' := List.splitOn_intercalate '.' (fun g hg => (h' g hg).no_dot) hne'

namespace Ipv4

/-- The groups of the dotted quad. -/
def groups (a : Ipv4) : List (List Char) := a.octets.map (Nat.toDigits 10)

theorem toList_text (a : Ipv4) : a.text.toList = ['.'].intercalate a.groups :=
  String.toList_ofList

theorem length_groups (a : Ipv4) : a.groups.length = 4 := by
  rw [groups, List.length_map, a.length_octets]

theorem groups_ne_nil (a : Ipv4) : a.groups ≠ [] :=
  List.ne_nil_of_length_eq_add_one a.length_groups

theorem group_of_mem (a : Ipv4) {g : List Char} (h : g ∈ a.groups) :
    Group g ∧ misspelt g = false := by
  obtain ⟨n, hn, rfl⟩ := List.mem_map.mp h
  obtain ⟨hg, hm, _⟩ := group_toDigits (a.le n hn)
  exact ⟨hg, hm⟩

/-- The octets are the values of the groups. -/
theorem values_groups (a : Ipv4) : a.groups.map valueOf = a.octets := by
  rw [groups, List.map_map]
  calc a.octets.map (valueOf ∘ Nat.toDigits 10)
      = a.octets.map id := List.map_congr_left fun n hn => (group_toDigits (a.le n hn)).2.2
    _ = a.octets := List.map_id _

theorem text_injective {a a' : Ipv4} (h : a.text = a'.text) : a = a' := by
  have hgroups : a.groups = a'.groups := by
    refine groups_unique a.groups_ne_nil a'.groups_ne_nil (fun g hg => (a.group_of_mem hg).1)
      (fun g hg => (a'.group_of_mem hg).1) ?_
    rw [← toList_text, ← toList_text, h]
  have hoctets : a.octets = a'.octets := by rw [← a.values_groups, ← a'.values_groups, hgroups]
  cases a
  cases a'
  simpa using hoctets

theorem denotes (a : Ipv4) : Denotes a.text := by
  refine ⟨fun c hc => ?_, a, rfl, fun a' h => text_injective h.symm⟩
  rw [toList_text] at hc
  by_cases hdot : c = '.'
  · exact Or.inr hdot
  · obtain ⟨g, hg, hcg⟩ := (Uri.mem_join hdot).mp hc
    have hm := (a.group_of_mem hg).2
    simp only [misspelt, Bool.or_eq_false_iff, List.any_eq_false, Bool.not_eq_true',
      Bool.not_eq_false] at hm
    exact Or.inl (hm.1 c hcg)

end Ipv4

/-- A dotted quad has no misspelt group. -/
theorem not_misspeltQuad_text (a : Ipv4) : ¬ MisspeltQuad a.text.toList := by
  rintro ⟨gs, hlen, hgs, ⟨g, hg, hm⟩, heq⟩
  rw [a.toList_text] at heq
  have hgroups : a.groups = gs := groups_unique a.groups_ne_nil
    (List.ne_nil_of_length_eq_add_one hlen) (fun g hg => (a.group_of_mem hg).1) hgs heq
  rw [← hgroups] at hg
  rw [(a.group_of_mem hg).2] at hm
  cases hm

/-- What the pattern matches is a dotted quad, or has a misspelt group. -/
theorem mem_ipv4Re_iff {s : String} :
    s.toList ∈ ipv4Re.lang ↔ (∃ a : Ipv4, s = a.text) ∨ MisspeltQuad s.toList := by
  rw [mem_ipv4Re]
  constructor
  · rintro ⟨gs, hlen, hgs, heq⟩
    by_cases hm : ∃ g ∈ gs, misspelt g = true
    · exact Or.inr ⟨gs, hlen, hgs, hm, heq⟩
    · have hcanon : ∀ g ∈ gs, valueOf g ≤ 255 ∧ Nat.toDigits 10 (valueOf g) = g := by
        intro g hg
        refine (hgs g hg).canonical ?_
        by_contra hne
        exact hm ⟨g, hg, by simpa using hne⟩
      refine Or.inl ⟨⟨gs.map valueOf, by rw [List.length_map, hlen], ?_⟩, ?_⟩
      · intro n hn
        obtain ⟨g, hg, rfl⟩ := List.mem_map.mp hn
        exact (hcanon g hg).1
      · have hmap : (gs.map valueOf).map (Nat.toDigits 10) = gs := by
          rw [List.map_map]
          exact (List.map_congr_left fun g hg => (hcanon g hg).2).trans (List.map_id' gs)
        rw [Ipv4.text, hmap, ← heq, String.ofList_toList]
  · rintro (⟨a, rfl⟩ | ⟨gs, hlen, hgs, _, heq⟩)
    · exact ⟨a.groups, a.length_groups, fun g hg => (a.group_of_mem hg).1, a.toList_text⟩
    · exact ⟨gs, hlen, hgs, heq⟩

theorem validateIp_ok_iff {ip v : String} :
    validateIp ip = .ok v ↔
      v = strip ip ∧ ((∃ a : Ipv4, strip ip = a.text) ∨ MisspeltQuad (strip ip).toList) := by
  rw [validateIp, matchStripped_ok_iff, mem_ipv4Re_iff]

/-- **When IPv4 validation accepts exactly the dotted quads**: exactly if the stripped argument is
not four groups of the pattern of which one is misspelt. -/
theorem reads_quads_iff (ip : String) :
    ReadsQuads ip ↔ ¬ MisspeltQuad (strip ip).toList := by
  constructor
  · intro h hm
    obtain ⟨_, a, ha⟩ := (h.returns (strip ip)).mp (validateIp_ok_iff.mpr ⟨rfl, Or.inr hm⟩)
    rw [ha] at hm
    exact not_misspeltQuad_text a hm
  · intro hm
    have hok : ∀ v, validateIp ip = .ok v ↔ v = strip ip ∧ ∃ a : Ipv4, strip ip = a.text := by
      intro v
      rw [validateIp_ok_iff, or_iff_left hm]
    have hdenotes : ∀ v, validateIp ip = .ok v → Denotes v := by
      intro v hv
      obtain ⟨rfl, a, ha⟩ := (hok v).mp hv
      rw [ha]
      exact a.denotes
    refine ⟨hok, fun hnone => ?_, ?_, ?_⟩
    · cases h : validateIp ip with
      | ok v => exact absurd ((hok v).mp h).2 hnone
      | error e => exact ⟨e, rfl, matchStripped_error h⟩
    · rintro cfg auth inc r ⟨addr, haddr, rfl⟩
      exact ⟨addr, hdenotes addr haddr, rfl⟩
    · rintro cfg auth inc r ⟨addr, haddr, rfl⟩
      exact ⟨addr, hdenotes addr haddr, rfl⟩

/-- An Arabic digit and a leading zero are accepted. -/
theorem misspelt_quad_accepted : ¬ ∀ ip, ReadsQuads ip := by
  intro h
  have hm : MisspeltQuad (strip "192.168.01.٤").toList := by
    refine ⟨["192".toList, "168".toList, "01".toList, "٤".toList], rfl, ?_,
      ⟨"٤".toList, by simp, by decide⟩, by decide⟩
    intro g hg
    simp only [List.mem_cons, List.not_mem_nil, or_false] at hg
    rcases hg with rfl | rfl | rfl | rfl
    · exact .hundred (by decide) (by decide)
    · exact .hundred (by decide) (by decide)
    · exact .two (by decide) (by decide)
    · exact .one (by decide)
  have hok := validateIp_ok_iff.mpr ⟨rfl, Or.inr hm⟩
  obtain ⟨_, a, ha⟩ := ((h _).returns _).mp hok
  rw [ha] at hm
  exact not_misspeltQuad_text a hm

end IseMcp
