import IseMcp.Config
import IseMcp.Text.Regex
import IseMcp.Text.Uri

set_option autoImplicit false

/-! # Input validation and tool gating

`validation.py`. The compiled patterns are written with the combinators of `Text/Regex.lean`, so
that each can be read against its source; a back reference to an optional separator is the
alternative over the three things the separator can be. All patterns end in `$`, which also
matches before a final newline (`Regex.matchDollar`).
-/

namespace IseMcp

open Python Text Text.Regex

/-! ## Patterns -/

/-- `[0-9A-Fa-f]` -/
def isHex (c : Char) : Bool :=
  ('0' ≤ c && c ≤ '9') || ('A' ≤ c && c ≤ 'F') || ('a' ≤ c && c ≤ 'f')

/-- The first of each block of ten decimal digits in Unicode 15. -/
def decimalZeros : List Nat :=
  [0x30, 0x660, 0x6F0, 0x7C0, 0x966, 0x9E6, 0xA66, 0xAE6, 0xB66, 0xBE6, 0xC66, 0xCE6, 0xD66, 0xDE6,
    0xE50, 0xED0, 0xF20, 0x1040, 0x1090, 0x17E0, 0x1810, 0x1946, 0x19D0, 0x1A80, 0x1A90, 0x1B50,
    0x1BB0, 0x1C40, 0x1C50, 0xA620, 0xA8D0, 0xA900, 0xA9D0, 0xA9F0, 0xAA50, 0xABF0, 0xFF10, 0x104A0,
    0x10D30, 0x11066, 0x110F0, 0x11136, 0x111D0, 0x112F0, 0x11450, 0x114D0, 0x11650, 0x116C0,
    0x11730, 0x118E0, 0x11950, 0x11C50, 0x11D50, 0x11DA0, 0x11F50, 0x16A60, 0x16AC0, 0x16B50,
    0x1D7CE, 0x1D7D8, 0x1D7E2, 0x1D7EC, 0x1D7F6, 0x1E140, 0x1E2F0, 0x1E4F0, 0x1E950, 0x1FBF0]

/-- `\d` in a `str` pattern: every decimal digit of Unicode. -/
def isDecimal (c : Char) : Bool := decimalZeros.any fun z => z ≤ c.toNat && c.toNat < z + 10

def hexPair : Regex := exactly 2 (cls isHex)

/-- `XX sep (XX sep){4} XX` -/
def macWith (sep : Regex) : Regex :=
  seq hexPair (seq sep (seq (exactly 4 (seq hexPair sep)) hexPair))

def macRe : Regex := alt (macWith (chr ':')) (alt (macWith (chr '-')) (macWith eps))

def macPlainRe : Regex := exactly 12 (cls isHex)

/-- `25[0-5]|2[0-4]\d|1?\d?\d` -/
def octetRe : Regex :=
  alt (seq (chr '2') (seq (chr '5') (cls fun c => '0' ≤ c && c ≤ '5')))
    (alt (seq (chr '2') (seq (cls fun c => '0' ≤ c && c ≤ '4') (cls isDecimal)))
      (seq (opt (chr '1')) (seq (opt (cls isDecimal)) (cls isDecimal))))

def ipv4Re : Regex := seq (exactly 3 (seq octetRe (chr '.'))) octetRe

/-- `[^\s\x00-\x1f]{1,128}` -/
def usernameRe : Regex := rep (cls fun c => !(isSpace c || c.toNat < 32)) 1 128

/-- `[0-9a-fA-F-]{8,64}` -/
def uuidRe : Regex := rep (cls fun c => isHex c || c == '-') 8 64

/-! ## Tool names -/

/-- Write tools that require readwrite mode. -/
def writeTools : List String :=
  ["ise_create_endpoint", "ise_update_endpoint", "ise_delete_endpoint", "ise_assign_endpoint_group"]

/-- The subset also gated by `ISE_ENABLE_DANGEROUS_TOOLS`. -/
def dangerousTools : List String := ["ise_delete_endpoint"]

/-! ## Arguments -/

/-- `":".join(v[i : i + 2] for i in range(0, 12, 2))` -/
def joinPairs (v : List Char) : List Char :=
  [':'].intercalate ((List.range 6).map fun i => (v.drop (2 * i)).take 2)

/-- `v.replace("-", ":").upper()`; on the strings it is applied to, `upper` meets only hex digits
and colons. -/
def canonMac (v : List Char) : List Char :=
  v.map fun c => if c = '-' then ':' else c.toUpper

/-- The stripped argument, with colons put in when it is twelve plain digits. -/
def macCandidate (value : String) : List Char :=
  let v := stripChars value.toList
  if macPlainRe.matchDollar v then joinPairs v else v

def normalizeMac (value : String) : Except PyExc String :=
  if macRe.matchDollar (macCandidate value) then .ok (.ofList (canonMac (macCandidate value)))
  else .error (exc .validationError ("Invalid MAC address: " ++ pyRepr value))

/-- Strip, match, and return the stripped string. -/
def matchStripped (re : Regex) (message value : String) : Except PyExc String :=
  if re.matchDollar (strip value).toList then .ok (strip value)
  else .error (exc .validationError message)

def validateIp (value : String) : Except PyExc String :=
  matchStripped ipv4Re ("Invalid IPv4 address: " ++ pyRepr value) value

def validateUsername (value : String) : Except PyExc String :=
  matchStripped usernameRe "Invalid username" value

def validateEndpointId (value : String) : Except PyExc String :=
  matchStripped uuidRe ("Invalid endpoint id: " ++ pyRepr value) value

def clampPageSize (cfg : Config) (requested : Option Int) : Int :=
  max 1 (min (requested.getD cfg.defaultPageSize) cfg.maxPageSize)

theorem clampPageSize_bounds (cfg : Config) (requested : Option Int) :
    1 ≤ clampPageSize cfg requested ∧ clampPageSize cfg requested ≤ max 1 cfg.maxPageSize := by
  unfold clampPageSize
  omega

/-! ## Gates -/

def isToolEnabled (cfg : Config) (toolName : String) : Bool :=
  if cfg.disabledTools ≠ [] ∧ toolName ∈ cfg.disabledTools then false
  else if cfg.allowedTools ≠ [] then decide (toolName ∈ cfg.allowedTools)
  else true

def assertToolEnabled (cfg : Config) (toolName : String) : Except PyExc Unit :=
  if isToolEnabled cfg toolName then .ok ()
  else .error (exc .toolDisabledError ("Tool '" ++ toolName ++ "' is disabled by configuration"))

def assertWriteAllowed (cfg : Config) (toolName : String) : Except PyExc Unit := do
  assertToolEnabled cfg toolName
  if toolName ∈ writeTools ∧ cfg.isReadonly then
    throw (exc .writeNotAllowedError
      ("Tool '" ++ toolName ++ "' requires ISE_MCP_MODE=readwrite (server is readonly)"))
  if toolName ∈ dangerousTools ∧ ¬ cfg.enableDangerousTools then
    throw (exc .writeNotAllowedError
      ("Tool '" ++ toolName ++ "' requires ISE_ENABLE_DANGEROUS_TOOLS=true"))

/-- `assert_group_allowed`. No tool calls it. -/
def assertGroupAllowed (cfg : Config) (group : Option String) : Except PyExc Unit :=
  match group with
  | some g =>
      if g ≠ "" ∧ cfg.allowedEndpointGroups ≠ [] ∧ g ∉ cfg.allowedEndpointGroups then
        .error (exc .validationError
          ("Endpoint group '" ++ g ++ "' not in ISE_ALLOWED_ENDPOINT_GROUPS"))
      else .ok ()
  | none => .ok ()

/-! ## What the validators accept -/

theorem matchStripped_ok_iff {re : Regex} {message value v : String} :
    matchStripped re message value = .ok v ↔ v = strip value ∧ (strip value).toList ∈ re.lang := by
  unfold matchStripped
  rw [← matchDollar_iff (strip_ne_newline value)]
  by_cases h : re.matchDollar (strip value).toList = true
  · rw [if_pos h, Except.ok.injEq, and_iff_left h, eq_comm]
  · rw [if_neg h]
    simp only [reduceCtorEq, false_iff, not_and]
    exact fun _ => h

/-- A validator fails with a `ValidationError` only. -/
theorem matchStripped_error {re : Regex} {message value : String} {e : PyExc}
    (h : matchStripped re message value = .error e) : e.type = .validationError := by
  unfold matchStripped at h
  split_ifs at h
  cases h
  rfl

theorem normalizeMac_error {value : String} {e : PyExc} (h : normalizeMac value = .error e) :
    e.type = .validationError := by
  unfold normalizeMac at h
  split_ifs at h
  cases h
  rfl

/-- Endpoint ids consist of hex digits and hyphens. -/
theorem validateEndpointId_chars {value v : String} (h : validateEndpointId value = .ok v) :
    ∀ c ∈ v.toList, isHex c = true ∨ c = '-' := by
  obtain ⟨rfl, hlang⟩ := matchStripped_ok_iff.mp h
  refine Within.forall_mem (r := uuidRe) ?_ _ hlang
  intro c hc
  simpa using hc

theorem isDecimal_of_range {lo hi c : Char} (hlo : '0' ≤ lo) (hhi : hi ≤ '9')
    (h : (lo ≤ c && c ≤ hi) = true) : isDecimal c = true := by
  simp only [Bool.and_eq_true, decide_eq_true_eq] at h
  have h₁ : 48 ≤ c.toNat := le_trans hlo h.1
  have h₂ : c.toNat ≤ 57 := le_trans h.2 hhi
  simp only [isDecimal, decimalZeros, List.any_cons, Bool.or_eq_true, Bool.and_eq_true,
    decide_eq_true_eq]
  exact Or.inl ⟨h₁, by omega⟩

/-- IPv4 addresses consist of decimal digits and dots, and have at least seven characters. -/
theorem validateIp_chars {value v : String} (h : validateIp value = .ok v) :
    (∀ c ∈ v.toList, isDecimal c = true ∨ c = '.') ∧ 7 ≤ v.toList.length := by
  obtain ⟨rfl, hlang⟩ := matchStripped_ok_iff.mp h
  have hchr : ∀ d c : Char, '0' ≤ d → d ≤ '9' → (c == d) = true → isDecimal c = true := by
    intro d c h₁ h₂ hc
    rw [beq_iff_eq] at hc
    subst hc
    exact isDecimal_of_range h₁ h₂ (by simp)
  have hoctet : octetRe.Within fun c => isDecimal c = true ∨ c = '.' :=
    ⟨⟨fun c hc => Or.inl (hchr _ c (by decide) (by decide) hc),
      fun c hc => Or.inl (hchr _ c (by decide) (by decide) hc),
      fun c hc => Or.inl (isDecimal_of_range (by decide) (by decide) hc)⟩,
     ⟨fun c hc => Or.inl (hchr _ c (by decide) (by decide) hc),
      fun c hc => Or.inl (isDecimal_of_range (by decide) (by decide) hc),
      fun c hc => Or.inl hc⟩,
     fun c hc => Or.inl (hchr _ c (by decide) (by decide) hc),
     fun c hc => Or.inl hc, fun c hc => Or.inl hc⟩
  refine ⟨Within.forall_mem (r := ipv4Re) ⟨⟨hoctet, fun c hc => ?_⟩, hoctet⟩ _ hlang,
    minLength_le ipv4Re _ hlang⟩
  exact Or.inr (by simpa using hc)

theorem macWith_within {sep : Regex} {P : Char → Prop} (hhex : ∀ c, isHex c = true → P c)
    (hsep : sep.Within P) : (macWith sep).Within P :=
  ⟨hhex, hsep, ⟨hhex, hsep⟩, hhex⟩

theorem mem_joinPairs {v : List Char} {c : Char} (h : c ∈ joinPairs v) : c ∈ v ∨ c = ':' := by
  by_cases hc : c = ':'
  · exact Or.inr hc
  · obtain ⟨l, hl, h⟩ := (Uri.mem_join hc).mp h
    obtain ⟨i, _, rfl⟩ := List.mem_map.mp hl
    exact Or.inl (List.mem_of_mem_drop (List.mem_of_mem_take h))

theorem isHex_iff {c : Char} : isHex c = true ↔ c ∈ "0123456789ABCDEFabcdef".toList := by
  constructor
  · intro h
    simp only [isHex, Bool.or_eq_true, Bool.and_eq_true, decide_eq_true_eq] at h
    have hc : c = Char.ofNat c.toNat := (Char.ofNat_toNat c).symm
    have hn : (48 ≤ c.toNat ∧ c.toNat ≤ 57 ∨ 65 ≤ c.toNat ∧ c.toNat ≤ 70) ∨
        97 ≤ c.toNat ∧ c.toNat ≤ 102 := h
    generalize c.toNat = n at hc hn
    subst hc
    rcases hn with (⟨h₁, h₂⟩ | ⟨h₁, h₂⟩) | ⟨h₁, h₂⟩ <;> interval_cases n <;> decide
  · have hall : ∀ d ∈ "0123456789ABCDEFabcdef".toList, isHex d = true := by decide
    exact hall c

theorem isHex_toUpper {c : Char} (h : isHex c = true) : isHex c.toUpper = true := by
  have hall : ∀ d ∈ "0123456789ABCDEFabcdef".toList, isHex d.toUpper = true := by decide
  exact hall c (isHex_iff.mp h)

/-- What is matched against `_MAC_RE` does not end in a newline. -/
theorem macCandidate_getLast? (value : String) :
    (macCandidate value).getLast? ≠ some '\n' := by
  have hstrip : (stripChars value.toList).getLast? ≠ some '\n' := by
    rw [← toList_strip]
    exact strip_ne_newline value
  unfold macCandidate
  simp only
  split_ifs with hp
  · -- after a plain match there are only hex digits, and joining adds colons
    rw [matchDollar_iff hstrip] at hp
    have hhex := Within.forall_mem (r := macPlainRe) (P := fun c => isHex c = true)
      (fun c hc => hc) _ hp
    intro hlast
    rcases mem_joinPairs (List.mem_of_getLast? hlast) with h | h
    · exact absurd (hhex _ h) (by decide)
    · exact absurd h (by decide)
  · exact hstrip

theorem normalizeMac_ok_iff {value v : String} :
    normalizeMac value = .ok v ↔
      v = .ofList (canonMac (macCandidate value)) ∧ macCandidate value ∈ macRe.lang := by
  unfold normalizeMac
  rw [← matchDollar_iff (macCandidate_getLast? value)]
  by_cases h : macRe.matchDollar (macCandidate value) = true
  · rw [if_pos h, Except.ok.injEq, and_iff_left h, eq_comm]
  · rw [if_neg h]
    simp only [reduceCtorEq, false_iff, not_and]
    exact fun _ => h

/-- A canonical MAC consists of hex digits and colons. -/
theorem normalizeMac_chars {value v : String} (h : normalizeMac value = .ok v) :
    ∀ c ∈ v.toList, isHex c = true ∨ c = ':' := by
  obtain ⟨rfl, hlang⟩ := normalizeMac_ok_iff.mp h
  have hre : macRe.Within fun c => isHex c = true ∨ c = ':' ∨ c = '-' :=
    ⟨macWith_within (fun c hc => Or.inl hc) fun c hc => Or.inr (Or.inl (by simpa using hc)),
     macWith_within (fun c hc => Or.inl hc) fun c hc => Or.inr (Or.inr (by simpa using hc)),
     macWith_within (fun c hc => Or.inl hc) trivial⟩
  rw [String.toList_ofList]
  intro c hc
  obtain ⟨d, hd, rfl⟩ := List.mem_map.mp hc
  -- a digit is raised, a colon kept, a hyphen becomes a colon
  rcases hre.forall_mem _ hlang d hd with h | rfl | rfl
  · have hne : d ≠ '-' := by
      rintro rfl
      exact absurd h (by decide)
    rw [if_neg hne]
    exact Or.inl (isHex_toUpper h)
  · exact Or.inr (by decide)
  · exact Or.inr (by decide)

theorem assertToolEnabled_ok_iff {cfg : Config} {name : String} :
    assertToolEnabled cfg name = .ok () ↔ isToolEnabled cfg name = true := by
  unfold assertToolEnabled
  split_ifs with h <;> simp [h]

/-- What `assert_write_allowed` guarantees of a write tool. -/
theorem assertWriteAllowed_ok {cfg : Config} {name : String} (hw : name ∈ writeTools)
    (h : assertWriteAllowed cfg name = .ok ()) :
    isToolEnabled cfg name = true ∧ cfg.isReadonly = false ∧
      (name ∈ dangerousTools → cfg.enableDangerousTools = true) := by
  obtain ⟨_, he, h⟩ := bind_eq_ok.mp h
  have hr : cfg.isReadonly = false := by
    by_contra hr
    rw [if_pos ⟨hw, by simpa using hr⟩] at h
    cases h
  refine ⟨assertToolEnabled_ok_iff.mp he, hr, fun hd => ?_⟩
  by_contra hne
  rw [if_neg (by simp [hr]), if_pos ⟨hd, hne⟩] at h
  cases h

end IseMcp
