import IseMcp.Settings
import IseMcp.Text.Uri
import Mathlib.Data.List.TFAE

set_option autoImplicit false

/-! # The settings that an environment can give

Which settings `load_config` can return, among those that the server starts with, and how to write
them down: `Settings.environ` spells them as variables, and loading the variables gives the settings
back (`settings_range`).
-/

namespace IseMcp

open Python Text

/-! ## Integers -/

theorem digitValue_of_isDigit {c : Char} (h : c.isDigit = true) :
    digitValue c = some (c.toNat - 48) := by
  have hdigit : 48 ≤ c.toNat ∧ c.toNat ≤ 57 := Char.isDigit_iff_toNat.mp h
  have hfirst : (decide (0x30 ≤ c.toNat) && decide (c.toNat < 0x30 + 10)) = true := by
    rw [Bool.and_eq_true, decide_eq_true_eq, decide_eq_true_eq]
    omega
  rw [digitValue, decimalZeros, List.find?_cons, hfirst]
  rfl

theorem digitValue_lt {c : Char} {d : Nat} (h : digitValue c = some d) : d < 10 := by
  obtain ⟨z, hz, rfl⟩ := Option.map_eq_some_iff.mp h
  have hbounds := List.find?_some hz
  rw [Bool.and_eq_true, decide_eq_true_eq, decide_eq_true_eq] at hbounds
  omega

theorem mapM_eq_some_iff {α β : Type} {f : α → Option β} {xs : List α} {ys : List β} :
    xs.mapM f = some ys ↔ List.Forall₂ (fun x y => f x = some y) xs ys := by
  induction xs generalizing ys with
  | nil => simp [eq_comm]
  | cons x xs ih =>
      simp only [List.mapM_cons, Option.bind_eq_bind, Option.bind_eq_some_iff, Option.pure_def,
        Option.some.injEq, List.forall₂_cons_left_iff, ih]
      constructor
      · rintro ⟨y, hy, ys', hys, rfl⟩
        exact ⟨y, ys', hy, hys, rfl⟩
      · rintro ⟨y, ys', hy, hys, rfl⟩
        exact ⟨y, hy, ys', hys, rfl⟩

theorem digitValues_lt {t : List Char} {ds : List Nat} (h : t.mapM digitValue = some ds) :
    ∀ d ∈ ds, d < 10 := by
  rw [mapM_eq_some_iff] at h
  induction h with
  | nil => exact nofun
  | cons hc _ ih => exact List.forall_mem_cons.mpr ⟨digitValue_lt hc, ih⟩

/-- Reading the digits from the end is reading them from the start. -/
theorem ofDigits_reverse (l : List Char) :
    Nat.ofDigits 10 (l.map fun c => c.toNat - 48).reverse = Nat.ofDigitChars 10 l 0 := by
  induction l using List.reverseRecOn with
  | nil => rfl
  | append_singleton l c ih =>
      rw [List.map_append, List.map_singleton, List.reverse_append, List.reverse_singleton,
        List.singleton_append, Nat.ofDigits_cons, ih, Nat.ofDigitChars_append,
        Nat.ofDigitChars_cons, Nat.ofDigitChars_nil]
      exact Nat.add_comm _ _

/-- An integer that `int` reads and that can be written. -/
def Fits (n : Int) : Prop := n.natAbs < 10 ^ maxStrDigits

theorem digitsValue_toDigits {n : Nat} (h : n < 10 ^ maxStrDigits) :
    digitsValue (Nat.toDigits 10 n) = some n := by
  have hdigits : ∀ c ∈ Nat.toDigits 10 n, c.isDigit = true := fun _ hc =>
    Nat.isDigit_of_mem_toDigits (by decide) (by decide) hc
  have hgroups : (Nat.toDigits 10 n).splitOn '_' = [Nat.toDigits 10 n] :=
    List.splitOn_eq_singleton Nat.underscore_not_in_toDigits
  have hvalues : (Nat.toDigits 10 n).mapM digitValue
      = some ((Nat.toDigits 10 n).map fun c => c.toNat - 48) :=
    mapM_eq_some_iff.mpr (List.forall₂_map_right_iff.mpr (List.forall₂_same.mpr fun c hc =>
      digitValue_of_isDigit (hdigits c hc)))
  have hlength : (Nat.toDigits 10 n).length ≤ maxStrDigits :=
    (Nat.length_toDigits_le_iff (by decide) (by decide)).mpr h
  rw [digitsValue, hgroups]
  simp only [List.all_cons, List.all_nil, Bool.and_true, List.flatten_cons, List.flatten_nil,
    List.append_nil, bne_iff_ne, ne_eq, Nat.toDigits_ne_nil, not_false_eq_true, if_true, hvalues,
    Option.bind_some, List.length_map, hlength, ofDigits_reverse, Nat.ofDigitChars_ten_toDigits]

theorem digitsValue_lt {t : List Char} {m : Nat} (h : digitsValue t = some m) :
    m < 10 ^ maxStrDigits := by
  unfold digitsValue at h
  dsimp only at h
  split_ifs at h
  obtain ⟨ds, hds, h⟩ := Option.bind_eq_some_iff.mp h
  split_ifs at h with hlen
  cases h
  have hlt : ∀ d ∈ ds.reverse, d < 10 := fun d hd =>
    digitValues_lt hds d (List.mem_reverse.mp hd)
  have hbound := Nat.ofDigits_lt_base_pow_length (by decide) hlt
  rw [List.length_reverse] at hbound
  exact hbound.trans_le (Nat.pow_le_pow_right (by decide) hlen)

theorem not_mem_toDigits {c : Char} (h : c.isDigit = false) (n : Nat) :
    c ∉ Nat.toDigits 10 n := by
  intro hc
  rw [Nat.isDigit_of_mem_toDigits (by decide) (by decide) hc] at h
  cases h

theorem pyInt_toString {n : Int} (h : Fits n) : pyInt (toString n) = some n := by
  have hint : ∀ c : Char, c.isDigit = true → isIntSpace c = false := by
    intro c hc
    have hdigit : 48 ≤ c.toNat ∧ c.toNat ≤ 57 := Char.isDigit_iff_toNat.mp hc
    rw [isIntSpace, if_pos (by omega)]
    simp only [Bool.or_eq_false_iff, Bool.and_eq_false_iff, decide_eq_false_iff_not,
      beq_eq_false_iff_ne]
    omega
  have hdigits : ∀ (m : Nat), ∀ c ∈ Nat.toDigits 10 m, isIntSpace c = false := fun m c hc =>
    hint c (Nat.isDigit_of_mem_toDigits (by decide) (by decide) hc)
  rcases Json.toList_toString_int n with ⟨m, rfl, htext⟩ | ⟨m, rfl, htext⟩
  · rw [Fits, Int.natAbs_natCast] at h
    have hunsigned : signedValue (Nat.toDigits 10 m)
        = (digitsValue (Nat.toDigits 10 m)).map fun n : Nat => (n : Int) := by
      unfold signedValue
      split
      · rename_i t heq
        exact absurd (heq ▸ List.mem_cons_self) (not_mem_toDigits (c := '+') (by decide) m)
      · rename_i t heq
        exact absurd (heq ▸ List.mem_cons_self) (not_mem_toDigits (c := '-') (by decide) m)
      · rfl
    rw [pyInt, htext, trim_of_forall (hdigits m), hunsigned, digitsValue_toDigits h]
    rfl
  · rw [Fits, Int.natAbs_neg, Int.natAbs_natCast] at h
    have hall : ∀ c ∈ '-' :: Nat.toDigits 10 m, isIntSpace c = false :=
      List.forall_mem_cons.mpr ⟨by decide, hdigits m⟩
    rw [pyInt, htext, trim_of_forall hall, signedValue, digitsValue_toDigits h]
    rfl

theorem pyInt_fits {s : String} {n : Int} (h : pyInt s = some n) : Fits n := by
  have hvalue : ∃ t m, digitsValue t = some m ∧ n.natAbs = m := by
    unfold pyInt signedValue at h
    split at h
    · obtain ⟨m, hm, rfl⟩ := Option.map_eq_some_iff.mp h
      exact ⟨_, m, hm, Int.natAbs_natCast m⟩
    · obtain ⟨m, hm, rfl⟩ := Option.map_eq_some_iff.mp h
      exact ⟨_, m, hm, by rw [Int.natAbs_neg, Int.natAbs_natCast]⟩
    · obtain ⟨m, hm, rfl⟩ := Option.map_eq_some_iff.mp h
      exact ⟨_, m, hm, Int.natAbs_natCast m⟩
  obtain ⟨t, m, hm, habs⟩ := hvalue
  rw [Fits, habs]
  exact digitsValue_lt hm

/-! ## The other kinds of variables -/

/-- An item that a list variable can have. -/
structure IsItem (item : String) : Prop where
  notBlank : item ≠ ""
  stripped : strip item = item
  noComma : ',' ∉ item.toList

/-- The value of a list variable with these items. -/
def csvText (items : List String) : String := .ofList ([','].intercalate (items.map String.toList))

/-- The value of a switch. -/
def boolText (b : Bool) : String := if b then "true" else "false"

namespace Environ

variable {env : Environ} {key : String}

theorem get_of {v : String} (h : env key = some v) (dflt : String) : env.get key dflt = v := by
  rw [get, h]
  rfl

theorem bool_of {b : Bool} (h : env key = some (boolText b)) (dflt : Bool) :
    env.bool key dflt = b := by
  rw [bool, h]
  cases b <;> rfl

theorem int_of {n : Int} (hfits : Fits n) (h : env key = some (toString n)) (dflt : Int) :
    env.int key dflt = n := by
  have hne : toString n ≠ "" := by
    intro hempty
    have hread := pyInt_toString hfits
    rw [hempty] at hread
    cases hread
  rw [int, h]
  dsimp only
  rw [if_neg hne, pyInt_toString hfits]
  rfl

theorem csv_of {items : List String} (hitems : ∀ item ∈ items, IsItem item)
    (h : env key = some (csvText items)) : env.csv key = items := by
  rw [csv, parts, get_of h, csvText, String.toList_ofList]
  rcases eq_or_ne items [] with rfl | hne
  · rfl
  · have hcommas : ∀ l ∈ items.map String.toList, ',' ∉ l :=
      List.forall_mem_map.mpr fun item hitem => (hitems item hitem).noComma
    have hself : items.map ((strip ∘ String.ofList) ∘ String.toList) = items := by
      refine (List.map_congr_left fun item hitem => ?_).trans (List.map_id items)
      show strip (.ofList item.toList) = item
      rw [String.ofList_toList, (hitems item hitem).stripped]
    rw [List.splitOn_intercalate _ hcommas (by simpa using hne), List.map_map, List.map_map,
      hself, List.filter_eq_self]
    exact fun item hitem => decide_eq_true (hitems item hitem).notBlank

/-- What is read for an integer can be written again. -/
theorem int_fits (env : Environ) (key : String) {dflt : Int} (h : Fits dflt) :
    Fits (env.int key dflt) := by
  unfold int
  cases env key with
  | none => exact h
  | some v =>
      dsimp only
      split_ifs
      · exact h
      · cases hv : pyInt v with
        | none => exact h
        | some n => exact pyInt_fits hv

theorem csv_items (env : Environ) (key : String) : ∀ item ∈ env.csv key, IsItem item := by
  intro item hitem
  rw [csv, List.mem_filter, List.mem_map, decide_eq_true_eq] at hitem
  obtain ⟨⟨part, hpart, rfl⟩, hne⟩ := hitem
  obtain ⟨l, hl, rfl⟩ := List.mem_map.mp hpart
  refine ⟨hne, strip_strip _, fun hcomma => Uri.not_mem_of_mem_splitOn l hl ?_⟩
  rw [toList_strip, String.toList_ofList] at hcomma
  have hpre := (List.rdropWhile_prefix _ _).subset hcomma
  exact (List.dropWhile_sublist _).subset hpre

end Environ

/-! ## Settings as variables -/

namespace Settings

/-- The variables that hold the settings. -/
def assignments (s : Settings) : List (String × String) :=
  [("ISE_BASE_URL", s.iseBaseUrl), ("ISE_ERS_BASE_URL", s.iseErsBaseUrl),
    ("ISE_MNT_BASE_URL", s.iseMntBaseUrl), ("ISE_USERNAME", s.iseUsername),
    ("ISE_PASSWORD", s.isePassword), ("ISE_ENCODED_AUTH", s.iseEncodedAuth),
    ("ISE_VERSION", s.iseVersion), ("ISE_VERIFY_SSL", boolText s.verifySsl),
    ("ISE_TIMEOUT_SECONDS", toString s.timeoutSeconds),
    ("ISE_RATE_LIMIT_WAIT", boolText s.rateLimitWait), ("ISE_AUTH_MODE", s.authMode),
    ("ISE_MCP_MODE", s.mcpMode),
    ("ISE_ENABLE_DANGEROUS_TOOLS", boolText s.enableDangerousTools),
    ("ISE_SESSION_TTL_SECONDS", toString s.sessionTtlSeconds),
    ("ISE_SESSION_IDLE_TIMEOUT_SECONDS", toString s.sessionIdleTimeoutSeconds),
    ("MCP_SESSION_HEADER", s.sessionHeader), ("LOG_LEVEL", s.logLevel),
    ("AUDIT_LOG_ENABLED", boolText s.auditLogEnabled),
    ("ISE_ALLOWED_TOOLS", csvText s.allowedTools),
    ("ISE_DISABLED_TOOLS", csvText s.disabledTools),
    ("ISE_ALLOWED_ENDPOINT_GROUPS", csvText s.allowedEndpointGroups),
    ("ISE_ALLOWED_DEVICE_GROUPS", csvText s.allowedDeviceGroups),
    ("ISE_ALLOWED_SITES", csvText s.allowedSites),
    ("ISE_DEFAULT_PAGE_SIZE", toString s.defaultPageSize),
    ("ISE_MAX_PAGE_SIZE", toString s.maxPageSize),
    ("ISE_INCLUDE_RAW_DEFAULT", boolText s.includeRawDefault),
    ("OAUTH_CLIENT_ID", s.oauthClientId), ("OAUTH_CLIENT_SECRET", s.oauthClientSecret),
    ("OAUTH_REDIRECT_URIS", csvText s.oauthRedirectUris), ("OAUTH_SCOPES", s.oauthScopes),
    ("MCP_API_KEYS", csvText s.apiKeys), ("MCP_HOST", s.host), ("MCP_PORT", toString s.port),
    ("MCP_TRANSPORT", s.transport)]

def environ (s : Settings) : Environ := fun key => s.assignments.lookup key

def ints (s : Settings) : List Int :=
  [s.timeoutSeconds, s.sessionTtlSeconds, s.sessionIdleTimeoutSeconds, s.defaultPageSize,
    s.maxPageSize, s.port]

def lists (s : Settings) : List (List String) :=
  [s.allowedTools, s.disabledTools, s.allowedEndpointGroups, s.allowedDeviceGroups,
    s.allowedSites, s.oauthRedirectUris, s.apiKeys]

/-- The settings pass what `main` checks. -/
structure Accepted (s : Settings) : Prop where
  valid : s.validate = .ok ()
  level : ∃ n, Logging.configureLogging s.logLevel = .ok n

/-- The settings can be written as variables. -/
structure Expressible (s : Settings) : Prop where
  baseUrl : s.iseBaseUrl.toList.getLast? ≠ some '/'
  mcpMode : s.mcpMode = "readonly" ∨ s.mcpMode = "readwrite"
  logLevel : s.logLevel ∈ Logging.levels.map (·.1)
  ints : ∀ n ∈ s.ints, Fits n
  lists : ∀ items ∈ s.lists, ∀ item ∈ items, IsItem item

end Settings

theorem loadConfig_environ {s : Settings} (ha : s.Accepted) (h : s.Expressible) :
    loadConfig s.environ = s := by
  have hbase : rstripSlash s.iseBaseUrl = s.iseBaseUrl := rstripSlash_eq_self h.baseUrl
  have hauth : lower (strip s.authMode) = s.authMode := by
    rcases validate_authMode ha.valid with hmode | hmode <;> rw [hmode] <;> decide
  have hmode : lower (strip s.mcpMode) = s.mcpMode := by
    rcases h.mcpMode with hmode | hmode <;> rw [hmode] <;> decide
  have hlevel : upper s.logLevel = s.logLevel := by
    have hnames : ∀ name ∈ Logging.levels.map (·.1), upper name = name := by decide
    exact hnames _ h.logLevel
  have hget (key : String) {v : String} (hkey : s.environ key = some v) (dflt : String) :
      s.environ.get key dflt = v := Environ.get_of hkey dflt
  have hbool (key : String) {b : Bool} (hkey : s.environ key = some (boolText b)) (dflt : Bool) :
      s.environ.bool key dflt = b := Environ.bool_of hkey dflt
  have hint (key : String) {n : Int} (hmem : n ∈ s.ints)
      (hkey : s.environ key = some (toString n)) (dflt : Int) : s.environ.int key dflt = n :=
    Environ.int_of (h.ints n hmem) hkey dflt
  have hcsv (key : String) {items : List String} (hmem : items ∈ s.lists)
      (hkey : s.environ key = some (csvText items)) : s.environ.csv key = items :=
    Environ.csv_of (h.lists items hmem) hkey
  unfold loadConfig
  apply Settings.ext <;> dsimp only
  case iseBaseUrl => rw [hget "ISE_BASE_URL" rfl, hbase]
  case authMode => rw [hget "ISE_AUTH_MODE" rfl, hauth]
  case mcpMode => rw [hget "ISE_MCP_MODE" rfl, hmode]
  case logLevel => rw [hget "LOG_LEVEL" rfl, hlevel]
  case iseErsBaseUrl => exact hget "ISE_ERS_BASE_URL" rfl _
  case iseMntBaseUrl => exact hget "ISE_MNT_BASE_URL" rfl _
  case iseUsername => exact hget "ISE_USERNAME" rfl _
  case isePassword => exact hget "ISE_PASSWORD" rfl _
  case iseEncodedAuth => exact hget "ISE_ENCODED_AUTH" rfl _
  case iseVersion => exact hget "ISE_VERSION" rfl _
  case sessionHeader => exact hget "MCP_SESSION_HEADER" rfl _
  case oauthClientId => exact hget "OAUTH_CLIENT_ID" rfl _
  case oauthClientSecret => exact hget "OAUTH_CLIENT_SECRET" rfl _
  case oauthScopes => exact hget "OAUTH_SCOPES" rfl _
  case host => exact hget "MCP_HOST" rfl _
  case transport => exact hget "MCP_TRANSPORT" rfl _
  case verifySsl => exact hbool "ISE_VERIFY_SSL" rfl _
  case rateLimitWait => exact hbool "ISE_RATE_LIMIT_WAIT" rfl _
  case enableDangerousTools => exact hbool "ISE_ENABLE_DANGEROUS_TOOLS" rfl _
  case auditLogEnabled => exact hbool "AUDIT_LOG_ENABLED" rfl _
  case includeRawDefault => exact hbool "ISE_INCLUDE_RAW_DEFAULT" rfl _
  case timeoutSeconds => exact hint "ISE_TIMEOUT_SECONDS" (by simp [Settings.ints]) rfl _
  case sessionTtlSeconds => exact hint "ISE_SESSION_TTL_SECONDS" (by simp [Settings.ints]) rfl _
  case sessionIdleTimeoutSeconds =>
      exact hint "ISE_SESSION_IDLE_TIMEOUT_SECONDS" (by simp [Settings.ints]) rfl _
  case defaultPageSize => exact hint "ISE_DEFAULT_PAGE_SIZE" (by simp [Settings.ints]) rfl _
  case maxPageSize => exact hint "ISE_MAX_PAGE_SIZE" (by simp [Settings.ints]) rfl _
  case port => exact hint "MCP_PORT" (by simp [Settings.ints]) rfl _
  case allowedTools => exact hcsv "ISE_ALLOWED_TOOLS" (by simp [Settings.lists]) rfl
  case disabledTools => exact hcsv "ISE_DISABLED_TOOLS" (by simp [Settings.lists]) rfl
  case allowedEndpointGroups =>
      exact hcsv "ISE_ALLOWED_ENDPOINT_GROUPS" (by simp [Settings.lists]) rfl
  case allowedDeviceGroups => exact hcsv "ISE_ALLOWED_DEVICE_GROUPS" (by simp [Settings.lists]) rfl
  case allowedSites => exact hcsv "ISE_ALLOWED_SITES" (by simp [Settings.lists]) rfl
  case oauthRedirectUris => exact hcsv "OAUTH_REDIRECT_URIS" (by simp [Settings.lists]) rfl
  case apiKeys => exact hcsv "MCP_API_KEYS" (by simp [Settings.lists]) rfl

theorem fits_of_lt {n : Int} (h : n.natAbs < 10 ^ 4) : Fits n :=
  h.trans_le (Nat.pow_le_pow_right (by decide) (by decide))

/-- What is read and accepted can be written. -/
theorem loadConfig_expressible {env : Environ} (ha : (loadConfig env).Accepted) :
    (loadConfig env).Expressible where
  baseUrl := rstripSlash_getLast? _
  mcpMode := by
    have hmode := validate_mcpMode ha.valid
    rwa [show lower (loadConfig env).mcpMode = (loadConfig env).mcpMode from lower_lower _] at hmode
  logLevel := by
    obtain ⟨n, hn⟩ := ha.level
    have hupper : upper (loadConfig env).logLevel = (loadConfig env).logLevel :=
      Python.upper_upper _
    unfold Logging.configureLogging at hn
    rw [hupper] at hn
    cases hlookup : Logging.levels.lookup (loadConfig env).logLevel with
    | none =>
        rw [hlookup] at hn
        cases hn
    | some m =>
        obtain ⟨p, hp, hkey⟩ := List.lookup_isSome_iff.mp (Option.isSome_of_eq_some hlookup)
        exact List.mem_map.mpr ⟨p, hp, (beq_iff_eq.mp hkey).symm⟩
  ints := by
    have hread (key : String) {dflt : Int} (h : dflt.natAbs < 10 ^ 4) : Fits (env.int key dflt) :=
      env.int_fits key (fits_of_lt h)
    refine List.forall_mem_cons.mpr ⟨hread _ (by decide), ?_⟩
    refine List.forall_mem_cons.mpr ⟨hread _ (by decide), ?_⟩
    refine List.forall_mem_cons.mpr ⟨hread _ (by decide), ?_⟩
    refine List.forall_mem_cons.mpr ⟨hread _ (by decide), ?_⟩
    refine List.forall_mem_cons.mpr ⟨hread _ (by decide), ?_⟩
    exact List.forall_mem_singleton.mpr (hread _ (by decide))
  lists := by
    have hread (key : String) : ∀ item ∈ env.csv key, IsItem item := env.csv_items key
    intro items hitems
    simp only [Settings.lists, List.mem_cons, List.not_mem_nil, or_false] at hitems
    rcases hitems with rfl | rfl | rfl | rfl | rfl | rfl | rfl <;> exact hread _

/-- **Which settings there can be**: settings that the server starts with come from an environment
just when the texts, lists and integers in them can be written as variables, and then
`Settings.environ` is such an environment. -/
theorem settings_range (s : Settings) (ha : s.Accepted) :
    [∃ env, loadConfig env = s, s.Expressible, loadConfig s.environ = s].TFAE := by
  tfae_have 1 → 2 := by
    rintro ⟨env, rfl⟩
    exact loadConfig_expressible ha
  tfae_have 2 → 3 := loadConfig_environ ha
  tfae_have 3 → 1 := fun h => ⟨_, h⟩
  tfae_finish

/-- An environment with two tools, blanks around them, and a number with an underscore. -/
def sparseEnviron : Environ := fun key =>
  [("ISE_BASE_URL", "https://ise//"), ("ISE_MAX_PAGE_SIZE", " 1_000 "),
    ("ISE_ALLOWED_TOOLS", " ise_whoami , ,ise_logout")].lookup key

/-- Its settings are the same when they are written out and read again. -/
theorem settings_range_sparse :
    loadConfig (loadConfig sparseEnviron).environ = loadConfig sparseEnviron := by
  have haccepted : (loadConfig sparseEnviron).Accepted := ⟨rfl, 20, rfl⟩
  have hread : ∃ env, loadConfig env = loadConfig sparseEnviron := ⟨sparseEnviron, rfl⟩
  exact ((settings_range _ haccepted).out 0 2 rfl rfl).mp hread

end IseMcp
