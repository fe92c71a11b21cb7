import IseMcp.Python.Surrogates
import IseMcp.Text.FormUrl

set_option autoImplicit false

/-! # `urllib.parse`

`urlsplit`, and `urlencode` with `quote_plus`. `urlparse` is `urlsplit` with the parameters of the
path taken out of the path; the server reads the query only, which is the same. The check of an
authority with brackets has changed between versions of Python, and is a parameter here.

`query_urlsplit` compares the query of `urlsplit` with the one of the generic syntax.
-/

namespace Python

open Text

namespace UrlParse

structure SplitResult where
  scheme : List Char
  netloc : List Char
  path : List Char
  query : List Char
  fragment : List Char
  deriving DecidableEq

/-- `_WHATWG_C0_CONTROL_OR_SPACE` -/
def isC0ControlOrSpace (c : Char) : Bool := c.toNat ≤ 0x20

/-- `_UNSAFE_URL_BYTES_TO_REMOVE` -/
def isUnsafe (c : Char) : Bool := c == '\t' || c == '\r' || c == '\n'

/-- `scheme_chars` -/
def isSchemeChar (c : Char) : Bool := c.isAlphanum || c == '+' || c == '-' || c == '.'

/-- What is looked at: leading control characters and spaces are dropped, tabs and line breaks
everywhere. -/
def cleaned (url : List Char) : List Char :=
  (url.dropWhile isC0ControlOrSpace).filter (!isUnsafe ·)

/-- A name before the first colon, if it can be a scheme, and the rest. -/
def splitScheme (url : List Char) : List Char × List Char :=
  match Uri.cut ':' url with
  | (c :: name, some rest) =>
      if c.isAlpha ∧ (c :: name).all isSchemeChar then ((c :: name).map Char.toLower, rest)
      else ([], url)
  | _ => ([], url)

/-- What ends an authority. -/
def endsNetloc (c : Char) : Bool := c == '/' || c == '?' || c == '#'

/-- `_splitnetloc`, if there is an authority. -/
def splitNetloc (url : List Char) : List Char × List Char :=
  if url.take 2 = ['/', '/'] then
    ((url.drop 2).takeWhile (!endsNetloc ·), (url.drop 2).dropWhile (!endsNetloc ·))
  else ([], url)

/-- The authority of a URL. -/
def netloc (url : List Char) : List Char := (splitNetloc (splitScheme (cleaned url)).2).1

/-- The characters beyond ASCII that NFKC maps to a text with `/`, `?`, `#`, `@` or `:`. -/
def lookalikes : List Nat :=
  [0x2047, 0x2048, 0x2049, 0x2100, 0x2101, 0x2105, 0x2106, 0x2A74, 0xFE13, 0xFE16, 0xFE55, 0xFE56,
    0xFE5F, 0xFE6B, 0xFF03, 0xFF0F, 0xFF1A, 0xFF1F, 0xFF20]

section

variable (checkBracketed : List Char → Except PyExc Unit)

/-- The checks on an authority: brackets come in pairs and around a host that may have them, and no
character looks like a delimiter (`_checknetloc`). -/
def checkNetloc (netloc : List Char) : Except PyExc Unit := do
  if ('[' ∈ netloc ∧ ']' ∉ netloc) ∨ (']' ∈ netloc ∧ '[' ∉ netloc) then
    throw (exc .valueError "Invalid IPv6 URL")
  if '[' ∈ netloc ∧ ']' ∈ netloc then checkBracketed netloc
  if netloc.any fun c => lookalikes.contains c.toNat then
    throw (exc .valueError ("netloc '" ++ .ofList netloc
      ++ "' contains invalid characters under NFKC normalization"))

/-- `urlsplit(url)` -/
def urlsplit (url : List Char) : Except PyExc SplitResult := do
  let sch := splitScheme (cleaned url)
  let net := splitNetloc sch.2
  checkNetloc checkBracketed net.1
  let frag := Uri.cut '#' net.2
  let q := Uri.cut '?' frag.1
  return ⟨sch.1, net.1, q.1, q.2.getD [], frag.2.getD []⟩

/-- Only the authority can be refused. -/
theorem urlsplit_ok_iff {url : List Char} :
    (∃ r, urlsplit checkBracketed url = .ok r) ↔
      checkNetloc checkBracketed (netloc url) = .ok () := by
  constructor
  · rintro ⟨r, h⟩
    obtain ⟨_, hok, _⟩ := bind_eq_ok.mp h
    exact hok
  · intro h
    exact ⟨_, bind_of_ok h⟩

/-! ## The query -/

theorem splitScheme_plain {c : Char} (hc : isSchemeChar c = false) (hcolon : c ≠ ':')
    (url : List Char) : ∃ pre, url = pre ++ (splitScheme url).2 ∧ c ∉ pre := by
  unfold splitScheme
  split
  · rename_i d name rest heq
    obtain ⟨hurl, _⟩ := Uri.cut_eq_some heq
    split_ifs with hscheme
    · refine ⟨d :: name ++ [':'], by rw [hurl]; simp, ?_⟩
      intro hmem
      rcases List.mem_append.mp hmem with hmem | hmem
      · have := List.all_eq_true.mp hscheme.2 c hmem
        rw [hc] at this
        cases this
      · exact hcolon (List.mem_singleton.mp hmem)
    · exact ⟨[], rfl, by simp⟩
  · exact ⟨[], rfl, by simp⟩

theorem splitNetloc_plain {c : Char} (hc : endsNetloc c = true) (hslash : c ≠ '/')
    (url : List Char) : ∃ pre, url = pre ++ (splitNetloc url).2 ∧ c ∉ pre := by
  unfold splitNetloc
  split_ifs with h
  · refine ⟨['/', '/'] ++ (url.drop 2).takeWhile (!endsNetloc ·), ?_, ?_⟩
    · rw [List.append_assoc, List.takeWhile_append_dropWhile, ← h, List.take_append_drop]
    · intro hmem
      rcases List.mem_append.mp hmem with hmem | hmem
      · simp [hslash] at hmem
      · have := List.mem_takeWhile_imp hmem
        rw [hc] at this
        cases this
  · exact ⟨[], rfl, by simp⟩

theorem cut_filter {c : Char} {p : Char → Bool} (hc : p c = true) (s : List Char) :
    Uri.cut c (s.filter p) = ((Uri.cut c s).1.filter p, (Uri.cut c s).2.map (List.filter p)) := by
  induction s with
  | nil => rfl
  | cons d s ih =>
      by_cases hd : d = c
      · subst hd
        rw [List.filter_cons, if_pos hc]
        simp [Uri.cut]
      · by_cases hp : p d = true
        · rw [List.filter_cons, if_pos hp, Uri.cut, Uri.cut, if_neg hd, if_neg hd, ih]
          simp [hp]
        · rw [List.filter_cons, if_neg hp, Uri.cut, if_neg hd, ih]
          simp [hp]

theorem cut_dropWhile {c : Char} {p : Char → Bool} (hc : p c = false) (s : List Char) :
    (Uri.cut c (s.dropWhile p)).2 = (Uri.cut c s).2 := by
  have hnot : c ∉ s.takeWhile p := by
    intro hmem
    have := List.mem_takeWhile_imp hmem
    rw [hc] at this
    cases this
  have hcut := Uri.cut_append_of_not_mem hnot (s.dropWhile p)
  rw [List.takeWhile_append_dropWhile] at hcut
  rw [hcut]

/-- **The query of `urlsplit`** is the one of the generic syntax, without tabs and line breaks. -/
theorem query_urlsplit {url : List Char} {r : SplitResult} (hfrag : '#' ∉ url)
    (h : urlsplit checkBracketed url = .ok r) :
    r.query = ((Uri.parse url).query.getD []).filter (!isUnsafe ·) := by
  obtain ⟨_, _, h⟩ := bind_eq_ok.mp h
  cases h
  obtain ⟨pre, hpre, hnot⟩ := splitScheme_plain (c := '?') (by decide) (by decide) (cleaned url)
  obtain ⟨pre', hpre', hnot'⟩ :=
    splitNetloc_plain (c := '?') (by decide) (by decide) (splitScheme (cleaned url)).2
  -- what stands before the path has no question mark
  have hclean : Uri.cut '?' (cleaned url)
      = (pre ++ (pre' ++ (Uri.cut '?' (splitNetloc (splitScheme (cleaned url)).2).2).1),
          (Uri.cut '?' (splitNetloc (splitScheme (cleaned url)).2).2).2) := by
    conv_lhs => rw [hpre, hpre', Uri.cut_append_of_not_mem hnot, Uri.cut_append_of_not_mem hnot']
  have hfrag' : '#' ∉ (splitNetloc (splitScheme (cleaned url)).2).2 := by
    intro hmem
    have hmem' : '#' ∈ cleaned url := by
      rw [hpre, hpre']
      simp [hmem]
    have hdrop := (List.mem_filter.mp hmem').1
    exact hfrag ((List.dropWhile_suffix _).subset hdrop)
  show (Uri.cut '?' (Uri.cut '#' (splitNetloc (splitScheme (cleaned url)).2).2).1).2.getD []
    = ((Uri.cut '?' (Uri.cut '#' url).1).2.getD []).filter (!isUnsafe ·)
  rw [Uri.cut_of_not_mem hfrag', Uri.cut_of_not_mem hfrag]
  have hquery := congrArg Prod.snd hclean
  rw [cleaned, cut_filter (by decide), cut_dropWhile (by decide)] at hquery
  rw [← cleaned] at hquery
  rw [← hquery]
  cases (Uri.cut '?' url).2 <;> rfl

end

/-! ## Encoding -/

/-- `_ALWAYS_SAFE` -/
def alwaysSafe : FormUrl.SafeBytes := FormUrl.alphanumericAnd ['_', '.', '-', '~'] (by decide)

/-- `quote_plus(string)`; the encoding is strict. -/
def quotePlus (s : PyStr) : Except PyExc (List Char) := do
  return (← s.encode).flatMap (FormUrl.quoteByte alwaysSafe)

/-- One item of `urlencode`. -/
def quotePair (kv : PyStr × PyStr) : Except PyExc (List Char) := do
  return (← quotePlus kv.1) ++ '=' :: (← quotePlus kv.2)

/-- `urlencode(query)` -/
def urlencode (query : List (PyStr × PyStr)) : Except PyExc String := do
  return .ofList (['&'].intercalate (← query.mapM quotePair))

/-- Names and values without surrogates. -/
def ofTexts (kvs : List (String × String)) : List (PyStr × PyStr) :=
  kvs.map (Prod.map PyStr.ofString PyStr.ofString)

theorem ofTexts_injective : Function.Injective ofTexts :=
  (PyStr.ofString_injective.prodMap PyStr.ofString_injective).list_map

theorem quotePlus_ok_iff {s : PyStr} {cs : List Char} :
    quotePlus s = .ok cs ↔ ∃ t : String, s = t ∧ cs = FormUrl.quotePlus alwaysSafe t := by
  constructor
  · intro h
    obtain ⟨b, hb, h⟩ := bind_eq_ok.mp h
    obtain ⟨t, rfl, rfl⟩ := PyStr.encode_ok_iff.mp hb
    cases h
    exact ⟨t, rfl, rfl⟩
  · rintro ⟨t, rfl, rfl⟩
    exact bind_of_ok (PyStr.encode_ofString t)

theorem quotePair_ok_iff {kv : PyStr × PyStr} {cs : List Char} :
    quotePair kv = .ok cs ↔ ∃ kv' : String × String,
      kv = kv'.map PyStr.ofString PyStr.ofString ∧ cs = FormUrl.encodePair alwaysSafe kv' := by
  obtain ⟨k, v⟩ := kv
  constructor
  · intro h
    obtain ⟨name, hname, h⟩ := bind_eq_ok.mp h
    obtain ⟨value, hvalue, h⟩ := bind_eq_ok.mp h
    obtain ⟨k, rfl, rfl⟩ := quotePlus_ok_iff.mp hname
    obtain ⟨v, rfl, rfl⟩ := quotePlus_ok_iff.mp hvalue
    cases h
    exact ⟨(k, v), rfl, rfl⟩
  · rintro ⟨⟨k', v'⟩, hkv, rfl⟩
    cases hkv
    rw [quotePair, bind_of_ok (quotePlus_ok_iff.mpr ⟨k', rfl, rfl⟩),
      bind_of_ok (quotePlus_ok_iff.mpr ⟨v', rfl, rfl⟩)]
    rfl

/-- What succeeds on the images of `g` only succeeds on lists of them. -/
theorem mapM_ok_iff_of_image {α β γ : Type} {f : α → Except PyExc β} {g : γ → α} {h : γ → β}
    (hf : ∀ {x y}, f x = .ok y ↔ ∃ t, x = g t ∧ y = h t) {xs : List α} {ys : List β} :
    xs.mapM f = .ok ys ↔ ∃ ts : List γ, xs = ts.map g ∧ ys = ts.map h := by
  induction xs generalizing ys with
  | nil =>
      rw [List.mapM_nil]
      constructor
      · rintro ⟨⟩
        exact ⟨[], rfl, rfl⟩
      · rintro ⟨ts, hts, rfl⟩
        obtain rfl := List.map_eq_nil_iff.mp hts.symm
        rfl
  | cons x xs ih =>
      rw [List.mapM_cons]
      constructor
      · intro hxs
        obtain ⟨y, hy, hxs⟩ := bind_eq_ok.mp hxs
        obtain ⟨rest, hrest, hxs⟩ := bind_eq_ok.mp hxs
        obtain ⟨t, rfl, rfl⟩ := hf.mp hy
        obtain ⟨ts, rfl, rfl⟩ := ih.mp hrest
        cases hxs
        exact ⟨t :: ts, rfl, rfl⟩
      · rintro ⟨ts, hts, rfl⟩
        obtain ⟨t, ts, rfl, rfl, rfl⟩ := List.map_eq_cons_iff.mp hts.symm
        rw [bind_of_ok (hf.mpr ⟨t, rfl, rfl⟩), bind_of_ok (ih.mpr ⟨ts, rfl, rfl⟩)]
        rfl

/-- **What `urlencode` returns** is the form encoding of its texts; a surrogate it refuses. -/
theorem urlencode_ok_iff {query : List (PyStr × PyStr)} {text : String} :
    urlencode query = .ok text ↔
      ∃ kvs, query = ofTexts kvs ∧ text = .ofList (FormUrl.encode alwaysSafe kvs) := by
  constructor
  · intro h
    obtain ⟨parts, hparts, h⟩ := bind_eq_ok.mp h
    obtain ⟨kvs, rfl, rfl⟩ := (mapM_ok_iff_of_image quotePair_ok_iff).mp hparts
    cases h
    exact ⟨kvs, rfl, rfl⟩
  · rintro ⟨kvs, rfl, rfl⟩
    exact bind_of_ok ((mapM_ok_iff_of_image quotePair_ok_iff).mpr ⟨kvs, rfl, rfl⟩)

end UrlParse

end Python
