import Mathlib.Data.List.TakeWhile
import Mathlib.Tactic

set_option autoImplicit false

/-! # The components of a URI reference

`Uri.parse` splits a string into scheme, authority, path, query and fragment as the generic
syntax of RFC 3986 does (the regular expression of its appendix B): the fragment starts at the
first `#`, the query at the first `?` before it, the scheme is a non-empty prefix without
`: / ? #` that a `:` follows, and the authority stands between `//` and the next `/`. It accepts
every string; which characters a component may hold is not checked.

The results are about appending a path to a base (`parse_append`), about the segments between
the slashes of a path, and about paths built from a template by putting arguments into it
(`Template.follows_iff`).
-/

namespace Text

structure Uri where
  scheme : Option (List Char)
  authority : Option (List Char)
  path : List Char
  query : Option (List Char)
  fragment : Option (List Char)
  deriving DecidableEq

namespace Uri

/-- Split at the first `c`, which is dropped. -/
def cut (c : Char) : List Char → List Char × Option (List Char)
  | [] => ([], none)
  | d :: s => if d = c then ([], some s) else ((cut c s).1.cons d, (cut c s).2)

/-- The characters that end a scheme; `?` and `#` are cut off before. -/
def endsScheme (c : Char) : Bool := c == ':' || c == '/'

def splitScheme (s : List Char) : Option (List Char) × List Char :=
  let name := s.takeWhile (!endsScheme ·)
  let rest := s.dropWhile (!endsScheme ·)
  if name ≠ [] ∧ rest.head? = some ':' then (some name, rest.tail) else (none, s)

def splitAuthority (s : List Char) : Option (List Char) × List Char :=
  if s.take 2 = ['/', '/'] then
    (some ((s.drop 2).takeWhile (· != '/')), (s.drop 2).dropWhile (· != '/'))
  else (none, s)

def parse (s : List Char) : Uri :=
  let f := cut '#' s
  let q := cut '?' f.1
  let sch := splitScheme q.1
  let au := splitAuthority sch.2
  ⟨sch.1, au.1, au.2, q.2, f.2⟩

/-- The parts of the path between its slashes; the path of an absolute reference starts with an
empty part. -/
def segments (u : Uri) : List (List Char) := u.path.splitOn '/'

/-- `.` and `..`, which a client may remove from a path together with the segment before. -/
def IsDotSegment (s : List Char) : Prop := s = ['.'] ∨ s = ['.', '.']

instance (s : List Char) : Decidable (IsDotSegment s) := inferInstanceAs (Decidable (_ ∨ _))

/-! ## Cutting -/

theorem cut_of_not_mem {c : Char} {s : List Char} (h : c ∉ s) : cut c s = (s, none) := by
  induction s with
  | nil => rfl
  | cons d s ih =>
      simp only [List.mem_cons, not_or] at h
      rw [cut, if_neg (Ne.symm h.1), ih h.2]

theorem cut_snd_ne_none {c : Char} {s : List Char} (h : c ∈ s) : (cut c s).2 ≠ none := by
  induction s with
  | nil => simp at h
  | cons d s ih =>
      by_cases hd : d = c
      · simp [cut, hd]
      · rw [cut, if_neg hd]
        exact ih ((List.mem_cons.mp h).resolve_left (Ne.symm hd))

/-- The first separator is the one after a part without it. -/
theorem cut_append_cons {c : Char} {a : List Char} (h : c ∉ a) (b : List Char) :
    cut c (a ++ c :: b) = (a, some b) := by
  induction a with
  | nil => simp [cut]
  | cons d a ih =>
      simp only [List.mem_cons, not_or] at h
      rw [List.cons_append, cut, if_neg (Ne.symm h.1), ih h.2]

theorem cut_append_of_not_mem {c : Char} {a : List Char} (h : c ∉ a) (b : List Char) :
    cut c (a ++ b) = (a ++ (cut c b).1, (cut c b).2) := by
  induction a with
  | nil => rfl
  | cons d a ih =>
      simp only [List.mem_cons, not_or] at h
      rw [List.cons_append, cut, if_neg (Ne.symm h.1), ih h.2]
      rfl

/-- Cutting off and putting together again. -/
theorem cut_eq_some {c : Char} {s a b : List Char} (h : cut c s = (a, some b)) :
    s = a ++ c :: b ∧ c ∉ a := by
  induction s generalizing a with
  | nil => simp [cut] at h
  | cons d s ih =>
      by_cases hd : d = c
      · subst hd
        rw [cut, if_pos rfl, Prod.mk.injEq, Option.some.injEq] at h
        obtain ⟨rfl, rfl⟩ := h
        simp
      · rw [cut, if_neg hd, Prod.mk.injEq] at h
        obtain ⟨rfl, hb⟩ := h
        obtain ⟨hs, ha⟩ := ih (a := (cut c s).1) (by rw [← hb])
        refine ⟨?_, ?_⟩
        · rw [List.cons_append, ← hs]
        · simp [Ne.symm hd, ha]

theorem parse_fragment_ne_none {s : List Char} (h : '#' ∈ s) : (parse s).fragment ≠ none :=
  cut_snd_ne_none h

/-- A `?` shows as a query or, behind a `#`, as part of a fragment. -/
theorem parse_query_or_fragment {s : List Char} (h : '?' ∈ s) :
    (parse s).query ≠ none ∨ (parse s).fragment ≠ none := by
  by_cases hf : '#' ∈ s
  · exact Or.inr (parse_fragment_ne_none hf)
  · refine Or.inl ?_
    show (cut '?' (cut '#' s).1).2 ≠ none
    rw [cut_of_not_mem hf]
    exact cut_snd_ne_none h

theorem parse_of_plain {s : List Char} (hq : '?' ∉ s) (hf : '#' ∉ s) :
    parse s = ⟨(splitScheme s).1, (splitAuthority (splitScheme s).2).1,
      (splitAuthority (splitScheme s).2).2, none, none⟩ := by
  simp only [parse, cut_of_not_mem hf, cut_of_not_mem hq]

/-! ## Appending a path to a base -/

/-- What stops a scan inside `b` stops it there whatever follows. -/
theorem scan_append {p : Char → Bool} {b : List Char} (h : ¬ ∀ c ∈ b, p c = true)
    (t : List Char) :
    (b ++ t).takeWhile p = b.takeWhile p ∧ (b ++ t).dropWhile p = b.dropWhile p ++ t := by
  induction b with
  | nil => simp at h
  | cons c b ih =>
      by_cases hc : p c = true
      · have hb : ¬ ∀ c ∈ b, p c = true := by
          intro hb
          refine h fun d hd => ?_
          rcases List.mem_cons.mp hd with rfl | hd
          · exact hc
          · exact hb d hd
        obtain ⟨h₁, h₂⟩ := ih hb
        simp only [List.cons_append, List.takeWhile_cons, List.dropWhile_cons, hc, if_true, h₁,
          h₂, and_self]
      · simp [hc]

theorem splitScheme_append (b t : List Char) :
    splitScheme (b ++ '/' :: t) = ((splitScheme b).1, (splitScheme b).2 ++ '/' :: t) := by
  unfold splitScheme
  by_cases hb : ∀ c ∈ b, (!endsScheme c) = true
  · -- the scan stops at the slash, which is no colon
    have ht : (b ++ '/' :: t).dropWhile (!endsScheme ·) = '/' :: t := by
      rw [List.dropWhile_append_of_pos hb]
      rfl
    have hb' : b.dropWhile (!endsScheme ·) = [] := List.dropWhile_eq_nil_iff.mpr hb
    simp [ht, hb']
  · obtain ⟨htake, hdrop⟩ := scan_append hb ('/' :: t)
    have hne : b.dropWhile (!endsScheme ·) ≠ [] := fun h => hb (List.dropWhile_eq_nil_iff.mp h)
    obtain ⟨d, r, hd⟩ := List.exists_cons_of_ne_nil hne
    simp only [htake, hdrop, hd, List.cons_append, List.head?_cons, List.tail_cons]
    split <;> rfl

/-- The scheme is cut off at the front. -/
theorem splitScheme_snd_suffix (b : List Char) : (splitScheme b).2 <:+ b := by
  unfold splitScheme
  simp only
  split
  · exact (List.tail_suffix _).trans (List.dropWhile_suffix _)
  · exact List.suffix_refl b

theorem splitAuthority_append {b t : List Char} (hb : b ≠ ['/']) (ht : t.head? ≠ some '/') :
    splitAuthority (b ++ '/' :: t) = ((splitAuthority b).1, (splitAuthority b).2 ++ '/' :: t) := by
  match b with
  | [] =>
      cases t with
      | nil => rfl
      | cons c t =>
          have hc : c ≠ '/' := by simpa using ht
          simp [splitAuthority, hc]
  | [c] =>
      have hc : c ≠ '/' := by simpa using hb
      simp [splitAuthority, hc]
  | c :: d :: b =>
      by_cases hcd : c = '/' ∧ d = '/'
      · obtain ⟨rfl, rfl⟩ := hcd
        simp only [splitAuthority, List.cons_append, List.take_succ_cons, List.take_zero,
          List.drop_succ_cons, List.drop_zero, if_true]
        by_cases hs : ∀ e ∈ b, (e != '/') = true
        · -- the authority is all of the base, and the appended path starts where it ends
          rw [List.takeWhile_append_of_pos hs, List.dropWhile_append_of_pos hs,
            List.takeWhile_eq_self_iff.mpr hs, List.dropWhile_eq_nil_iff.mpr hs]
          simp
        · obtain ⟨htake, hdrop⟩ := scan_append hs ('/' :: t)
          rw [htake, hdrop]
      · simp [splitAuthority, hcd]

/-- **A path appended to a base extends the path of the base** and changes no other
component. -/
theorem parse_append {b t : List Char} (hq : '?' ∉ b ++ t) (hf : '#' ∉ b ++ t)
    (hb : b.getLast? ≠ some '/') (ht : t.head? ≠ some '/') :
    parse (b ++ '/' :: t) = { parse b with path := (parse b).path ++ '/' :: t } := by
  simp only [List.mem_append, not_or] at hq hf
  -- what is left behind the scheme ends as the base does
  have hlast : (splitScheme b).2 ≠ ['/'] := by
    intro h
    obtain ⟨r, hr⟩ := splitScheme_snd_suffix b
    rw [h] at hr
    simp [← hr] at hb
  rw [parse_of_plain (by simp [hq]) (by simp [hf]), parse_of_plain hq.1 hf.1,
    splitScheme_append, splitAuthority_append hlast ht]

/-- A scheme, an authority and a path put together are the components of the result. -/
theorem parse_origin {scheme host path : List Char} (hne : scheme ≠ [])
    (hscheme : ∀ c ∈ scheme, c ∉ [':', '/', '?', '#']) (hhost : ∀ c ∈ host, c ∉ ['/', '?', '#'])
    (hpath : ∀ c ∈ path, c ∉ ['?', '#']) (hslash : path = [] ∨ path.head? = some '/') :
    parse (scheme ++ ':' :: '/' :: '/' :: (host ++ path))
      = ⟨some scheme, some host, path, none, none⟩ := by
  have hclean : ∀ c, c = '?' ∨ c = '#' → c ∉ scheme ++ ':' :: '/' :: '/' :: (host ++ path) := by
    intro c hc hmem
    simp only [List.mem_append, List.mem_cons] at hmem
    rcases hmem with hmem | rfl | rfl | rfl | hmem | hmem
    · exact hscheme c hmem (by rcases hc with rfl | rfl <;> decide)
    · rcases hc with hc | hc <;> exact absurd hc (by decide)
    · rcases hc with hc | hc <;> exact absurd hc (by decide)
    · rcases hc with hc | hc <;> exact absurd hc (by decide)
    · exact hhost c hmem (by rcases hc with rfl | rfl <;> decide)
    · exact hpath c hmem (by rcases hc with rfl | rfl <;> decide)
  have hscan : ∀ c ∈ scheme, (!endsScheme c) = true := by
    intro c hc
    have h := hscheme c hc
    simp only [List.mem_cons, List.not_mem_nil, or_false, not_or] at h
    simp [endsScheme, h.1, h.2.1]
  have hsplit : splitScheme (scheme ++ ':' :: '/' :: '/' :: (host ++ path))
      = (some scheme, '/' :: '/' :: (host ++ path)) := by
    have htake : ((':' :: '/' :: '/' :: (host ++ path)).takeWhile (!endsScheme ·)) = [] := rfl
    have hdrop : ((':' :: '/' :: '/' :: (host ++ path)).dropWhile (!endsScheme ·))
        = ':' :: '/' :: '/' :: (host ++ path) := rfl
    unfold splitScheme
    simp only [List.takeWhile_append_of_pos hscan, List.dropWhile_append_of_pos hscan, htake, hdrop]
    rw [if_pos ⟨by simpa using hne, rfl⟩, List.append_nil, List.tail_cons]
  have hauthority : splitAuthority ('/' :: '/' :: (host ++ path)) = (some host, path) := by
    have hslashless : ∀ c ∈ host, (c != '/') = true := by
      intro c hc
      have h := hhost c hc
      simp only [List.mem_cons, List.not_mem_nil, or_false, not_or] at h
      simpa using h.1
    have hstop : path.takeWhile (· != '/') = [] ∧ path.dropWhile (· != '/') = path := by
      rcases hslash with rfl | hslash
      · exact ⟨rfl, rfl⟩
      · cases path with
        | nil => exact ⟨rfl, rfl⟩
        | cons c path =>
            have hc : c = '/' := by simpa using hslash
            subst hc
            exact ⟨rfl, rfl⟩
    have htwo : ('/' :: '/' :: (host ++ path)).take 2 = ['/', '/'] := rfl
    rw [splitAuthority, if_pos htwo]
    show (some ((host ++ path).takeWhile _), (host ++ path).dropWhile _) = _
    rw [List.takeWhile_append_of_pos hslashless, List.dropWhile_append_of_pos hslashless, hstop.1,
      hstop.2, List.append_nil]
  rw [parse_of_plain (hclean '?' (Or.inl rfl)) (hclean '#' (Or.inr rfl)), hsplit]
  simp only [hauthority]

/-! ## Segments -/

theorem not_mem_of_mem_splitOn {c : Char} {s : List Char} :
    ∀ l ∈ s.splitOn c, c ∉ l := by
  induction s with
  | nil => simp
  | cons d s ih =>
      rw [List.splitOn_cons_eq_if_modifyHead]
      by_cases hd : (d == c) = true
      · rw [if_pos hd]
        intro l hl
        rcases List.mem_cons.mp hl with rfl | hl
        · simp
        · exact ih l hl
      · rw [if_neg hd]
        obtain ⟨a, as, h⟩ := List.exists_cons_of_ne_nil (List.splitOn_ne_nil c s)
        rw [h] at ih ⊢
        intro l hl
        rcases List.mem_cons.mp hl with rfl | hl
        · have := ih a List.mem_cons_self
          simp only [List.mem_cons, not_or]
          exact ⟨fun hc => hd (by simp [hc]), this⟩
        · exact ih l (List.mem_cons_of_mem _ hl)

theorem segments_append (p t : List Char) :
    (p ++ '/' :: t).splitOn '/' = p.splitOn '/' ++ t.splitOn '/' :=
  List.splitOn_append_cons_self p t

/-- A separator between lists stands before every list but the first. -/
theorem join_cons (d : Char) (l : List Char) (ls : List (List Char)) :
    [d].intercalate (l :: ls) = l ++ ls.flatMap (d :: ·) := by
  induction ls generalizing l with
  | nil => simp
  | cons l' ls ih =>
      rw [List.intercalate_cons_cons, ih, List.flatMap_cons]
      simp

theorem mem_join {c d : Char} (h : c ≠ d) {ls : List (List Char)} :
    c ∈ [d].intercalate ls ↔ ∃ l ∈ ls, c ∈ l := by
  cases ls with
  | nil => simp
  | cons l ls => simp [join_cons, h]

/-! ## Path templates -/

/-- The characters that end a segment of a path. -/
def delimiters : List Char := ['/', '?', '#']

/-- A part of a template between two slashes: a fixed text, or an argument put in as it is. -/
inductive Part where
  | fixed (text : List Char)
  | argument (text : List Char)

def Part.text : Part → List Char
  | .fixed text => text
  | .argument text => text

@[simp] theorem Part.text_fixed (text : List Char) : (Part.fixed text).text = text := rfl

@[simp] theorem Part.text_argument (text : List Char) : (Part.argument text).text = text := rfl

/-- The part stays one segment of a path it is put into; an argument is no dot segment. -/
structure Part.Safe (p : Part) : Prop where
  plain : ∀ c ∈ p.text, c ∉ delimiters
  notDot : ∀ a, p = .argument a → ¬ IsDotSegment a

/-- A path template with its arguments, below a fixed first segment. -/
structure Template where
  root : List Char
  parts : List Part
  root_ne : root ≠ []
  root_plain : ∀ c ∈ root, c ∉ delimiters

namespace Template

/-- The segments of the path. -/
def texts (t : Template) : List (List Char) := t.root :: t.parts.map Part.text

/-- The path, without its first slash. -/
def path (t : Template) : List Char := ['/'].intercalate t.texts

/-- What a template promises of a URL below a base: the scheme and the authority of the base, the
path of the base with the segments of the template, each argument being one of them and no dot
segment, and neither a query nor a fragment. -/
structure Follows (t : Template) (base url : List Char) : Prop where
  scheme : (parse url).scheme = (parse base).scheme
  authority : (parse url).authority = (parse base).authority
  segments : (parse url).segments = (parse base).segments ++ t.texts
  notDot : ∀ a, .argument a ∈ t.parts → ¬ IsDotSegment a
  query : (parse url).query = none
  fragment : (parse url).fragment = none

theorem texts_ne_nil (t : Template) : t.texts ≠ [] := List.cons_ne_nil _ _

theorem delimiters_in_texts {t : Template} :
    (∀ l ∈ t.texts, ∀ c ∈ l, c ∉ delimiters) ↔ ∀ p ∈ t.parts, ∀ c ∈ p.text, c ∉ delimiters := by
  simp only [texts, List.forall_mem_cons, List.forall_mem_map, and_iff_right_iff_imp]
  exact fun _ => t.root_plain

theorem path_head? (t : Template) : t.path.head? ≠ some '/' := by
  obtain ⟨c, root, hroot⟩ := List.exists_cons_of_ne_nil t.root_ne
  have hc : c ≠ '/' := by
    rintro rfl
    exact t.root_plain '/' (by simp [hroot]) (by decide)
  rw [path, texts, join_cons, hroot]
  simpa using hc

/-- Such a URL has nothing that starts a query or a fragment. -/
theorem Follows.plain {t : Template} {base url : List Char} (h : t.Follows base url) :
    '?' ∉ url ∧ '#' ∉ url :=
  ⟨fun hmem => (parse_query_or_fragment hmem).elim (· h.query) (· h.fragment),
    fun hmem => parse_fragment_ne_none hmem h.fragment⟩

/-- **When the arguments put into a template keep to it**: the base has neither a query nor a
fragment, no argument has a character that ends a segment, and none is a dot segment. -/
theorem follows_iff (t : Template) {base : List Char} (hbase : base.getLast? ≠ some '/') :
    t.Follows base (base ++ '/' :: t.path) ↔
      ('?' ∉ base ∧ '#' ∉ base) ∧ ∀ p ∈ t.parts, p.Safe := by
  constructor
  · intro h
    obtain ⟨hq, hf⟩ := h.plain
    simp only [List.mem_append, List.mem_cons, not_or] at hq hf
    have hsegments := h.segments
    rw [parse_append (by simp [hq]) (by simp [hf]) hbase t.path_head?, segments, segments,
      segments_append, List.append_cancel_left_eq] at hsegments
    -- the segments of the path are the texts, so no text has a slash
    have hslash : ∀ l ∈ t.texts, '/' ∉ l := by
      rw [← hsegments]
      exact not_mem_of_mem_splitOn
    have hplain : ∀ l ∈ t.texts, ∀ c ∈ l, c ∉ delimiters := by
      intro l hl c hc hmem
      have hpath : c ≠ '/' → c ∈ t.path := fun hne => (mem_join hne).mpr ⟨l, hl, hc⟩
      simp only [delimiters, List.mem_cons, List.not_mem_nil, or_false] at hmem
      rcases hmem with rfl | rfl | rfl
      · exact hslash l hl hc
      · exact hq.2.2 (hpath (by decide))
      · exact hf.2.2 (hpath (by decide))
    refine ⟨⟨hq.1, hf.1⟩, fun p hp => ⟨delimiters_in_texts.mp hplain p hp, ?_⟩⟩
    rintro a rfl
    exact h.notDot a hp
  · rintro ⟨⟨hq, hf⟩, hsafe⟩
    have hplain := delimiters_in_texts.mpr fun p hp => (hsafe p hp).plain
    have hpath : ∀ c ∈ delimiters, c ≠ '/' → c ∉ t.path := by
      intro c hc hne hmem
      obtain ⟨l, hl, hcl⟩ := (mem_join hne).mp hmem
      exact hplain l hl c hcl hc
    -- no text has a slash, so the path splits into the texts
    have hsplit : t.path.splitOn '/' = t.texts :=
      List.splitOn_intercalate '/' (fun l hl hmem => hplain l hl '/' hmem (by decide))
        t.texts_ne_nil
    have hparse := parse_append (b := base) (t := t.path)
      (by simp [hq, hpath '?' (by decide) (by decide)])
      (by simp [hf, hpath '#' (by decide) (by decide)]) hbase t.path_head?
    rw [parse_of_plain hq hf] at hparse
    refine ⟨?_, ?_, ?_, fun a ha => (hsafe _ ha).notDot a rfl, ?_, ?_⟩ <;> rw [hparse]
    · rw [parse_of_plain hq hf]
    · rw [parse_of_plain hq hf]
    · rw [parse_of_plain hq hf, segments, segments, segments_append, hsplit]

end Template

end Uri

end Text
