import IseMcp.OAuth

set_option autoImplicit false

/-! # The redirect with the code

`redirect_with_code` appends `code` and `state` to a redirect URI as text, with `&` if `urlparse`
finds a query in it and with `?` otherwise. A client reads them back (`CarriesCode`) unless the text
lands elsewhere: behind the `#` of a fragment, or behind a second `?` where the query is there but
empty for `urlparse`. `redirect_carries_code_iff` says that these are the cases, besides the URIs
that `urlparse` refuses and the states that have no encoding.
-/

namespace IseMcp

open Python Text

/-- The parameters in the query of a URI. -/
def queryParams (u : Uri) : List (String × String) := FormUrl.decode (u.query.getD [])

/-- What the client is sent. -/
def codeParams (code state : PyStr) : List (PyStr × PyStr) :=
  ("code", code) :: if state = "" then [] else [("state", state)]

/-- The same for texts without surrogates. -/
def textParams (code state : String) : List (String × String) :=
  ("code", code) :: if state = "" then [] else [("state", state)]

/-- `url` is `uri` with the code and the state after its parameters. -/
structure Extends (uri : String) (code state : PyStr) (url : String) : Prop where
  scheme : (Uri.parse url.toList).scheme = (Uri.parse uri.toList).scheme
  authority : (Uri.parse url.toList).authority = (Uri.parse uri.toList).authority
  path : (Uri.parse url.toList).path = (Uri.parse uri.toList).path
  fragment : (Uri.parse url.toList).fragment = (Uri.parse uri.toList).fragment
  params : UrlParse.ofTexts (queryParams (Uri.parse url.toList))
    = UrlParse.ofTexts (queryParams (Uri.parse uri.toList)) ++ codeParams code state

section

variable (checkBracketed : List Char → Except PyExc Unit)

/-- What `redirect_with_code` is meant to guarantee. -/
def CarriesCode (uri : String) (code state : PyStr) : Prop :=
  ∃ url, OAuthServer.redirectWithCode checkBracketed uri code state = .ok url ∧
    Extends uri code state url

/-- A redirect URI that text can be appended to: `urlparse` does not refuse its authority, it has no
fragment, and its query, if there is one, is more than tabs and line breaks. -/
structure Appendable (uri : String) : Prop where
  authority : UrlParse.checkNetloc checkBracketed (UrlParse.netloc uri.toList) = .ok ()
  fragment : (Uri.parse uri.toList).fragment = none
  query : ∀ q, (Uri.parse uri.toList).query = some q → ∃ c ∈ q, UrlParse.isUnsafe c = false

end

/-! ## Where the text lands -/

theorem hash_not_mem_encode (kvs : List (String × String)) :
    '#' ∉ FormUrl.encode UrlParse.alwaysSafe kvs := by
  have hhex : ∀ n < 16, '#' ≠ FormUrl.hexDigit n := by decide
  refine FormUrl.not_mem_encode (by decide) hhex ?_ kvs
  intro b hb h
  have hkeeps : ((Char.ofNat b.toNat).isAlphanum ||
      decide (Char.ofNat b.toNat ∈ ['_', '.', '-', '~'])) = true := hb
  rw [← h] at hkeeps
  exact absurd hkeeps (by decide)

/-- Text behind a fragment is read as part of it. -/
theorem fragment_append {s a b : List Char} (h : Uri.cut '#' s = (a, some b)) (t : List Char) :
    (Uri.parse (s ++ t)).fragment = some (b ++ t) := by
  obtain ⟨rfl, ha⟩ := Uri.cut_eq_some h
  show (Uri.cut '#' (a ++ '#' :: b ++ t)).2 = _
  rw [List.append_assoc, List.cons_append, Uri.cut_append_cons ha]

/-- Text behind a query is read as part of it. -/
theorem parse_append_query {s a q t : List Char} (hs : '#' ∉ s) (ht : '#' ∉ t)
    (h : Uri.cut '?' s = (a, some q)) :
    Uri.parse (s ++ t) = { Uri.parse s with query := some (q ++ t) } := by
  have hst : '#' ∉ s ++ t := by
    rw [List.mem_append, not_or]
    exact ⟨hs, ht⟩
  obtain ⟨heq, ha⟩ := Uri.cut_eq_some h
  have hcut : Uri.cut '?' (s ++ t) = (a, some (q ++ t)) := by
    rw [heq, List.append_assoc, List.cons_append, Uri.cut_append_cons ha]
  simp only [Uri.parse, Uri.cut_of_not_mem hs, Uri.cut_of_not_mem hst, h, hcut]

/-- Without a query, `?` starts one. -/
theorem parse_append_mark {s t : List Char} (hs : '#' ∉ s) (hq : '?' ∉ s) (ht : '#' ∉ t) :
    Uri.parse (s ++ '?' :: t) = { Uri.parse s with query := some t } := by
  have hst : '#' ∉ s ++ '?' :: t := by
    rw [List.mem_append, List.mem_cons, not_or, not_or]
    exact ⟨hs, by decide, ht⟩
  simp only [Uri.parse, Uri.cut_of_not_mem hs, Uri.cut_of_not_mem hst, Uri.cut_of_not_mem hq,
    Uri.cut_append_cons hq]

theorem query_of_plain {s : List Char} (hs : '#' ∉ s) :
    (Uri.parse s).query = (Uri.cut '?' s).2 := by
  simp only [Uri.parse, Uri.cut_of_not_mem hs]

/-! ## What the client reads -/

section

variable {checkBracketed : List Char → Except PyExc Unit} {uri : String}

theorem codeParams_ofString (code state : String) :
    codeParams code state = UrlParse.ofTexts (textParams code state) := by
  rw [codeParams, textParams, UrlParse.ofTexts, List.map_cons]
  by_cases hstate : state = ""
  · rw [if_pos hstate, if_pos (congrArg PyStr.ofString hstate)]
    rfl
  · rw [if_neg hstate, if_neg fun h => hstate (PyStr.ofString_injective h)]
    rfl

/-- For texts, the parameters are compared as texts. -/
theorem params_iff {code state : String} {ps qs : List (String × String)} :
    UrlParse.ofTexts ps = UrlParse.ofTexts qs ++ codeParams code state ↔
      ps = qs ++ textParams code state := by
  have happend : UrlParse.ofTexts qs ++ codeParams code state
      = UrlParse.ofTexts (qs ++ textParams code state) := by
    rw [codeParams_ofString, UrlParse.ofTexts, UrlParse.ofTexts, UrlParse.ofTexts, List.map_append]
  rw [happend]
  exact UrlParse.ofTexts_injective.eq_iff

/-- Parameters that have a text have no surrogates. -/
theorem codeParams_encodable {code state : PyStr} {kvs : List (String × String)}
    (h : codeParams code state = UrlParse.ofTexts kvs) : code.Encodable ∧ state.Encodable := by
  obtain ⟨⟨_, c⟩, rest, _, hcode, hrest⟩ := List.map_eq_cons_iff.mp h.symm
  obtain rfl : PyStr.ofString c = code := congrArg Prod.snd hcode
  refine ⟨PyStr.encodable_ofString c, ?_⟩
  by_cases hstate : state = ""
  · rw [hstate]
    exact PyStr.encodable_ofString ""
  · rw [if_neg hstate] at hrest
    obtain ⟨⟨_, t⟩, _, _, ht, _⟩ := List.map_eq_cons_iff.mp hrest
    obtain rfl : PyStr.ofString t = state := congrArg Prod.snd ht
    exact PyStr.encodable_ofString t

theorem redirectWithCode_ok_iff {code state : PyStr} {url : String} :
    OAuthServer.redirectWithCode checkBracketed uri code state = .ok url ↔
      ∃ r kvs, UrlParse.urlsplit checkBracketed uri.toList = .ok r ∧
        codeParams code state = UrlParse.ofTexts kvs ∧
        url = uri ++ (if r.query = [] then "?" else "&")
          ++ String.ofList (FormUrl.encode UrlParse.alwaysSafe kvs) := by
  constructor
  · intro h
    obtain ⟨r, hr, h⟩ := bind_eq_ok.mp h
    obtain ⟨text, htext, h⟩ := bind_eq_ok.mp h
    obtain ⟨kvs, hkvs, rfl⟩ := UrlParse.urlencode_ok_iff.mp htext
    cases h
    exact ⟨r, kvs, hr, hkvs, rfl⟩
  · rintro ⟨r, kvs, hr, hkvs, rfl⟩
    have htext := UrlParse.urlencode_ok_iff.mpr ⟨kvs, hkvs, rfl⟩
    exact (bind_of_ok hr).trans (bind_of_ok htext)

/-- The text of the redirect. -/
theorem toList_redirect (sep : Char) (kvs : List (String × String)) :
    (uri ++ String.ofList [sep] ++ String.ofList (FormUrl.encode UrlParse.alwaysSafe kvs)).toList
      = uri.toList ++ sep :: FormUrl.encode UrlParse.alwaysSafe kvs := by
  simp

/-- The query is empty for `urlparse` exactly if it consists of tabs and line breaks. -/
theorem query_eq_nil_iff {r : UrlParse.SplitResult} (hfrag : '#' ∉ uri.toList)
    (hr : UrlParse.urlsplit checkBracketed uri.toList = .ok r) :
    r.query = [] ↔
      ∀ q, (Uri.parse uri.toList).query = some q → ∀ c ∈ q, UrlParse.isUnsafe c = true := by
  rw [UrlParse.query_urlsplit checkBracketed hfrag hr, List.filter_eq_nil_iff]
  cases (Uri.parse uri.toList).query with
  | none => simp
  | some q => simp

/-- Behind a second question mark, the name of the first parameter is not `code`. -/
theorem decode_second_mark {q : List Char} (hq : ∀ c ∈ q, UrlParse.isUnsafe c = true)
    (code : String) (kvs : List (String × String)) :
    FormUrl.decode (q ++ '?' :: FormUrl.encode UrlParse.alwaysSafe (("code", code) :: kvs))
      ≠ FormUrl.decode q ++ ("code", code) :: kvs := by
  have hplain : ∀ c, UrlParse.isUnsafe c = true → c.toNat < 128 ∧ c ∉ ['%', '+', '&', '='] := by
    intro c hc
    simp only [UrlParse.isUnsafe, Bool.or_eq_true, beq_iff_eq] at hc
    rcases hc with (rfl | rfl) | rfl <;> decide
  have hand : '&' ∉ q := fun h => (hplain _ (hq _ h)).2 (by decide)
  have heq : '=' ∉ q := fun h => (hplain _ (hq _ h)).2 (by decide)
  have hread : ∀ s : List Char, (∀ c ∈ s, UrlParse.isUnsafe c = true ∨ c ∈ "?code".toList) →
      FormUrl.unquotePlus s = .ofList s := by
    intro s hs
    refine FormUrl.unquotePlus_plain fun c hc => ?_
    rcases hs c hc with hu | hm
    · have := (hplain c hu).2
      simp only [List.mem_cons, List.not_mem_nil, or_false, not_or] at this ⊢
      exact ⟨(hplain c hu).1, this.1, this.2.1⟩
    · have hall : ∀ c ∈ "?code".toList, c.toNat < 128 ∧ c ∉ ['%', '+'] := by decide
      exact hall c hm
  -- the first name that is read ends in `?code`
  have hfirst : (FormUrl.decodePair
      (q ++ '?' :: FormUrl.encodePair UrlParse.alwaysSafe ("code", code))).1
      = .ofList (q ++ "?code".toList) := by
    have hcode : FormUrl.quotePlus UrlParse.alwaysSafe "code" = "code".toList := by decide
    have hcut : '=' ∉ q ++ "?code".toList := by
      rw [List.mem_append, not_or]
      exact ⟨heq, by decide⟩
    have hsplit : q ++ '?' :: FormUrl.encodePair UrlParse.alwaysSafe ("code", code)
        = (q ++ "?code".toList) ++ '=' :: FormUrl.quotePlus UrlParse.alwaysSafe code := by
      rw [FormUrl.encodePair, hcode, List.append_assoc]
      rfl
    rw [FormUrl.decodePair, hsplit, Uri.cut_append_cons hcut]
    refine hread _ fun c hc => ?_
    exact (List.mem_append.mp hc).imp_left (hq c)
  have hlhs : FormUrl.decode
      (q ++ '?' :: FormUrl.encode UrlParse.alwaysSafe (("code", code) :: kvs))
      = FormUrl.decodePair (q ++ '?' :: FormUrl.encodePair UrlParse.alwaysSafe ("code", code))
        :: kvs := by
    have hmark : '&' ∉ q ++ ['?'] := by
      rw [List.mem_append, not_or]
      exact ⟨hand, by decide⟩
    have h := FormUrl.decode_prefix_encode UrlParse.alwaysSafe hmark ("code", code) kvs
    simpa using h
  intro h
  rw [hlhs] at h
  by_cases hnil : q = []
  · subst hnil
    have hname := congrArg Prod.fst (List.cons.inj h).1
    rw [hfirst] at hname
    have hne : String.ofList ([] ++ "?code".toList) ≠ "code" := by decide
    exact hne hname
  · rw [FormUrl.decode_single hnil hand] at h
    have hname := congrArg Prod.fst (List.cons.inj h).1
    rw [hfirst, FormUrl.decodePair, Uri.cut_of_not_mem heq] at hname
    simp only at hname
    rw [hread q fun c hc => Or.inl (hq c hc)] at hname
    have := String.ofList_injective hname
    simp at this

/-- A URI whose fragment stays what it was when text is appended has none. -/
theorem fragment_eq_none {text : String} (htext : text.toList ≠ [])
    (h : (Uri.parse (uri ++ text).toList).fragment = (Uri.parse uri.toList).fragment) :
    (Uri.parse uri.toList).fragment = none := by
  rcases hcut : Uri.cut '#' uri.toList with ⟨a, _ | b⟩
  · show (Uri.cut '#' uri.toList).2 = none
    rw [hcut]
  · have hold : (Uri.parse uri.toList).fragment = some b := by
      show (Uri.cut '#' uri.toList).2 = some b
      rw [hcut]
    rw [String.toList_append, fragment_append hcut, hold, Option.some.injEq,
      List.append_right_eq_self] at h
    exact absurd h htext

/-- Behind a fragment the text lands in the fragment, and behind a bare `?` in a second query. -/
theorem appendable_of_extends {code state url : String}
    (hurl : OAuthServer.redirectWithCode checkBracketed uri code state = .ok url)
    (hext : Extends uri code state url) : Appendable checkBracketed uri := by
  obtain ⟨r, kvs, hr, hkvs, rfl⟩ := redirectWithCode_ok_iff.mp hurl
  obtain rfl := UrlParse.ofTexts_injective ((codeParams_ofString code state).symm.trans hkvs)
  have henc := hash_not_mem_encode (textParams code state)
  have hfrag : (Uri.parse uri.toList).fragment = none := by
    have hboth := hext.fragment
    rw [String.append_assoc] at hboth
    refine fragment_eq_none ?_ hboth
    split_ifs <;> simp
  have hplain : '#' ∉ uri.toList := fun h => Uri.parse_fragment_ne_none h hfrag
  refine ⟨(UrlParse.urlsplit_ok_iff checkBracketed).mp ⟨r, hr⟩, hfrag, fun q hq => ?_⟩
  by_contra hnone
  have hunsafe : ∀ c ∈ q, UrlParse.isUnsafe c = true := by
    intro c hc
    by_contra hsafe
    exact hnone ⟨c, hc, by simpa using hsafe⟩
  have hempty : r.query = [] := by
    rw [query_eq_nil_iff hplain hr]
    intro q' hq'
    rw [hq, Option.some.injEq] at hq'
    exact hq' ▸ hunsafe
  have hparams := params_iff.mp hext.params
  rw [if_pos hempty, show "?" = String.ofList ['?'] from rfl, toList_redirect] at hparams
  rw [query_of_plain hplain] at hq
  have hcut : Uri.cut '?' uri.toList = ((Uri.cut '?' uri.toList).1, some q) := by rw [← hq]
  have hmark : '#' ∉ '?' :: FormUrl.encode UrlParse.alwaysSafe (textParams code state) := by
    rw [List.mem_cons, not_or]
    exact ⟨by decide, henc⟩
  rw [parse_append_query hplain hmark hcut, queryParams, queryParams, query_of_plain hplain,
    hq] at hparams
  exact decode_second_mark hunsafe code _ hparams

theorem CarriesCode.appendable {code state : PyStr}
    (h : CarriesCode checkBracketed uri code state) :
    Appendable checkBracketed uri ∧ code.Encodable ∧ state.Encodable := by
  obtain ⟨url, hurl, hext⟩ := h
  obtain ⟨_, _, _, hkvs, _⟩ := redirectWithCode_ok_iff.mp hurl
  obtain ⟨hcode, hstate⟩ := codeParams_encodable hkvs
  obtain ⟨c, rfl⟩ := PyStr.encodable_iff.mp hcode
  obtain ⟨t, rfl⟩ := PyStr.encodable_iff.mp hstate
  exact ⟨appendable_of_extends hurl hext, hcode, hstate⟩

/-- Otherwise the text starts the query or goes on with it. -/
theorem Appendable.carries (h : Appendable checkBracketed uri) (code state : String) :
    CarriesCode checkBracketed uri code state := by
  have henc := hash_not_mem_encode (textParams code state)
  obtain ⟨hauth, hfrag, hquery⟩ := h
  obtain ⟨r, hr⟩ := (UrlParse.urlsplit_ok_iff checkBracketed).mpr hauth
  have hplain : '#' ∉ uri.toList := fun h => Uri.parse_fragment_ne_none h hfrag
  refine ⟨_, redirectWithCode_ok_iff.mpr ⟨r, _, hr, codeParams_ofString code state, rfl⟩, ?_⟩
  have hnil := query_eq_nil_iff hplain hr
  rcases hq : (Uri.parse uri.toList).query with _ | q
  · have hempty : r.query = [] := by
      rw [hnil, hq]
      simp
    have hmark : '?' ∉ uri.toList := by
      intro h
      rw [query_of_plain hplain] at hq
      exact Uri.cut_snd_ne_none h hq
    have hparse := parse_append_mark hplain hmark henc
    rw [if_pos hempty, show "?" = String.ofList ['?'] from rfl]
    refine ⟨?_, ?_, ?_, ?_, params_iff.mpr ?_⟩ <;> rw [toList_redirect, hparse]
    rw [queryParams, queryParams, hq, Option.getD_some, FormUrl.decode_encode]
    rfl
  · have hnonempty : r.query ≠ [] := by
      obtain ⟨c, hc, hsafe⟩ := hquery q hq
      rw [Ne, hnil]
      intro hall
      rw [hall q hq c hc] at hsafe
      cases hsafe
    have hand : '#' ∉ '&' :: FormUrl.encode UrlParse.alwaysSafe (textParams code state) := by
      rw [List.mem_cons, not_or]
      exact ⟨by decide, henc⟩
    have hcut : Uri.cut '?' uri.toList = ((Uri.cut '?' uri.toList).1, some q) := by
      rw [query_of_plain hplain] at hq
      rw [← hq]
    have hparse := parse_append_query hplain hand hcut
    rw [if_neg hnonempty, show "&" = String.ofList ['&'] from rfl]
    refine ⟨?_, ?_, ?_, ?_, params_iff.mpr ?_⟩ <;> rw [toList_redirect, hparse]
    rw [queryParams, queryParams, hq, Option.getD_some, Option.getD_some, FormUrl.decode_append,
      FormUrl.decode_encode]

end

/-- **When the redirect carries the code back**: exactly if the redirect URI is one that text can be
appended to, and the code and the state have an encoding. -/
theorem redirect_carries_code_iff (checkBracketed : List Char → Except PyExc Unit) (uri : String)
    (code state : PyStr) :
    CarriesCode checkBracketed uri code state ↔
      Appendable checkBracketed uri ∧ code.Encodable ∧ state.Encodable := by
  refine ⟨CarriesCode.appendable, ?_⟩
  rintro ⟨happ, hcode, hstate⟩
  obtain ⟨c, rfl⟩ := PyStr.encodable_iff.mp hcode
  obtain ⟨t, rfl⟩ := PyStr.encodable_iff.mp hstate
  exact happ.carries c t

example : OAuthServer.redirectWithCode (fun _ => .ok ()) "https://cb/redirect" "CODE" "ST"
    = .ok "https://cb/redirect?code=CODE&state=ST" := by decide

/-- A configured redirect URI that ends in its question mark: the client is sent `?code`. -/
theorem empty_query_loses_code :
    ¬ ∀ checkBracketed cfg uri code state, OAuthServer.redirectOk cfg (some uri) = true →
      CarriesCode checkBracketed uri code state := by
  intro h
  have hok := h (fun _ => .ok ())
    { Config.default with iseBaseUrl := "https://ise",
                          oauthRedirectUris := ["https://cb/redirect?"] }
    "https://cb/redirect?" "CODE" "ST" (by decide)
  obtain ⟨c, hc, _⟩ := hok.appendable.1.query [] (by decide)
  cases hc

end IseMcp
