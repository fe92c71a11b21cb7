import IseMcp.Server
import IseMcp.Text.Html

set_option autoImplicit false

/-! # The login page

`login_page` puts five parameters of the request into hidden fields of a form, and the text of an
error above it, all escaped. For an HTML parser the page has the same tags whatever these are
(`outline_loginPage`), and the fields hold the parameters as far as HTML can carry them: a line
break is a line feed there, and a NUL the replacement character (`hiddenFields_loginPage`). So the
form that the user posts has the parameters the page was asked for (`pageParams_authorizeGet`).
-/

namespace IseMcp

open Python Text Html

namespace OAuthServer

/-! ## The page -/

/-- `h(k)` -/
def h (params : List (String × String)) (k : String) : String :=
  escape ((lastValue params k).getD "")

def pageHead : List String :=
  ["<!doctype html><html><head><meta charset=\"utf-8\">\n",
    "<meta name=\"viewport\" content=\"width=device-width, initial-scale=1\">\n",
    "<title>Cisco ISE MCP — Sign in</title>\n",
    "<style>\n",
    " body\x7bfont-family:Segoe UI,Arial,sans-serif;background:#f3f2f1;margin:0\x7d\n",
    " .card\x7bmax-width:360px;margin:8vh auto;background:#fff;padding:28px;border-radius:8px;\n",
    "   box-shadow:0 2px 12px rgba(0,0,0,.12)\x7d\n",
    " h1\x7bfont-size:18px;margin:0 0 4px\x7d p.sub\x7bcolor:#605e5c;font-size:13px;",
    "margin:0 0 18px\x7d\n",
    " label\x7bdisplay:block;font-size:13px;margin:12px 0 4px\x7d\n",
    " input[type=text],input[type=password]\x7bwidth:100%;box-sizing:border-box;padding:9px;\n",
    "   border:1px solid #c8c6c4;border-radius:4px;font-size:14px\x7d\n",
    " button\x7bmargin-top:18px;width:100%;padding:10px;background:#0f6cbd;color:#fff;border:0;\n",
    "   border-radius:4px;font-size:14px;cursor:pointer\x7d\n",
    " .err\x7bcolor:#a4262c;font-size:13px;background:#fde7e9;padding:8px;border-radius:4px\x7d\n",
    "</style></head><body><div class=\"card\">\n",
    "<h1>Cisco ISE MCP</h1><p class=\"sub\">Sign in with your Cisco ISE credentials.</p>\n"]

/-- `err` -/
def pageError (error : String) : List String :=
  if error ≠ "" then ["<p class=\"err\">", escape error, "</p>"] else []

def pageForm : List String := ["\n", "<form method=\"post\" action=\"/authorize\">\n"]

def hiddenInput (params : List (String × String)) (k : String) : List String :=
  [" <input type=\"hidden\" name=\"", k, "\" value=\"", h params k, "\">\n"]

def pageTail : List String :=
  [" <label>ISE username</label><input type=\"text\" name=\"username\" autocomplete=\"username\"",
    " required>\n",
    " <label>ISE password</label><input type=\"password\" name=\"password\"",
    " autocomplete=\"current-password\" required>\n",
    " <button type=\"submit\">Sign in</button>\n",
    "</form></div></body></html>"]

/-- `login_page` -/
def loginPage (params : List (String × String)) (error : String) : String :=
  String.join (pageHead ++ (pageError error ++ (pageForm ++ (hiddenInput params "client_id"
    ++ (hiddenInput params "redirect_uri" ++ (hiddenInput params "scope"
    ++ (hiddenInput params "state" ++ (hiddenInput params "code_challenge" ++ pageTail))))))))

end OAuthServer

/-! ## The fixed text -/

/-- The characters of a piece of the page. -/
def chars (lines : List String) : List Char := lines.flatMap String.toList

/-- A property of given lines is checked on their characters. -/
theorem of_literals {P : List Char → Prop} (ls : List (List Char)) (h : P ls.flatten) :
    P (chars (ls.map String.ofList)) := by
  have hchars : chars (ls.map String.ofList) = ls.flatten := by
    rw [chars, List.flatMap_map, List.flatten_eq_flatMap]
    exact List.flatMap_congr fun l _ => String.toList_ofList
  rwa [hchars]

/-- A piece of fixed text between two tags, with these fields. -/
structure Fixed (fields : List Tag) (s : List Char) : Prop where
  plain : '\r' ∉ s
  state : (Html.run .data s).1 = .data
  inputs : inputTags (Html.run .data s).2 = fields

/-- A hidden field. -/
def hiddenTag (k : String) (value : List Char) : Tag :=
  ⟨false, "input".toList, [("type".toList, "hidden".toList), ("name".toList, k.toList),
    ("value".toList, value)], false⟩

/-- A field that the user types in. -/
def typedTag (kind name autocomplete : String) : Tag :=
  ⟨false, "input".toList, [("type".toList, kind.toList), ("name".toList, name.toList),
    ("autocomplete".toList, autocomplete.toList), ("required".toList, [])], false⟩

theorem fixed_pageHead : Fixed [] (chars OAuthServer.pageHead) := by
  refine of_literals [_, _, _, _, _, _, _, _, _, _, _, _, _, _, _, _, _] ?_
  exact ⟨by decide +kernel, by decide +kernel, by decide +kernel⟩

theorem fixed_pageForm : Fixed [] (chars OAuthServer.pageForm) := by
  refine of_literals [_, _] ?_
  exact ⟨by decide +kernel, by decide +kernel, by decide +kernel⟩

theorem fixed_pageTail :
    Fixed [typedTag "text" "username" "username", typedTag "password" "password" "current-password"]
      (chars OAuthServer.pageTail) := by
  refine of_literals [_, _, _, _, _, _] ?_
  exact ⟨by decide +kernel, by decide +kernel, by decide +kernel⟩

theorem Fixed.reads {fields : List Tag} {s : List Char} (h : Fixed fields s) :
    Reads s (Html.run .data s).2 :=
  reads_of_run h.plain h.state

/-! ## The text put in -/

/-- What HTML keeps of a text in a field. -/
def fieldText (s : String) : String := .ofList (inputText s.toList)

/-- A name that needs no escaping. -/
def PlainName (k : String) : Prop :=
  ∀ c ∈ k.toList, c ∉ [Html.doubleQuote, '\r', '&', Char.ofNat 0]

instance (k : String) : Decidable (PlainName k) := inferInstanceAs (Decidable (∀ c ∈ k.toList, _))

/-- The tokens of a line for a hidden field. -/
def inputTokens (params : List (String × String)) (k : String) : List Html.Token :=
  [.char ' ', .tag (hiddenTag k
    ((inputText ((lastValue params k).getD "").toList).flatMap escapeChar)), .char '\n']

/-- The line of a hidden field is one tag, whatever the parameter is. -/
theorem reads_hiddenInput (params : List (String × String)) {k : String} (hk : PlainName k) :
    Reads (chars (OAuthServer.hiddenInput params k)) (inputTokens params k) := by
  have hname : ∀ c ∈ k.toList, c ≠ Html.doubleQuote ∧ c ≠ '\r' ∧ c ≠ Char.ofNat 0 := by
    intro c hc
    have := hk c hc
    simp only [List.mem_cons, List.not_mem_nil, or_false, not_or] at this
    exact ⟨this.1, this.2.1, this.2.2.2⟩
  have hnul : k.toList.map replaceNul = k.toList := map_replaceNul fun hc => (hname _ hc).2.2 rfl
  have hquote : Html.doubleQuote ∉ k.toList := fun hc => (hname _ hc).1 rfl
  -- what is put in for the parameter, after the normalisation
  have hvalue : Html.doubleQuote ∉
      (normalizeNewlines ((lastValue params k).getD "").toList).flatMap escapeChar :=
    fun hmem => (mem_escaped hmem).2.2.1 rfl
  refine ⟨(" <input type=\"hidden\" name=\"".toList ++ (k.toList ++ "\" value=\"".toList))
    ++ ((normalizeNewlines ((lastValue params k).getD "").toList).flatMap escapeChar
      ++ "\">\n".toList), fun t => ?_, ?_⟩
  · have hleft : '\r' ∉
        " <input type=\"hidden\" name=\"".toList ++ (k.toList ++ "\" value=\"".toList) := by
      rw [List.mem_append, List.mem_append, not_or, not_or]
      exact ⟨by decide, fun hc => (hname _ hc).2.1 rfl, by decide⟩
    rw [← normalizeNewlines_escaped hleft (by decide) (by decide)]
    simp [chars, OAuthServer.hiddenInput, OAuthServer.h, toList_escape]
  · have hopen : Html.run .data " <input type=\"hidden\" name=\"".toList
        = (.attrValueDouble ⟨false, "input".toList, [("type".toList, "hidden".toList)], false⟩
            "name".toList [], [.char ' ']) := by decide +kernel
    have hnamed : ∀ name, Html.run (.attrValueDouble
          ⟨false, "input".toList, [("type".toList, "hidden".toList)], false⟩ "name".toList name)
          "\" value=\"".toList
        = (.attrValueDouble ⟨false, "input".toList, [("type".toList, "hidden".toList),
            ("name".toList, name)], false⟩ "value".toList [], []) := fun _ => rfl
    have hclose : ∀ value, Html.run (.attrValueDouble ⟨false, "input".toList,
          [("type".toList, "hidden".toList), ("name".toList, k.toList)], false⟩
          "value".toList value) "\">\n".toList
        = (.data, [.tag (hiddenTag k value), .char '\n']) := fun _ => rfl
    have hname' := run_trans (run_attrValue hquote _ _ []) (hnamed _)
    rw [List.nil_append, hnul] at hname'
    have hvalue' := run_trans (run_attrValue hvalue _ _ []) (hclose _)
    rw [List.nil_append, replaceNul_escape] at hvalue'
    exact run_trans (run_trans hopen hname') hvalue'

/-- The tokens of the text of an error. -/
def errorTokens (error : String) : List Html.Token :=
  if error = "" then []
  else .tag ⟨false, "p".toList, [("class".toList, "err".toList)], false⟩
    :: (((normalizeNewlines error.toList).flatMap escapeChar).map .char
      ++ [.tag ⟨true, "p".toList, [], false⟩])

/-- The text of an error is in a paragraph of its own, whatever it is. -/
theorem reads_pageError (error : String) :
    Reads (chars (OAuthServer.pageError error)) (errorTokens error) := by
  unfold OAuthServer.pageError errorTokens
  by_cases he : error = ""
  · rw [if_neg (by simpa using he), if_pos he]
    exact ⟨[], fun _ => rfl, rfl⟩
  · rw [if_pos he, if_neg he]
    refine ⟨"<p class=\"err\">".toList
      ++ ((normalizeNewlines error.toList).flatMap escapeChar ++ "</p>".toList), fun t => ?_, ?_⟩
    · rw [← normalizeNewlines_escaped (by decide) (by decide) (by decide)]
      simp [chars, toList_escape]
    · have htext : '<' ∉ (normalizeNewlines error.toList).flatMap escapeChar :=
        fun hmem => (mem_escaped hmem).1 rfl
      have hopen : Html.run .data "<p class=\"err\">".toList
          = (.data, [.tag ⟨false, "p".toList, [("class".toList, "err".toList)], false⟩]) := by
        decide +kernel
      have hclose : Html.run .data "</p>".toList
          = (.data, [.tag ⟨true, "p".toList, [], false⟩]) := by decide +kernel
      exact run_trans hopen (run_trans (run_text htext) hclose)

/-! ## The page as a whole -/

/-- The tokens of the page. -/
def pageTokens (params : List (String × String)) (error : String) : List Html.Token :=
  (Html.run .data (chars OAuthServer.pageHead)).2 ++ (errorTokens error
    ++ ((Html.run .data (chars OAuthServer.pageForm)).2 ++ (inputTokens params "client_id"
    ++ (inputTokens params "redirect_uri" ++ (inputTokens params "scope"
    ++ (inputTokens params "state" ++ (inputTokens params "code_challenge"
    ++ (Html.run .data (chars OAuthServer.pageTail)).2)))))))

theorem tokenize_loginPage (params : List (String × String)) (error : String) :
    tokenize (OAuthServer.loginPage params error) = pageTokens params error := by
  refine Reads.tokenize ?_
  have hchars : ∀ lines : List String, (String.join lines).toList = chars lines := fun lines => by
    rw [String.toList_join]
    rfl
  rw [OAuthServer.loginPage, hchars]
  simp only [chars, List.flatMap_append]
  exact fixed_pageHead.reads.append ((reads_pageError error).append
    (fixed_pageForm.reads.append ((reads_hiddenInput params (by decide)).append
    ((reads_hiddenInput params (by decide)).append ((reads_hiddenInput params (by decide)).append
    ((reads_hiddenInput params (by decide)).append
    ((reads_hiddenInput params (by decide)).append fixed_pageTail.reads)))))))

theorem outline_errorTokens {error error' : String} (h : error = "" ↔ error' = "") :
    Html.outline (errorTokens error) = Html.outline (errorTokens error') := by
  have hword : ∀ {e : String}, e ≠ "" → Html.outline (errorTokens e)
      = [(false, "p".toList, ["class".toList]), (true, "p".toList, [])] := by
    intro e he
    rw [errorTokens, if_neg he, ← List.singleton_append, Html.outline_append,
      Html.outline_append, outline_text]
    rfl
  by_cases he : error = ""
  · rw [he, h.mp he]
  · rw [hword he, hword fun he' => he (h.mpr he')]

/-- **The page has the same tags for all parameters.** -/
theorem outline_loginPage (params params' : List (String × String)) {error error' : String}
    (h : error = "" ↔ error' = "") :
    Html.outline (tokenize (OAuthServer.loginPage params error))
      = Html.outline (tokenize (OAuthServer.loginPage params' error')) := by
  have hinput : ∀ k, Html.outline (inputTokens params k) = Html.outline (inputTokens params' k) :=
    fun _ => rfl
  rw [tokenize_loginPage, tokenize_loginPage]
  simp only [pageTokens, Html.outline_append, outline_errorTokens h, hinput]

/-- The names of the hidden fields. -/
def hiddenNames : List String := ["client_id", "redirect_uri", "scope", "state", "code_challenge"]

theorem inputTags_errorTokens (error : String) : inputTags (errorTokens error) = [] := by
  unfold errorTokens
  split_ifs with he
  · rfl
  · rw [← List.singleton_append, inputTags_append, inputTags_append, inputTags_text]
    rfl

/-- The fields of the page: the hidden ones, and the two that the user types in. -/
theorem inputTags_loginPage (params : List (String × String)) (error : String) :
    inputTags (tokenize (OAuthServer.loginPage params error))
      = hiddenNames.map (fun k => hiddenTag k
          ((inputText ((lastValue params k).getD "").toList).flatMap escapeChar))
        ++ [typedTag "text" "username" "username",
          typedTag "password" "password" "current-password"] := by
  rw [tokenize_loginPage]
  simp only [pageTokens, inputTags_append, inputTags_errorTokens, fixed_pageHead.inputs,
    fixed_pageForm.inputs, fixed_pageTail.inputs]
  rfl

section

variable (table : EntityTable)

theorem text_name (k : String) (value : List Char) (h : '&' ∉ k.toList) :
    (hiddenTag k value).text table "name" = k := by
  have hattr : (hiddenTag k value).attr "name" = some k.toList := rfl
  rw [Tag.text, hattr, Option.getD_some, unescape_plain table h, String.ofList_toList]

theorem text_typed (kind name autocomplete : String) (h : '&' ∉ name.toList) :
    (typedTag kind name autocomplete).text table "name" = name := by
  have hattr : (typedTag kind name autocomplete).attr "name" = some name.toList := rfl
  rw [Tag.text, hattr, Option.getD_some, unescape_plain table h, String.ofList_toList]

theorem text_value (k s : String) :
    (hiddenTag k ((inputText s.toList).flatMap escapeChar)).text table "value" = fieldText s := by
  have hattr : ∀ value, (hiddenTag k value).attr "value" = some value := fun _ => rfl
  rw [Tag.text, hattr, Option.getD_some, unescape_escapeChars, fieldText]

/-- The hidden fields hold the parameters. -/
theorem hiddenFields_loginPage (params : List (String × String)) (error : String) :
    hiddenFields table (tokenize (OAuthServer.loginPage params error))
      = hiddenNames.map fun k => (k, fieldText ((lastValue params k).getD "")) := by
  have hhidden : ∀ k value, (hiddenTag k value).isHidden = true := fun _ _ => rfl
  have htyped : [typedTag "text" "username" "username",
      typedTag "password" "password" "current-password"].filter Tag.isHidden = [] := rfl
  rw [hiddenFields, inputTags_loginPage, List.filter_append, htyped, List.append_nil,
    List.filter_eq_self.mpr (by simp [hhidden]), List.map_map]
  refine List.map_congr_left fun k hk => ?_
  have hplain : '&' ∉ k.toList := by
    revert k
    decide
  rw [Function.comp_apply, text_name table k _ hplain, text_value]

/-- The form that the browser posts for a page, as the server reads it. -/
def posted (typed : String → String) (page : String) : List (String × String) :=
  FormUrl.decode (submit table typed (tokenize page))

theorem posted_loginPage (typed : String → String) (params : List (String × String))
    (error : String) :
    posted table typed (OAuthServer.loginPage params error)
      = hiddenNames.map (fun k => (k, toCrlf (fieldText ((lastValue params k).getD ""))))
        ++ [("username", toCrlf (typed "username")), ("password", toCrlf (typed "password"))] := by
  have hhidden : ∀ k value, (hiddenTag k value).isHidden = true := fun _ _ => rfl
  have hname : ∀ k ∈ hiddenNames, '&' ∉ k.toList ∧ toCrlf k = k := by decide +kernel
  have htyped : (typedTag "text" "username" "username").isHidden = false ∧
      (typedTag "password" "password" "current-password").isHidden = false := by decide +kernel
  have hcrlf : toCrlf "username" = "username" ∧ toCrlf "password" = "password" := by
    decide +kernel
  rw [posted, submit, FormUrl.decode_encode, entries, inputTags_loginPage, List.map_append,
    List.map_map]
  refine congrArg₂ (· ++ ·) ?_ ?_
  · refine List.map_congr_left fun k hk => ?_
    rw [Function.comp_apply, hhidden, if_pos rfl, text_name table k _ (hname k hk).1, text_value,
      (hname k hk).2]
  · rw [List.map_cons, List.map_singleton, text_typed table _ _ _ (by decide),
      text_typed table _ _ _ (by decide), hcrlf.1, hcrlf.2, htyped.1, htyped.2,
      if_neg Bool.false_ne_true, if_neg Bool.false_ne_true]

/-- **The form that comes back has the parameters that the page was made for.** -/
theorem pageParams_posted (typed : String → String) (params : List (String × String))
    (error : String) :
    pageParams (posted table typed (OAuthServer.loginPage params error))
      = hiddenNames.map fun k => (k, toCrlf (fieldText ((lastValue params k).getD ""))) := by
  rw [posted_loginPage]
  simp [pageParams, hiddenNames, lastValue]

/-- The login page replied to a request gets its parameters back, but for what HTML and the form
change. -/
theorem pageParams_authorizeGet {deps : Deps} {q p : List (String × String)} {status : Nat}
    {error : String} (h : authorizeGet deps q = .ok (.loginPage status p error))
    (typed : String → String) :
    pageParams (posted table typed (OAuthServer.loginPage p error))
      = (pageParams q).map fun kv => (kv.1, toCrlf (fieldText kv.2)) := by
  have hp : p = pageParams q := by
    unfold authorizeGet at h
    generalize deps.provider = provider at h
    generalize compareDigest ((lastValue q "client_id").getD "") deps.cfg.oauthClientId = same at h
    cases provider with
    | serviceAccount _ => cases h
    | passthrough _ =>
        rcases same with e | same
        · simp only [bind, Except.bind, pure, Except.pure] at h
          split_ifs at h
          cases h
        · simp only [bind, Except.bind, pure, Except.pure] at h
          split_ifs at h <;> cases h
          rfl
  rw [hp, pageParams_posted]
  simp [pageParams, hiddenNames, lastValue]

end

/-! ## What HTML and the form leave as it is -/

theorem fieldText_plain {s : String} (hr : '\r' ∉ s.toList) (h0 : Char.ofNat 0 ∉ s.toList) :
    fieldText s = s := by
  rw [fieldText, inputText_plain hr h0, String.ofList_toList]

/-- **The page has the same tags for all parameters, and its hidden fields give them to the next
request.** -/
theorem login_page_carries_params (table : EntityTable) (params : List (String × String))
    (error : String) :
    (∀ params' error', (error = "" ↔ error' = "") →
      Html.outline (tokenize (OAuthServer.loginPage params error))
        = Html.outline (tokenize (OAuthServer.loginPage params' error'))) ∧
    hiddenFields table (tokenize (OAuthServer.loginPage params error))
      = hiddenNames.map (fun k => (k, fieldText ((lastValue params k).getD ""))) ∧
    (∀ s : String, '\r' ∉ s.toList → Char.ofNat 0 ∉ s.toList → fieldText s = s) ∧
    (∀ deps q status, authorizeGet deps q = .ok (.loginPage status params error) → ∀ typed,
      pageParams (posted table typed (OAuthServer.loginPage params error))
        = (pageParams q).map fun kv => (kv.1, toCrlf (fieldText kv.2))) ∧
    (∀ s : String, '\r' ∉ s.toList → '\n' ∉ s.toList → Char.ofNat 0 ∉ s.toList →
      toCrlf (fieldText s) = s) := by
  refine ⟨fun params' error' h => outline_loginPage params params' h,
    hiddenFields_loginPage table params error, fun s => fieldText_plain,
    fun deps q status h typed => pageParams_authorizeGet table h typed, fun s hr hn h0 => ?_⟩
  rw [fieldText_plain hr h0, toCrlf_plain hr hn]

/-- The references that `escape` uses. -/
def markupReferences : List (List Char × List Char) :=
  [("amp;".toList, ['&']), ("lt;".toList, ['<']), ("gt;".toList, ['>']),
    ("quot;".toList, [Html.doubleQuote])]

/-- A table of them alone. -/
def markupTable : EntityTable where
  find s := markupReferences.lookup s
  amp := by decide
  lt := by decide
  gt := by decide
  quot := by decide
  ends name rest h := by
    have hlast : ∀ r ∈ markupReferences, r.1.count ';' = 1 ∧ r.1.getLast? = some ';' := by decide
    obtain ⟨r, hr, hkey⟩ := List.lookup_isSome_iff.mp (Option.isSome_iff_ne_none.mpr h)
    obtain ⟨hcount, hend⟩ := hlast r hr
    rw [← eq_of_beq hkey] at hcount hend
    rw [List.count_append, List.count_cons_self] at hcount
    cases rest with
    | nil => rfl
    | cons c rest =>
        -- the last character would be a second semicolon
        have hmem : ';' ∈ c :: rest := by
          refine List.mem_of_getLast? ?_
          rwa [List.getLast?_append, List.getLast?_cons_cons, Option.or_of_isSome (by simp)] at hend
        have := List.count_pos_iff.mpr hmem
        omega

/-- A server that knows one client and one redirect URI. -/
def pageDeps : Deps where
  cfg := { passthroughDeps.cfg with oauthClientId := "cid", oauthRedirectUris := ["https://cb"] }
  provider := .passthrough (IseClient.validateCredentials
    { passthroughDeps.cfg with oauthClientId := "cid", oauthRedirectUris := ["https://cb"] })
  fromstring := passthroughDeps.fromstring

/-- A request whose state would end the field and open a script. -/
def scriptRequest : List (String × String) :=
  [("response_type", "code"), ("client_id", "cid"), ("redirect_uri", "https://cb"),
    ("state", "\"><script>&lt;&amp")]

theorem script_state_carried :
    Html.outline (tokenize (OAuthServer.loginPage (pageParams scriptRequest) ""))
      = Html.outline (tokenize (OAuthServer.loginPage [] "")) ∧
    pageParams (posted markupTable (fun _ => "alice")
      (OAuthServer.loginPage (pageParams scriptRequest) "")) = pageParams scriptRequest := by
  have hpage : authorizeGet pageDeps scriptRequest
      = .ok (.loginPage 200 (pageParams scriptRequest) "") := rfl
  obtain ⟨htags, _, _, hposted, hplain⟩ :=
    login_page_carries_params markupTable (pageParams scriptRequest) ""
  refine ⟨htags [] "" Iff.rfl, (hposted pageDeps scriptRequest 200 hpage _).trans ?_⟩
  have hall : ∀ kv ∈ pageParams scriptRequest, '\r' ∉ kv.2.toList ∧ '\n' ∉ kv.2.toList ∧
      Char.ofNat 0 ∉ kv.2.toList := by decide +kernel
  refine (List.map_congr_left fun kv hkv => ?_).trans (List.map_id _)
  obtain ⟨hr, hn, h0⟩ := hall kv hkv
  rw [hplain _ hr hn h0]
  rfl

/-- A carriage return and a NUL are not read as such, and a line feed is not posted as such. -/
theorem control_characters_not_carried :
    hiddenFields markupTable
        (tokenize (OAuthServer.loginPage [("scope", "a\x00b"), ("state", "a\rb")] ""))
      ≠ hiddenNames.map (fun k =>
          (k, (lastValue [("scope", "a\x00b"), ("state", "a\rb")] k).getD "")) ∧
    ∀ typed, pageParams (posted markupTable typed (OAuthServer.loginPage [("state", "a\nb")] ""))
      ≠ pageParams [("state", "a\nb")] := by
  refine ⟨?_, fun typed => ?_⟩
  · rw [hiddenFields_loginPage]
    decide +kernel
  · rw [pageParams_posted]
    decide +kernel

end IseMcp
