import IseMcp.Ise.SessionWalk

set_option autoImplicit false

/-! # Session summaries

What `summarize_session` reports of a document from MNT. Of one flat record a field is lost when
its tag is repeated, because the conversion makes a list of the repeated texts and the walk picks up
nothing from a list (`summary_keeps_field_iff`). Of several records the walk keeps the first value
under each tag, whichever record it stands in (`one_session_iff`). -/

namespace IseMcp

open Python Grouping

/-! ## One record -/

namespace Element

def text : Element → Option String
  | .mk _ text _ => text

/-- The text of a childless element, without the white space around it. -/
def stripped (e : Element) : String := strip (e.text.getD "")

end Element

/-- The texts that are not blank among the children with one tag, in order. -/
def reportedTexts (cs : List Element) (tag : String) : List String :=
  ((cs.filter fun c => c.tag = tag).map Element.stripped).filter (· ≠ "")

def firstText (cs : List Element) (tag : String) : Option String := (reportedTexts cs tag).head?

/-- What a field should be: the first text under its primary tag, or else under its alternative. -/
def reportedField (cs : List Element) (f : SessionField) : Option String :=
  (firstText cs f.primary).or (f.alternative.bind (firstText cs))

/-- Whether exactly one child has this tag. -/
def OccursOnce (cs : List Element) (tag : String) : Prop :=
  (cs.filter fun c => c.tag = tag).length = 1

instance (cs : List Element) (tag : String) : Decidable (OccursOnce cs tag) :=
  inferInstanceAs (Decidable (_ = 1))

/-- The text that the walk meets under a tag. -/
def foundText (cs : List Element) (tag : String) : Option String :=
  if OccursOnce cs tag then firstText cs tag else none

/-- When a field is reported: a text under the primary tag needs that tag only once, or to stand
under the alternative tag as well, and that only once; without one, the alternative tag may not be
repeated if it has a text. -/
def Reported (cs : List Element) (f : SessionField) : Prop :=
  match firstText cs f.primary with
  | some s =>
      OccursOnce cs f.primary ∨
        ∃ alt, f.alternative = some alt ∧ OccursOnce cs alt ∧ firstText cs alt = some s
  | none => ∀ alt, f.alternative = some alt → OccursOnce cs alt ∨ firstText cs alt = none

theorem elem_of_childless {c : Element} (h : c.children = []) :
    elem c = if c.stripped = "" then .none else .str c.stripped := by
  obtain ⟨tag, text, cs⟩ := c
  obtain rfl : cs = [] := h
  rw [elem]
  rfl

/-- Children of one tag leave no leaves of their own: the only one is text, several are a list of
texts, which stand under no key. -/
theorem leaves_gather {vs : List PyVal} (h : ∀ v ∈ vs, leaves v = []) : leaves (gather vs) = [] := by
  have hlist : ∀ ws : List PyVal, (∀ v ∈ ws, leaves v = []) → leavesElems ws = [] := by
    intro ws hws
    induction ws with
    | nil => rfl
    | cons w ws ih =>
        rw [List.forall_mem_cons] at hws
        rw [leavesElems, hws.1, ih hws.2]
        rfl
  match vs, h with
  | [], _ => rfl
  | [v], h => exact h v (List.mem_singleton_self v)
  | v :: w :: vs, h => exact hlist _ h

/-- The leaves of a dictionary whose values have none are its scalars. -/
theorem lookup_leavesItems_map {ks : List String} {F : String → PyVal}
    (hF : ∀ k ∈ ks, leaves (F k) = []) (t : String) :
    PyVal.lookup (leavesItems (ks.map fun k => (k, F k))) t
      = if t ∈ ks ∧ isScalar (F t) = true then some (F t) else none := by
  induction ks with
  | nil => simp [leavesItems, PyVal.lookup]
  | cons k ks ih =>
      rw [List.forall_mem_cons] at hF
      rw [List.map_cons, leavesItems, lookup_append, ih hF.2, hF.1]
      by_cases hk : t = k
      · subst hk
        by_cases hs : isScalar (F t) = true
        · simp [hs, PyVal.lookup]
        · simp [hs, PyVal.lookup]
      · have hnone : PyVal.lookup (if isScalar (F k) = true then [(k, F k)] else []) t = none := by
          split_ifs
          · rw [PyVal.lookup, List.lookup_cons, beq_eq_false_iff_ne.mpr hk]
            rfl
          · rfl
        rw [hnone, Option.none_or]
        simp [hk]

section

variable {tag : String} {text : Option String} {cs : List Element}

/-- What the walk finds first under a tag: the text of the child with this tag if there is just
one, and nothing if there are more. -/
theorem firstReported_record (hne : cs ≠ []) (hleaf : ∀ c ∈ cs, c.children = []) (t : String) :
    firstReported (.dict [(tag, elem (.mk tag text cs))]) t =
      match cs.filter fun c => c.tag = t with
      | [c] => elem c
      | _ => .none := by
  have hflat : ∀ c ∈ cs, leaves (elem c) = [] := by
    intro c hc
    rw [elem_of_childless (hleaf c hc)]
    split_ifs <;> rfl
  have hvalues : ∀ k, ∀ v ∈ values (converted cs) k, leaves v = [] := by
    intro k v hv
    rw [values_converted] at hv
    obtain ⟨c, hc, rfl⟩ := List.mem_map.mp hv
    exact hflat c (List.mem_of_mem_filter hc)
  have hleaves : leaves (.dict [(tag, elem (.mk tag text cs))])
      = leavesItems (group gather (converted cs)) := by
    rw [elem_of_children hne, leaves, leavesItems, leavesItems, List.append_nil]
    rfl
  have hlookup : (leavesItems (group gather (converted cs))).lookup t
      = if t ∈ keys (converted cs) ∧ isScalar (gather (values (converted cs) t)) = true then
          some (gather (values (converted cs) t)) else none :=
    lookup_leavesItems_map (fun k _ => leaves_gather (hvalues k)) t
  rw [firstReported, hleaves, hlookup, values_converted]
  match hcs : cs.filter fun c => c.tag = t with
  | [] =>
      rw [hcs]
      simp [gather, isScalar]
  | c :: d :: ds =>
      rw [hcs]
      simp [gather, isScalar]
  | [c] =>
      have hmem : t ∈ keys (converted cs) := by
        by_contra hk
        have hnil := values_eq_nil_iff.mpr hk
        rw [values_converted, hcs] at hnil
        cases hnil
      have hc : c.children = [] := by
        refine hleaf c (List.mem_of_mem_filter (p := fun c => c.tag = t) ?_)
        rw [hcs]
        exact List.mem_singleton_self c
      rw [hcs]
      show Option.getD (if t ∈ keys (converted cs) ∧ isScalar (elem c) = true then some (elem c)
        else none) .none = elem c
      by_cases hs : isScalar (elem c) = true
      · rw [if_pos ⟨hmem, hs⟩, Option.getD_some]
      · have hnone : elem c = .none := by
          rw [elem_of_childless hc] at hs ⊢
          split_ifs at hs ⊢
          · rfl
          · exact absurd rfl hs
        rw [if_neg fun h => hs h.2, hnone]
        rfl

/-- The same in terms of the texts. -/
theorem firstReported_eq (hne : cs ≠ []) (hleaf : ∀ c ∈ cs, c.children = []) (t : String) :
    firstReported (.dict [(tag, elem (.mk tag text cs))]) t = .ofOption (foundText cs t) := by
  have hfound : foundText cs t = if (cs.filter fun c => c.tag = t).length = 1 then
      (((cs.filter fun c => c.tag = t).map Element.stripped).filter (· ≠ "")).head? else none := rfl
  rw [firstReported_record hne hleaf, hfound]
  clear hfound
  have hmem : ∀ c ∈ cs.filter (fun c => c.tag = t), c.children = [] :=
    fun c hc => hleaf c (List.mem_of_mem_filter hc)
  generalize cs.filter (fun c => c.tag = t) = named at hmem ⊢
  match named, hmem with
  | [], _ => rfl
  | c :: d :: ds, _ => rfl
  | [c], hmem =>
      show elem c = _
      rw [elem_of_childless (hmem c (List.mem_singleton_self c))]
      by_cases hb : c.stripped = "" <;> simp [hb, PyVal.ofOption]

/-- A text that is met is not empty, so `or` is that of options. -/
theorem or_ofOption_foundText (t : String) (v : Option String) :
    (PyVal.ofOption (foundText cs t)).or (.ofOption v) = .ofOption ((foundText cs t).or v) := by
  cases h : foundText cs t with
  | none => rfl
  | some s =>
      have hfirst : firstText cs t = some s := by
        rw [foundText] at h
        split_ifs at h
        exact h
      have hs : s ≠ "" := by simpa using (List.mem_filter.mp (List.mem_of_head? hfirst)).2
      have htruthy : (PyVal.str s).truthy = true := by simpa [PyVal.truthy] using hs
      exact if_pos htruthy

/-- A field of the summary of one record. -/
theorem value_record (hne : cs ≠ []) (hleaf : ∀ c ∈ cs, c.children = []) (f : SessionField) :
    f.value (summarizeSession (.dict [(tag, elem (.mk tag text cs))]))
      = .ofOption ((foundText cs f.primary).or (f.alternative.bind (foundText cs))) := by
  rw [value_summarizeSession, firstReported_eq hne hleaf]
  cases f.alternative with
  | none => simp
  | some alt =>
      dsimp only
      rw [firstReported_eq hne hleaf, or_ofOption_foundText]
      rfl

end

theorem ofOption_inj {a b : Option String} : PyVal.ofOption a = PyVal.ofOption b ↔ a = b := by
  constructor
  · intro h
    cases a <;> cases b <;> simp_all [PyVal.ofOption]
  · exact congrArg _

/-- What is met is what is there first, when the tags allow it. -/
theorem foundText_eq_iff (cs : List Element) (f : SessionField) :
    (foundText cs f.primary).or (f.alternative.bind (foundText cs)) = reportedField cs f ↔
      Reported cs f := by
  rw [reportedField, Reported]
  cases hfirst : firstText cs f.primary with
  | none =>
      have hfound : foundText cs f.primary = none := by rw [foundText, hfirst, ite_self]
      rw [hfound, Option.none_or, Option.none_or]
      cases f.alternative with
      | none => simp
      | some alt =>
          simp only [Option.bind_some, Option.some.injEq, forall_eq']
          by_cases honce : OccursOnce cs alt
          · simp [foundText, honce]
          · simp [foundText, honce, eq_comm]
  | some s =>
      rw [Option.some_or]
      by_cases honce : OccursOnce cs f.primary
      · simp [foundText, honce, hfirst]
      · have hfound : foundText cs f.primary = none := if_neg honce
        rw [hfound, Option.none_or]
        cases f.alternative with
        | none => simp [honce]
        | some alt =>
            simp only [Option.bind_some, Option.some.injEq, exists_eq_left', honce, false_or]
            by_cases honce' : OccursOnce cs alt <;> simp [foundText, honce']

/-- **A session summary reports a field exactly when its tags allow it** (`Reported`), for every
document whose root has children, all of them childless. -/
theorem summary_keeps_field_iff {fromstring : XmlParser} {xml tag : String} {text : Option String}
    {cs : List Element} (hxml : strip xml ≠ "") (hparse : fromstring xml = .ok (.mk tag text cs))
    (hne : cs ≠ []) (hleaf : ∀ c ∈ cs, c.children = []) (f : SessionField) :
    ∃ parsed, xmlToDict fromstring xml = .ok parsed ∧
      (f.value (summarizeSession parsed) = .ofOption (reportedField cs f) ↔ Reported cs f) := by
  refine ⟨.dict [(tag, elem (.mk tag text cs))], ?_, ?_⟩
  · rw [xmlToDict, if_neg hxml, hparse]
  · rw [value_record hne hleaf, ofOption_inj]
    exact foundText_eq_iff cs f

/-- A record with the user name twice. -/
def twoUserNames : List Element :=
  [.mk "user_name" (some "alice") [], .mk "user_name" (some "bob") []]

def twoUserNamesXml : String :=
  "<sessionParameters><user_name>alice</user_name><user_name>bob</user_name></sessionParameters>"

theorem summary_keeps_field_two_names :
    ∃ parsed, xmlToDict (fun _ => .ok (.mk "sessionParameters" none twoUserNames)) twoUserNamesXml
        = .ok parsed ∧
      (SessionField.username.value (summarizeSession parsed)
        = .ofOption (reportedField twoUserNames .username) ↔ Reported twoUserNames .username) :=
  summary_keeps_field_iff (by decide +kernel) rfl (by simp [twoUserNames])
    (by simp [twoUserNames, Element.children]) .username

/-- The first of two user names is not reported, nor is the other. -/
theorem repeated_user_name_lost :
    ∃ parsed, xmlToDict (fun _ => .ok (.mk "sessionParameters" none twoUserNames)) twoUserNamesXml
        = .ok parsed ∧
      SessionField.username.value (summarizeSession parsed) = .none ∧
      reportedField twoUserNames .username = some "alice" := by
  refine ⟨.dict [("sessionParameters", elem (.mk "sessionParameters" none twoUserNames))], ?_, ?_⟩
  · rw [xmlToDict, if_neg (by decide +kernel)]
  · rw [value_record (by simp [twoUserNames]) (by simp [twoUserNames, Element.children])]
    constructor <;> decide +kernel

/-! ## Several records -/

/-- A session record: a dictionary of scalars, any of them missing. -/
structure SessionRecord where
  items : List (String × PyVal)
  scalar : ∀ e ∈ items, e.2 = .none ∨ isScalar e.2 = true

namespace SessionRecord

/-- What the record reports. -/
def reported (r : SessionRecord) : List (String × PyVal) := r.items.filter fun e => e.2 ≠ .none

/-- The record gives `v` for the field, under one tag or the other. -/
def Carries (r : SessionRecord) (f : SessionField) (v : PyVal) : Prop :=
  ∃ k, (k = f.primary ∨ f.alternative = some k) ∧ (k, v) ∈ r.reported

theorem leavesItems_items (r : SessionRecord) : leavesItems r.items = r.reported := by
  obtain ⟨items, scalar⟩ := r
  rw [reported]
  induction items with
  | nil => rfl
  | cons e items ih =>
      obtain ⟨k, v⟩ := e
      rw [List.forall_mem_cons] at scalar
      rw [leavesItems, ih scalar.2, List.filter_cons]
      rcases scalar.1 with rfl | hv
      · rfl
      · have hne : v ≠ .none := by
          rintro rfl
          cases hv
        simp [hv, hne]

end SessionRecord

/-- One layer of a document around the place where the records stand. -/
inductive Frame where
  | item (before : List (String × PyVal)) (key : String) (after : List (String × PyVal))
  | element (before after : List PyVal)

namespace Frame

def plug (v : PyVal) : Frame → PyVal
  | item before key after => .dict (before ++ (key, v) :: after)
  | element before after => .list (before ++ v :: after)

def leavesBefore : Frame → List (String × PyVal)
  | item before _ _ => leavesItems before
  | element before _ => leavesElems before

def leavesAfter : Frame → List (String × PyVal)
  | item _ _ after => leavesItems after
  | element _ after => leavesElems after

theorem leaves_plug (fr : Frame) {v : PyVal} (hv : isScalar v = false) :
    leaves (fr.plug v) = fr.leavesBefore ++ leaves v ++ fr.leavesAfter := by
  cases fr with
  | item before key after =>
      rw [plug, leaves, leavesItems_append, leavesItems, if_neg (by simp [hv]), leavesBefore,
        leavesAfter, List.append_assoc]
  | element before after =>
      rw [plug, leaves, leavesElems_append, leavesElems, leavesBefore, leavesAfter,
        List.append_assoc]

end Frame

/-- A document with the records in a list, `frames` deep. -/
def document (frames : List Frame) (records : List SessionRecord) : PyVal :=
  frames.foldr (fun fr v => fr.plug v) (.list (records.map fun r => .dict r.items))

/-- The parts of the document in order: what stands before the records, layer by layer, the
records one by one, and what stands after them. -/
def parts (frames : List Frame) (records : List SessionRecord) : List (List (String × PyVal)) :=
  frames.map Frame.leavesBefore ++ records.map SessionRecord.reported
    ++ frames.reverse.map Frame.leavesAfter

/-- The value given under a tag by the first part that reports it. -/
def firstSaid (ps : List (List (String × PyVal))) (tag : String) : Option PyVal :=
  ps.findSome? fun p => PyVal.lookup p tag

/-- Part `i` is the first that reports the tag, and gives it the value `v`. -/
structure ReportsFirst (ps : List (List (String × PyVal))) (tag : String) (i : Nat)
    (v : PyVal) : Prop where
  reports : ∃ p, ps[i]? = some p ∧ PyVal.lookup p tag = some v
  first : ∀ p ∈ ps.take i, PyVal.lookup p tag = none

/-- The tag a field is read from: the alternative one if there is one and what is first said under
the primary tag is missing or empty. -/
def decidingTag (ps : List (List (String × PyVal))) (f : SessionField) : String :=
  match f.alternative with
  | some alt => if ((firstSaid ps f.primary).getD .none).truthy then f.primary else alt
  | none => f.primary

theorem leaves_document (frames : List Frame) (records : List SessionRecord) :
    leaves (document frames records) = (parts frames records).flatten := by
  have hrecords : leaves (.list (records.map fun r => .dict r.items))
      = (records.map SessionRecord.reported).flatten := by
    rw [leaves]
    induction records with
    | nil => rfl
    | cons r records ih =>
        rw [List.map_cons, leavesElems, ih, leaves, r.leavesItems_items]
        rfl
  have hcontainer : ∀ frames, isScalar (document frames records) = false := by
    intro frames
    cases frames with
    | nil => rfl
    | cons fr frames => cases fr <;> rfl
  induction frames with
  | nil =>
      rw [parts, List.map_nil, List.nil_append, List.reverse_nil, List.map_nil, List.append_nil]
      exact hrecords
  | cons fr frames ih =>
      show leaves (fr.plug (document frames records)) = _
      rw [fr.leaves_plug (hcontainer frames), ih]
      simp [parts]

theorem firstReported_document (frames : List Frame) (records : List SessionRecord)
    (tag : String) :
    firstReported (document frames records) tag
      = (firstSaid (parts frames records) tag).getD .none := by
  rw [firstReported, leaves_document]
  exact congrArg (Option.getD · PyVal.none) (lookup_flatten _ _)

/-- A field of the summary is what is first said under the deciding tag. -/
theorem value_document (frames : List Frame) (records : List SessionRecord) (f : SessionField) :
    f.value (summarizeSession (document frames records))
      = (firstSaid (parts frames records) (decidingTag (parts frames records) f)).getD .none := by
  rw [value_summarizeSession, decidingTag]
  cases f.alternative with
  | none => exact firstReported_document _ _ _
  | some alt =>
      dsimp only
      rw [firstReported_document, firstReported_document, PyVal.or]
      split_ifs <;> rfl

/-- Nothing that is said is `None`. -/
theorem firstSaid_ne_none {frames : List Frame} {records : List SessionRecord} {tag : String}
    {v : PyVal} (h : firstSaid (parts frames records) tag = some v) : v ≠ .none := by
  have hmem : (tag, v) ∈ leaves (document frames records) := by
    rw [leaves_document]
    obtain ⟨pre, post, hsplit, _⟩ :=
      List.lookup_eq_some_iff.mp ((lookup_flatten (parts frames records) tag).trans h)
    rw [hsplit]
    simp
  rintro rfl
  cases isScalar_of_mem_leaves hmem

/-- What is first said under a tag is said by the first part that reports it. -/
theorem firstSaid_eq_some_iff {ps : List (List (String × PyVal))} {tag : String} {v : PyVal} :
    firstSaid ps tag = some v ↔ ∃ i, ReportsFirst ps tag i v := by
  rw [firstSaid, List.findSome?_eq_some_iff]
  constructor
  · rintro ⟨before, p, after, rfl, hp, hbefore⟩
    exact ⟨before.length, ⟨p, by simp, hp⟩, by simpa using hbefore⟩
  · rintro ⟨i, ⟨p, hi, hp⟩, hbefore⟩
    refine ⟨ps.take i, p, ps.drop (i + 1), ?_, hp, hbefore⟩
    obtain ⟨hlt, rfl⟩ := List.getElem?_eq_some_iff.mp hi
    rw [List.getElem_cons_drop, List.take_append_drop]

/-- Record `j` is the part behind those of the layers. -/
theorem parts_record {frames : List Frame} {records : List SessionRecord} {j : Nat}
    {r : SessionRecord} (h : records[j]? = some r) :
    (parts frames records)[frames.length + j]? = some r.reported := by
  have hlt := (List.getElem?_eq_some_iff.mp h).1
  rw [parts, List.append_assoc, List.getElem?_append_right (by simp), List.length_map,
    Nat.add_sub_cancel_left, List.getElem?_append_left (by simpa using hlt), List.getElem?_map, h]
  rfl

theorem decidingTag_cases (ps : List (List (String × PyVal))) (f : SessionField) :
    decidingTag ps f = f.primary ∨ f.alternative = some (decidingTag ps f) := by
  unfold decidingTag
  cases f.alternative with
  | none => exact Or.inl rfl
  | some alt =>
      dsimp only
      split_ifs
      · exact Or.inl rfl
      · exact Or.inr rfl

/-- A record carries what it says under the deciding tag. -/
theorem SessionRecord.carries_of_lookup {r : SessionRecord} {ps : List (List (String × PyVal))}
    {f : SessionField} {v : PyVal} (h : PyVal.lookup r.reported (decidingTag ps f) = some v) :
    r.Carries f v := by
  obtain ⟨before, after, hsplit, _⟩ := List.lookup_eq_some_iff.mp h
  exact ⟨_, decidingTag_cases ps f, by rw [hsplit]; simp⟩

/-- **When a summary describes one session**: exactly when for every field that is reported one and
the same record is the first to report it under the deciding tag, or repeats what the first said. -/
theorem one_session_iff (frames : List Frame) (records : List SessionRecord) :
    (∃ r ∈ records, ∀ f, f.value (summarizeSession (document frames records)) ≠ .none →
      r.Carries f (f.value (summarizeSession (document frames records)))) ↔
    ∃ (j : Nat) (r : SessionRecord), records[j]? = some r ∧ ∀ f i v,
      ReportsFirst (parts frames records) (decidingTag (parts frames records) f) i v →
        i = frames.length + j ∨ r.Carries f v := by
  constructor
  · rintro ⟨r, hr, h⟩
    obtain ⟨j, hj⟩ := List.mem_iff_getElem?.mp hr
    refine ⟨j, r, hj, fun f i v hfirst => Or.inr ?_⟩
    have hsaid := firstSaid_eq_some_iff.mpr ⟨i, hfirst⟩
    have hvalue : f.value (summarizeSession (document frames records)) = v := by
      rw [value_document, hsaid, Option.getD_some]
    have hcarries := h f
    rw [hvalue] at hcarries
    exact hcarries (firstSaid_ne_none hsaid)
  · rintro ⟨j, r, hj, h⟩
    refine ⟨r, List.mem_of_getElem? hj, fun f hne => ?_⟩
    rw [value_document] at hne ⊢
    cases hsaid : firstSaid (parts frames records) (decidingTag (parts frames records) f) with
    | none =>
        rw [hsaid] at hne
        exact absurd rfl hne
    | some v =>
        obtain ⟨i, hfirst⟩ := firstSaid_eq_some_iff.mp hsaid
        rcases h f i v hfirst with rfl | hcarries
        · -- the first to report it is the record itself
          obtain ⟨p, hp, hlookup⟩ := hfirst.reports
          rw [parts_record hj, Option.some.injEq] at hp
          subst hp
          exact SessionRecord.carries_of_lookup hlookup
        · exact hcarries

/-- Two sessions; the first has no user name yet. -/
def twoSessions : List SessionRecord :=
  [⟨[("calling_station_id", .str "AA:BB:CC:DD:EE:01"), ("user_name", .none)], by decide⟩,
    ⟨[("calling_station_id", .str "AA:BB:CC:DD:EE:02"), ("user_name", .str "bob")], by decide⟩]

/-- Where the two sessions stand in their document. -/
def activeList : List Frame := [.item [] "activeList" [], .item [] "activeSession" []]

/-- The summary pairs the MAC of the first session with the user of the second. -/
theorem two_sessions_mixed :
    ¬ ∃ r ∈ twoSessions, ∀ f,
      f.value (summarizeSession (document activeList twoSessions)) ≠ .none →
        r.Carries f (f.value (summarizeSession (document activeList twoSessions))) := by
  rintro ⟨r, hr, h⟩
  have hmac : SessionField.mac.value (summarizeSession (document activeList twoSessions))
      = .str "AA:BB:CC:DD:EE:01" := by
    rw [value_document]
    decide +kernel
  have huser : SessionField.username.value (summarizeSession (document activeList twoSessions))
      = .str "bob" := by
    rw [value_document]
    decide +kernel
  obtain ⟨k, hk, hfirst⟩ := h .mac (by rw [hmac]; simp)
  obtain ⟨l, hl, hsecond⟩ := h .username (by rw [huser]; simp)
  rw [hmac] at hfirst
  rw [huser] at hsecond
  -- neither record has both
  simp only [twoSessions, List.mem_cons, List.not_mem_nil, or_false] at hr
  rcases hr with rfl | rfl
  · simp [SessionRecord.reported] at hsecond
  · simp [SessionRecord.reported] at hfirst

end IseMcp
