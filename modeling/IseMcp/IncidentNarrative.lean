import IseMcp.Ise.Payloads
import IseMcp.Text.Lines
import IseMcp.Tools.Context

set_option autoImplicit false

/-! # What the incident narrative says of the endpoint

`_narrative` sees only whether the endpoint section is empty, and says "not found" whenever it is.
`narrated_not_found_iff` states for which outcomes of the lookups this is true. The texts that ISE
supplies stand in the narrative as they are, so they may form that line as well: through a line
break, or as the name of an endpoint. -/

namespace IseMcp

open Python Interaction Text

def notFoundLine : String := "- Endpoint: not found in ISE."

/-- The text has the line that the endpoint is not found. -/
def Narrates (text : String) : Prop := HasLine '\n' notFoundLine.toList text.toList

instance (text : String) : Decidable (Narrates text) :=
  inferInstanceAs (Decidable (_ ∈ text.toList.splitOn '\n'))

/-! ## The lines of the narrative -/

def noSessionLine : String := "- Active session: none reported (or MNT not accessible)."

/-- The line about the session, and the one about its security group. -/
def sessionLines : Option SessionSummary → List String
  | some s => [if s.username.truthy || s.nasIp.truthy || s.state.truthy then sessionLine s
      else noSessionLine]
  | none => [noSessionLine]

def groupLines (sgt : PyVal) : List String :=
  if sgt.truthy then ["- SGT: " ++ sgt.toStr ++ "."] else []

def endpointLines : Option EndpointSummary → List String
  | some ep => [endpointLine ep]
  | none => [notFoundLine]

def narrativeLines (ctx : PolicyContext) : List String :=
  ("ISE context for " ++ ctx.mac ++ ":") :: (endpointLines ctx.endpoint
    ++ sessionLines ctx.activeSession ++ groupLines ctx.securityGroup
    ++ ctx.notes.map ("- Note: " ++ ·))

theorem narrative_eq (ctx : PolicyContext) :
    narrative ctx = "\n".intercalate (narrativeLines ctx) := by
  unfold narrative narrativeLines
  cases ctx.endpoint <;> cases ctx.activeSession <;> rfl

theorem narrates_narrative_iff (ctx : PolicyContext) :
    Narrates (narrative ctx) ↔ ∃ l ∈ narrativeLines ctx, Narrates l := by
  rw [Narrates, narrative_eq, String.toList_intercalate]
  have hne : (narrativeLines ctx).map String.toList ≠ [] := by simp [narrativeLines]
  refine Iff.trans (hasLine_intercalate hne) ?_
  simp only [List.mem_map, exists_exists_and_eq_and]
  exact Iff.rfl

/-! ## Texts and the words around them -/

/-- A text from ISE between words of the narrative. -/
def part (before text after : String) : Piece Char := ⟨before.toList, text.toList, after.toList⟩

/-- Some text, read with the words around it, forms the line. -/
def Forged (ps : List (Piece Char)) : Prop :=
  ∃ s ∈ framed ps, HasLine '\n' notFoundLine.toList s

def endpointParts (ep : EndpointSummary) : List (Piece Char) :=
  part "- Endpoint: " (ep.name.or ep.mac).toStr "" ::
    ((if ep.ipAddress.truthy then [part ", IP " ep.ipAddress.toStr ""] else [])
      ++ (if ep.identityGroup.truthy then [part ", group '" ep.identityGroup.toStr "'"] else [])
      ++ (if ep.profile.truthy then [part ", profiled as '" ep.profile.toStr "'"] else [])
      ++ (if ep.staticGroupAssignment.truthy then [part " [statically grouped]" "" ""] else []))

def sessionParts (s : SessionSummary) : List (Piece Char) :=
  [part "- Active session: user '" s.username.toStr "", part "' on NAS " s.nasIp.toStr "",
    part " port " s.nasPort.toStr "", part ", authz '" s.authzProfile.toStr "",
    part "', state " s.state.toStr "."]

def groupParts (sgt : PyVal) : List (Piece Char) := [part "- SGT: " sgt.toStr "."]

def noteParts (note : String) : List (Piece Char) := [part "- Note: " note ""]

/-- These words are on one line, and not in the line that is looked for. -/
def Unlike (words : List Char) : Prop := '\n' ∉ words ∧ ¬ words <:+: notFoundLine.toList

instance (words : List Char) : Decidable (Unlike words) := inferInstanceAs (Decidable (_ ∧ _))

theorem narrates_iff_forged {l : String} {p : Piece Char} {ps : List (Piece Char)}
    (hl : l.toList = ((p :: ps).map Piece.all).flatten) (hps : ∀ q ∈ ps, Unlike q.before) :
    Narrates l ↔ Forged (p :: ps) := by
  rw [Narrates, hl]
  exact hasLine_concat hps

theorem flatten_pieces (c : Prop) [Decidable c] (p : Piece Char) :
    ((if c then [p] else []).map Piece.all).flatten = if c then p.all else [] := by
  split_ifs <;> simp

theorem toList_onlyIf (v : PyVal) (s : String) :
    (onlyIf v s).toList = if v.truthy then s.toList else [] := by
  unfold onlyIf
  split_ifs <;> rfl

theorem all_part (before text after : String) :
    (part before text after).all = (before ++ text ++ after).toList := by
  rw [String.toList_append, String.toList_append]
  rfl

theorem narrates_endpointLine_iff (ep : EndpointSummary) :
    Narrates (endpointLine ep) ↔ Forged (endpointParts ep) := by
  refine narrates_iff_forged ?_ ?_
  · simp only [List.map_cons, List.map_append, List.flatten_cons, List.flatten_append,
      flatten_pieces, all_part, String.append_empty]
    unfold endpointLine
    simp only [String.toList_append, toList_onlyIf, List.append_assoc]
  · intro q hq
    simp only [List.mem_append, List.mem_ite_nil_right, List.mem_singleton] at hq
    rcases hq with ((⟨_, rfl⟩ | ⟨_, rfl⟩) | ⟨_, rfl⟩) | ⟨_, rfl⟩
    · show Unlike ", IP ".toList
      decide
    · show Unlike ", group '".toList
      decide
    · show Unlike ", profiled as '".toList
      decide
    · show Unlike " [statically grouped]".toList
      decide

theorem narrates_sessionLine_iff (s : SessionSummary) :
    Narrates (sessionLine s) ↔ Forged (sessionParts s) := by
  refine narrates_iff_forged ?_ ?_
  · simp only [List.map_cons, List.map_nil, List.flatten_cons, List.flatten_nil, all_part,
      String.append_empty, List.append_nil]
    simp only [← String.toList_append, ← String.append_assoc]
    rfl
  · intro q hq
    simp only [List.mem_cons, List.not_mem_nil, or_false] at hq
    rcases hq with rfl | rfl | rfl | rfl
    · show Unlike "' on NAS ".toList
      decide
    · show Unlike " port ".toList
      decide
    · show Unlike ", authz '".toList
      decide
    · show Unlike "', state ".toList
      decide

/-- A line with one text in it. -/
theorem narrates_single_iff (before text after : String) :
    Narrates (before ++ text ++ after) ↔ Forged [part before text after] := by
  refine narrates_iff_forged ?_ (by simp)
  rw [List.map_singleton, List.flatten_singleton, all_part]

theorem narrates_notFoundLine : Narrates notFoundLine := by decide

theorem not_narrates_noSessionLine : ¬ Narrates noSessionLine := by decide

/-- A normalised MAC has no line break, so the first line is the heading. -/
theorem not_narrates_heading {arg mac : String} (hm : normalizeMac arg = .ok mac) :
    ¬ Narrates ("ISE context for " ++ mac ++ ":") := by
  have hmac : '\n' ∉ mac.toList := by
    intro h
    rcases normalizeMac_chars hm _ h with h | h <;> exact absurd h (by decide)
  have hplain : '\n' ∉ ("ISE context for " ++ mac ++ ":").toList := by
    rw [String.toList_append, String.toList_append, List.mem_append, List.mem_append, not_or,
      not_or]
    exact ⟨⟨by decide, hmac⟩, by decide⟩
  rw [Narrates, hasLine_of_not_mem hplain, String.toList_append, String.toList_append]
  intro h
  have hhead := congrArg List.head? h
  simp [notFoundLine] at hhead

/-! ## What ISE supplies -/

/-- The texts narrated of a session. -/
def sessionTexts (s : SessionSummary) : List (List (Piece Char)) :=
  (if s.username.truthy || s.nasIp.truthy || s.state.truthy then [sessionParts s] else [])
    ++ (if s.securityGroup.truthy then [groupParts s.securityGroup] else [])

def noteTexts {α : Type} (text : String) (r : Except PyExc α) : List (List (Piece Char)) :=
  (noteOf text r).map noteParts

/-- The texts narrated of the outcomes, each line as its texts with the words around them. -/
def Outcomes.texts (o : Outcomes) : List (List (Piece Char)) :=
  (match o.endpointSection with
    | .ok ep => [endpointParts ep]
    | .error _ => [])
  ++ (match o.session with
    | .ok raw => sessionTexts (summarizeSession raw)
    | .error _ => [])
  ++ noteTexts "active session unavailable (MNT)" o.session
  ++ noteTexts "auth history unavailable (MNT)" o.authStatus

/-- ISE answered that there is no such endpoint. -/
def Outcomes.NotFound (o : Outcomes) : Prop :=
  ∃ e, o.endpoint = .error e ∧ e.type = .notFoundError

/-- When the narrative is right about the endpoint: a section that failed did so because ISE said
so, and where it did not fail none of the texts forms the line. -/
def Outcomes.Truthful (o : Outcomes) : Prop :=
  match o.summary with
  | .error _ => o.NotFound
  | .ok _ => ∀ ps ∈ o.texts, ¬ Forged ps

theorem exists_append_iff {α : Type} {p : α → Prop} {l l' : List α} :
    (∃ a ∈ l ++ l', p a) ↔ (∃ a ∈ l, p a) ∨ ∃ a ∈ l', p a := by
  simp only [List.mem_append, or_and_right, exists_or]

theorem narrates_session_iff (s : SessionSummary) :
    (∃ l ∈ sessionLines (some s) ++ groupLines s.securityGroup, Narrates l) ↔
      ∃ ps ∈ sessionTexts s, Forged ps := by
  rw [sessionLines, groupLines, sessionTexts, exists_append_iff, exists_append_iff]
  refine or_congr ?_ ?_
  · split_ifs
    · simpa using narrates_sessionLine_iff s
    · simpa using not_narrates_noSessionLine
  · split_ifs
    · simpa [groupParts] using narrates_single_iff "- SGT: " s.securityGroup.toStr "."
    · simp

theorem narrates_notes_iff {α : Type} (text : String) (r : Except PyExc α) :
    (∃ l ∈ (noteOf text r).map ("- Note: " ++ ·), Narrates l) ↔
      ∃ ps ∈ noteTexts text r, Forged ps := by
  rw [noteTexts]
  cases r with
  | ok a => simp [noteOf]
  | error e =>
      have h := narrates_single_iff "- Note: " (text ++ ": " ++ e.type.name) ""
      rw [String.append_empty] at h
      simpa [noteOf, noteParts] using h

/-- With an endpoint section, the narrative has the line when a text of the outcomes forms it. -/
theorem narrates_contextOf_iff {arg mac : String} (hm : normalizeMac arg = .ok mac)
    (o : Outcomes) {ep : EndpointSummary} (hep : o.endpointSection = .ok ep) :
    Narrates (narrative (contextOf mac o)) ↔ ∃ ps ∈ o.texts, Forged ps := by
  have hmac : (contextOf mac o).mac = mac := by
    unfold contextOf
    cases o.endpointSection <;> cases o.session <;> cases o.authStatus <;> rfl
  have hendpoint : (∃ l ∈ endpointLines (contextOf mac o).endpoint, Narrates l) ↔
      ∃ ps ∈ (match o.endpointSection with
        | .ok ep => [endpointParts ep]
        | .error _ => []), Forged ps := by
    rw [contextOf_endpoint, hep]
    simpa [endpointLines] using narrates_endpointLine_iff ep
  have hsession : (∃ l ∈ sessionLines (contextOf mac o).activeSession
        ++ groupLines (contextOf mac o).securityGroup, Narrates l) ↔
      ∃ ps ∈ (match o.session with
        | .ok raw => sessionTexts (summarizeSession raw)
        | .error _ => []), Forged ps := by
    rw [contextOf_activeSession, contextOf_securityGroup]
    cases o.session with
    | ok raw => exact narrates_session_iff _
    | error e => simpa [sessionLines, groupLines, PyVal.truthy] using not_narrates_noSessionLine
  have hnotes : (∃ l ∈ (contextOf mac o).notes.map ("- Note: " ++ ·), Narrates l) ↔
      ∃ ps ∈ noteTexts "active session unavailable (MNT)" o.session
        ++ noteTexts "auth history unavailable (MNT)" o.authStatus, Forged ps := by
    have hnone : noteOf "endpoint lookup failed" o.endpointSection = [] := by
      rw [hep]
      rfl
    rw [contextOf_notes, hnone, List.nil_append, List.map_append, exists_append_iff,
      exists_append_iff, narrates_notes_iff, narrates_notes_iff]
  calc Narrates (narrative (contextOf mac o))
      ↔ ∃ l ∈ narrativeLines (contextOf mac o), Narrates l := narrates_narrative_iff _
    _ ↔ ∃ l ∈ endpointLines (contextOf mac o).endpoint
          ++ (sessionLines (contextOf mac o).activeSession
            ++ groupLines (contextOf mac o).securityGroup)
          ++ (contextOf mac o).notes.map ("- Note: " ++ ·), Narrates l := by
        rw [narrativeLines, hmac, List.exists_mem_cons_iff, or_iff_right (not_narrates_heading hm)]
        simp only [List.append_assoc]
    _ ↔ ∃ ps ∈ o.texts, Forged ps := by
        rw [exists_append_iff, exists_append_iff, hendpoint, hsession, hnotes,
          ← exists_append_iff, ← exists_append_iff, Outcomes.texts]
        simp only [List.append_assoc]

/-- Without one it has the line. -/
theorem narrates_contextOf_of_error (mac : String) {o : Outcomes} {e : PyExc}
    (he : o.endpointSection = .error e) : Narrates (narrative (contextOf mac o)) := by
  refine (narrates_narrative_iff _).mpr ⟨notFoundLine, ?_, narrates_notFoundLine⟩
  rw [narrativeLines, contextOf_endpoint, he]
  simp [endpointLines]

/-! ## Misreports -/

/-- **When the narrative is right about the endpoint.** A run of `buildContext` ends with the
context of the outcomes of its lookups; its narrative has the line that the endpoint is not found
exactly when ISE answered so, if and only if the outcomes are truthful. -/
theorem narrated_not_found_iff {arg mac : String} (hm : normalizeMac arg = .ok mac) (deps : Deps)
    (auth : AuthContext) :
    (∀ es r, Prog.Path (buildContext deps mac auth).run es (.ret r) ↔
      ∃ o, ContextLookups deps mac auth es o ∧ r = .ok (contextOf mac o)) ∧
    ∀ o, ((Narrates (narrative (contextOf mac o)) ↔ o.NotFound) ↔ o.Truthful) := by
  refine ⟨fun es r => path_buildContext_iff, fun o => ?_⟩
  rw [Outcomes.Truthful]
  cases hsum : o.summary with
  | error e =>
      have hsection : o.endpointSection = .error e := by
        rw [Outcomes.endpointSection, hsum]
        rfl
      exact iff_true_left (narrates_contextOf_of_error mac hsection)
  | ok ep =>
      have hsection : ∃ ep', o.endpointSection = .ok ep' := by
        rw [Outcomes.endpointSection, hsum]
        exact ⟨_, rfl⟩
      obtain ⟨ep', hep'⟩ := hsection
      -- a lookup that raised leaves nothing to parse
      have hfound : ¬ o.NotFound := by
        rintro ⟨e, he, _⟩
        rw [Outcomes.summary_of_error he] at hsum
        cases hsum
      rw [iff_false_right hfound, narrates_contextOf_iff hm o hep']
      push Not
      exact Iff.rfl

/-- ISE rejects the credentials of every lookup. -/
def deniedOutcomes : Outcomes :=
  let denied := .error ⟨.iseApiError, "ISE authentication failed (401)", none, some 401⟩
  ⟨denied, .ok .none, .ok .none, denied, denied⟩

/-- ISE has no such endpoint; MNT is not accessible. -/
def absentOutcomes : Outcomes :=
  { deniedOutcomes with
    endpoint := .error ⟨.notFoundError, "ISE resource not found", none, some 404⟩ }

theorem narrated_not_found_absent :
    Narrates (narrative (contextOf "AA:BB:CC:DD:EE:FF" absentOutcomes)) ↔
      absentOutcomes.NotFound := by
  have hm : normalizeMac "aabbccddeeff" = .ok "AA:BB:CC:DD:EE:FF" := by with_unfolding_all rfl
  exact ((narrated_not_found_iff hm accountDeps ⟨"svc", "service_account", "pw", ""⟩).2
    absentOutcomes).mpr ⟨_, rfl, rfl⟩

/-- An endpoint lookup that was denied is narrated as an endpoint that does not exist. -/
theorem denied_narrated_not_found :
    ∃ es, ContextLookups accountDeps "AA:BB:CC:DD:EE:FF" ⟨"svc", "service_account", "pw", ""⟩ es
        deniedOutcomes ∧
      ¬ (Narrates (narrative (contextOf "AA:BB:CC:DD:EE:FF" deniedOutcomes)) ↔
        deniedOutcomes.NotFound) := by
  have hendpoint := Prog.path_exec (serve (.always 401))
    (ErsApi.getEndpointByMac accountDeps.cfg "AA:BB:CC:DD:EE:FF"
      ⟨"svc", "service_account", "pw", ""⟩).run (.initial 3600 900)
  have hsession := Prog.path_exec (serve (.always 401))
    (MntApi.sessionByMac accountDeps.cfg accountDeps.fromstring "AA:BB:CC:DD:EE:FF"
      ⟨"svc", "service_account", "pw", ""⟩).run (.initial 3600 900)
  have hauth := Prog.path_exec (serve (.always 401))
    (MntApi.authStatusByMac accountDeps.cfg accountDeps.fromstring "AA:BB:CC:DD:EE:FF"
      ⟨"svc", "service_account", "pw", ""⟩ 86400 10).run (.initial 3600 900)
  refine ⟨_, ⟨_, _, _, rfl, ⟨_, [], [], rfl, hendpoint, rfl, rfl⟩, hsession, hauth⟩, ?_⟩
  have hnarrated : Narrates (narrative (contextOf "AA:BB:CC:DD:EE:FF" deniedOutcomes)) :=
    narrates_contextOf_of_error _ rfl
  intro h
  obtain ⟨e, he, htype⟩ := h.mp hnarrated
  injection he with he
  rw [← he] at htype
  cases htype

end IseMcp
