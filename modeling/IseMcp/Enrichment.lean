import IseMcp.Ise.Payloads
import IseMcp.Tools.Context
import IseMcp.Tools.Outcome

set_option autoImplicit false

/-! # The two enrichments of an endpoint

Group and profile names are resolved twice in the source: `_enrich` overwrites them in a copied
dictionary for the endpoint tools, `_build_context` sets them on the summary. `enrichment_agrees`
says that the two make the same lookups and come to the same values. -/

namespace IseMcp

open Python Interaction

/-! ## The dictionary and the summary -/

/-- What `_enrich` makes of the names that were found. -/
def enriched (ep : EndpointSummary) (group profile : Option PyVal) : PyVal :=
  .dict (setSome (setSome ep.items "identity_group" group) "profile" profile)

/-- Overwriting an item of the dictionary is setting the field. -/
theorem setSome_identityGroup (ep : EndpointSummary) (name : Option PyVal) :
    setSome ep.items "identity_group" name
      = EndpointSummary.items { ep with identityGroup := name.getD ep.identityGroup } := by
  cases name <;> rfl

theorem setSome_profile (ep : EndpointSummary) (name : Option PyVal) :
    setSome ep.items "profile" name
      = EndpointSummary.items { ep with profile := name.getD ep.profile } := by
  cases name <;> rfl

theorem enriched_eq (ep : EndpointSummary) (group profile : Option PyVal) :
    enriched ep group profile = EndpointSummary.dict { ep with
      identityGroup := group.getD ep.identityGroup
      profile := profile.getD ep.profile } := by
  rw [enriched, setSome_identityGroup, setSome_profile]
  rfl

theorem path_enrich_iff {cfg : Config} {auth : AuthContext} {ep : EndpointSummary}
    {es : List (Event Ise)} {r : Except PyExc PyVal} :
    Prog.Path (enrich cfg ep auth).run es (.ret r) ↔
      ∃ group profile es₁ es₂, es = es₁ ++ es₂ ∧
        Fetched ep.identityGroupId (ErsApi.getEndpointGroup cfg · auth) es₁ group ∧
        Fetched ep.profileId (ErsApi.getProfilerProfile cfg · auth) es₂ profile ∧
        r = .ok (enriched ep (nameFound ep.identityGroupId group "EndPointGroup")
          (nameFound ep.profileId profile "ProfilerProfile")) :=
  path_names_iff

/-! ## The tool -/

/-- What the inner function of `ise_get_endpoint_by_mac` returns or raises, given how its lookups
ended. -/
def Outcomes.reply (o : Outcomes) (includeRaw : Bool) : Except PyExc PyVal := do
  let raw ← o.endpoint
  let ep ← o.summary
  return ok (enriched ep (o.groupName ep) (o.profileName ep)) raw includeRaw []

theorem path_endpointByMac_iff {cfg : Config} {mac m : String} (hm : normalizeMac mac = .ok m)
    {inc : Option Bool} {auth : AuthContext} {es : List (Event Ise)} {r : Except PyExc PyVal} :
    Prog.Path ((iseGetEndpointByMac cfg mac inc).fn auth).run es (.ret r) ↔
      ∃ o, EndpointLookups cfg m auth es o ∧ r = o.reply (includeRaw cfg inc) := by
  have hfn : ((iseGetEndpointByMac cfg mac inc).fn auth).run = (do
      let raw ← ErsApi.getEndpointByMac cfg m auth
      let ep ← Coro.ofExcept (summarizeEndpoint raw)
      let group ← namedBy ep.identityGroupId (ErsApi.getEndpointGroup cfg · auth) "EndPointGroup"
      let profile ← namedBy ep.profileId (ErsApi.getProfilerProfile cfg · auth) "ProfilerProfile"
      return ok (enriched ep group profile) raw (includeRaw cfg inc) [] : Io PyVal).run := by
    simp only [iseGetEndpointByMac, Coro.run_ofExcept_bind, hm, Coro.next_ok, endpointEnvelope,
      enrich, bind_assoc, pure_bind, enriched]
  rw [hfn]
  refine Iff.trans path_lookups_iff (exists_congr fun o => and_congr_right fun _ => ?_)
  rw [Outcomes.reply]
  cases h : o.endpoint with
  | error e => rfl
  | ok raw => rw [bind_of_ok rfl, bind_of_ok rfl, o.summary_of_ok h]

/-- The lookups of MNT that follow those of the endpoint section. -/
def MntLookups (deps : Deps) (mac : String) (auth : AuthContext) (es : List (Event Ise))
    (o : Outcomes) : Prop :=
  ∃ es₁ es₂, es = es₁ ++ es₂ ∧
    Prog.Path (MntApi.sessionByMac deps.cfg deps.fromstring mac auth).run es₁ (.ret o.session) ∧
    Prog.Path (MntApi.authStatusByMac deps.cfg deps.fromstring mac auth 86400 10).run es₂
      (.ret o.authStatus)

theorem contextLookups_iff {deps : Deps} {mac : String} {auth : AuthContext}
    {es : List (Event Ise)} {o : Outcomes} :
    ContextLookups deps mac auth es o ↔ ∃ es₁ es₂, es = es₁ ++ es₂ ∧
      EndpointLookups deps.cfg mac auth es₁ o ∧ MntLookups deps mac auth es₂ o := by
  constructor
  · rintro ⟨es₁, es₂, es₃, rfl, hers, hsession, hauth⟩
    exact ⟨es₁, es₂ ++ es₃, rfl, hers, es₂, es₃, rfl, hsession, hauth⟩
  · rintro ⟨es₁, _, rfl, hers, es₂, es₃, rfl, hsession, hauth⟩
    exact ⟨es₁, es₂, es₃, rfl, hers, hsession, hauth⟩

/-- The tool fails when the endpoint reply is missing or cannot be parsed. -/
theorem reply_ok_field (o : Outcomes) (inc : Bool) :
    field (answer (o.reply inc)) "ok" = some (.bool false) ↔ ∃ e, o.summary = .error e := by
  rw [Outcomes.reply]
  cases h : o.endpoint with
  | error e =>
      rw [o.summary_of_error h]
      simp [answer, bind, Except.bind]
  | ok raw =>
      rw [bind_of_ok rfl]
      cases o.summary with
      | error e => simp [answer, bind, Except.bind]
      | ok ep => simp [answer, bind, Except.bind, pure, Except.pure]

/-- **The two enrichments agree**: for a MAC, the tool and the context make the same ERS lookups.
Where the endpoint reply can be parsed, the dictionary of `enrich` is that of the endpoint section,
field by field; the tool reports an error exactly when the section is empty and noted. -/
theorem enrichment_agrees {mac m : String} (hm : normalizeMac mac = .ok m) (deps : Deps)
    (inc : Option Bool) (auth : AuthContext) :
    (∀ es r, Prog.Path ((iseGetEndpointByMac deps.cfg mac inc).fn auth).run es (.ret r) ↔
      ∃ o, EndpointLookups deps.cfg m auth es o ∧ r = o.reply (includeRaw deps.cfg inc)) ∧
    (∀ es r, Prog.Path (buildContext deps m auth).run es (.ret r) ↔
      ∃ o, (∃ es₁ es₂, es = es₁ ++ es₂ ∧ EndpointLookups deps.cfg m auth es₁ o ∧
        MntLookups deps m auth es₂ o) ∧ r = .ok (contextOf m o)) ∧
    (∀ ep es r, Prog.Path (enrich deps.cfg ep auth).run es (.ret r) ↔
      ∃ group profile es₁ es₂, es = es₁ ++ es₂ ∧
        Fetched ep.identityGroupId (ErsApi.getEndpointGroup deps.cfg · auth) es₁ group ∧
        Fetched ep.profileId (ErsApi.getProfilerProfile deps.cfg · auth) es₂ profile ∧
        r = .ok (enriched ep (nameFound ep.identityGroupId group "EndPointGroup")
          (nameFound ep.profileId profile "ProfilerProfile"))) ∧
    ∀ o, (∀ ep, o.summary = .ok ep → ∃ ep', (contextOf m o).endpoint = some ep' ∧
        enriched ep (o.groupName ep) (o.profileName ep) = ep'.dict) ∧
      (field (answer (o.reply (includeRaw deps.cfg inc))) "ok" = some (.bool false) ↔
        (contextOf m o).endpoint = none ∧
          ∃ e rest, (contextOf m o).notes = ("endpoint lookup failed: " ++ e) :: rest) := by
  refine ⟨fun es r => path_endpointByMac_iff hm, fun es r => ?_, fun ep es r => path_enrich_iff,
    fun o => ⟨fun ep hep => ?_, ?_⟩⟩
  · rw [path_buildContext_iff]
    simp only [contextLookups_iff]
  · refine ⟨_, ?_, enriched_eq ep _ _⟩
    rw [contextOf_endpoint, Outcomes.endpointSection, hep]
    rfl
  · rw [reply_ok_field, contextOf_endpoint, contextOf_notes, Outcomes.endpointSection]
    cases o.summary with
    | ok ep => simp [Except.map]
    | error e =>
        simp only [Except.map, noteOf, true_and]
        exact ⟨fun _ => ⟨e.type.name, _, rfl⟩, fun _ => ⟨e, rfl⟩⟩

/-- A printer whose group has a name and whose profile is gone. -/
def printerOutcomes : Outcomes where
  endpoint := .ok (.dict [("ERSEndPoint", .dict [("name", .str "printer"), ("groupId", .str "g1"),
    ("profileId", .str "p1")])])
  group := .ok (.dict [("EndPointGroup", .dict [("name", .str "Printers")])])
  profile := .error ⟨.notFoundError, "ISE resource not found", none, some 404⟩
  session := .ok (.dict [])
  authStatus := .ok (.dict [])

theorem enrichment_agrees_printer :
    ∃ ep, (contextOf "AA:BB:CC:DD:EE:FF" printerOutcomes).endpoint = some ep ∧
      field ep.dict "identity_group" = some (.str "Printers") ∧
      field ep.dict "profile" = some .none := by
  have hm : normalizeMac "aabbccddeeff" = .ok "AA:BB:CC:DD:EE:FF" := by with_unfolding_all rfl
  have hagree := (enrichment_agrees hm accountDeps none
    ⟨"svc", "service_account", "pw", ""⟩).2.2.2
  have hsum : printerOutcomes.summary = .ok (summaryOf [("name", .str "printer"),
      ("groupId", .str "g1"), ("profileId", .str "p1")]) := rfl
  obtain ⟨ep, hep, hdict⟩ := (hagree printerOutcomes).1 _ hsum
  refine ⟨ep, hep, ?_, ?_⟩ <;> rw [← hdict] <;> rfl

end IseMcp
