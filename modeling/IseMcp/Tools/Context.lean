import IseMcp.Tools.Policy

set_option autoImplicit false

/-! # The lookups of a policy context

`_build_context` makes up to five lookups. Each ends with a value or an exception (`Outcomes`), and
the context is a function of these (`contextOf`): `path_buildContext_iff` says so for every finished
run, and which lookups the run made. -/

namespace IseMcp

open Python Interaction

/-- How the lookups of a context ended. -/
structure Outcomes where
  endpoint : Except PyExc PyVal
  group : Except PyExc PyVal
  profile : Except PyExc PyVal
  session : Except PyExc PyVal
  authStatus : Except PyExc PyVal

/-- The name that an id is resolved to, given how the lookup ended. -/
def nameFound (id : PyVal) (reply : Except PyExc PyVal) (wrapper : String) : Option PyVal :=
  if id.truthy then
    match reply >>= (nameOf · wrapper) with
    | .ok name => some name
    | .error _ => none
  else none

namespace Outcomes

/-- The endpoint reply, parsed. -/
def summary (o : Outcomes) : Except PyExc EndpointSummary := o.endpoint >>= summarizeEndpoint

theorem summary_of_ok {o : Outcomes} {raw : PyVal} (h : o.endpoint = .ok raw) :
    o.summary = summarizeEndpoint raw := by
  rw [summary, h]
  rfl

theorem summary_of_error {o : Outcomes} {e : PyExc} (h : o.endpoint = .error e) :
    o.summary = .error e := by
  rw [summary, h]
  rfl

/-- The names that are found for a summary. -/
def groupName (o : Outcomes) (ep : EndpointSummary) : Option PyVal :=
  nameFound ep.identityGroupId o.group "EndPointGroup"

def profileName (o : Outcomes) (ep : EndpointSummary) : Option PyVal :=
  nameFound ep.profileId o.profile "ProfilerProfile"

/-- The endpoint section: the parsed reply with the names. -/
def endpointSection (o : Outcomes) : Except PyExc EndpointSummary :=
  o.summary.map fun ep =>
    { ep with
      identityGroup := (o.groupName ep).getD ep.identityGroup
      profile := (o.profileName ep).getD ep.profile }

end Outcomes

/-- The context that the outcomes add up to. -/
def contextOf (mac : String) (o : Outcomes) : PolicyContext :=
  (((PolicyContext.empty mac).withEndpoint o.endpointSection).withSession o.session).withRecentAuth
    o.authStatus

/-- The note of a section that raised. -/
def noteOf {α : Type} (text : String) : Except PyExc α → List String
  | .ok _ => []
  | .error e => [text ++ ": " ++ e.type.name]

/-! ## The fields of a context -/

section

variable (mac : String) (o : Outcomes)

theorem contextOf_endpoint : (contextOf mac o).endpoint =
    match o.endpointSection with
    | .ok ep => some ep
    | .error _ => none := by
  unfold contextOf
  cases o.endpointSection <;> cases o.session <;> cases o.authStatus <;> rfl

theorem contextOf_activeSession : (contextOf mac o).activeSession =
    match o.session with
    | .ok raw => some (summarizeSession raw)
    | .error _ => none := by
  unfold contextOf
  cases o.endpointSection <;> cases o.session <;> cases o.authStatus <;> rfl

theorem contextOf_securityGroup : (contextOf mac o).securityGroup =
    match o.session with
    | .ok raw => (summarizeSession raw).securityGroup
    | .error _ => .none := by
  unfold contextOf
  cases o.endpointSection <;> cases o.session <;> cases o.authStatus <;> rfl

theorem contextOf_recentAuth : (contextOf mac o).recentAuth =
    match o.authStatus with
    | .ok raw => if raw.truthy then [raw] else []
    | .error _ => [] := by
  unfold contextOf
  cases o.endpointSection <;> cases o.session <;> cases o.authStatus <;> rfl

theorem contextOf_notes : (contextOf mac o).notes =
    noteOf "endpoint lookup failed" o.endpointSection
      ++ noteOf "active session unavailable (MNT)" o.session
      ++ noteOf "auth history unavailable (MNT)" o.authStatus := by
  unfold contextOf
  cases o.endpointSection <;> cases o.session <;> cases o.authStatus <;> rfl

end

/-! ## The lookups made -/

/-- An id is looked up if there is one. -/
def Fetched (id : PyVal) (fetch : String → Io PyVal) (es : List (Event Ise))
    (reply : Except PyExc PyVal) : Prop :=
  if id.truthy then Prog.Path (fetch id.toStr).run es (.ret reply) else es = []

/-- The lookups of the endpoint section: the endpoint, and after a reply that can be parsed the
group and the profile. -/
def EndpointLookups (cfg : Config) (mac : String) (auth : AuthContext) (es : List (Event Ise))
    (o : Outcomes) : Prop :=
  ∃ es₁ es₂ es₃, es = es₁ ++ (es₂ ++ es₃) ∧
    Prog.Path (ErsApi.getEndpointByMac cfg mac auth).run es₁ (.ret o.endpoint) ∧
    match o.summary with
    | .ok ep =>
        Fetched ep.identityGroupId (ErsApi.getEndpointGroup cfg · auth) es₂ o.group ∧
          Fetched ep.profileId (ErsApi.getProfilerProfile cfg · auth) es₃ o.profile
    | .error _ => es₂ = [] ∧ es₃ = []

/-- All lookups of a context, in order. -/
def ContextLookups (deps : Deps) (mac : String) (auth : AuthContext) (es : List (Event Ise))
    (o : Outcomes) : Prop :=
  ∃ es₁ es₂ es₃, es = es₁ ++ (es₂ ++ es₃) ∧
    EndpointLookups deps.cfg mac auth es₁ o ∧
    Prog.Path (MntApi.sessionByMac deps.cfg deps.fromstring mac auth).run es₂ (.ret o.session) ∧
    Prog.Path (MntApi.authStatusByMac deps.cfg deps.fromstring mac auth 86400 10).run es₃
      (.ret o.authStatus)

/-! ## Names -/

theorem path_lookupName_iff {fetch : Io PyVal} {wrapper : String} {es : List (Event Ise)}
    {r : Except PyExc (Option PyVal)} :
    Prog.Path (lookupName fetch wrapper).run es (.ret r) ↔
      ∃ reply, Prog.Path fetch.run es (.ret reply) ∧
        r = .ok (match reply >>= (nameOf · wrapper) with
          | .ok name => some name
          | .error _ => none) := by
  rw [lookupName, Coro.path_attempt_bind_iff]
  constructor
  · rintro ⟨a, es₁, es₂, rfl, hfetch, hrest⟩
    obtain ⟨reply, es₃, es₄, rfl, hreply, hname⟩ := (Coro.path_bind_ret_iff _ _ _ _).mp hfetch
    rw [Coro.next_ofExcept, Prog.path_ret_iff] at hname
    obtain ⟨rfl, ha⟩ := hname
    obtain rfl : a = reply >>= (nameOf · wrapper) := by injection ha
    refine ⟨reply, ?_⟩
    cases h : reply >>= (nameOf · wrapper) with
    | ok name =>
        rw [h] at hrest
        obtain ⟨rfl, hr⟩ := (Prog.path_ret_ret_iff _ _ _).mp hrest
        exact ⟨by simpa using hreply, hr⟩
    | error e =>
        rw [h] at hrest
        obtain ⟨rfl, hr⟩ := (Prog.path_ret_ret_iff _ _ _).mp hrest
        exact ⟨by simpa using hreply, hr⟩
  · rintro ⟨reply, hreply, rfl⟩
    refine ⟨reply >>= (nameOf · wrapper), es, [], by simp, ?_, ?_⟩
    · refine (Coro.path_bind_ret_iff _ _ _ _).mpr ⟨reply, es, [], by simp, hreply, ?_⟩
      rw [Coro.next_ofExcept]
      exact .nil _
    · cases reply >>= (nameOf · wrapper) <;> exact .nil _

theorem path_namedBy_iff {id : PyVal} {fetch : String → Io PyVal} {wrapper : String}
    {es : List (Event Ise)} {r : Except PyExc (Option PyVal)} :
    Prog.Path (namedBy id fetch wrapper).run es (.ret r) ↔
      ∃ reply, Fetched id fetch es reply ∧ r = .ok (nameFound id reply wrapper) := by
  unfold namedBy Fetched nameFound
  by_cases h : id.truthy = true
  · simp only [if_pos h]
    exact path_lookupName_iff
  · simp only [if_neg h]
    rw [Coro.run_pure', Prog.path_ret_iff]
    constructor
    · rintro ⟨rfl, hr⟩
      injection hr with hr
      exact ⟨.ok .none, rfl, hr⟩
    · rintro ⟨_, rfl, rfl⟩
      exact ⟨rfl, rfl⟩

/-! ## Sections -/

/-- The two name lookups of a summary, whatever is done with the names. -/
theorem path_names_iff {α : Type} {cfg : Config} {auth : AuthContext} {ep : EndpointSummary}
    {f : Option PyVal → Option PyVal → α} {es : List (Event Ise)} {r : Except PyExc α} :
    Prog.Path (do
        let group ← namedBy ep.identityGroupId (ErsApi.getEndpointGroup cfg · auth) "EndPointGroup"
        let profile ← namedBy ep.profileId (ErsApi.getProfilerProfile cfg · auth) "ProfilerProfile"
        return f group profile : Io α).run es (.ret r) ↔
      ∃ group profile es₁ es₂, es = es₁ ++ es₂ ∧
        Fetched ep.identityGroupId (ErsApi.getEndpointGroup cfg · auth) es₁ group ∧
        Fetched ep.profileId (ErsApi.getProfilerProfile cfg · auth) es₂ profile ∧
        r = .ok (f (nameFound ep.identityGroupId group "EndPointGroup")
          (nameFound ep.profileId profile "ProfilerProfile")) := by
  rw [Coro.path_bind_ret_iff]
  constructor
  · rintro ⟨a, es₁, es₂, rfl, hgroup, hrest⟩
    obtain ⟨group, hg, rfl⟩ := path_namedBy_iff.mp hgroup
    obtain ⟨b, es₃, es₄, rfl, hprofile, hret⟩ := (Coro.path_bind_ret_iff _ _ _ _).mp hrest
    obtain ⟨profile, hp, rfl⟩ := path_namedBy_iff.mp hprofile
    obtain ⟨rfl, hr⟩ := (Prog.path_ret_ret_iff _ _ _).mp hret
    exact ⟨group, profile, es₁, es₃, by simp, hg, hp, hr⟩
  · rintro ⟨group, profile, es₁, es₂, rfl, hg, hp, rfl⟩
    refine ⟨_, es₁, es₂, rfl, path_namedBy_iff.mpr ⟨group, hg, rfl⟩, ?_⟩
    refine (Coro.path_bind_ret_iff _ _ _ _).mpr
      ⟨_, es₂, [], by simp, path_namedBy_iff.mpr ⟨profile, hp, rfl⟩, ?_⟩
    exact .nil _

/-- The lookup of an endpoint, its parsing and the name lookups, whatever is made of the values:
this is the whole of the endpoint section, and of the endpoint tools. -/
theorem path_lookups_iff {α : Type} {cfg : Config} {mac : String} {auth : AuthContext}
    {f : PyVal → EndpointSummary → Option PyVal → Option PyVal → α} {es : List (Event Ise)}
    {r : Except PyExc α} :
    Prog.Path (do
        let raw ← ErsApi.getEndpointByMac cfg mac auth
        let ep ← Coro.ofExcept (summarizeEndpoint raw)
        let group ← namedBy ep.identityGroupId (ErsApi.getEndpointGroup cfg · auth) "EndPointGroup"
        let profile ← namedBy ep.profileId (ErsApi.getProfilerProfile cfg · auth) "ProfilerProfile"
        return f raw ep group profile : Io α).run es (.ret r) ↔
      ∃ o, EndpointLookups cfg mac auth es o ∧ r = (do
        let raw ← o.endpoint
        let ep ← summarizeEndpoint raw
        return f raw ep (o.groupName ep) (o.profileName ep)) := by
  rw [Coro.path_bind_ret_iff]
  constructor
  · rintro ⟨endpoint, es₁, es₂, rfl, hendpoint, hrest⟩
    cases endpoint with
    | error e =>
        obtain ⟨rfl, hr⟩ := (Prog.path_ret_ret_iff _ _ _).mp hrest
        exact ⟨⟨.error e, .ok .none, .ok .none, .ok .none, .ok .none⟩,
          ⟨es₁, [], [], rfl, hendpoint, rfl, rfl⟩, hr⟩
    | ok raw =>
        rw [Coro.next_ok, Coro.run_ofExcept_bind] at hrest
        -- the parsed reply decides whether there are more lookups
        cases hep : summarizeEndpoint raw with
        | error e =>
            rw [hep] at hrest
            obtain ⟨rfl, hr⟩ := (Prog.path_ret_ret_iff _ _ _).mp hrest
            refine ⟨⟨.ok raw, .ok .none, .ok .none, .ok .none, .ok .none⟩,
              ⟨es₁, [], [], rfl, hendpoint, ?_⟩, ?_⟩
            · rw [Outcomes.summary_of_ok rfl, hep]
              exact ⟨rfl, rfl⟩
            · exact hr.trans (by rw [bind_of_ok rfl, hep]; rfl)
        | ok ep =>
            rw [hep, Coro.next_ok] at hrest
            obtain ⟨group, profile, es₃, es₄, rfl, hg, hp, rfl⟩ := path_names_iff.mp hrest
            refine ⟨⟨.ok raw, group, profile, .ok .none, .ok .none⟩,
              ⟨es₁, es₃, es₄, rfl, hendpoint, ?_⟩, ?_⟩
            · rw [Outcomes.summary_of_ok rfl, hep]
              exact ⟨hg, hp⟩
            · rw [bind_of_ok rfl, hep]
              rfl
  · rintro ⟨o, ⟨es₁, es₂, es₃, rfl, hendpoint, hnames⟩, rfl⟩
    refine ⟨o.endpoint, es₁, es₂ ++ es₃, rfl, hendpoint, ?_⟩
    cases hraw : o.endpoint with
    | error e =>
        rw [Outcomes.summary_of_error hraw] at hnames
        obtain ⟨rfl, rfl⟩ := hnames
        exact .nil _
    | ok raw =>
        rw [Outcomes.summary_of_ok hraw] at hnames
        rw [Coro.next_ok, Coro.run_ofExcept_bind, bind_of_ok rfl]
        cases hep : summarizeEndpoint raw with
        | error e =>
            rw [hep] at hnames
            obtain ⟨rfl, rfl⟩ := hnames
            exact .nil _
        | ok ep =>
            rw [hep] at hnames
            rw [Coro.next_ok]
            exact path_names_iff.mpr
              ⟨o.group, o.profile, es₂, es₃, rfl, hnames.1, hnames.2, rfl⟩

theorem path_endpointSection_iff {cfg : Config} {mac : String} {auth : AuthContext}
    {es : List (Event Ise)} {r : Except PyExc EndpointSummary} :
    Prog.Path (endpointSection cfg mac auth).run es (.ret r) ↔
      ∃ o, EndpointLookups cfg mac auth es o ∧ r = o.endpointSection := by
  refine Iff.trans path_lookups_iff (exists_congr fun o => and_congr_right fun _ => ?_)
  rw [Outcomes.endpointSection, Outcomes.summary]
  cases o.endpoint with
  | error e => rfl
  | ok raw =>
      rw [bind_of_ok rfl, bind_of_ok rfl]
      cases summarizeEndpoint raw <;> rfl

/-- **A finished run of `buildContext`** has made its lookups, whatever came of them, and returns
what their outcomes add up to. -/
theorem path_buildContext_iff {deps : Deps} {mac : String} {auth : AuthContext}
    {es : List (Event Ise)} {r : Except PyExc PolicyContext} :
    Prog.Path (buildContext deps mac auth).run es (.ret r) ↔
      ∃ o, ContextLookups deps mac auth es o ∧ r = .ok (contextOf mac o) := by
  rw [buildContext, Coro.path_attempt_bind_iff]
  constructor
  · rintro ⟨ep, es₁, es₂, rfl, hep, hrest⟩
    obtain ⟨sess, es₃, es₄, rfl, hsess, hrest'⟩ := (Coro.path_attempt_bind_iff _ _ _ _).mp hrest
    obtain ⟨raw, es₅, es₆, rfl, hraw, hret⟩ := (Coro.path_attempt_bind_iff _ _ _ _).mp hrest'
    obtain ⟨rfl, hr⟩ := (Prog.path_ret_ret_iff _ _ _).mp hret
    obtain ⟨o, hlookups, rfl⟩ := path_endpointSection_iff.mp hep
    exact ⟨{ o with session := sess, authStatus := raw },
      ⟨es₁, es₃, es₅, by simp, hlookups, hsess, hraw⟩, hr⟩
  · rintro ⟨o, ⟨es₁, es₂, es₃, rfl, hlookups, hsess, hraw⟩, rfl⟩
    refine ⟨_, es₁, es₂ ++ es₃, rfl, path_endpointSection_iff.mpr ⟨o, hlookups, rfl⟩, ?_⟩
    refine (Coro.path_attempt_bind_iff _ _ _ _).mpr ⟨o.session, es₂, es₃, rfl, hsess, ?_⟩
    refine (Coro.path_attempt_bind_iff _ _ _ _).mpr ⟨o.authStatus, es₃, [], by simp, hraw, ?_⟩
    exact .nil _

end IseMcp
