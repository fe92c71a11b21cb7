import IseMcp.Ise.Payloads
import IseMcp.Tools.Context

set_option autoImplicit false

/-! # Fault isolation of the policy context

`_build_context` catches what its lookups raise, section by section, and the two name lookups once
more inside the endpoint section. `context_isolated` states what follows: nothing is raised, the
lookups of MNT are always made, and each section depends on its own lookups only. -/

namespace IseMcp

open Python Interaction

namespace PolicyContext

/-- The same context with another group name in its endpoint section. -/
def setGroup (ctx : PolicyContext) (name : PyVal) : PolicyContext :=
  { ctx with endpoint := ctx.endpoint.map fun ep => { ep with identityGroup := name } }

/-- The same context with another profile name in its endpoint section. -/
def setProfile (ctx : PolicyContext) (name : PyVal) : PolicyContext :=
  { ctx with endpoint := ctx.endpoint.map fun ep => { ep with profile := name } }

end PolicyContext

/-! ## Names -/

/-- A reply without a usable name leaves none. -/
theorem nameFound_of_error {id : PyVal} {reply : Except PyExc PyVal} {wrapper : String} {e : PyExc}
    (h : reply >>= (nameOf · wrapper) = .error e) : nameFound id reply wrapper = none := by
  rw [nameFound, h]
  exact ite_self none

/-- A parsed reply has no names of its own. -/
theorem summarizeEndpoint_names {raw : PyVal} {ep : EndpointSummary}
    (h : summarizeEndpoint raw = .ok ep) : ep.identityGroup = .none ∧ ep.profile = .none := by
  obtain ⟨kvs, _, rfl⟩ := summarizeEndpoint_ok_iff.mp h
  exact ⟨rfl, rfl⟩

/-- A change within the endpoint section is a change of the context there and nowhere else. -/
theorem contextOf_map (mac : String) {o o' : Outcomes} {f : EndpointSummary → EndpointSummary}
    (hsession : o'.session = o.session) (hauth : o'.authStatus = o.authStatus)
    (hsection : o'.endpointSection = o.endpointSection.map f) :
    contextOf mac o'
      = { contextOf mac o with endpoint := (contextOf mac o).endpoint.map f } := by
  unfold contextOf
  rw [hsession, hauth, hsection]
  cases o.endpointSection <;> cases o.session <;> cases o.authStatus <;> rfl

/-- Another reply for the group changes the group name only. -/
theorem contextOf_setGroup (mac : String) (o : Outcomes) (reply : Except PyExc PyVal) :
    ∃ name, contextOf mac { o with group := reply } = (contextOf mac o).setGroup name ∧
      (∀ e, reply >>= (nameOf · "EndPointGroup") = .error e → name = .none) := by
  cases hsum : o.summary with
  | error e =>
      refine ⟨.none, contextOf_map mac rfl rfl ?_, fun _ _ => rfl⟩
      show Except.map _ o.summary = Except.map _ (Except.map _ o.summary)
      rw [hsum]
      rfl
  | ok ep =>
      obtain ⟨raw, _, hraw⟩ := bind_eq_ok.mp hsum
      refine ⟨(nameFound ep.identityGroupId reply "EndPointGroup").getD .none,
        contextOf_map mac rfl rfl ?_, ?_⟩
      · show Except.map _ o.summary = Except.map _ (Except.map _ o.summary)
        rw [hsum, ← (summarizeEndpoint_names hraw).1]
        rfl
      · intro e he
        rw [nameFound_of_error he]
        rfl

/-- Another reply for the profile changes the profile name only. -/
theorem contextOf_setProfile (mac : String) (o : Outcomes) (reply : Except PyExc PyVal) :
    ∃ name, contextOf mac { o with profile := reply } = (contextOf mac o).setProfile name ∧
      (∀ e, reply >>= (nameOf · "ProfilerProfile") = .error e → name = .none) := by
  cases hsum : o.summary with
  | error e =>
      refine ⟨.none, contextOf_map mac rfl rfl ?_, fun _ _ => rfl⟩
      show Except.map _ o.summary = Except.map _ (Except.map _ o.summary)
      rw [hsum]
      rfl
  | ok ep =>
      obtain ⟨raw, _, hraw⟩ := bind_eq_ok.mp hsum
      refine ⟨(nameFound ep.profileId reply "ProfilerProfile").getD .none,
        contextOf_map mac rfl rfl ?_, ?_⟩
      · show Except.map _ o.summary = Except.map _ (Except.map _ o.summary)
        rw [hsum, ← (summarizeEndpoint_names hraw).2]
        rfl
      · intro e he
        rw [nameFound_of_error he]
        rfl

/-! ## Isolation -/

/-- What the sections of two contexts have to do with the outcomes they were made from. -/
structure SectionsIsolated (mac : String) (o o' : Outcomes) : Prop where
  endpoint : o.endpoint = o'.endpoint → o.group = o'.group → o.profile = o'.profile →
    (contextOf mac o).endpoint = (contextOf mac o').endpoint
  session : o.session = o'.session →
    (contextOf mac o).activeSession = (contextOf mac o').activeSession ∧
      (contextOf mac o).securityGroup = (contextOf mac o').securityGroup
  recentAuth : o.authStatus = o'.authStatus →
    (contextOf mac o).recentAuth = (contextOf mac o').recentAuth

/-- A section that raised is empty and leaves its note; the notes are in the order of the
sections. -/
structure FailuresNoted (o : Outcomes) (ctx : PolicyContext) : Prop where
  notes : ctx.notes = noteOf "endpoint lookup failed" o.summary
    ++ noteOf "active session unavailable (MNT)" o.session
    ++ noteOf "auth history unavailable (MNT)" o.authStatus
  endpoint : ctx.endpoint = none ↔ ∃ e, o.summary = .error e
  session : ctx.activeSession = none ↔ ∃ e, o.session = .error e
  securityGroup : (∃ e, o.session = .error e) → ctx.securityGroup = .none
  recentAuth : (∃ e, o.authStatus = .error e) → ctx.recentAuth = []

theorem failuresNoted (mac : String) (o : Outcomes) : FailuresNoted o (contextOf mac o) where
  notes := by
    rw [contextOf_notes, Outcomes.endpointSection]
    cases o.summary <;> rfl
  endpoint := by
    rw [contextOf_endpoint, Outcomes.endpointSection]
    cases o.summary <;> simp [Except.map]
  session := by
    rw [contextOf_activeSession]
    cases o.session <;> simp
  securityGroup := by
    rintro ⟨e, he⟩
    rw [contextOf_securityGroup, he]
  recentAuth := by
    rintro ⟨e, he⟩
    rw [contextOf_recentAuth, he]

/-- **Fault isolation of the aggregated context**: whatever the five lookups end with, a run of
`buildContext` returns a context, has attempted the lookups of MNT, and the context is a function
of the outcomes in which every section depends on its own lookups only, a reply for the group or
the profile changes that name only, and every section that raised is empty and noted, in order. -/
theorem context_isolated (deps : Deps) (mac : String) (auth : AuthContext) :
    (∀ es r, Prog.Path (buildContext deps mac auth).run es (.ret r) ↔
      ∃ o, ContextLookups deps mac auth es o ∧ r = .ok (contextOf mac o)) ∧
    (∀ o o', SectionsIsolated mac o o') ∧
    (∀ o reply, ∃ name,
      contextOf mac { o with group := reply } = (contextOf mac o).setGroup name ∧
        (∀ e, reply >>= (nameOf · "EndPointGroup") = .error e → name = .none)) ∧
    (∀ o reply, ∃ name,
      contextOf mac { o with profile := reply } = (contextOf mac o).setProfile name ∧
        (∀ e, reply >>= (nameOf · "ProfilerProfile") = .error e → name = .none)) ∧
    ∀ o, FailuresNoted o (contextOf mac o) := by
  refine ⟨fun es r => path_buildContext_iff, fun o o' => ⟨?_, ?_, ?_⟩, contextOf_setGroup mac,
    contextOf_setProfile mac, failuresNoted mac⟩
  · intro he hg hp
    have hsection : o.endpointSection = o'.endpointSection := by
      unfold Outcomes.endpointSection Outcomes.summary Outcomes.groupName Outcomes.profileName
      rw [he, hg, hp]
    rw [contextOf_endpoint, contextOf_endpoint, hsection]
  · intro hs
    rw [contextOf_activeSession, contextOf_activeSession, contextOf_securityGroup,
      contextOf_securityGroup, hs]
    exact ⟨rfl, rfl⟩
  · intro ha
    rw [contextOf_recentAuth, contextOf_recentAuth, ha]

end IseMcp
