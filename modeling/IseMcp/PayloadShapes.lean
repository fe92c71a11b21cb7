import IseMcp.Enrichment
import IseMcp.SuccessReports

set_option autoImplicit false

/-! # Which payloads the read tools survive

The endpoint, network-device and TrustSec tools make one ERS lookup of their own and take its reply
apart with `get` and `for`. `payload_survived_iff` states on which replies this goes through; on
all others the envelope is an `internal_error`. The replies to the name lookups do not matter. -/

namespace IseMcp

open Python Interaction

/-! ## Errors without a code -/

section

variable {α β : Type}

/-- What fails here fails with an exception that has no code. -/
def Undeclared (r : Except PyExc α) : Prop := ∀ e, r = .error e → errorCode e.type = none

theorem undeclared_ok (a : α) : Undeclared (.ok a) := by
  intro e h
  cases h

theorem undeclared_bind {x : Except PyExc α} {f : α → Except PyExc β} (hx : Undeclared x)
    (hf : ∀ a, Undeclared (f a)) : Undeclared (x >>= f) := by
  intro e h
  cases x with
  | error e' =>
      injection h with h
      exact h ▸ hx e' rfl
  | ok a => exact hf a e h

theorem undeclared_mapM {f : α → Except PyExc β} (hf : ∀ a, Undeclared (f a)) (xs : List α) :
    Undeclared (xs.mapM f) := by
  induction xs with
  | nil => exact undeclared_ok []
  | cons x xs ih =>
      rw [List.mapM_cons]
      exact undeclared_bind (hf x) fun _ => undeclared_bind ih fun _ => undeclared_ok _

theorem undeclared_getD (v : PyVal) (key : String) (dflt : PyVal) :
    Undeclared (v.getD key dflt) := by
  cases h : isDict v with
  | true =>
      obtain ⟨kvs, rfl⟩ := isDict_iff.mp h
      exact undeclared_ok _
  | false =>
      rw [getD_of_not_dict h]
      intro e he
      cases he
      rfl

theorem undeclared_iter (v : PyVal) : Undeclared v.iter := by
  intro e h
  cases v with
  | list xs => cases h
  | dict kvs => cases h
  | str s => cases h
  | _ =>
      cases h
      rfl

theorem undeclared_summarizeEndpoint (raw : PyVal) : Undeclared (summarizeEndpoint raw) := by
  cases h : isDict (unwrap raw "ERSEndPoint") with
  | true =>
      obtain ⟨kvs, hkvs⟩ := isDict_iff.mp h
      rw [summarizeEndpoint_of_dict hkvs]
      exact undeclared_ok _
  | false =>
      rw [summarizeEndpoint_of_not_dict h]
      intro e he
      cases he
      rfl

end

/-! ## Payloads -/

/-- `raw.get("SearchResult", {}) if isinstance(raw, dict) else {}` -/
def searchResult : PyVal → PyVal
  | .dict kvs => (PyVal.lookup kvs "SearchResult").getD (.dict [])
  | _ => .dict []

/-- What `for r in res.get("resources", []) or []` runs over. -/
def listed (res : PyVal) : Except PyExc (List PyVal) := do
  ((← res.getD "resources" (.list [])).or (.list [])).iter

/-- The payload of an endpoint: a dictionary, if unwrapped. -/
def EndpointShaped (raw : PyVal) : Prop := isDict (unwrap raw "ERSEndPoint") = true

instance (raw : PyVal) : Decidable (EndpointShaped raw) :=
  inferInstanceAs (Decidable (isDict _ = true))

/-- The payload of a list: the search result is a dictionary, and its resources are there to
iterate over, each of the shape `P`. -/
structure ListShaped (P : PyVal → Prop) (raw : PyVal) : Prop where
  result : isDict (searchResult raw) = true
  each : ∃ rs, listed (searchResult raw) = .ok rs ∧ ∀ r ∈ rs, P r

/-- The payload this tool can take apart. -/
def ToolCall.Digests : ToolCall → PyVal → Prop
  | .iseGetEndpointByMac _ _, raw | .iseGetEndpointById _ _, raw => EndpointShaped raw
  | .iseGetEndpointByIp _ _, raw | .iseSearchEndpoints _ _ _ _, raw =>
      ListShaped EndpointShaped raw
  | _, raw => ListShaped (isDict · = true) raw

/-! ## Taking payloads apart -/

/-- A list is mapped when each element is. -/
theorem mapM_ok_iff {ε α β : Type} {f : α → Except ε β} {xs : List α} :
    (∃ ys, xs.mapM f = .ok ys) ↔ ∀ x ∈ xs, ∃ y, f x = .ok y := by
  induction xs with
  | nil => exact iff_of_true ⟨[], rfl⟩ (by simp)
  | cons x xs ih =>
      rw [List.forall_mem_cons, ← ih, List.mapM_cons]
      constructor
      · rintro ⟨ys, h⟩
        obtain ⟨y, hy, hrest⟩ := bind_eq_ok.mp h
        obtain ⟨ys', hys', _⟩ := bind_eq_ok.mp hrest
        exact ⟨⟨y, hy⟩, ys', hys'⟩
      · rintro ⟨⟨y, hy⟩, ys, hys⟩
        rw [hy, hys]
        exact ⟨y :: ys, rfl⟩

theorem resources_eq (raw : PyVal) : resources raw = listed (searchResult raw) := by
  cases raw <;> rfl

theorem searchTotal_eq (raw : PyVal) : searchTotal raw = (searchResult raw).get "total" := by
  cases raw <;> rfl

theorem listEnvelope_eq (cfg : Config) (raw : PyVal) (page size : Int) (inc : Option Bool) :
    listEnvelope cfg raw page size inc = (do
      let items ← (← listed (searchResult raw)).mapM idAndName
      let total ← (searchResult raw).get "total"
      return paged items page size total raw (includeRaw cfg inc)) := by
  unfold listed
  rw [bind_assoc]
  cases raw <;> rfl

theorem undeclared_listed (res : PyVal) : Undeclared (listed res) :=
  undeclared_bind (undeclared_getD _ _ _) fun _ => undeclared_iter _

theorem summarizeEndpoint_iff {raw : PyVal} :
    (∃ ep, summarizeEndpoint raw = .ok ep) ↔ EndpointShaped raw := by
  rw [EndpointShaped, isDict_iff]
  constructor
  · rintro ⟨ep, h⟩
    obtain ⟨kvs, hkvs, _⟩ := summarizeEndpoint_ok_iff.mp h
    exact ⟨kvs, hkvs⟩
  · rintro ⟨kvs, hkvs⟩
    exact ⟨_, summarizeEndpoint_of_dict hkvs⟩

theorem idAndName_iff {r : PyVal} : (∃ v, idAndName r = .ok v) ↔ isDict r = true := by
  cases h : isDict r with
  | true =>
      obtain ⟨kvs, rfl⟩ := isDict_iff.mp h
      exact iff_of_true ⟨_, rfl⟩ rfl
  | false =>
      rw [idAndName, get_of_not_dict h]
      exact iff_of_false (by rintro ⟨_, h⟩; cases h) (by simp)

/-- Items are made of what is listed when all of it has the shape that the item needs. -/
theorem mapM_listed_iff {β : Type} {f : PyVal → Except PyExc β} {P : PyVal → Prop}
    (hf : ∀ r, (∃ b, f r = .ok b) ↔ P r) (raw : PyVal) :
    (∃ items, (do (← listed (searchResult raw)).mapM f : Except PyExc (List β)) = .ok items) ↔
      ListShaped P raw := by
  constructor
  · rintro ⟨items, h⟩
    obtain ⟨rs, hrs, hitems⟩ := bind_eq_ok.mp h
    refine ⟨?_, rs, hrs, fun r hr => (hf r).mp (mapM_ok_iff.mp ⟨items, hitems⟩ r hr)⟩
    -- without a dictionary there is nothing to list
    by_contra hd
    rw [listed, getD_of_not_dict (Bool.not_eq_true _ ▸ hd)] at hrs
    cases hrs
  · rintro ⟨_, rs, hrs, hall⟩
    obtain ⟨items, hitems⟩ := mapM_ok_iff.mpr fun r hr => (hf r).mpr (hall r hr)
    exact ⟨items, bind_eq_ok.mpr ⟨rs, hrs, hitems⟩⟩

/-! ## Envelopes -/

/-- This outcome is an envelope with `ok` true when `P` holds, and an exception without a code when
not. -/
structure Decides (P : Prop) (r : Except PyExc PyVal) : Prop where
  returns : (∃ v, r = .ok v) ↔ P
  ok : ∀ v, r = .ok v → field v "ok" = some (.bool true)
  undeclared : Undeclared r

theorem decides_bind {α : Type} {P : Prop} {x : Except PyExc α} {f : α → Except PyExc PyVal}
    (hx : (∃ a, x = .ok a) ↔ P) (herr : Undeclared x)
    (hf : ∀ a, x = .ok a → ∃ v, f a = .ok v ∧ field v "ok" = some (.bool true)) :
    Decides P (x >>= f) := by
  cases x with
  | error e =>
      refine ⟨?_, ?_, ?_⟩
      · rw [← hx]
        exact iff_of_false (by rintro ⟨_, h⟩; cases h) (by rintro ⟨_, h⟩; cases h)
      · intro v h
        cases h
      · intro e' h
        injection h with h
        exact h ▸ herr e rfl
  | ok a =>
      obtain ⟨v, hv, hok⟩ := hf a rfl
      rw [bind_of_ok rfl, hv]
      refine ⟨iff_of_true ⟨v, rfl⟩ (hx.mp ⟨a, rfl⟩), ?_, undeclared_ok v⟩
      intro v' h
      cases h
      exact hok

/-- What the list tools make of their payload. -/
theorem listEnvelope_decides (cfg : Config) (raw : PyVal) (page size : Int) (inc : Option Bool) :
    Decides (ListShaped (isDict · = true) raw) (listEnvelope cfg raw page size inc) := by
  have hassoc : listEnvelope cfg raw page size inc = (do
      let items ← (do (← listed (searchResult raw)).mapM idAndName : Except PyExc (List PyVal))
      let total ← (searchResult raw).get "total"
      return paged items page size total raw (includeRaw cfg inc)) := by
    rw [listEnvelope_eq, bind_assoc]
  rw [hassoc]
  refine decides_bind (mapM_listed_iff (fun r => idAndName_iff) raw) ?_ ?_
  · refine undeclared_bind (undeclared_listed _) fun rs => undeclared_mapM (fun r => ?_) rs
    exact undeclared_bind (undeclared_getD _ _ _) fun _ =>
      undeclared_bind (undeclared_getD _ _ _) fun _ => undeclared_ok _
  · intro items hitems
    obtain ⟨kvs, hkvs⟩ := isDict_iff.mp
      ((mapM_listed_iff (fun r => idAndName_iff) raw).mp ⟨items, hitems⟩).result
    rw [hkvs, get_dict]
    exact ⟨_, rfl, rfl⟩

/-- The summaries of a search. -/
theorem summaries_iff {raw : PyVal} :
    (∃ items, summaries raw = .ok items) ↔ ListShaped EndpointShaped raw := by
  rw [summaries, resources_eq]
  refine mapM_listed_iff (fun r => ?_) raw
  rw [← summarizeEndpoint_iff]
  constructor
  · rintro ⟨v, h⟩
    obtain ⟨ep, hep, _⟩ := bind_eq_ok.mp h
    exact ⟨ep, hep⟩
  · rintro ⟨ep, hep⟩
    exact ⟨ep.dict, bind_eq_ok.mpr ⟨ep, hep, rfl⟩⟩

theorem undeclared_summaries (raw : PyVal) : Undeclared (summaries raw) := by
  rw [summaries, resources_eq]
  refine undeclared_bind (undeclared_listed _) fun rs => undeclared_mapM (fun r => ?_) rs
  exact undeclared_bind (undeclared_summarizeEndpoint r) fun _ => undeclared_ok _

/-! ## The tools -/

/-- The ERS lookup of the tool itself, from its arguments. -/
def ToolCall.ersLookup (cfg : Config) (auth : AuthContext) : ToolCall → Option (Io PyVal)
  | .iseGetEndpointByMac mac _ => some (do
      let m ← Coro.ofExcept (normalizeMac mac)
      ErsApi.getEndpointByMac cfg m auth)
  | .iseGetEndpointById endpointId _ => some (do
      let eid ← Coro.ofExcept (validateEndpointId endpointId)
      ErsApi.getEndpointById cfg eid auth)
  | .iseGetEndpointByIp ip _ => some (do
      let addr ← Coro.ofExcept (validateIp ip)
      ErsApi.searchEndpoints cfg (some ("ipAddress.EQUALS." ++ addr)) auth 1
        (clampPageSize cfg none))
  | .iseSearchEndpoints filter page size _ =>
      some (ErsApi.searchEndpoints cfg filter auth page (clampPageSize cfg size))
  | .iseListNetworkDevices filter page size _ =>
      some (ErsApi.listNetworkDevices cfg filter auth page (clampPageSize cfg size))
  | .iseListSecurityGroups page size _ =>
      some (ErsApi.listSecurityGroups cfg auth page (clampPageSize cfg size))
  | .iseListSgacls page size _ => some (ErsApi.listSgacls cfg auth page (clampPageSize cfg size))
  | .iseListAuthorizationProfiles page size _ =>
      some (ErsApi.listAuthorizationProfiles cfg auth page (clampPageSize cfg size))
  | _ => none

/-- What the tool does with the reply. -/
def ToolCall.digest (cfg : Config) (auth : AuthContext) (raw : PyVal) : ToolCall → Io PyVal
  | .iseGetEndpointByMac _ inc | .iseGetEndpointById _ inc => endpointEnvelope cfg raw inc auth
  | .iseGetEndpointByIp _ inc => do
      let items ← Coro.ofExcept (summaries raw)
      return ok (.list items) raw (includeRaw cfg inc) []
  | .iseSearchEndpoints _ page size inc => do
      let items ← Coro.ofExcept (summaries raw)
      let total ← Coro.ofExcept (searchTotal raw)
      return paged items page (clampPageSize cfg size) total raw (includeRaw cfg inc)
  | .iseListNetworkDevices _ page size inc | .iseListSecurityGroups page size inc
  | .iseListSgacls page size inc | .iseListAuthorizationProfiles page size inc =>
      Coro.ofExcept (listEnvelope cfg raw page (clampPageSize cfg size) inc)
  | _ => pure raw

variable {deps : Deps} {call : ToolCall} {t : Tool} {auth : AuthContext} {fetch : Io PyVal}

/-- One request for JSON, with its arguments checked before. -/
def AsksForJson (cfg : Config) (fetch : Io PyVal) : Prop :=
  ∃ x : Except PyExc IseRequest, (∀ req, x = .ok req → req.parse = .json) ∧
    fetch = (Coro.ofExcept x >>= IseClient.request cfg)

theorem asksForJson_get (cfg : Config) (path : String) (auth : AuthContext)
    (params : Option (List (String × PyVal))) :
    AsksForJson cfg (ErsApi.get cfg path auth params) := by
  refine ⟨.ok (ErsApi.getRequest cfg path auth params), ?_, rfl⟩
  intro req h
  cases h
  rfl

theorem asksForJson_checked {cfg : Config} {x : Except PyExc String} {f : String → Io PyVal}
    (hf : ∀ a, AsksForJson cfg (f a)) : AsksForJson cfg (Coro.ofExcept x >>= f) := by
  cases x with
  | error e =>
      refine ⟨.error e, ?_, rfl⟩
      intro req h
      cases h
  | ok a => exact hf a

/-- The inner function of a tool is its lookup, which asks for JSON, and then the digestion of the
reply. -/
theorem fn_spec (h : call.tool deps = some t) (hl : call.ersLookup deps.cfg auth = some fetch) :
    (t.fn auth).run = (fetch >>= fun raw => call.digest deps.cfg auth raw).run ∧
      AsksForJson deps.cfg fetch := by
  cases call with
  | iseGetEndpointByMac mac inc =>
      cases h
      rw [ToolCall.ersLookup] at hl
      obtain rfl := Option.some.inj hl
      exact ⟨by rw [bind_assoc]; rfl, asksForJson_checked fun _ => asksForJson_get _ _ _ _⟩
  | iseGetEndpointById endpointId inc =>
      cases h
      rw [ToolCall.ersLookup] at hl
      obtain rfl := Option.some.inj hl
      exact ⟨by rw [bind_assoc]; rfl, asksForJson_checked fun _ => asksForJson_get _ _ _ _⟩
  | iseGetEndpointByIp ip inc =>
      cases h
      rw [ToolCall.ersLookup] at hl
      obtain rfl := Option.some.inj hl
      exact ⟨by rw [bind_assoc]; rfl, asksForJson_checked fun _ => asksForJson_get _ _ _ _⟩
  | iseSearchEndpoints filter page size inc =>
      cases h
      rw [ToolCall.ersLookup] at hl
      obtain rfl := Option.some.inj hl
      exact ⟨rfl, asksForJson_get _ _ _ _⟩
  | iseListNetworkDevices filter page size inc =>
      cases h
      rw [ToolCall.ersLookup] at hl
      obtain rfl := Option.some.inj hl
      exact ⟨rfl, asksForJson_get _ _ _ _⟩
  | iseListSecurityGroups page size inc =>
      cases h
      rw [ToolCall.ersLookup] at hl
      obtain rfl := Option.some.inj hl
      exact ⟨rfl, asksForJson_get _ _ _ _⟩
  | iseListSgacls page size inc =>
      cases h
      rw [ToolCall.ersLookup] at hl
      obtain rfl := Option.some.inj hl
      exact ⟨rfl, asksForJson_get _ _ _ _⟩
  | iseListAuthorizationProfiles page size inc =>
      cases h
      rw [ToolCall.ersLookup] at hl
      obtain rfl := Option.some.inj hl
      exact ⟨rfl, asksForJson_get _ _ _ _⟩
  | _ => cases hl

/-- Of the endpoint tools only the summary can fail: the name lookups pass no error on. -/
theorem endpointEnvelope_returns {cfg : Config} {payload : PyVal} {inc : Option Bool}
    {es : List (Event Ise)} {r : Except PyExc PyVal}
    (hp : Prog.Path (endpointEnvelope cfg payload inc auth).run es (.ret r)) :
    ∃ data, r = summarizeEndpoint payload >>= fun _ =>
      .ok (ok data payload (includeRaw cfg inc) []) := by
  rw [endpointEnvelope, Coro.run_ofExcept_bind] at hp
  cases hep : summarizeEndpoint payload with
  | error e =>
      rw [hep] at hp
      obtain ⟨_, hr⟩ := (Prog.path_ret_ret_iff _ _ _).mp hp
      exact ⟨.none, hr⟩
  | ok ep =>
      rw [hep, Coro.next_ok] at hp
      obtain ⟨data, es₁, es₂, rfl, henrich, hrest⟩ := (Coro.path_bind_ret_iff _ _ _ _).mp hp
      obtain ⟨group, profile, _, _, _, _, _, rfl⟩ := path_enrich_iff.mp henrich
      obtain ⟨_, hr⟩ := (Prog.path_ret_ret_iff _ _ _).mp hrest
      exact ⟨_, hr⟩

/-- What a tool makes of its payload, whatever the name lookups answer. -/
theorem digest_decides {payload : PyVal} {es : List (Event Ise)} {r : Except PyExc PyVal}
    (hl : call.ersLookup deps.cfg auth = some fetch)
    (hp : Prog.Path (call.digest deps.cfg auth payload).run es (.ret r)) :
    Decides (call.Digests payload) r := by
  have hendpoint : ∀ inc, Prog.Path (endpointEnvelope deps.cfg payload inc auth).run es (.ret r) →
      Decides (EndpointShaped payload) r := by
    intro inc hp
    obtain ⟨data, rfl⟩ := endpointEnvelope_returns hp
    exact decides_bind summarizeEndpoint_iff (undeclared_summarizeEndpoint payload)
      fun _ _ => ⟨_, rfl, rfl⟩
  have hlist : ∀ page size inc,
      Prog.Path (Coro.ofExcept (listEnvelope deps.cfg payload page size inc) : Io PyVal).run es
        (.ret r) → Decides (ListShaped (isDict · = true) payload) r := by
    intro page size inc hp
    obtain ⟨_, rfl⟩ := (Coro.path_ofExcept_iff _ _ _).mp hp
    exact listEnvelope_decides deps.cfg payload page size inc
  cases call with
  | iseGetEndpointByMac mac inc => exact hendpoint inc hp
  | iseGetEndpointById endpointId inc => exact hendpoint inc hp
  | iseGetEndpointByIp ip inc =>
      have hdigest : (ToolCall.iseGetEndpointByIp ip inc).digest deps.cfg auth payload
          = Coro.ofExcept (do
            let items ← summaries payload
            return ok (.list items) payload (includeRaw deps.cfg inc) []) :=
        Coro.ofExcept_bind_ofExcept _ _
      rw [hdigest, Coro.path_ofExcept_iff] at hp
      obtain ⟨_, rfl⟩ := hp
      exact decides_bind summaries_iff (undeclared_summaries payload) fun _ _ => ⟨_, rfl, rfl⟩
  | iseSearchEndpoints filter page size inc =>
      have hdigest : (ToolCall.iseSearchEndpoints filter page size inc).digest deps.cfg auth payload
          = Coro.ofExcept (do
            let items ← summaries payload
            let total ← searchTotal payload
            return paged items page (clampPageSize deps.cfg size) total payload
              (includeRaw deps.cfg inc)) := by
        rw [← Coro.ofExcept_bind_ofExcept]
        simp only [← Coro.ofExcept_bind_ofExcept]
        rfl
      rw [hdigest, Coro.path_ofExcept_iff] at hp
      obtain ⟨_, rfl⟩ := hp
      refine decides_bind summaries_iff (undeclared_summaries payload) fun items hitems => ?_
      -- what has summaries has a dictionary to look the total up in
      obtain ⟨kvs, hkvs⟩ := isDict_iff.mp (summaries_iff.mp ⟨items, hitems⟩).result
      rw [searchTotal_eq, hkvs, get_dict]
      exact ⟨_, rfl, rfl⟩
  | iseListNetworkDevices filter page size inc => exact hlist _ _ _ hp
  | iseListSecurityGroups page size inc => exact hlist _ _ _ hp
  | iseListSgacls page size inc => exact hlist _ _ _ hp
  | iseListAuthorizationProfiles page size inc => exact hlist _ _ _ hp
  | _ => cases hl

/-! ## Runs -/

/-- A 2xx reply with content is settled with its JSON. -/
theorem settle_success {resp : HttpResponse} {v : PyVal} (hsuccess : resp.isSuccess = true)
    (hcontent : resp.hasContent = true) (hjson : resp.json = .ok v) :
    IseClient.settle .json (.response resp) = .ok v := by
  have hstatus : 200 ≤ resp.status ∧ resp.status < 300 := of_decide_eq_true hsuccess
  rw [IseClient.settle, if_neg (by omega), IseClient.handleResponse, if_neg (by omega),
    if_neg (by omega), if_neg (by omega), if_neg (by omega)]
  simp [hcontent, hjson]

/-- The lookup of a tool returns the JSON of a 2xx reply. -/
theorem ersLookup_returns {es : List (Event Ise)} {r : Except PyExc PyVal}
    {earlier : List HttpOutcome} {resp : HttpResponse} {v : PyVal}
    (h : call.tool deps = some t) (hl : call.ersLookup deps.cfg auth = some fetch)
    (hp : Prog.Path fetch.run es (.ret r)) (hes : attempts es = earlier ++ [.response resp])
    (hsuccess : resp.isSuccess = true) (hcontent : resp.hasContent = true)
    (hjson : resp.json = .ok v) : r = .ok v := by
  obtain ⟨x, hparse, rfl⟩ := (fn_spec h hl).2
  rw [Coro.run_ofExcept_bind] at hp
  cases x with
  | error e =>
      obtain ⟨rfl, _⟩ := (Prog.path_ret_iff _ _ _).mp hp
      simp at hes
  | ok req =>
      rcases IseClient.request_returns hp with ⟨hnone, _⟩ | ⟨earlier', last, hes', _, _, _, rfl⟩
      · simp [hnone] at hes
      · rw [hes'] at hes
        obtain ⟨_, hlast⟩ := List.append_inj' hes rfl
        obtain rfl : last = .response resp := by simpa using hlast
        rw [hparse req rfl]
        exact settle_success hsuccess hcontent hjson

/-- A run whose lookup has returned goes on with the digestion of its payload. -/
theorem run_digests {headers : Option RawHeaders} {es₀ es₁ es₂ : List (Event Ise)}
    {payload env : PyVal} (h : call.tool deps = some t)
    (hl : call.ersLookup deps.cfg auth = some fetch)
    (hauth : Prog.Path (gateThenResolve deps headers t).run es₀ (.ret (.ok auth)))
    (hfetch : Prog.Path fetch.run es₁ (.ret (.ok payload)))
    (hrun : Prog.Path (call.invoke deps headers) (es₀ ++ (es₁ ++ es₂)) (.ret env)) :
    ∃ es r, Prog.Path (call.digest deps.cfg auth payload).run es (.ret r) ∧ env = answer r := by
  rw [ToolCall.invoke_eq_run h, run] at hrun
  have hperform := (hauth.bind_left _).rest hrun
  rw [Prog.ret_bind] at hperform
  dsimp only at hperform
  rw [perform, (fn_spec h hl).1, Coro.run_bind', Prog.bind_bind] at hperform
  have hdigest := (hfetch.bind_left _).rest hperform
  rw [Prog.ret_bind, Coro.next_ok] at hdigest
  -- what is left is the run of a tool that only digests
  have hleft : Prog.Path (perform deps.cfg { t with
      fn := fun _ => call.digest deps.cfg auth payload } auth) es₂ (.ret env) := hdigest
  obtain ⟨es, r, hr, _, henv⟩ := perform_returns hleft
  exact ⟨es, r, hr, henv⟩

/-- The envelope says `ok`, or names the code of a declared error. -/
def Survives (env : PyVal) : Prop :=
  field env "ok" = some (.bool true) ∨
    ∃ type code, errorCode type = some code ∧ field env "error" = some (.str code)

/-- `internal_error` is no code. -/
theorem errorCode_ne_internal (type : ExcType) : errorCode type ≠ some "internal_error" := by
  cases type <;> simp [errorCode]

theorem survives_answer_iff {P : Prop} {r : Except PyExc PyVal} (h : Decides P r) :
    Survives (answer r) ↔ P := by
  rw [← h.returns]
  cases r with
  | ok v => exact iff_of_true (Or.inl (h.ok v rfl)) ⟨v, rfl⟩
  | error e =>
      refine iff_of_false ?_ (by rintro ⟨_, h⟩; cases h)
      rintro (hok | ⟨type, code, hcode, herror⟩)
      · rw [answer, field_ok_error] at hok
        cases hok
      · rw [answer, field_error_error, h.undeclared e rfl] at herror
        cases herror
        exact errorCode_ne_internal type hcode

/-- **Which payloads a read tool survives.** A 2xx reply ends the lookup of the tool with its JSON.
When the lookup has ended with a payload, the run reports a result or a declared error, whatever
the name lookups answer, exactly if the tool digests the payload. -/
theorem payload_survived_iff (deps : Deps) (headers : Option RawHeaders) (call : ToolCall)
    (t : Tool) (auth : AuthContext) (fetch : Io PyVal) (ht : call.tool deps = some t)
    (hl : call.ersLookup deps.cfg auth = some fetch) :
    (∀ es r earlier resp v, Prog.Path fetch.run es (.ret r) →
      attempts es = earlier ++ [.response resp] → resp.isSuccess = true →
      resp.hasContent = true → resp.json = .ok v → r = .ok v) ∧
    ∀ es₀ es₁ es₂ payload env,
      Prog.Path (gateThenResolve deps headers t).run es₀ (.ret (.ok auth)) →
      Prog.Path fetch.run es₁ (.ret (.ok payload)) →
      Prog.Path (call.invoke deps headers) (es₀ ++ (es₁ ++ es₂)) (.ret env) →
      (Survives env ↔ call.Digests payload) := by
  refine ⟨fun es r earlier resp v hp hes hsuccess hcontent hjson =>
    ersLookup_returns ht hl hp hes hsuccess hcontent hjson, ?_⟩
  intro es₀ es₁ es₂ payload env hauth hfetch hrun
  obtain ⟨es, r, hr, rfl⟩ := run_digests ht hl hauth hfetch hrun
  exact survives_answer_iff (digest_decides hl hr)

/-- ISE answers every request with this JSON. -/
def Env.answering (payload : PyVal) : Env :=
  { Env.always 200 with outcome := fun _ => .response ⟨200, none, true, "", .ok payload⟩ }

/-- A list with one security group. -/
def oneGroup : PyVal :=
  .dict [("SearchResult", .dict [("total", .int 1),
    ("resources", .list [.dict [("id", .str "g1"), ("name", .str "Guests")]])])]

theorem payload_survived_groups :
    ∃ es env, Prog.Path ((ToolCall.iseListSecurityGroups 1 none none).invoke accountDeps none) es
      (.ret env) ∧ Survives env := by
  have hauth := Prog.path_exec (serve (.answering oneGroup))
    (gateThenResolve accountDeps none (iseListSecurityGroups accountDeps.cfg 1 none none)).run
    (.initial 3600 900)
  have hfetch := Prog.path_exec (serve (.answering oneGroup))
    (ErsApi.listSecurityGroups accountDeps.cfg ⟨"svc", "service_account", "pw", ""⟩ 1
      (clampPageSize accountDeps.cfg none)).run (.initial 3600 900)
  have hrun := Prog.path_exec (serve (.answering oneGroup))
    ((ToolCall.iseListSecurityGroups 1 none none).invoke accountDeps none) (.initial 3600 900)
  refine ⟨_, _, hrun, ((payload_survived_iff accountDeps none
    (.iseListSecurityGroups 1 none none) _ ⟨"svc", "service_account", "pw", ""⟩ _ rfl rfl).2
    _ _ _ oneGroup _ hauth hfetch hrun).mpr ?_⟩
  exact ⟨rfl, _, rfl, by decide⟩

/-- ISE answers 200 with a wrapper that holds `null`: the tool reports an internal error. -/
theorem null_endpoint_internal_error :
    ∃ es env, Prog.Path ((ToolCall.iseGetEndpointById "0123456789" none).invoke accountDeps none)
      es (.ret env) ∧ succeeded es = true ∧
        field env "error" = some (.str "internal_error") ∧ ¬ Survives env := by
  refine ⟨_, _, Prog.path_exec (serve (.answering (.dict [("ERSEndPoint", .none)]))) _
    (.initial 3600 900), ?_, ?_, ?_⟩
  · rfl
  · rfl
  · rintro (hok | ⟨type, code, hcode, herror⟩)
    · cases hok
    · cases herror
      exact errorCode_ne_internal type hcode

end IseMcp
