import IseMcp.AuditAttribution
import IseMcp.SessionIsolation
import IseMcp.WriteSafety

set_option autoImplicit false

/-! # Everything that is sent to ISE

Every exchange with ISE in a run belongs to one request of a client. It is a request of that
client's tool call, built from the arguments of the call, for the caller that the client's own
headers show, and of bounded size; or it is a probe with credentials that the client's own request
carries (`traffic_accounted`). Off HTTP there are no headers: a passthrough server that is run over
stdio sends nothing but probes (`stdio_silent`).
-/

namespace IseMcp

open Python Interaction

/-! ## The size of what is asked for -/

/-- A page asks for at least one item and for no more than the maximum; the history of a MAC is
asked for with one to five hundred records. -/
structure IseRequest.Modest (cfg : Config) (r : IseRequest) : Prop where
  page : ∀ params, r.params = some params → ∃ filter page size,
    params = ErsApi.filterParams filter page size ∧ 1 ≤ size ∧ size ≤ max 1 cfg.maxPageSize
  history : startsWith "/admin/API/mnt/AuthStatus/" r.path = true → ∃ mac seconds records,
    r.path = MntApi.authStatusPath mac seconds records ∧ 1 ≤ records ∧ records ≤ 500

/-- Of two texts neither of which starts with the other, the one stands in front of no text that
the other stands in front of. -/
theorem not_startsWith_append {p base : String} (hp : ¬ p.toList <+: base.toList)
    (hb : ¬ base.toList <+: p.toList) (s : String) : startsWith p (base ++ s) = false := by
  rw [startsWith, Bool.eq_false_iff, Ne, List.isPrefixOf_iff_prefix, String.toList_append]
  intro hprefix
  have hbase := List.prefix_append base.toList s.toList
  rcases List.prefix_or_prefix_of_prefix hprefix hbase with h | h
  · exact hp h
  · exact hb h

section

variable {cfg : Config} {auth : AuthContext}

theorem modest_get {path : String} (h : startsWith "/admin/API/mnt/AuthStatus/" path = false) :
    (ErsApi.getRequest cfg path auth none).Modest cfg where
  page := nofun
  history := by
    intro hpath
    rw [show (ErsApi.getRequest cfg path auth none).path = path from rfl, h] at hpath
    cases hpath

theorem modest_getUnder (base s : String)
    (hp : ¬ "/admin/API/mnt/AuthStatus/".toList <+: base.toList)
    (hb : ¬ base.toList <+: "/admin/API/mnt/AuthStatus/".toList) :
    (ErsApi.getRequest cfg (base ++ s) auth none).Modest cfg :=
  modest_get (not_startsWith_append hp hb s)

theorem modest_session (base s : String)
    (hp : ¬ "/admin/API/mnt/AuthStatus/".toList <+: base.toList)
    (hb : ¬ base.toList <+: "/admin/API/mnt/AuthStatus/".toList) :
    (MntApi.getRequest cfg (base ++ s) auth).Modest cfg where
  page := nofun
  history := by
    intro hpath
    rw [show (MntApi.getRequest cfg (base ++ s) auth).path = base ++ s from rfl,
      not_startsWith_append hp hb s] at hpath
    cases hpath

theorem modest_history (mac : String) (seconds : Int) {records : Int} (hlo : 1 ≤ records)
    (hhi : records ≤ 500) :
    (MntApi.getRequest cfg (MntApi.authStatusPath mac seconds records) auth).Modest cfg where
  page := nofun
  history := fun _ => ⟨mac, seconds, records, rfl, hlo, hhi⟩

theorem modest_page {path : String} (h : startsWith "/admin/API/mnt/AuthStatus/" path = false)
    (filter : Option String) (page : Int) (size : Option Int) :
    (ErsApi.getRequest cfg path auth
      (some (ErsApi.filterParams filter page (clampPageSize cfg size)))).Modest cfg where
  page := by
    intro params hparams
    cases hparams
    exact ⟨filter, page, _, rfl, clampPageSize_bounds cfg size⟩
  history := by
    intro hpath
    rw [show (ErsApi.getRequest cfg path auth _).path = path from rfl, h] at hpath
    cases hpath

theorem modest_write {method : HttpMethod} {path : String} {body : Option PyVal}
    (h : startsWith "/admin/API/mnt/AuthStatus/" path = false) :
    (ErsApi.writeRequest cfg method path auth body).Modest cfg where
  page := nofun
  history := by
    intro hpath
    rw [show (ErsApi.writeRequest cfg method path auth body).path = path from rfl, h] at hpath
    cases hpath

theorem planned_modest {call : ToolCall} {r : IseRequest} (h : call.Planned cfg auth r) :
    r.Modest cfg := by
  have hcontext : ∀ m, ToolCall.ContextRequest cfg auth m r → r.Modest cfg := by
    rintro m (rfl | rfl | rfl)
    · exact modest_getUnder _ _ (by decide) (by decide)
    · exact modest_session _ _ (by decide) (by decide)
    · exact modest_history _ _ (by decide) (by decide)
  cases call with
  | iseHealthCheck => exact h.elim
  | iseAuthStatus => exact h.elim
  | iseLogin u p => exact h.elim
  | iseValidateSession => exact h.elim
  | iseLogout => exact h.elim
  | iseWhoami => exact h.elim
  | iseGetEndpointByMac mac inc =>
      obtain ⟨m, _, rfl⟩ := h
      exact modest_getUnder _ _ (by decide) (by decide)
  | iseGetEndpointById eid inc =>
      obtain ⟨e, _, rfl⟩ := h
      exact modest_getUnder _ _ (by decide) (by decide)
  | iseGetEndpointByIp ip inc =>
      obtain ⟨addr, _, rfl⟩ := h
      exact modest_page (by decide) _ _ _
  | iseSearchEndpoints filter page size inc =>
      cases h
      exact modest_page (by decide) _ _ _
  | iseGetActiveSessionByMac mac inc =>
      obtain ⟨m, _, rfl⟩ := h
      exact modest_session _ _ (by decide) (by decide)
  | iseGetActiveSessionByIp ip inc =>
      obtain ⟨addr, _, rfl⟩ := h
      exact modest_session _ _ (by decide) (by decide)
  | iseGetAuthLogsByMac mac seconds records inc =>
      obtain ⟨m, _, rfl⟩ := h
      exact modest_history _ _ (by omega) (by omega)
  | iseGetPolicyContextByMac mac =>
      obtain ⟨m, _, hr⟩ := h
      exact hcontext m hr
  | iseGetIncidentSummaryByMac mac =>
      obtain ⟨m, _, hr⟩ := h
      exact hcontext m hr
  | iseListNetworkDevices filter page size inc =>
      cases h
      exact modest_page (by decide) _ _ _
  | iseGetUserSessionsByUsername user inc =>
      obtain ⟨u, _, rfl⟩ := h
      exact modest_getUnder _ _ (by decide) (by decide)
  | iseGetEndpointGroup gid =>
      obtain ⟨g, _, rfl⟩ := h
      exact modest_getUnder _ _ (by decide) (by decide)
  | iseListSecurityGroups page size inc =>
      cases h
      exact modest_page (by decide) none _ _
  | iseListSgacls page size inc =>
      cases h
      exact modest_page (by decide) none _ _
  | iseListAuthorizationProfiles page size inc =>
      cases h
      exact modest_page (by decide) none _ _
  | iseCreateEndpoint mac gid description =>
      obtain ⟨m, body, _, _, rfl⟩ := h
      exact modest_write (by decide)
  | iseAssignEndpointGroup eid gid =>
      obtain ⟨e, g, _, _, rfl⟩ := h
      exact modest_write (not_startsWith_append (by decide) (by decide) _)
  | iseDeleteEndpoint eid =>
      obtain ⟨e, _, rfl⟩ := h
      exact modest_write (not_startsWith_append (by decide) (by decide) _)

theorem mayRequest_modest {call : ToolCall} {r : IseRequest} (h : call.MayRequest cfg auth r) :
    r.Modest cfg := by
  rcases h with h | ⟨_, ⟨gid, rfl⟩ | ⟨pid, rfl⟩⟩
  · exact planned_modest h
  · exact modest_getUnder _ _ (by decide) (by decide)
  · exact modest_getUnder _ _ (by decide) (by decide)

end

/-! ## The source of an exchange -/

/-- What an exchange of request `i` with ISE goes back to. -/
inductive Accounted (deps : Deps) (env : Env) (sys : ServerSys) (i : Nat) :
    HttpRequest → Prop where
  /-- A request of the tool call, for the caller that its headers show. -/
  | call {headers : Option RawHeaders} {call : ToolCall} {left : Prog Ise ServerReply}
      {auth : AuthContext} {r : IseRequest} {pair : String × String}
      (htask : sys.tasks[i]? = some ⟨.tool headers call, left⟩)
      (hcaller : Caller deps env sys.log i headers auth) (hpair : auth.basicAuth = .ok pair)
      (hr : call.MayRequest deps.cfg auth r) (hmodest : r.Modest deps.cfg) :
      Accounted deps env sys i (IseClient.httpRequest r pair)
  /-- A probe of the credentials that the request carries. -/
  | login {req : ServerRequest} {left : Prog Ise ServerReply} {u p : String}
      (htask : sys.tasks[i]? = some ⟨req, left⟩) (hlogin : req.LogsIn deps u p) :
      Accounted deps env sys i (IseClient.probeRequest deps.cfg u p)

/-- Only a tool call sends a request. -/
theorem ServerRequest.MayDo.sends {deps : Deps} {req : ServerRequest} {h : HttpRequest}
    (hmay : req.MayDo deps (.send h)) : ∃ headers call, req = .tool headers call := by
  generalize ho : Op.send h = o at hmay
  cases hmay with
  | request _ _ => exact ⟨_, _, rfl⟩
  | record hrec => exact ⟨_, _, rfl⟩
  | _ => cases ho

/-- Only a login sends a probe, of the credentials it carries. -/
theorem ServerRequest.MayDo.probes {deps : Deps} {req : ServerRequest} {h : HttpRequest}
    (hmay : req.MayDo deps (.probe h)) :
    ∃ u p, req.LogsIn deps u p ∧ h = IseClient.probeRequest deps.cfg u p := by
  generalize ho : Op.probe h = o at hmay
  cases hmay with
  | probe hlogin =>
      cases ho
      exact ⟨_, _, hlogin, rfl⟩
  | request _ hof => cases hof <;> cases ho
  | record hrec => obtain ⟨rec, rfl⟩ | ⟨rec, rfl⟩ := hrec <;> cases ho
  | _ => cases ho

/-- A request that is sent for a known caller is one that the call makes, with the caller's pair. -/
theorem Op.ActsAs.sent {cfg : Config} {call : ToolCall} {auth : AuthContext} {h : HttpRequest}
    (hacts : (Op.send h).ActsAs cfg call auth) : ∃ r pair, call.MayRequest cfg auth r ∧
      auth.basicAuth = .ok pair ∧ h = IseClient.httpRequest r pair := by
  rcases hacts with ⟨r, hr, hof⟩ | ⟨rec, hrec, _⟩ | ⟨rec, hrec⟩
  · cases hof with
    | send hauth =>
        rw [(mayRequest_shape hr).2] at hauth
        exact ⟨r, _, hr, hauth, rfl⟩
  · cases hrec
  · cases hrec

section

variable {deps : Deps} {env : Env} {moves : List (Move ServerRequest)}

theorem sent_accounted (hb : deps.Built) (hv : deps.cfg.validate = .ok ()) {i : Nat}
    {headers : Option RawHeaders} {call : ToolCall} {left : Prog Ise ServerReply} {ev : Event Ise}
    {h : HttpRequest}
    (htask : (serverRun deps env moves).tasks[i]? = some ⟨.tool headers call, left⟩)
    (hev : ev ∈ eventsOf (serverRun deps env moves).log i) (hsend : ev.1 = .send h) :
    ∃ auth r pair, Caller deps env (serverRun deps env moves).log i headers auth ∧
      auth.basicAuth = .ok pair ∧ call.MayRequest deps.cfg auth r ∧
      h = IseClient.httpRequest r pair := by
  obtain ⟨auth, es₁, es₂, hes, hres, _, hacts⟩ := sender hb htask hev hsend
  have hcaller := resolved_caller hb hv hes hres
  rw [hes, List.mem_append] at hev
  rcases hev with hev | hev
  · -- resolving the caller sends nothing
    obtain ⟨sid, hsid⟩ := (resolveAuth_only deps headers).event hres hev
    rw [hsend] at hsid
    cases hsid
  · have hact := hacts ev hev
    rw [hsend] at hact
    obtain ⟨r, pair, hr, hpair, hh⟩ := hact.sent
    exact ⟨auth, r, pair, hcaller, hpair, hr, hh⟩

end

/-- **Everything that is sent to ISE is accounted for**: in every run, a request goes back to the
tool call of one client and carries what its caller stands for, and a probe goes back to the login
that asks for it. -/
theorem traffic_accounted (deps : Deps) (hb : deps.Built) (hv : deps.cfg.validate = .ok ())
    (env : Env) (moves : List (Move ServerRequest)) {e : Entry Ise World}
    (he : e ∈ (serverRun deps env moves).log) {h : HttpRequest}
    (hev : e.event.1 = .send h ∨ e.event.1 = .probe h) :
    Accounted deps env (serverRun deps env moves) e.task h := by
  obtain ⟨req, left, htask, hmay⟩ := run_may_entry hb he
  rcases hev with hev | hev
  · rw [hev] at hmay
    obtain ⟨headers, call, rfl⟩ := hmay.sends
    have hmem := mem_eventsOf.mpr ⟨e, he, rfl, rfl⟩
    obtain ⟨auth, r, pair, hcaller, hpair, hr, rfl⟩ := sent_accounted hb hv htask hmem hev
    exact .call htask hcaller hpair hr (mayRequest_modest hr)
  · rw [hev] at hmay
    obtain ⟨u, p, hlogin, rfl⟩ := hmay.probes
    exact .login htask hlogin

/-- The endpoint with this MAC is read by the service account. -/
def readMoves : List (Move ServerRequest) :=
  [.spawn (.tool none (.iseGetEndpointByMac "aabbccddeeff" none)), .advance 0, .advance 0]

/-- The request that it sends goes back to the call. -/
theorem traffic_accounted_read : ∃ h : HttpRequest, h.auth = ("svc", "pw") ∧
    Accounted writeDeps (.always 200) (serverRun writeDeps (.always 200) readMoves) 0 h := by
  have hsent : ∃ e r, (serverRun writeDeps (.always 200) readMoves).log[1]? = some e ∧
      e.task = 0 ∧ e.event.1 = .send (IseClient.httpRequest r ("svc", "pw")) :=
    ⟨_, ErsApi.getRequest writeDeps.cfg "/ers/config/endpoint/name/AA:BB:CC:DD:EE:FF"
      ⟨"svc", "service_account", "pw", ""⟩ none, rfl, rfl, rfl⟩
  obtain ⟨e, r, he, htask, hsend⟩ := hsent
  have hb : writeDeps.Built := rfl
  have haccounted := traffic_accounted writeDeps hb rfl (.always 200) readMoves
    (List.mem_of_getElem? he) (Or.inl hsend)
  rw [htask] at haccounted
  exact ⟨_, rfl, haccounted⟩

/-! ## A passthrough server over stdio -/

/-- Without headers there is no token. -/
theorem sessionId_none (deps : Deps) : deps.sessionId none = none :=
  rfl

/-- All a run can show that has tool calls without headers only. -/
structure Silent (deps : Deps) (sys : ServerSys) : Prop where
  sends : ∀ e ∈ sys.log, ∀ h, e.event.1 ≠ .send h
  probes : ∀ e ∈ sys.log, ∀ h, e.event.1 = .probe h → ∃ u p left,
    sys.tasks[e.task]? = some ⟨.tool none (.iseLogin u p), left⟩ ∧
      h = IseClient.probeRequest deps.cfg u p
  replies : ∀ (i : Nat) call t reply, call.tool deps = some t →
    sys.tasks[i]? = some ⟨.tool none call, .ret (.envelope reply)⟩ →
    reply = noSession ∨ ∃ e, gates deps.cfg t = .error e ∧ reply = error e

section

variable {deps : Deps} {env : Env} {moves : List (Move ServerRequest)}

/-- Without headers a passthrough server knows no caller. -/
theorem no_caller (hmode : deps.cfg.authMode = "passthrough") {log : ServerLog} {i : Nat}
    {auth : AuthContext} : ¬ Caller deps env log i none auth := by
  intro h
  cases h with
  | apiKey hkey => cases hkey
  | account _ hmode' _ =>
      rw [hmode] at hmode'
      exact absurd hmode' (by decide)
  | session _ _ hs =>
      obtain ⟨_, _, _, _, _, _, _, _, _, hid, _⟩ := hs
      cases hid

/-- A gated call without headers is answered by its gates, or told that it has no session. -/
theorem reply_without_headers (hb : deps.Built) (hmode : deps.cfg.authMode = "passthrough")
    {i : Nat} {call : ToolCall} {t : Tool} {reply : PyVal} (ht : call.tool deps = some t)
    (htask : (serverRun deps env moves).tasks[i]?
      = some ⟨.tool none call, .ret (.envelope reply)⟩) :
    reply = noSession ∨ ∃ e, gates deps.cfg t = .error e ∧ reply = error e := by
  obtain ⟨q, hpath, hret⟩ := Prog.path_map (serverRun_path htask)
  have hq : q = .ret reply := by
    cases q with
    | ret v =>
        cases hret
        rfl
    | call o k => cases hret
  rw [hq, ToolCall.invoke_eq_run ht] at hpath
  cases hg : gates deps.cfg t with
  | error e =>
      rw [run_refused hg] at hpath
      exact Or.inr ⟨e, rfl, (fail_returns hpath).2⟩
  | ok _ =>
      rw [run_admitted hg] at hpath
      obtain ⟨r, es₁, es₂, hes, hres, hrest⟩ := (Prog.path_bind_ret_iff _ _ _ _).mp hpath
      rw [Deps.resolveAuth, Deps.run_resolveToken, sessionId_none] at hres
      have hkey : deps.isApiKey none = .ok false := rfl
      rw [hkey] at hres
      dsimp only at hres
      rw [hb.passthrough hmode, Provider.resolve, PassthroughProvider.run_resolve,
        Prog.path_call_ret_iff] at hres
      obtain ⟨x, es', hfirst, hret⟩ := hres
      -- the store has no session for no id
      have hx : x = none := by
        have hmem : (⟨Op.getSession none, x⟩ : Event Ise)
            ∈ eventsOf (serverRun deps env moves).log i := by
          rw [hes, hfirst]
          simp
        obtain ⟨e, he, _, hev⟩ := mem_eventsOf.mp hmem
        obtain ⟨pre, post, hlog⟩ := List.append_of_mem he
        exact run_answer hlog hev
      subst hx
      obtain ⟨_, hr⟩ := (Prog.path_ret_iff _ _ _).mp hret
      cases hr
      exact Or.inl (fail_returns hrest).2

/-- **A passthrough server over stdio never asks ISE for anything**: whatever is called and in
whichever order, it sends nothing but the probes of `ise_login`, and every gated call is turned
away. -/
theorem stdio_silent (hb : deps.Built) (hv : deps.cfg.validate = .ok ())
    (hmode : deps.cfg.authMode = "passthrough")
    (hstdio : ∀ task ∈ (serverRun deps env moves).tasks, ∃ call, task.req = .tool none call) :
    Silent deps (serverRun deps env moves) where
  sends := by
    intro e he h hsend
    obtain ⟨req, left, htask, hmay⟩ := run_may_entry hb he
    obtain ⟨call, rfl⟩ := hstdio _ (List.mem_of_getElem? htask)
    have hmem := mem_eventsOf.mpr ⟨e, he, rfl, rfl⟩
    obtain ⟨auth, _, _, hcaller, _⟩ := sent_accounted hb hv htask hmem hsend
    exact no_caller hmode hcaller
  probes := by
    intro e he h hprobe
    obtain ⟨req, left, htask, hmay⟩ := run_may_entry hb he
    obtain ⟨call, rfl⟩ := hstdio _ (List.mem_of_getElem? htask)
    rw [hprobe] at hmay
    obtain ⟨u, p, hlogin, rfl⟩ := hmay.probes
    cases call with
    | iseLogin username password =>
        obtain ⟨rfl, rfl⟩ := hlogin
        exact ⟨_, _, left, htask, rfl⟩
    | _ => exact hlogin.elim
  replies := fun _ _ _ _ ht htask => reply_without_headers hb hmode ht htask

end

/-- Alice logs in over stdio and then reads an endpoint. -/
def stdioMoves : List (Move ServerRequest) :=
  aliceLogin ++ .spawn (.tool none (.iseGetEndpointById "0123456789" none)) ::
    List.replicate 3 (.advance 1)

/-- Her session is of no use to her. -/
theorem stdio_silent_alice :
    Silent passthroughDeps (serverRun passthroughDeps sampleEnv stdioMoves) := by
  have hb : passthroughDeps.Built := rfl
  refine stdio_silent hb rfl rfl fun task htask => ?_
  have hreqs : (serverRun passthroughDeps sampleEnv stdioMoves).tasks.map (·.req)
      = [.tool none (.iseLogin "alice" "pw"),
        .tool none (.iseGetEndpointById "0123456789" none)] := rfl
  have hmem := List.mem_map_of_mem (f := (·.req)) htask
  rw [hreqs, List.mem_cons, List.mem_singleton] at hmem
  rcases hmem with hreq | hreq
  · exact ⟨_, hreq⟩
  · exact ⟨_, hreq⟩

end IseMcp
