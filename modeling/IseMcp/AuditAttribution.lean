import IseMcp.AuditComplete
import IseMcp.AuthorizationCode
import IseMcp.ConfusedDeputy

set_option autoImplicit false

/-! # Who the audit says it was

The actor of an audit record and the name that `ise_whoami` reports are the user name of the
caller's context; ISE is called with the pair of `basic_auth`. The two agree for sessions and API
keys. The service account shows the configured user name, or a placeholder if only
`ISE_ENCODED_AUTH` is set, and calls ISE with the pair encoded there: the two agree if the pair is
for the configured user (`attribution`).
-/

namespace IseMcp

open Python Interaction Text

/-- The caller is the service account, and `ISE_ENCODED_AUTH` says with which pair it calls ISE. -/
def ByEncodedAuth (deps : Deps) (headers : Option RawHeaders) : Prop :=
  deps.cfg.authMode = "service_account" ∧ deps.cfg.iseEncodedAuth ≠ "" ∧
    deps.isApiKey (deps.sessionId headers) ≠ .ok true

/-- The user name in `ISE_ENCODED_AUTH`. -/
def encodedUser (cfg : Config) : Option String :=
  ((b64decode cfg.iseEncodedAuth).bind utf8Decode).map fun s => (partitionColon s).1

/-- How the name shown for a caller is related to the one ISE is called with. -/
structure Attributes (deps : Deps) (headers : Option RawHeaders) (used shown : String) : Prop where
  same : ¬ ByEncodedAuth deps headers → shown = used
  named : ByEncodedAuth deps headers → deps.cfg.iseUsername ≠ "" →
    encodedUser deps.cfg = some deps.cfg.iseUsername → shown = used
  placeholder : ByEncodedAuth deps headers → deps.cfg.iseUsername = "" → shown = "(encoded)"

/-- The user name in an envelope of `ise_whoami`. -/
def whoamiName (env : PyVal) : Option PyVal := (field env "data").bind (field · "username")

/-! ## What a call sends and records -/

/-- What `run` does for a known caller: requests as that caller, and records under its name. -/
def Op.ActsAs (cfg : Config) (call : ToolCall) (auth : AuthContext) (o : Op) : Prop :=
  Issues (call.MayRequest cfg auth) o ∨ (∃ rec, o = .audit rec ∧ rec.actor = auth.username) ∨
    ∃ rec, o = .log rec

theorem perform_only {deps : Deps} {call : ToolCall} {t : Tool} (ht : call.tool deps = some t)
    (auth : AuthContext) :
    Prog.Only (Op.ActsAs deps.cfg call auth) (perform deps.cfg t auth) := by
  have haudit : ∀ status detail,
      Prog.Only (Op.ActsAs deps.cfg call auth) (audit deps.cfg auth.username t status detail) := by
    intro status detail
    unfold audit
    split_ifs
    · exact .call (Or.inr (Or.inl ⟨_, rfl, rfl⟩)) fun _ => .ret _
    · exact .ret _
  refine Prog.Only.bind ((fn_only ht auth).mono fun o ho => Or.inl ho) fun r => ?_
  cases r with
  | error e =>
      refine (haudit _ _).bind fun _ => ?_
      exact .call (Or.inr (Or.inr ⟨_, rfl⟩)) fun _ => .ret _
  | ok v => exact (haudit _ _).bind fun _ => .ret _

/-- Up to any point of its run a tool has sent nothing, or it has resolved its caller and acts as
that caller. -/
theorem run_acts {deps : Deps} {headers : Option RawHeaders} {call : ToolCall} {t : Tool}
    (ht : call.tool deps = some t) {es : List (Event Ise)} {q : Prog Ise PyVal}
    (h : Prog.Path (run deps headers t) es q) :
    (∀ ev ∈ es, ∀ req, ev.1 ≠ .send req) ∨
    ∃ auth es₁ es₂, es = es₁ ++ es₂ ∧
      Prog.Path (deps.resolveAuth headers).run es₁ (.ret (.ok auth)) ∧
      ∀ ev ∈ es₂, ev.1.ActsAs deps.cfg call auth := by
  have hrecords : ∀ {actor e es q}, Prog.Path (fail deps.cfg actor t e) es q →
      ∀ ev ∈ es, ∀ req, ev.1 ≠ Op.send req := by
    intro actor e es q hp ev hev req hreq
    have := (fail_only deps.cfg actor t e).event hp hev
    rw [hreq] at this
    rcases this with ⟨rec, hrec⟩ | ⟨rec, hrec⟩ <;> cases hrec
  have hlookups : ∀ {es q}, Prog.Path (deps.resolveAuth headers).run es q →
      ∀ ev ∈ es, ∀ req, ev.1 ≠ Op.send req := by
    intro es q hp ev hev req hreq
    obtain ⟨sid, hsid⟩ := (resolveAuth_only deps headers).event hp hev
    rw [hreq] at hsid
    cases hsid
  cases hg : gates deps.cfg t with
  | error e =>
      rw [run_refused hg] at h
      exact Or.inl (hrecords h)
  | ok u =>
      rw [run_admitted hg] at h
      rcases (Prog.path_bind_iff _ _ _ _).mp h with ⟨p', hp, _⟩ | ⟨r, es₁, es₂, rfl, hres, hrest⟩
      · exact Or.inl (hlookups hp)
      · cases r with
        | error e =>
            refine Or.inl fun ev hev => ?_
            rcases List.mem_append.mp hev with hev | hev
            · exact hlookups hres ev hev
            · exact hrecords hrest ev hev
        | ok auth =>
            exact Or.inr ⟨auth, es₁, es₂, rfl, hres, fun ev hev =>
              (perform_only ht auth).event hrest hev⟩

/-- An event of a known caller that sends carries the pair of the caller. -/
theorem sends_as {cfg : Config} {call : ToolCall} {auth : AuthContext} {o : Op}
    {h : HttpRequest} (ho : o.ActsAs cfg call auth) (hsend : o = .send h) :
    auth.basicAuth = .ok h.auth := by
  subst hsend
  rcases ho with ⟨r, hr, hof⟩ | ⟨rec, hrec, _⟩ | ⟨rec, hrec⟩
  · rw [← (mayRequest_shape hr).2]
    cases hof with
    | send hauth => exact hauth
  · cases hrec
  · cases hrec

/-! ## Who a token stands for -/

/-- The provider of a server in service-account mode. -/
theorem Deps.Built.serviceAccount {deps : Deps} (hb : deps.Built)
    (hmode : deps.cfg.authMode = "service_account") :
    ∃ auth, deps.provider = .serviceAccount auth ∧ IseMcp.serviceAccount deps.cfg = .ok auth := by
  unfold Deps.Built buildProvider at hb
  rw [if_pos hmode] at hb
  cases hs : IseMcp.serviceAccount deps.cfg with
  | error e =>
      rw [hs] at hb
      cases hb
  | ok auth =>
      rw [hs] at hb
      exact ⟨auth, (Except.ok.inj hb).symm, rfl⟩

theorem serviceAccount_shows {cfg : Config} {auth : AuthContext}
    (h : serviceAccount cfg = .ok auth) :
    auth.encoded = cfg.iseEncodedAuth ∧ (cfg.iseUsername = "" → auth.username = "(encoded)") ∧
      (cfg.iseUsername ≠ "" → auth.username = cfg.iseUsername) := by
  unfold serviceAccount at h
  split_ifs at h with _ huser
  · cases h
    exact ⟨rfl, fun h' => absurd h' huser, fun _ => rfl⟩
  · cases h
    exact ⟨rfl, fun _ => rfl, fun h' => absurd h' huser⟩

/-- A pair that was encoded is for the encoded user. -/
theorem basicAuth_encodedUser {cfg : Config} {auth : AuthContext} {pair : String × String}
    (henc : auth.encoded = cfg.iseEncodedAuth) (hne : cfg.iseEncodedAuth ≠ "")
    (hpair : auth.basicAuth = .ok pair) : encodedUser cfg = some pair.1 := by
  rw [AuthContext.basicAuth, henc, if_pos hne] at hpair
  rw [encodedUser]
  cases hdec : (b64decode cfg.iseEncodedAuth).bind utf8Decode with
  | none =>
      rw [hdec] at hpair
      cases hpair
  | some s =>
      rw [hdec] at hpair
      cases hpair
      rfl

/-- The context that a token was resolved to: that of the API keys, of the service account, or of
the login that opened the session. -/
inductive Caller (deps : Deps) (env : Env) (log : ServerLog) (i : Nat) (headers : Option RawHeaders) :
    AuthContext → Prop where
  | apiKey (h : deps.isApiKey (deps.sessionId headers) = .ok true) :
      Caller deps env log i headers deps.apiKeyContext
  | account {auth : AuthContext} (h : deps.isApiKey (deps.sessionId headers) = .ok false)
      (hmode : deps.cfg.authMode = "service_account")
      (ha : serviceAccount deps.cfg = .ok auth) : Caller deps env log i headers auth
  | session {u p : String} (h : deps.isApiKey (deps.sessionId headers) = .ok false)
      (hmode : deps.cfg.authMode = "passthrough")
      (hs : ByLiveSession deps.cfg env log i (deps.sessionId headers) u p) :
      Caller deps env log i headers (PassthroughProvider.authContext u p)

section

variable {deps : Deps} {env : Env} {moves : List (Move ServerRequest)}

theorem resolved_caller (hb : deps.Built) (hv : deps.cfg.validate = .ok ()) {i : Nat}
    {headers : Option RawHeaders} {es₁ es₂ : List (Event Ise)} {auth : AuthContext}
    (hes : eventsOf (serverRun deps env moves).log i = es₁ ++ es₂)
    (h : Prog.Path (deps.resolveAuth headers).run es₁ (.ret (.ok auth))) :
    Caller deps env (serverRun deps env moves).log i headers auth := by
  rw [Deps.resolveAuth, Deps.run_resolveToken] at h
  rcases hkey : deps.isApiKey (deps.sessionId headers) with e | _ | _ <;> rw [hkey] at h
  · cases h
  · rcases validate_authMode hv with hmode | hmode
    · dsimp only at h
      rw [hb.passthrough hmode, Provider.resolve, PassthroughProvider.run_resolve,
        Prog.path_call_ret_iff] at h
      obtain ⟨x, es', rfl, hret⟩ := h
      rcases x with _ | sess
      · cases hret
      · obtain ⟨rfl, hauth⟩ := (Prog.path_ret_iff _ _ _).mp hret
        cases hauth
        obtain ⟨u, p, hsess, hlive⟩ := found_session hb hmode (List.append_nil _).symm hes
        rw [hsess]
        exact .session hkey hmode hlive
    · obtain ⟨auth', hp, ha⟩ := hb.serviceAccount hmode
      dsimp only at h
      rw [hp] at h
      cases h
      exact .account hkey hmode ha
  · cases h
    exact .apiKey hkey

/-- What is shown for a caller, against the pair it calls ISE with. -/
theorem Caller.attributes {log : ServerLog} {i : Nat} {headers : Option RawHeaders}
    {auth : AuthContext} {pair : String × String} (h : Caller deps env log i headers auth)
    (hpair : auth.basicAuth = .ok pair) : Attributes deps headers pair.1 auth.username := by
  cases h with
  | apiKey hkey =>
      rw [AuthContext.basicAuth_of_not_encoded rfl] at hpair
      cases hpair
      exact ⟨fun _ => rfl, fun h => absurd hkey h.2.2, fun h => absurd hkey h.2.2⟩
  | account hkey hmode ha =>
      obtain ⟨henc, hplaceholder, hname⟩ := serviceAccount_shows ha
      refine ⟨fun hno => ?_, fun hby hne huser => ?_, fun _ => hplaceholder⟩
      · by_cases hempty : deps.cfg.iseEncodedAuth = ""
        · rw [AuthContext.basicAuth_of_not_encoded (henc.trans hempty)] at hpair
          cases hpair
          rfl
        · exact absurd ⟨hmode, hempty, by rw [hkey]; simp⟩ hno
      · rw [basicAuth_encodedUser henc hby.2.1 hpair, Option.some.injEq] at huser
        rw [hname hne, huser]
  | session hkey hmode hs =>
      rw [AuthContext.basicAuth_of_not_encoded rfl] at hpair
      cases hpair
      have hno : ¬ ByEncodedAuth deps headers := by
        rintro ⟨hmode', _⟩
        rw [hmode'] at hmode
        exact absurd hmode (by decide)
      exact ⟨fun _ => rfl, fun h => absurd h hno, fun h => absurd h hno⟩

/-- With fresh tokens one token stands for one user name in the whole run. -/
theorem same_caller (hfresh : Function.Injective fun n => (env.token n).text) {i j : Nat}
    {headers headers' : Option RawHeaders} {auth auth' : AuthContext}
    (htok : deps.sessionId headers' = deps.sessionId headers)
    (h : Caller deps env (serverRun deps env moves).log i headers auth)
    (h' : Caller deps env (serverRun deps env moves).log j headers' auth') :
    auth'.username = auth.username := by
  cases h with
  | apiKey hkey =>
      cases h' with
      | apiKey _ => rfl
      | account hkey' _ _ =>
          rw [htok, hkey] at hkey'
          cases hkey'
      | session hkey' _ _ =>
          rw [htok, hkey] at hkey'
          cases hkey'
  | account hkey hmode ha =>
      cases h' with
      | apiKey hkey' =>
          rw [htok, hkey] at hkey'
          cases hkey'
      | account _ _ ha' =>
          rw [ha] at ha'
          cases ha'
          rfl
      | session _ hmode' _ =>
          rw [hmode] at hmode'
          exact absurd hmode' (by decide)
  | session hkey hmode hs =>
      cases h' with
      | apiKey hkey' =>
          rw [htok, hkey] at hkey'
          cases hkey'
      | account _ hmode' _ =>
          rw [hmode] at hmode'
          exact absurd hmode' (by decide)
      | session _ _ hs' =>
          -- one entry created the session of this id
          obtain ⟨pre, c, mid, res, mid', sess, _, hlog, hc, hid, _⟩ := hs
          obtain ⟨pre', c', mid₂, res', mid₂', sess', _, hlog', hc', hid', _⟩ := hs'
          rw [htok, hid, Option.some.injEq] at hid'
          obtain ⟨_, rfl, _⟩ := created_once hfresh hlog hlog' hc hc' hid'
          rw [hc] at hc'
          cases hc'
          rfl

/-- `ise_whoami` reports the user name of the context it was resolved to. -/
theorem whoami_reports {headers : Option RawHeaders} {es : List (Event Ise)} {reply name : PyVal}
    (hp : Prog.Path (ToolCall.iseWhoami.invoke deps headers) es (.ret reply))
    (hname : whoamiName reply = some name) :
    ∃ auth es₁ es₂, es = es₁ ++ es₂ ∧
      Prog.Path (deps.resolveAuth headers).run es₁ (.ret (.ok auth)) ∧ name = .str auth.username := by
  have htool : ToolCall.iseWhoami.tool deps = some _ := rfl
  rw [ToolCall.invoke_eq_run htool] at hp
  rcases run_returns hp with ⟨es₁, e, _, rfl, rfl⟩ | ⟨auth, es₁, es₂, r, _, hres, hfn, rfl, rfl⟩
  · have hnone : field (error e) "data" = none := by
      unfold error
      split
      · cases e.detail <;> cases e.status <;> rfl
      · rfl
    rw [whoamiName, answer, hnone] at hname
    cases hname
  · obtain ⟨rfl, hr⟩ := (Prog.path_ret_iff _ _ _).mp hfn
    cases hr
    refine ⟨auth, es₁, _, rfl, hres, ?_⟩
    cases hname
    rfl

/-- The task of a request that was sent resolved its caller, sends as that caller and records under
its name. -/
theorem sender (hb : deps.Built) {i : Nat} {headers : Option RawHeaders} {call : ToolCall}
    {left : Prog Ise ServerReply} {ev : Event Ise} {h : HttpRequest}
    (htask : (serverRun deps env moves).tasks[i]? = some ⟨.tool headers call, left⟩)
    (hev : ev ∈ eventsOf (serverRun deps env moves).log i) (hsend : ev.1 = .send h) :
    ∃ auth es₁ es₂, eventsOf (serverRun deps env moves).log i = es₁ ++ es₂ ∧
      Prog.Path (deps.resolveAuth headers).run es₁ (.ret (.ok auth)) ∧
      auth.basicAuth = .ok h.auth ∧ ∀ ev ∈ es₂, ev.1.ActsAs deps.cfg call auth := by
  have hpath := serverRun_path htask
  by_cases hgated : (ServerRequest.tool headers call).Gated deps
  · obtain ⟨t, ht⟩ := Option.isSome_iff_exists.mp hgated
    rw [gated_program ht] at hpath
    obtain ⟨q, hpath, _⟩ := Prog.path_map hpath
    rcases run_acts ht hpath with hnone | ⟨auth, es₁, es₂, hes, hres, hacts⟩
    · exact absurd hsend (hnone ev hev h)
    · refine ⟨auth, es₁, es₂, hes, hres, ?_, hacts⟩
      rw [hes, List.mem_append] at hev
      rcases hev with hev | hev
      · obtain ⟨sid, hsid⟩ := (resolveAuth_only deps headers).event hres hev
        rw [hsend] at hsid
        cases hsid
      · exact sends_as (hacts ev hev) hsend
  · have := (ungated_only hb hgated).event hpath hev
    rw [hsend] at this
    rcases this with ⟨⟨⟩⟩

end

/-- A probe belongs to a login, and carries its credentials. -/
theorem probe_login {deps : Deps} (hb : deps.Built) {headers : Option RawHeaders} {call : ToolCall}
    {es : List (Event Ise)} {left : Prog Ise ServerReply} {ev : Event Ise} {h : HttpRequest}
    (hpath : Prog.Path ((ServerRequest.tool headers call).program deps) es left) (hev : ev ∈ es)
    (hprobe : ev.1 = .probe h) : ∃ u p, call = .iseLogin u p ∧ h.auth = (u, p) := by
  by_cases hgated : (ServerRequest.tool headers call).Gated deps
  · obtain ⟨t, ht⟩ := Option.isSome_iff_exists.mp hgated
    obtain ⟨pre, post, rfl⟩ := List.append_of_mem hev
    obtain ⟨k, hk⟩ := hpath.before
    rcases gated_calls ht hk with hrec | ⟨_, ⟨k', hres⟩ | ⟨_, _, _, r, _, _, _, hof⟩⟩
    · rw [hprobe] at hrec
      rcases hrec with ⟨rec, hrec⟩ | ⟨rec, hrec⟩ <;> cases hrec
    · obtain ⟨sid, hsid⟩ := (resolveAuth_only deps headers).next hres
      rw [hprobe] at hsid
      cases hsid
    · rw [hprobe] at hof
      cases hof
  · rcases ungated_cases hgated with honly | ⟨validate, u, p, f, hp, hprog, hf, hlogin⟩
    · have := honly.event hpath hev
      rw [hprobe] at this
      cases this
    · rw [hprog] at hpath
      have hown : Prog.Only (fun o : Op => ∀ h, o = .probe h → h.auth = (u, p))
          ((PassthroughProvider.login validate u p).run >>= f) := by
        refine Prog.Only.bind (PassthroughProvider.login_only ?_ nofun) fun r => (hf r).mono ?_
        · rw [hb.validator hp]
          refine (probes_validateCredentials deps.cfg u p).mono ?_
          rintro o ⟨h', rfl, _, hauth⟩ h heq
          cases heq
          exact hauth
        · rintro o ⟨grant, rfl⟩ h heq
          cases heq
      exact ⟨u, p, hlogin headers call rfl, hown.event hpath hev h hprobe⟩

/-- What the audit and `ise_whoami` show in a run, against the user names ISE was called with. -/
structure Attribution (deps : Deps) (s : ServerSys) : Prop where
  /-- The actor recorded for a call that sent a request. -/
  actor : ∀ (i : Nat) headers call left, s.tasks[i]? = some ⟨.tool headers call, left⟩ →
    ∀ ev ∈ eventsOf s.log i, ∀ h, ev.1 = .send h → ∀ rec ∈ audits (eventsOf s.log i),
    Attributes deps headers h.auth.1 rec.actor
  /-- The name reported for the same token. -/
  whoami : ∀ (i : Nat) headers call left, s.tasks[i]? = some ⟨.tool headers call, left⟩ →
    ∀ ev ∈ eventsOf s.log i, ∀ h, ev.1 = .send h →
    ∀ (j : Nat) headers' reply name,
    s.tasks[j]? = some ⟨.tool headers' .iseWhoami, .ret (.envelope reply)⟩ →
    deps.sessionId headers' = deps.sessionId headers → whoamiName reply = some name →
    ∃ shown, name = .str shown ∧ Attributes deps headers h.auth.1 shown
  /-- The probes of `ise_login`, which has no caller, carry what it was given. -/
  probes : ∀ (i : Nat) headers call left, s.tasks[i]? = some ⟨.tool headers call, left⟩ →
    ∀ ev ∈ eventsOf s.log i, ∀ h, ev.1 = .probe h → ∃ u p, call = .iseLogin u p ∧ h.auth = (u, p)

/-- **Attribution**: the actor of the audit record and the name that `ise_whoami` reports for the
same token are the user name ISE was called with, for a service account configured by
`ISE_ENCODED_AUTH` if that is for `ISE_USERNAME`; without `ISE_USERNAME` it is shown under a
placeholder. -/
theorem attribution (deps : Deps) (hb : deps.Built) (hv : deps.cfg.validate = .ok ()) (env : Env)
    (hfresh : Function.Injective fun n => (env.token n).text) (moves : List (Move ServerRequest)) :
    Attribution deps (serverRun deps env moves) where
  actor := by
    intro i headers call left htask ev hev h hsend rec hrec
    obtain ⟨auth, es₁, es₂, hes, hres, hpair, hacts⟩ := sender hb htask hev hsend
    have hlookups := audits_lookups fun ev hev => (resolveAuth_only deps headers).event hres hev
    rw [hes, audits_append, hlookups, List.nil_append, audits, List.mem_filterMap] at hrec
    obtain ⟨⟨o, x⟩, hmem, hrec⟩ := hrec
    have hactor : rec.actor = auth.username := by
      have hact := hacts _ hmem
      cases o with
      | audit rec' =>
          cases hrec
          rcases hact with ⟨r, _, hof⟩ | ⟨rec'', heq, hname⟩ | ⟨rec'', heq⟩
          · cases hof
          · cases heq
            exact hname
          · cases heq
      | _ => cases hrec
    rw [hactor]
    exact (resolved_caller hb hv hes hres).attributes hpair
  whoami := by
    intro i headers call left htask ev hev h hsend j headers' reply name hwho htok hname
    obtain ⟨auth, es₁, es₂, hes, hres, hpair, _⟩ := sender hb htask hev hsend
    have hcaller := resolved_caller hb hv hes hres
    obtain ⟨p', hpath, hret⟩ := Prog.path_map (serverRun_path hwho)
    have hp' : p' = .ret reply := by
      cases p' with
      | ret a =>
          cases hret
          rfl
      | call o k => cases hret
    subst hp'
    obtain ⟨auth', fs₁, fs₂, hfs, hres', hshown⟩ := whoami_reports hpath hname
    have hsame := same_caller hfresh htok hcaller (resolved_caller hb hv hfs hres')
    exact ⟨_, hshown, by rw [hsame]; exact hcaller.attributes hpair⟩
  probes := by
    intro i headers call left htask ev hev h hprobe
    exact probe_login hb (serverRun_path htask) hev hprobe

/-- A service account that is configured by its encoded pair, with user name `svc`. -/
def encodedDeps : Deps where
  cfg := { accountDeps.cfg with iseUsername := "", isePassword := "",
                                iseEncodedAuth := "c3ZjOnB3" }
  provider := .serviceAccount ⟨"(encoded)", "service_account", "", "c3ZjOnB3"⟩
  fromstring := accountDeps.fromstring

/-- One endpoint is read, then `ise_whoami` is asked. -/
def readThenWhoami : List (Move ServerRequest) :=
  .spawn (.tool none (.iseGetEndpointById "0123456789" none)) :: List.replicate 4 (.advance 0) ++
    .spawn (.tool none .iseWhoami) :: List.replicate 1 (.advance 1)

theorem attribution_encoded :
    Attribution encodedDeps (serverRun encodedDeps sampleEnv readThenWhoami) :=
  attribution encodedDeps rfl rfl sampleEnv sampleEnv_fresh readThenWhoami

/-- The user names ISE was called with. -/
def usedNames (es : List (Event Ise)) : List String :=
  es.filterMap fun ev =>
    match ev.1 with
    | .send h => some h.auth.1
    | _ => none

/-- ISE is called as `svc`, and the record names the actor `(encoded)`. -/
theorem encoded_actor_differs :
    encodedDeps.Built ∧ encodedDeps.cfg.validate = .ok () ∧
      usedNames (eventsOf (serverRun encodedDeps sampleEnv readThenWhoami).log 0) = ["svc"] ∧
      (audits (eventsOf (serverRun encodedDeps sampleEnv readThenWhoami).log 0)).map (·.actor)
        = ["(encoded)"] :=
  ⟨rfl, rfl, by decide +kernel, by decide +kernel⟩

/-- `ISE_USERNAME=svc` is the user that the encoded pair is for. -/
example : encodedUser { encodedDeps.cfg with iseUsername := "svc" } = some "svc" := by
  decide +kernel

end IseMcp
