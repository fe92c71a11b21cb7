import IseMcp.Interaction.Interleave
import IseMcp.OAuth
import IseMcp.Tools.Requests

set_option autoImplicit false

/-! # The server

`server.py`: how the server is built, the ASGI gate in front of the MCP endpoint, the OAuth
endpoints, and the system of all requests in progress. -/

namespace IseMcp

open Python Interaction Text

/-! ## Construction -/

/-- The part of `build` that decides what a request finds. -/
def build (cfg : Config) (fromstring : XmlParser) : Except PyExc Deps := do
  cfg.validate
  return ⟨cfg, ← buildProvider cfg, fromstring⟩

/-! ## The gate -/

/-- The part of an ASGI scope that the gate reads. -/
structure Scope where
  type : String
  path : String
  headers : RawHeaders

/-- `{k.decode().lower(): v.decode() for k, v in scope.get("headers", [])}` -/
def decodeHeaders : RawHeaders → Except PyExc (List (String × String))
  | [] => .ok []
  | (k, v) :: rest =>
      match utf8Decode k, utf8Decode v with
      | some name, some value => do return (lower name, value) :: (← decodeHeaders rest)
      | _, _ => .error (exc (.other "UnicodeDecodeError") "invalid utf-8")

namespace RequireAuthOnMcp

/-- `_sid` -/
def sid (cfg : Config) (headers : List (String × String)) : Option String :=
  let sid := orStr (lastValue headers "x-api-key") (lastValue headers (lower cfg.sessionHeader))
  if truthy sid then sid
  else
    let authz := (lastValue headers "authorization").getD ""
    if lower (takePrefix 7 authz) = "bearer " then some (strip (dropPrefix 7 authz)) else sid

/-- `_base_url_from_scope` -/
def baseUrl (headers : List (String × String)) : String :=
  let host := (orStr (lastValue headers "x-forwarded-host")
    (some ((lastValue headers "host").getD ""))).getD ""
  let proto := (lastValue headers "x-forwarded-proto").getD "https"
  strip (.ofList (proto.toList.takeWhile (· != ','))) ++ "://" ++ host

/-- What the gate does with a request. -/
inductive Verdict where
  | forward
  | unauthorized (wwwAuthenticate : String)

/-- `__call__` -/
def call (deps : Deps) (scope : Scope) : Io Verdict := do
  if scope.type = "http" ∧ rstripSlash scope.path = "/mcp" ∧ deps.cfg.authMode = "passthrough" then
    let headers ← Coro.ofExcept (decodeHeaders scope.headers)
    if ← deps.sessionValid (sid deps.cfg headers) then return .forward
    else
      return .unauthorized ("Bearer resource_metadata=\"" ++ baseUrl headers
        ++ "/.well-known/oauth-protected-resource\"")
  else return .forward

end RequireAuthOnMcp

/-! ## The OAuth endpoints -/

/-- A reply: JSON, plain text, the login page for its parameters, or the redirect that carries a
code. -/
inductive HttpReply where
  | json (status : Nat) (body : PyVal)
  | text (status : Nat) (body : String)
  | loginPage (status : Nat) (params : List (String × String)) (error : String)
  | redirect (uri code state : String)

/-- A request to `/token`. A form that cannot be parsed is empty. -/
structure TokenRequest where
  form : List (String × String)
  authorization : Option String

/-- The grant that a request to `/token` asks for. -/
def TokenRequest.grantType (r : TokenRequest) : String :=
  strip ((lastValue r.form "grant_type").getD "")

/-- `_client_creds` -/
def clientCreds (r : TokenRequest) : Option String × Option String :=
  let cid := lastValue r.form "client_id"
  let csec := lastValue r.form "client_secret"
  let authz := r.authorization.getD ""
  if truthy cid ∧ truthy csec then (cid, csec)
  else if lower (takePrefix 6 authz) = "basic " then
    match (b64decode (dropPrefix 6 authz)).bind utf8Decode with
    | some pair =>
        (orStr cid (some (partitionColon pair).1), orStr csec (some (partitionColon pair).2))
    | none => (cid, csec)
  else (cid, csec)

/-- `{"error": code}` -/
def oauthError (code : String) : PyVal := .dict [("error", .str code)]

/-- `out(resp) if resp else out({"error": err}, 401 if err == "invalid_client" else 400)` -/
def oauthReply : Option BaseToken × Option String → HttpReply
  | (some t, _) => .json 200 t.toDict
  | (none, err) => .json (if err = some "invalid_client" then 401 else 400)
      (.dict [("error", PyVal.ofOption err)])

/-- The `client_credentials` grant, for the outcome of the login. -/
def credentialsReply (cfg : Config) : Except PyExc Session → HttpReply
  | .error _ => .json 401 (oauthError "invalid_client")
  | .ok sess => .json 200 (.dict [("access_token", .str sess.sessionId),
      ("token_type", .str "Bearer"), ("expires_in", .int cfg.sessionTtlSeconds)])

/-- `_token` -/
def token (deps : Deps) (r : TokenRequest) : Io HttpReply :=
  match deps.provider with
  | .serviceAccount _ =>
      return .json 400 (.dict [("error", .str "invalid_request"),
        ("error_description", .str "requires passthrough mode")])
  | .passthrough validate => do
      let grant := strip ((lastValue r.form "grant_type").getD "")
      let (cid, csec) := clientCreds r
      if grant = "client_credentials" then
        match cid, csec with
        | some u, some p =>
            if u = "" ∨ p = "" then
              return .json 400 (.dict [("error", .str "invalid_request"),
                ("error_description", .str "missing client credentials")])
            else
              return credentialsReply deps.cfg
                (← Coro.attempt (PassthroughProvider.login validate u p))
        | _, _ =>
            return .json 400 (.dict [("error", .str "invalid_request"),
              ("error_description", .str "missing client credentials")])
      else if grant = "authorization_code" then
        return oauthReply (← OAuthServer.exchangeCode deps.cfg ⟨lastValue r.form "code",
          lastValue r.form "redirect_uri", cid, csec,
          (lastValue r.form "code_verifier").map PyStr.ofString⟩)
      else if grant = "refresh_token" then
        return oauthReply (← Coro.ofExcept (OAuthServer.refresh deps.cfg cid csec))
      else return .json 400 (oauthError "unsupported_grant_type")

/-- The parameters that the login page carries on. -/
def pageParams (q : List (String × String)) : List (String × String) :=
  ["client_id", "redirect_uri", "scope", "state", "code_challenge"].map fun k =>
    (k, (lastValue q k).getD "")

/-- `_authorize_get` -/
def authorizeGet (deps : Deps) (q : List (String × String)) : Except PyExc HttpReply :=
  match deps.provider with
  | .serviceAccount _ => .ok (.text 404 "OAuth authorization is not enabled")
  | .passthrough _ => do
      if lastValue q "response_type" ≠ some "code" then
        return .text 400 "unsupported_response_type"
      else if ← compareDigest ((lastValue q "client_id").getD "") deps.cfg.oauthClientId then
        if OAuthServer.redirectOk deps.cfg (lastValue q "redirect_uri") then
          return .loginPage 200 (pageParams q) ""
        else return .text 400 "invalid redirect_uri"
      else return .text 400 "invalid client_id"

/-- The arguments `_authorize_post` passes on. -/
def loginArgs (form : List (String × String)) : LoginArgs where
  username := (lastValue form "username").getD ""
  password := (lastValue form "password").getD ""
  clientId := (lastValue form "client_id").getD ""
  redirectUri := (lastValue form "redirect_uri").getD ""
  scope := (lastValue form "scope").getD ""
  challenge := (lastValue form "code_challenge").getD ""

/-- The end of `_authorize_post`, for the outcome of the login. -/
def authorizeReply (form : List (String × String)) : Except PyExc String → HttpReply
  | .error _ =>
      .loginPage 401 (pageParams form) "Invalid ISE credentials. Please try again."
  | .ok code => .redirect (loginArgs form).redirectUri code ((lastValue form "state").getD "")

/-- `_authorize_post` -/
def authorizePost (deps : Deps) (form : List (String × String)) : Io HttpReply :=
  match deps.provider with
  | .serviceAccount _ => return .text 404 "OAuth authorization is not enabled"
  | .passthrough validate => do
      let a := loginArgs form
      if ← Coro.ofExcept (compareDigest a.clientId deps.cfg.oauthClientId) then
        if OAuthServer.redirectOk deps.cfg (some a.redirectUri) then
          return authorizeReply form
            (← Coro.attempt (OAuthServer.loginAndIssueCode deps.cfg validate a))
        else return .text 400 "invalid client or redirect_uri"
      else return .text 400 "invalid client or redirect_uri"

/-! ## All requests -/

/-- What a client can ask the server for. A tool call over HTTP is preceded by a run of the gate;
the two are separate requests here, as the tool runs in a task of its own. -/
inductive ServerRequest where
  | gate (scope : Scope)
  | tool (headers : Option RawHeaders) (call : ToolCall)
  | token (r : TokenRequest)
  | authorizeGet (q : List (String × String))
  | authorizePost (form : List (String × String))

inductive ServerReply where
  | verdict (r : Except PyExc RequireAuthOnMcp.Verdict)
  | envelope (env : PyVal)
  | http (r : Except PyExc HttpReply)

def ServerRequest.program (deps : Deps) : ServerRequest → Prog Ise ServerReply
  | .gate scope => (RequireAuthOnMcp.call deps scope).run >>= fun r => .ret (.verdict r)
  | .tool headers call => call.invoke deps headers >>= fun env => .ret (.envelope env)
  | .token r => (IseMcp.token deps r).run >>= fun r => .ret (.http r)
  | .authorizeGet q => .ret (.http (IseMcp.authorizeGet deps q))
  | .authorizePost form => (IseMcp.authorizePost deps form).run >>= fun r => .ret (.http r)

abbrev ServerSys : Type := Sys Ise World ServerRequest ServerReply

abbrev ServerLog : Type := List (Entry Ise World)

/-- The server after a list of moves, from its start. -/
def serverRun (deps : Deps) (env : Env) (moves : List (Move ServerRequest)) : ServerSys :=
  Sys.run (ServerRequest.program deps) (serve env)
    (.initial deps.cfg.sessionTtlSeconds deps.cfg.sessionIdleTimeoutSeconds) moves

/-! ## What the other requests do -/

/-- A step on the two tables that neither opens a session nor issues a code. -/
inductive Op.IsLookup : Op → Prop where
  | getSession (sid : Option String) : IsLookup (.getSession sid)
  | deleteSession (sid : Option String) : IsLookup (.deleteSession sid)
  | popCode (code : Option String) : IsLookup (.popCode code)

/-- The tools of a server are built with the provider its configuration picks. -/
def Deps.Built (deps : Deps) : Prop := buildProvider deps.cfg = .ok deps.provider

theorem build_built {cfg : Config} {fromstring : XmlParser} {deps : Deps}
    (h : build cfg fromstring = .ok deps) : deps.Built := by
  obtain ⟨_, _, h⟩ := bind_eq_ok.mp h
  obtain ⟨provider, hp, h⟩ := bind_eq_ok.mp h
  cases h
  exact hp

theorem Deps.Built.validator {deps : Deps} (hb : deps.Built) {validate : Validator}
    (h : deps.provider = .passthrough validate) :
    validate = IseClient.validateCredentials deps.cfg :=
  buildProvider_validator (by rw [← h]; exact hb)

theorem Deps.Built.passthrough {deps : Deps} (hb : deps.Built)
    (hmode : deps.cfg.authMode = "passthrough") :
    deps.provider = .passthrough (IseClient.validateCredentials deps.cfg) := by
  unfold Deps.Built buildProvider at hb
  rw [if_neg (by simp [hmode])] at hb
  exact (Except.ok.inj hb).symm

/-- A server with a passthrough provider was configured for it. -/
theorem build_mode {cfg : Config} {fromstring : XmlParser} {deps : Deps} {validate : Validator}
    (h : build cfg fromstring = .ok deps) (hp : deps.provider = .passthrough validate) :
    deps.cfg.authMode = "passthrough" := by
  have hb := build_built h
  obtain ⟨_, hvalid, h⟩ := bind_eq_ok.mp h
  obtain ⟨provider, _, h⟩ := bind_eq_ok.mp h
  cases h
  by_contra hmode
  by_cases hservice : cfg.authMode = "service_account"
  · -- that mode builds the other provider
    unfold Deps.Built buildProvider at hb
    rw [if_pos hservice, hp] at hb
    cases hs : serviceAccount cfg <;> rw [hs] at hb <;> cases hb
  · rw [Config.validate, if_pos ⟨hmode, hservice⟩] at hvalid
    cases hvalid

/-- The request is for a tool that goes through `run`. -/
def ServerRequest.Gated (deps : Deps) : ServerRequest → Prop
  | .tool _ call => (call.tool deps).isSome
  | _ => False

theorem sessionValid_only (deps : Deps) (tok : Option String) :
    Coro.Only Op.IsLookup (deps.sessionValid tok) := by
  refine Coro.only_ofExcept_bind fun isKey _ => ?_
  cases isKey with
  | true => exact Coro.only_pure _
  | false =>
      cases hp : deps.provider with
      | serviceAccount auth => exact Coro.only_pure _
      | passthrough validate =>
          show Coro.Only _ (PassthroughProvider.sessionValid tok)
          unfold PassthroughProvider.sessionValid
          split_ifs
          · exact Coro.only_bind (Coro.only_op (.getSession _)) fun _ => Coro.only_pure _
          · exact Coro.only_pure _

theorem gate_only (deps : Deps) (scope : Scope) :
    Coro.Only Op.IsLookup (RequireAuthOnMcp.call deps scope) := by
  unfold RequireAuthOnMcp.call
  split_ifs
  · refine Coro.only_bind (Coro.only_ofExcept _) fun headers => ?_
    refine Coro.only_bind (sessionValid_only deps _) fun valid => ?_
    cases valid <;> exact Coro.only_pure _
  · exact Coro.only_pure _

theorem exchangeCode_only (cfg : Config) (a : ExchangeArgs) :
    Coro.Only Op.IsLookup (OAuthServer.exchangeCode cfg a) := by
  refine Coro.only_ofExcept_bind fun known _ => ?_
  cases known with
  | false => exact Coro.only_pure _
  | true => exact Coro.only_bind (Coro.only_op (.popCode _)) fun _ => Coro.only_ofExcept _

/-- A request to `/token` answers at once, logs a user in, or exchanges a code. -/
theorem token_cases (deps : Deps) (r : TokenRequest) :
    (∃ reply, (token deps r).run = .ret reply) ∨
    (∃ validate u p, r.grantType = "client_credentials" ∧ deps.provider = .passthrough validate ∧
      (token deps r).run = (PassthroughProvider.login validate u p).run >>= fun out =>
        .ret (.ok (credentialsReply deps.cfg out))) ∨
    (∃ a, r.grantType = "authorization_code" ∧
      (token deps r).run = (OAuthServer.exchangeCode deps.cfg a).run >>=
        Coro.next fun out => pure (oauthReply out)) := by
  unfold token
  cases hp : deps.provider with
  | serviceAccount auth => exact Or.inl ⟨_, rfl⟩
  | passthrough validate =>
      dsimp only
      split_ifs with hcred hcode hrefresh
      · rcases clientCreds r with ⟨_ | u, _ | p⟩
        · exact Or.inl ⟨_, rfl⟩
        · exact Or.inl ⟨_, rfl⟩
        · exact Or.inl ⟨_, rfl⟩
        · dsimp only
          split_ifs
          · exact Or.inl ⟨_, rfl⟩
          · exact Or.inr (Or.inl ⟨validate, u, p, hcred, rfl, Coro.run_attempt_bind _ _⟩)
      · exact Or.inr (Or.inr ⟨_, hcode, Coro.run_bind' _ _⟩)
      · left
        rw [Coro.run_ofExcept_bind]
        cases OAuthServer.refresh deps.cfg (clientCreds r).1 (clientCreds r).2 <;> exact ⟨_, rfl⟩
      · exact Or.inl ⟨_, rfl⟩

/-- A form posted to `/authorize` is answered at once, or it logs a user in and issues a code. -/
theorem authorizePost_cases (deps : Deps) (form : List (String × String)) :
    (∃ reply, (authorizePost deps form).run = .ret reply) ∨
    (∃ validate, deps.provider = .passthrough validate ∧
      (authorizePost deps form).run
        = (OAuthServer.loginAndIssueCode deps.cfg validate (loginArgs form)).run >>= fun out =>
          .ret (.ok (authorizeReply form out))) := by
  unfold authorizePost
  cases hp : deps.provider with
  | serviceAccount auth => exact Or.inl ⟨_, rfl⟩
  | passthrough validate =>
      dsimp only
      rw [Coro.run_ofExcept_bind]
      rcases compareDigest (loginArgs form).clientId deps.cfg.oauthClientId with e | _ | _
      · exact Or.inl ⟨_, rfl⟩
      · exact Or.inl ⟨_, rfl⟩
      · rw [Coro.next_ok, if_pos rfl]
        split_ifs
        · exact Or.inr ⟨validate, rfl, Coro.run_attempt_bind _ _⟩
        · exact Or.inl ⟨_, rfl⟩

/-- **A request that is not for a gated tool** only makes lookups, or it is a login followed by at
most the issue of a code. The one tool that logs in is `ise_login`. -/
theorem ungated_cases {deps : Deps} {req : ServerRequest} (h : ¬ req.Gated deps) :
    Prog.Only Op.IsLookup (req.program deps) ∨
    ∃ validate u p f, deps.provider = .passthrough validate ∧
      req.program deps = (PassthroughProvider.login validate u p).run >>= f ∧
      (∀ r, Prog.Only (fun o => ∃ grant, o = Op.issueCode grant) (f r)) ∧
      ∀ headers call, req = .tool headers call → call = .iseLogin u p := by
  cases req with
  | gate scope => exact Or.inl ((gate_only deps scope).bind fun _ => .ret _)
  | tool headers call =>
      have hnone : call.tool deps = none := by simpa [ServerRequest.Gated] using h
      have hname := ToolCall.tool_eq_none_iff.mp hnone
      cases call with
      | iseHealthCheck => exact Or.inl (.ret _)
      | iseLogin u p =>
          show Prog.Only _ (iseLogin deps u p >>= _) ∨ ∃ validate u' p' f, _ ∧
            (iseLogin deps u p >>= _) = _ ∧ _ ∧ _
          unfold iseLogin
          cases hp : deps.provider with
          | serviceAccount auth => exact Or.inl (.ret _)
          | passthrough validate =>
              refine Or.inr ⟨validate, u, p, _, rfl, Prog.bind_bind _ _ _, fun r => ?_, ?_⟩
              · cases r <;> exact .ret _
              · intro _ _ heq
                cases heq
                rfl
      | iseLogout =>
          show Prog.Only _ (iseLogout deps headers >>= _) ∨ _
          unfold iseLogout
          cases hp : deps.provider with
          | serviceAccount auth => exact Or.inl (.ret _)
          | passthrough validate => exact Or.inl (.call (.deleteSession _) fun _ => .ret _)
      | _ => simp [ToolCall.name] at hname
  | token r =>
      rw [ServerRequest.program]
      rcases token_cases deps r with ⟨reply, hr⟩ | ⟨validate, u, p, _, hp, hr⟩ | ⟨a, _, hr⟩ <;>
        rw [hr]
      · exact Or.inl (.ret _)
      · refine Or.inr ⟨validate, u, p, _, hp, Prog.bind_bind _ _ _, fun r => .ret _, ?_⟩
        intro _ _ heq
        cases heq
      · refine Or.inl (Prog.Only.bind ((exchangeCode_only deps.cfg a).bind fun r => ?_) fun _ =>
          .ret _)
        cases r <;> exact .ret _
  | authorizeGet q => exact Or.inl (.ret _)
  | authorizePost form =>
      rw [ServerRequest.program]
      rcases authorizePost_cases deps form with ⟨reply, hr⟩ | ⟨validate, hp, hr⟩ <;> rw [hr]
      · exact Or.inl (.ret _)
      -- a login, and after it the code or the failed login page
      · rw [OAuthServer.loginAndIssueCode, Coro.run_bind', Prog.bind_bind, Prog.bind_bind]
        refine Or.inr ⟨validate, _, _, _, hp, rfl, fun r => ?_, ?_⟩
        · cases r with
          | error e => exact .ret _
          | ok sess => exact .call ⟨_, rfl⟩ fun _ => .ret _
        · intro _ _ heq
          cases heq

/-- What a request that is not for a gated tool may do: steps on the two tables, and probes. -/
inductive Op.Ungated : Op → Prop where
  | lookup {o : Op} (h : o.IsLookup) : Ungated o
  | probe {h : HttpRequest} (hget : h.method = .get) : Ungated (.probe h)
  | createSession (username : String) (auth : AuthContext) : Ungated (.createSession username auth)
  | issueCode (grant : CodeGrant) : Ungated (.issueCode grant)

theorem ungated_only {deps : Deps} (hb : deps.Built) {req : ServerRequest}
    (h : ¬ req.Gated deps) : Prog.Only Op.Ungated (req.program deps) := by
  rcases ungated_cases h with honly | ⟨validate, u, p, f, hp, hprog, hf, _⟩
  · exact honly.mono fun o ho => .lookup ho
  · rw [hprog]
    refine Prog.Only.bind (PassthroughProvider.login_only ?_ (.createSession _ _)) fun r =>
      (hf r).mono ?_
    · rw [hb.validator hp]
      refine (probes_validateCredentials deps.cfg u p).mono ?_
      rintro o ⟨h, rfl, hget, _⟩
      exact .probe hget
    · rintro o ⟨grant, rfl⟩
      exact .issueCode grant

/-! ## Entries of the log -/

section

variable {deps : Deps} {env : Env} {moves : List (Move ServerRequest)}

/-- What the task `i` did before the entry leads to the call of the entry. -/
theorem serverRun_call {pre post : ServerLog} {e : Entry Ise World}
    (hlog : (serverRun deps env moves).log = pre ++ e :: post) :
    ∃ req left k, (serverRun deps env moves).tasks[e.task]? = some ⟨req, left⟩ ∧
      Prog.Path (req.program deps) (eventsOf pre e.task) (.call e.event.1 k) :=
  let ⟨⟨req, left⟩, k, ht, hpath⟩ := run_call hlog
  ⟨req, left, k, ht, hpath⟩

/-- What a task did is a path of its program. -/
theorem serverRun_path {i : Nat} {req : ServerRequest} {left : Prog Ise ServerReply}
    (h : (serverRun deps env moves).tasks[i]? = some ⟨req, left⟩) :
    Prog.Path (req.program deps) (eventsOf (serverRun deps env moves).log i) left :=
  run_path h

/-- The steps of the machine count the entries of the log. -/
theorem run_index {pre post : ServerLog} {e : Entry Ise World}
    (hlog : (serverRun deps env moves).log = pre ++ e :: post) : e.before.steps = pre.length :=
  run_history (I := fun l w => w.steps = l.length) rfl
    (fun l w i o h => by rw [serve_steps, h, List.length_append, List.length_singleton]) hlog

/-- The id of a session is the token drawn at the step that creates it. -/
theorem session_drawn {pre post : ServerLog} {c : Entry Ise World} {username : String}
    {auth : AuthContext} {s : Session} (hlog : (serverRun deps env moves).log = pre ++ c :: post)
    (hc : c.event = ⟨Op.createSession username auth, s⟩) :
    s.sessionId = (env.token c.before.steps).text :=
  congrArg Session.sessionId (run_answer hlog hc)

/-- With fresh tokens two entries do not create sessions under one id. -/
theorem created_once (hfresh : Function.Injective fun n => (env.token n).text)
    {pre pre' post post' : ServerLog} {c c' : Entry Ise World} {u u' : String}
    {auth auth' : AuthContext} {s s' : Session}
    (hlog : (serverRun deps env moves).log = pre ++ c :: post)
    (hlog' : (serverRun deps env moves).log = pre' ++ c' :: post')
    (hc : c.event = ⟨Op.createSession u auth, s⟩) (hc' : c'.event = ⟨Op.createSession u' auth', s'⟩)
    (hid : s.sessionId = s'.sessionId) : pre = pre' ∧ c = c' ∧ post = post' := by
  have hlen : pre.length = pre'.length := by
    rw [session_drawn hlog hc, session_drawn hlog' hc'] at hid
    rw [← run_index hlog, ← run_index hlog']
    exact hfresh hid
  rw [hlog] at hlog'
  obtain ⟨hpre, hrest⟩ := List.append_inj hlog' hlen
  exact ⟨hpre, List.cons.inj hrest⟩

/-- A request for a gated tool is a run of that tool. -/
theorem gated_program {headers : Option RawHeaders} {call : ToolCall} {t : Tool}
    (h : call.tool deps = some t) :
    (ServerRequest.tool headers call).program deps
      = run deps headers t >>= fun env => .ret (.envelope env) := by
  rw [ServerRequest.program, ToolCall.invoke_eq_run h]

/-- The steps of a gated tool: records, and once the gates have passed the resolution of the
caller and the requests made for it. -/
theorem gated_calls {headers : Option RawHeaders} {call : ToolCall} {t : Tool}
    (ht : call.tool deps = some t) {es : List (Event Ise)} {o : Op}
    {k : o.Ans → Prog Ise ServerReply}
    (h : Prog.Path ((ServerRequest.tool headers call).program deps) es (.call (S := Ise) o k)) :
    o.IsRecord ∨ gates deps.cfg t = .ok () ∧
      ((∃ k', Prog.Path (deps.resolveAuth headers).run es (.call (S := Ise) o k')) ∨
        ∃ auth es₁ es₂ r, es = es₁ ++ es₂ ∧
          Prog.Path (deps.resolveAuth headers).run es₁ (.ret (.ok auth)) ∧
          call.MayRequest deps.cfg auth r ∧ IseClient.OfRequest r o) := by
  rw [gated_program ht] at h
  rcases Prog.path_bind_call h with ⟨k', h⟩ | ⟨a, es₁, es₂, rfl, _, h⟩
  · refine (run_calls h).imp_right fun ⟨hg, h⟩ => ⟨hg, h.imp_right ?_⟩
    rintro ⟨auth, es₁, es₂, k', hes, hres, hfn⟩
    obtain ⟨r, hr, hof⟩ := (fn_only ht auth).next hfn
    exact ⟨auth, es₁, es₂, r, hes, hres, hr, hof⟩
  · cases h

end

end IseMcp
