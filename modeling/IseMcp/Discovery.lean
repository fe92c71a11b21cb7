import IseMcp.ExchangeTotal
import IseMcp.TokenLifetime

set_option autoImplicit false

/-! # Discovery

The documents by which a client finds the endpoints of the server: the metadata of the protected
resource and of the authorization server. The gate's challenge names the first, the first names the
second, and the second the endpoints (`challenge_leads_to_endpoints`). What the second promises
about grants is what `/token` does, but for the `refresh_token` grant, which is served and never
gives a token (`honest_metadata`).
-/

namespace IseMcp

open Python Interaction Text

/-! ## The documents -/

def grantTypes : List String := ["authorization_code", "refresh_token", "client_credentials"]

/-- `_healthz` -/
def healthz (cfg : Config) : HttpReply :=
  .json 200 (.dict [("status", .str "ok"), ("mode", .str cfg.mcpMode)])

/-- What `_prm` says for the base URL of its request. -/
def protectedResource (cfg : Config) (base : String) : List (String × PyVal) :=
  [("resource", .str (base ++ "/mcp")), ("authorization_servers", .list [.str base]),
    ("scopes_supported", .list [.str cfg.oauthScopes])]

/-- What `_asm` says for the base URL of its request. -/
def authorizationServer (cfg : Config) (base : String) : List (String × PyVal) :=
  [("issuer", .str base), ("authorization_endpoint", .str (base ++ "/authorize")),
    ("token_endpoint", .str (base ++ "/token")), ("response_types_supported", .list [.str "code"]),
    ("grant_types_supported", .list (grantTypes.map .str)),
    ("code_challenge_methods_supported", .list [.str "S256"]),
    ("token_endpoint_auth_methods_supported",
      .list [.str "client_secret_post", .str "client_secret_basic"]),
    ("scopes_supported", .list [.str cfg.oauthScopes])]

/-- `_base_url_from_scope` on the headers of a request. -/
def requestBase (headers : RawHeaders) : Except PyExc String :=
  (decodeHeaders headers).map RequireAuthOnMcp.baseUrl

/-- `_prm` -/
def prm (cfg : Config) (headers : RawHeaders) : Except PyExc HttpReply := do
  return .json 200 (.dict (protectedResource cfg (← requestBase headers)))

/-- `_asm` -/
def asm (cfg : Config) (headers : RawHeaders) : Except PyExc HttpReply := do
  return .json 200 (.dict (authorizationServer cfg (← requestBase headers)))

/-! ## What `/token` answers -/

/-- The errors of each grant. -/
def refusals (grant : String) : List String :=
  if grant = "client_credentials" then ["invalid_client"]
  else if grant = "authorization_code" ∨ grant = "refresh_token" then
    ["invalid_client", "invalid_grant"]
  else ["unsupported_grant_type"]

/-- An answer of `/token` for a grant. -/
inductive TokenReply (cfg : Config) (grant : String) : HttpReply → Prop where
  | session (h : grant = "client_credentials") (s : String) :
      TokenReply cfg grant (.json 200 (.dict [("access_token", .str s),
        ("token_type", .str "Bearer"), ("expires_in", .int cfg.sessionTtlSeconds)]))
  | code (h : grant = "authorization_code") (s scope : String) :
      TokenReply cfg grant (.json 200 (BaseToken.toDict ⟨s, cfg.sessionTtlSeconds, scope⟩))
  | malformed (h : grant = "client_credentials") :
      TokenReply cfg grant (.json 400 (.dict [("error", .str "invalid_request"),
        ("error_description", .str "missing client credentials")]))
  | refused (code : String) (h : code ∈ refusals grant) :
      TokenReply cfg grant (.json (if code = "invalid_client" then 401 else 400) (oauthError code))

/-- What `exchange_code` returns: a token with the ttl of sessions, or one of two errors. -/
def ExchangeResult (cfg : Config) (r : Option BaseToken × Option String) : Prop :=
  (∃ s scope, r = (some ⟨s, cfg.sessionTtlSeconds, scope⟩, none)) ∨
    r = (none, some "invalid_client") ∨ r = (none, some "invalid_grant")

section

variable {deps : Deps} {r : TokenRequest}

theorem redeem_result {cfg : Config} {a : ExchangeArgs} {x : Option Code}
    {out : Option BaseToken × Option String} (h : OAuthServer.redeem cfg a x = .ok out) :
    ExchangeResult cfg out := by
  cases x with
  | none =>
      cases h
      exact Or.inr (Or.inr rfl)
  | some rec =>
      unfold OAuthServer.redeem at h
      dsimp only at h
      split_ifs at h
      · cases h
        exact Or.inr (Or.inr rfl)
      · obtain ⟨ok, _, h⟩ := bind_eq_ok.mp h
        cases ok with
        | false =>
            cases h
            exact Or.inr (Or.inr rfl)
        | true =>
            cases h
            exact Or.inl ⟨_, _, rfl⟩

theorem exchangeCode_result (cfg : Config) (a : ExchangeArgs) :
    Coro.Returns (ExchangeResult cfg) (OAuthServer.exchangeCode cfg a) := by
  refine Coro.returns_bind fun known => ?_
  cases known with
  | false => exact Coro.returns_pure (Or.inr (Or.inl rfl))
  | true => exact Coro.returns_bind fun _ => Coro.returns_ofExcept fun _ h => redeem_result h

theorem refresh_result {cfg : Config} {cid csec : Option String}
    {out : Option BaseToken × Option String} (h : OAuthServer.refresh cfg cid csec = .ok out) :
    out = (none, some "invalid_client") ∨ out = (none, some "invalid_grant") := by
  obtain ⟨ok, _, h⟩ := bind_eq_ok.mp h
  cases ok with
  | false =>
      cases h
      exact Or.inl rfl
  | true =>
      cases h
      exact Or.inr rfl

/-- An error of the grant is answered with its status. -/
theorem TokenReply.of_error {cfg : Config} {grant code : String} (h : code ∈ refusals grant) :
    TokenReply cfg grant (oauthReply (none, some code)) := by
  have hreply := @TokenReply.refused cfg grant code h
  have hcond : (some code = some "invalid_client") = (code = "invalid_client") :=
    propext Option.some_inj
  simp only [oauthReply, hcond]
  exact hreply

theorem token_returns {validate : Validator} (hp : deps.provider = .passthrough validate) :
    Coro.Returns (TokenReply deps.cfg r.grantType) (token deps r) := by
  unfold token
  rw [hp]
  dsimp only
  change Coro.Returns (TokenReply deps.cfg r.grantType)
    (if r.grantType = "client_credentials" then _
    else if r.grantType = "authorization_code" then _
    else if r.grantType = "refresh_token" then _ else _)
  have hcode : r.grantType = "authorization_code" →
      refusals r.grantType = ["invalid_client", "invalid_grant"] := fun h => by rw [h]; rfl
  have hrefresh : r.grantType = "refresh_token" →
      refusals r.grantType = ["invalid_client", "invalid_grant"] := fun h => by rw [h]; rfl
  split_ifs with h₁ h₂ h₃
  · rcases clientCreds r with ⟨_ | u, _ | p⟩
    · exact Coro.returns_pure (.malformed h₁)
    · exact Coro.returns_pure (.malformed h₁)
    · exact Coro.returns_pure (.malformed h₁)
    · dsimp only
      split_ifs
      · exact Coro.returns_pure (.malformed h₁)
      · refine Coro.returns_bind fun out => Coro.returns_pure ?_
        cases out with
        | error e => exact .refused "invalid_client" (by rw [h₁]; decide)
        | ok sess => exact .session h₁ _
  · refine (exchangeCode_result deps.cfg _).bind fun out hout => Coro.returns_pure ?_
    rcases hout with ⟨s, scope, rfl⟩ | rfl | rfl
    · exact .code h₂ s scope
    · exact .of_error (by rw [hcode h₂]; decide)
    · exact .of_error (by rw [hcode h₂]; decide)
  · refine Coro.Returns.bind (Coro.returns_ofExcept fun _ h => refresh_result h)
      fun out hout => Coro.returns_pure ?_
    rcases hout with rfl | rfl
    · exact .of_error (by rw [hrefresh h₃]; decide)
    · exact .of_error (by rw [hrefresh h₃]; decide)
  · refine Coro.returns_pure (.refused "unsupported_grant_type" ?_)
    rw [refusals, if_neg h₁, if_neg (not_or.mpr ⟨h₂, h₃⟩)]
    exact List.mem_singleton.mpr rfl

theorem TokenReply.unsupported_iff {cfg : Config} {grant : String} {reply : HttpReply}
    (h : TokenReply cfg grant reply) :
    reply = .json 400 (oauthError "unsupported_grant_type") ↔ grant ∉ grantTypes := by
  have hserved : ∀ g, g ∈ grantTypes → "unsupported_grant_type" ∉ refusals g := by decide
  constructor
  · intro heq hgrant
    cases h with
    | session => cases heq
    | code => cases heq
    | malformed => exact absurd heq (by simp [oauthError])
    | refused code hcode =>
        injection heq with _ hbody
        have hsame : code = "unsupported_grant_type" := by
          injection hbody with hlist
          injection hlist with hpair _
          injection hpair with _ hstr
          exact PyVal.str.inj hstr
        exact hserved grant hgrant (hsame ▸ hcode)
  · intro hgrant
    have hne : grant ≠ "client_credentials" ∧ grant ≠ "authorization_code" ∧
        grant ≠ "refresh_token" := by
      refine ⟨?_, ?_, ?_⟩ <;>
      · rintro rfl
        exact absurd (by decide) hgrant
    cases h with
    | session h => exact absurd h hne.1
    | code h => exact absurd h hne.2.1
    | malformed h => exact absurd h hne.1
    | refused code hcode =>
        rw [refusals, if_neg hne.1, if_neg (not_or.mpr hne.2), List.mem_singleton] at hcode
        rw [hcode]
        rfl

theorem TokenReply.granted {cfg : Config} {grant : String} {reply : HttpReply}
    (h : TokenReply cfg grant reply) {s : String} {expiresIn : Int}
    (hgrants : reply.Grants s expiresIn) :
    expiresIn = cfg.sessionTtlSeconds ∧
      (grant = "client_credentials" ∨ grant = "authorization_code") := by
  obtain ⟨body, hbody, _, hexpires⟩ := hgrants
  cases h with
  | session h s =>
      cases hbody
      cases hexpires
      exact ⟨rfl, Or.inl h⟩
  | code h s scope =>
      cases hbody
      cases hexpires
      exact ⟨rfl, Or.inr h⟩
  | malformed h => cases hbody
  | refused code hcode =>
      injection hbody with hstatus _
      have hne : (if code = "invalid_client" then 401 else 400) ≠ 200 := by split_ifs <;> decide
      exact absurd hstatus hne

end

/-- What the metadata says about grants and responses, against what a run answers. -/
structure HonestMetadata (deps : Deps) (sys : ServerSys) : Prop where
  reply : ∀ (i : Nat) r reply, sys.tasks[i]? = some ⟨.token r, .ret (.http (.ok reply))⟩ →
    TokenReply deps.cfg r.grantType reply
  supported : ∀ (i : Nat) r reply, sys.tasks[i]? = some ⟨.token r, .ret (.http (.ok reply))⟩ →
    (reply = .json 400 (oauthError "unsupported_grant_type") ↔ r.grantType ∉ grantTypes)
  granting : ∀ (i : Nat) r reply s expiresIn,
    sys.tasks[i]? = some ⟨.token r, .ret (.http (.ok reply))⟩ → reply.Grants s expiresIn →
    expiresIn = deps.cfg.sessionTtlSeconds ∧
      (r.grantType = "client_credentials" ∨ r.grantType = "authorization_code")
  pages : ∀ (i : Nat) q status params error,
    sys.tasks[i]? = some ⟨.authorizeGet q, .ret (.http (.ok (.loginPage status params error)))⟩ →
    lastValue q "response_type" = some "code" ∧
      (lastValue q "client_id").getD "" = deps.cfg.oauthClientId ∧
      (lastValue q "redirect_uri").getD "" ∈ deps.cfg.oauthRedirectUris

/-- The page is shown only for what the server supports. -/
theorem page_supported {deps : Deps} {q : List (String × String)} {status : Nat}
    {params : List (String × String)} {error : String}
    (h : authorizeGet deps q = .ok (.loginPage status params error)) :
    lastValue q "response_type" = some "code" ∧
      (lastValue q "client_id").getD "" = deps.cfg.oauthClientId ∧
      (lastValue q "redirect_uri").getD "" ∈ deps.cfg.oauthRedirectUris := by
  unfold authorizeGet at h
  cases hp : deps.provider with
  | serviceAccount auth =>
      rw [hp] at h
      cases h
  | passthrough validate =>
      rw [hp] at h
      dsimp only at h
      by_cases htype : lastValue q "response_type" = some "code"
      · rw [if_neg (not_not.mpr htype)] at h
        obtain ⟨known, hknown, h⟩ := bind_eq_ok.mp h
        cases known with
        | false => cases h
        | true =>
            simp only [if_true] at h
            split_ifs at h with hredirect
            · refine ⟨htype, (compareDigest_ok_true.mp hknown).1, ?_⟩
              rcases hvalue : lastValue q "redirect_uri" with _ | uri <;> rw [hvalue] at hredirect
              · cases hredirect
              · simp only [OAuthServer.redirectOk, Bool.and_eq_true, decide_eq_true_eq] at hredirect
                exact hredirect.2
            · cases h
      · rw [if_pos htype] at h
        cases h

/-- **The metadata is honest**, in every run of a passthrough server: a grant type is refused as
unsupported exactly if it is not advertised, every answer is one of its grant, a token has the ttl
of sessions and comes of two grants only, and the login page is shown for the response type
`code`. -/
theorem honest_metadata {deps : Deps} {validate : Validator}
    (hp : deps.provider = .passthrough validate) (env : Env) (moves : List (Move ServerRequest)) :
    HonestMetadata deps (serverRun deps env moves) := by
  have hreply : ∀ (i : Nat) r reply, (serverRun deps env moves).tasks[i]?
      = some ⟨.token r, .ret (.http (.ok reply))⟩ → TokenReply deps.cfg r.grantType reply := by
    intro i r reply ht
    have hbind := serverRun_path ht
    obtain ⟨out, es₁, es₂, _, hpath, hret⟩ := (Prog.path_bind_ret_iff _ _ _ _).mp hbind
    cases ((Prog.path_ret_iff _ _ _).mp hret).2
    exact token_returns hp es₁ reply hpath
  refine ⟨hreply, fun i r reply ht => (hreply i r reply ht).unsupported_iff,
    fun i r reply s expiresIn ht hgrants => (hreply i r reply ht).granted hgrants, ?_⟩
  intro i q status params error ht
  obtain ⟨_, heq⟩ := (Prog.path_ret_iff _ _ _).mp (serverRun_path ht)
  injection heq with hhttp
  injection hhttp with hpage
  exact page_supported hpage.symm

/-- A client that asks for its token to be renewed. -/
def refreshMoves : List (Move ServerRequest) :=
  [.spawn (.token ⟨[("grant_type", "refresh_token"), ("client_id", "cid"),
    ("client_secret", "csec")], none⟩)]

theorem honest_metadata_refresh :
    HonestMetadata oauthDeps (serverRun oauthDeps sampleEnv refreshMoves) :=
  @honest_metadata oauthDeps _ rfl sampleEnv refreshMoves

/-! ## From the challenge to the endpoints -/

/-- The URL that a client reads in a challenge: what stands between the quotes. -/
def challengeUrl (www : String) : Option String :=
  let scheme := "Bearer resource_metadata=\"".toList
  if scheme.isPrefixOf www.toList then
    some (.ofList ((www.toList.drop scheme.length).takeWhile (· != doubleQuote)))
  else none

/-- The base URL of the gate's challenge is that of its request. -/
theorem call_challenge (deps : Deps) (scope : Scope) :
    Coro.Returns (fun v => ∀ www, v = RequireAuthOnMcp.Verdict.unauthorized www →
      ∃ base, requestBase scope.headers = .ok base ∧ www = "Bearer resource_metadata=\"" ++ base
        ++ "/.well-known/oauth-protected-resource\"") (RequireAuthOnMcp.call deps scope) := by
  unfold RequireAuthOnMcp.call
  split_ifs
  · refine Coro.Returns.bind (Q := fun hs => decodeHeaders scope.headers = .ok hs)
      (Coro.returns_ofExcept fun _ h => h) fun hs hdecoded => ?_
    refine Coro.returns_bind fun valid => ?_
    cases valid with
    | true => exact Coro.returns_pure nofun
    | false =>
        refine Coro.returns_pure fun www hwww => ?_
        injection hwww with hwww
        refine ⟨RequireAuthOnMcp.baseUrl hs, ?_, hwww.symm⟩
        rw [requestBase, hdecoded]
        rfl
  · exact Coro.returns_pure nofun

/-- A scheme and a host that stay what they are in a URL between quotes. -/
structure PlainOrigin (proto host : String) : Prop where
  nonempty : proto ≠ ""
  proto : ∀ c ∈ proto.toList, c ∉ [':', '/', '?', '#'] ∧ c ≠ doubleQuote
  host : ∀ c ∈ host.toList, c ∉ ['/', '?', '#'] ∧ c ≠ doubleQuote

/-- The URL is that of a path at an origin. -/
def LocatedAt (url proto host path : String) : Prop :=
  Uri.parse url.toList = ⟨some proto.toList, some host.toList, path.toList, none, none⟩

theorem PlainOrigin.located {proto host : String} (h : PlainOrigin proto host) {path : String}
    (hpath : ∀ c ∈ path.toList, c ∉ ['?', '#'])
    (hslash : path.toList = [] ∨ path.toList.head? = some '/') :
    LocatedAt (proto ++ "://" ++ host ++ path) proto host path := by
  have hlist : (proto ++ "://" ++ host ++ path).toList
      = proto.toList ++ ':' :: '/' :: '/' :: (host.toList ++ path.toList) := by simp
  have hne : proto.toList ≠ [] := fun hnil => h.nonempty (String.toList_eq_nil_iff.mp hnil)
  rw [LocatedAt, hlist]
  exact Uri.parse_origin hne (fun c hc => (h.proto c hc).1) (fun c hc => (h.host c hc).1) hpath
    hslash

/-- The client reads the challenge up to its closing quote. -/
theorem PlainOrigin.challengeUrl {proto host : String} (h : PlainOrigin proto host) :
    challengeUrl ("Bearer resource_metadata=\"" ++ (proto ++ "://" ++ host)
      ++ "/.well-known/oauth-protected-resource\"")
      = some (proto ++ "://" ++ host ++ "/.well-known/oauth-protected-resource") := by
  have hlist : ("Bearer resource_metadata=\"" ++ (proto ++ "://" ++ host)
      ++ "/.well-known/oauth-protected-resource\"").toList
      = "Bearer resource_metadata=\"".toList ++ ((proto ++ "://" ++ host
        ++ "/.well-known/oauth-protected-resource").toList ++ [doubleQuote]) := by
    simp only [String.toList_append, List.append_assoc]
    rfl
  have hplain : ∀ c ∈ (proto ++ "://" ++ host ++ "/.well-known/oauth-protected-resource").toList,
      (c != doubleQuote) = true := by
    have hfixed : ∀ c ∈ "://".toList ++ "/.well-known/oauth-protected-resource".toList,
        c ≠ doubleQuote := by decide
    intro c hc
    simp only [String.toList_append, List.mem_append, or_assoc] at hc
    rw [bne_iff_ne]
    rcases hc with hc | hc | hc | hc
    · exact (h.proto c hc).2
    · exact hfixed c (List.mem_append_left _ hc)
    · exact (h.host c hc).2
    · exact hfixed c (List.mem_append_right _ hc)
  have hprefix : ("Bearer resource_metadata=\"".toList.isPrefixOf
      ("Bearer resource_metadata=\"".toList ++ ((proto ++ "://" ++ host
        ++ "/.well-known/oauth-protected-resource").toList ++ [doubleQuote]))) = true :=
    List.isPrefixOf_iff_prefix.mpr (List.prefix_append _ _)
  have hquote : [doubleQuote].takeWhile (· != doubleQuote) = [] := by simp
  unfold IseMcp.challengeUrl
  simp only [hlist, hprefix, if_true, List.drop_left, List.takeWhile_append_of_pos hplain, hquote,
    List.append_nil, String.ofList_toList]

/-- What a client finds that was turned away with the challenge `www`. -/
structure LeadsToEndpoints (cfg : Config) (headers : RawHeaders) (www proto host : String) :
    Prop where
  challenge : ∃ url, challengeUrl www = some url ∧
    LocatedAt url proto host "/.well-known/oauth-protected-resource"
  resource : ∃ doc url, prm cfg headers = .ok (.json 200 (.dict doc)) ∧
    doc.lookup "resource" = some (.str url) ∧ LocatedAt url proto host "/mcp" ∧
    doc.lookup "authorization_servers" = some (.list [.str (proto ++ "://" ++ host)])
  server : ∃ doc login exchange, asm cfg headers = .ok (.json 200 (.dict doc)) ∧
    doc.lookup "issuer" = some (.str (proto ++ "://" ++ host)) ∧
    LocatedAt (proto ++ "://" ++ host) proto host "" ∧
    doc.lookup "authorization_endpoint" = some (.str login) ∧
    LocatedAt login proto host "/authorize" ∧
    doc.lookup "token_endpoint" = some (.str exchange) ∧ LocatedAt exchange proto host "/token"

/-- **The challenge leads to the endpoints**: a client that the gate turns away reads the URL of the
first document in the challenge, the two documents name one server, and their URLs are the paths of
the endpoints at the origin that the client came to. -/
theorem challenge_leads_to_endpoints {deps : Deps} {env : Env} {moves : List (Move ServerRequest)}
    {i : Nat} {scope : Scope} {www proto host : String}
    (ht : (serverRun deps env moves).tasks[i]?
      = some ⟨.gate scope, .ret (.verdict (.ok (.unauthorized www)))⟩)
    (hbase : requestBase scope.headers = .ok (proto ++ "://" ++ host))
    (hplain : PlainOrigin proto host) :
    LeadsToEndpoints deps.cfg scope.headers www proto host := by
  obtain ⟨out, es₁, es₂, _, hpath, hret⟩ := (Prog.path_bind_ret_iff _ _ _ _).mp (serverRun_path ht)
  cases ((Prog.path_ret_iff _ _ _).mp hret).2
  obtain ⟨base, hbase', hwww⟩ := call_challenge deps scope es₁ _ hpath www rfl
  rw [hbase] at hbase'
  cases hbase'
  subst hwww
  refine ⟨⟨_, hplain.challengeUrl, hplain.located (by decide) (Or.inr rfl)⟩, ?_, ?_⟩
  · refine ⟨protectedResource deps.cfg (proto ++ "://" ++ host), _, ?_, rfl,
      hplain.located (by decide) (Or.inr rfl), rfl⟩
    rw [prm, hbase]
    rfl
  · refine ⟨authorizationServer deps.cfg (proto ++ "://" ++ host), _, _, ?_, rfl, ?_, rfl,
      hplain.located (by decide) (Or.inr rfl), rfl, hplain.located (by decide) (Or.inr rfl)⟩
    · rw [asm, hbase]
      rfl
    · have hroot : LocatedAt (proto ++ "://" ++ host ++ "") proto host "" :=
        hplain.located (by decide) (Or.inl rfl)
      rwa [String.append_empty] at hroot

/-- A request to `/mcp` on the host `mcp.local:8443`, without a token. -/
def strangerScope : Scope :=
  ⟨"http", "/mcp", [(utf8Encode "host", utf8Encode "mcp.local:8443")]⟩

theorem strangerScope_decoded :
    decodeHeaders strangerScope.headers = .ok [("host", "mcp.local:8443")] := by
  have hascii : AsciiHeaders strangerScope.headers := by
    show ∀ kv ∈ [(utf8Encode "host", utf8Encode "mcp.local:8443")], _
    decide
  rw [decodeHeaders_ascii hascii]
  rfl

theorem challenge_leads_stranger :
    ∃ www, LeadsToEndpoints oauthDeps.cfg strangerScope.headers www "https" "mcp.local:8443" := by
  have hplain : PlainOrigin "https" "mcp.local:8443" := ⟨by decide, by decide, by decide⟩
  have hbase : requestBase strangerScope.headers = .ok ("https" ++ "://" ++ "mcp.local:8443") := by
    rw [requestBase, strangerScope_decoded]
    rfl
  have hprogram : ∃ www, (ServerRequest.gate strangerScope).program oauthDeps
      = .ret (.verdict (.ok (.unauthorized www))) := by
    refine ⟨"Bearer resource_metadata=\"" ++ RequireAuthOnMcp.baseUrl [("host", "mcp.local:8443")]
      ++ "/.well-known/oauth-protected-resource\"", ?_⟩
    show ((RequireAuthOnMcp.call oauthDeps strangerScope).run >>= fun r =>
      Prog.ret (ServerReply.verdict r)) = _
    rw [RequireAuthOnMcp.call, if_pos ⟨rfl, by decide, rfl⟩, Coro.run_ofExcept_bind,
      strangerScope_decoded]
    rfl
  obtain ⟨www, hprogram⟩ := hprogram
  have ht : (serverRun oauthDeps sampleEnv [.spawn (.gate strangerScope)]).tasks[0]?
      = some ⟨.gate strangerScope, (ServerRequest.gate strangerScope).program oauthDeps⟩ := rfl
  rw [hprogram] at ht
  exact ⟨www, challenge_leads_to_endpoints ht hbase hplain⟩

end IseMcp
