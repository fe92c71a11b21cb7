import IseMcp.Config
import IseMcp.Effects

set_option autoImplicit false

/-! # The ISE HTTP client

`ise/client.py`: one request with its retries (`IseClient.request`), and the probes that check
a user's credentials (`IseClient.validate_credentials`). -/

namespace IseMcp

open Python Interaction

namespace IseClient

/-- `_TRANSIENT` -/
def transient : List Nat := [502, 503, 504]

/-- `_MAX_RETRIES` -/
def maxRetries : Nat := 3

/-- The keyword arguments `request` passes to `httpx`. -/
def httpRequest (r : IseRequest) (auth : String × String) : HttpRequest where
  method := r.method
  url := r.base ++ r.path
  params := r.params
  json := r.jsonBody
  headers := ("Accept", r.accept) ::
    (if r.jsonBody.isSome then [("Content-Type", "application/json")] else [])
  auth := auth

/-- `_safe_body` -/
def safeBody (resp : HttpResponse) : PyVal := .str (takePrefix 500 resp.text)

/-- `_handle`. `resp.json()` raises a `ValueError` on a body that is not JSON. -/
def handleResponse (resp : HttpResponse) (parse : Parse) : Except PyExc PyVal :=
  if resp.status = 404 then
    .error ⟨.notFoundError, "ISE resource not found", none, some 404⟩
  else if resp.status = 401 then
    .error ⟨.iseApiError, "ISE authentication failed (401)", none, some 401⟩
  else if resp.status = 403 then
    .error ⟨.iseApiError, "ISE authorization denied (403)", none, some 403⟩
  else if resp.status ≥ 400 then
    .error ⟨.iseApiError, "ISE returned " ++ toString resp.status, some (safeBody resp),
      some resp.status⟩
  else
    match parse with
    | .text => .ok (.str resp.text)
    | .json =>
        if resp.hasContent = false then .ok (.dict [])
        else
          match resp.json with
          | .ok v => .ok v
          | .error e =>
              if e.type = .valueError then .ok (.dict [("_text", .str resp.text)]) else .error e

/-- One round of the loop of `request`. `again` is the rest of the loop; it is there while
`attempt <= _MAX_RETRIES`. -/
def requestOnce (cfg : Config) (h : HttpRequest) (parse : Parse) (attempt : Nat)
    (again : Option (Io PyVal)) : Io PyVal := do
  -- the last attempt has no `again`
  match ← send h, again with
  | .raised e, _ => throw e
  | .transportError _, some next => do
      backoff attempt none
      next
  | .transportError message, none =>
      throw (exc .iseApiError ("ISE transport error: " ++ message))
  | .response resp, again => do
      log (.iseRequest h.method h.url resp.status)
      if resp.status = 429 then
        -- waited for only when configured
        match cfg.rateLimitWait, again with
        | true, some next => do
            backoff attempt resp.retryAfter
            next
        | _, _ => throw ⟨.rateLimitError, "ISE rate limit exceeded", none, some 429⟩
      else
        match decide (resp.status ∈ transient), again with
        | true, some next => do
            backoff attempt none
            next
        | _, _ => Coro.ofExcept (handleResponse resp parse)

/-- The loop of `request`, with the number of retries left. -/
def requestLoop (cfg : Config) (h : HttpRequest) (parse : Parse) : Nat → Io PyVal
  | 0 => requestOnce cfg h parse (maxRetries + 1) none
  | left + 1 => requestOnce cfg h parse (maxRetries - left) (some (requestLoop cfg h parse left))

def request (cfg : Config) (r : IseRequest) : Io PyVal := do
  invoke r
  let auth ← Coro.ofExcept r.auth.basicAuth
  requestLoop cfg (httpRequest r auth) r.parse maxRetries

/-- The probe of `validate_credentials`. -/
def probeRequest (cfg : Config) (username password : String) : HttpRequest where
  method := .get
  url := cfg.ersBase ++ "/ers/config/node?size=1"
  params := none
  json := none
  headers := [("Accept", "application/json"), ("Connection", "close")]
  auth := (username, password)

/-- The loop of `validate_credentials`, with the number of probes left. -/
def probeLoop (h : HttpRequest) : Nat → Io Bool
  | 0 => pure true
  | left + 1 => do
      match ← probe h with
      | .raised e => throw e
      | .transportError message =>
          throw (exc .iseApiError ("credential validation transport error: " ++ message))
      | .response r =>
          if r.status = 401 then pure false
          else if r.status ≥ 400 then
            throw ⟨.iseApiError, "unexpected validation status " ++ toString r.status, none,
              some r.status⟩
          else probeLoop h left

def validateCredentials (cfg : Config) (username password : String) : Io Bool :=
  if username = "" ∨ password = "" then pure false
  else probeLoop (probeRequest cfg username password) 4

/-! ## The steps of a request -/

/-- `request` sends nothing when the caller has no usable credentials. -/
theorem run_request (cfg : Config) (r : IseRequest) :
    (request cfg r).run = .call (S := Ise) (.invoke r) fun _ =>
      match r.auth.basicAuth with
      | .error e => .ret (.error e)
      | .ok auth => (requestLoop cfg (httpRequest r auth) r.parse maxRetries).run := by
  rw [request, run_invoke_bind]
  refine congrArg _ (funext fun _ => ?_)
  rw [Coro.run_ofExcept_bind]
  cases r.auth.basicAuth <;> rfl

/-- The loop starts by sending. -/
theorem run_requestLoop (cfg : Config) (h : HttpRequest) (parse : Parse) (left : Nat) :
    ∃ k, (requestLoop cfg h parse left).run = .call (S := Ise) (.send h) k := by
  cases left <;> exact ⟨_, rfl⟩

/-- A request with credentials is sent. -/
theorem request_sends (cfg : Config) {r : IseRequest} {auth : String × String}
    (hauth : r.auth.basicAuth = .ok auth) (env : Env) (w : World) :
    ∃ ev ∈ Prog.events (serve env) (request cfg r).run w, ev.1 = .send (httpRequest r auth) := by
  obtain ⟨k, hk⟩ := run_requestLoop cfg (httpRequest r auth) r.parse maxRetries
  rw [run_request, hauth]
  dsimp only
  rw [hk]
  exact ⟨_, List.mem_cons_of_mem _ List.mem_cons_self, rfl⟩

/-! ## The operations of a request -/

/-- What a call of `request` may do: enter, send the one HTTP request it builds (any number of
times), wait and log. -/
inductive OfRequest (r : IseRequest) : Op → Prop where
  | invoke : OfRequest r (.invoke r)
  | send {auth : String × String} (h : r.auth.basicAuth = .ok auth) :
      OfRequest r (.send (httpRequest r auth))
  | backoff (attempt : Nat) (retryAfter : Option String) : OfRequest r (.backoff attempt retryAfter)
  | log (rec : LogRecord) : OfRequest r (.log rec)

/-- A validation sends probes with the credentials to be checked, and nothing else. -/
theorem probeLoop_only (h : HttpRequest) (left : Nat) :
    Coro.Only (· = Op.probe h) (probeLoop h left) := by
  induction left with
  | zero => exact Coro.only_pure true
  | succ left ih =>
      refine Coro.only_bind (Coro.only_op rfl) fun outcome => ?_
      cases outcome with
      | raised e => exact Coro.only_throw e
      | transportError message => exact Coro.only_throw _
      | response r =>
          dsimp only
          split_ifs
          · exact Coro.only_pure false
          · exact Coro.only_throw _
          · exact ih

theorem validateCredentials_only (cfg : Config) (username password : String) :
    Coro.Only (· = Op.probe (probeRequest cfg username password))
      (validateCredentials cfg username password) := by
  unfold validateCredentials
  split_ifs
  · exact Coro.only_pure false
  · exact probeLoop_only _ 4

end IseClient

end IseMcp
