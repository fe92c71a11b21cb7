import IseMcp.Auth.CodeTable
import IseMcp.Interaction.Coroutine

set_option autoImplicit false

/-! # What the server does to the outside

The server's functions are coroutines over the operations of this file: the HTTP exchanges with
ISE, the steps on the two tables it keeps in memory, and its records. Between two operations
nothing else of the server runs; at an operation other coroutines may.

`serve` is the machine that answers. Its environment decides, step by step, what the clock
reads, which token is drawn and how ISE or the network answers, so a statement for every
environment holds whatever ISE does.
-/

namespace IseMcp

open Python Interaction

/-! ## HTTP -/

inductive HttpMethod where
  | get
  | post
  | put
  | delete
  deriving DecidableEq

/-- The argument `parse` of `IseClient.request`. -/
inductive Parse where
  | json
  | text
  deriving DecidableEq

/-- The arguments of one call of `IseClient.request`. -/
structure IseRequest where
  method : HttpMethod
  base : String
  path : String
  auth : AuthContext
  params : Option (List (String × PyVal))
  jsonBody : Option PyVal
  accept : String
  parse : Parse
  deriving DecidableEq

/-- What is handed to the HTTP client. -/
structure HttpRequest where
  method : HttpMethod
  url : String
  params : Option (List (String × PyVal))
  json : Option PyVal
  headers : List (String × String)
  auth : String × String
  deriving DecidableEq

/-- A response, with what `resp.text` and `resp.json()` give. -/
structure HttpResponse where
  status : Nat
  retryAfter : Option String
  hasContent : Bool
  text : String
  json : Except PyExc PyVal

/-- How an exchange ends. `transportError` is an `httpx.TransportError` with its message,
`raised` any other exception. -/
inductive HttpOutcome where
  | transportError (message : String)
  | raised (e : PyExc)
  | response (r : HttpResponse)

/-! ## Records -/

/-- What `audit` hands to its logger. -/
structure AuditRecord where
  actor : String
  tool : String
  params : PyVal
  status : String
  detail : Option String
  deriving DecidableEq

/-- The other log lines of a request. -/
inductive LogRecord where
  | iseRequest (method : HttpMethod) (url : String) (status : Nat)
  | toolError (tool error : String)
  deriving DecidableEq

/-! ## Operations -/

/-- The operations. `invoke` is the entry into `IseClient.request`: it has no effect of its own
and makes every call of that function visible, sent or not. -/
inductive Op where
  | invoke (r : IseRequest)
  | send (r : HttpRequest)
  | backoff (attempt : Nat) (retryAfter : Option String)
  | probe (r : HttpRequest)
  | createSession (username : String) (auth : AuthContext)
  | getSession (sid : Option String)
  | deleteSession (sid : Option String)
  | issueCode (grant : CodeGrant)
  | popCode (code : Option String)
  | audit (rec : AuditRecord)
  | log (rec : LogRecord)

@[reducible] def Op.Ans : Op → Type
  | .invoke _ => Unit
  | .send _ => HttpOutcome
  | .backoff _ _ => Unit
  | .probe _ => HttpOutcome
  | .createSession _ _ => Session
  | .getSession _ => Option Session
  | .deleteSession _ => Bool
  | .issueCode _ => String
  | .popCode _ => Option Code
  | .audit _ => Unit
  | .log _ => Unit

/-- The signature of the server's coroutines. -/
abbrev Ise : Sig := ⟨Op, Op.Ans⟩

/-- A function of the server: it calls operations, and returns or raises. -/
abbrev Io (α : Type) : Type := Coro Ise PyExc α

def invoke (r : IseRequest) : Io Unit := Coro.op (S := Ise) (.invoke r)
def send (r : HttpRequest) : Io HttpOutcome := Coro.op (S := Ise) (.send r)
def backoff (attempt : Nat) (retryAfter : Option String) : Io Unit :=
  Coro.op (S := Ise) (.backoff attempt retryAfter)
def probe (r : HttpRequest) : Io HttpOutcome := Coro.op (S := Ise) (.probe r)
def createSession (username : String) (auth : AuthContext) : Io Session :=
  Coro.op (S := Ise) (.createSession username auth)
def getSession (sid : Option String) : Io (Option Session) := Coro.op (S := Ise) (.getSession sid)
def issueCode (grant : CodeGrant) : Io String := Coro.op (S := Ise) (.issueCode grant)
def popCode (code : Option String) : Io (Option Code) := Coro.op (S := Ise) (.popCode code)
def log (rec : LogRecord) : Io Unit := Coro.op (S := Ise) (.log rec)

/-! ## What a sequence that starts with an operation runs to -/

section

variable {α : Type}

theorem run_invoke_bind (r : IseRequest) (f : Unit → Io α) :
    (invoke r >>= f).run = .call (S := Ise) (.invoke r) fun (_ : Unit) => (f ()).run := rfl

theorem run_probe_bind (r : HttpRequest) (f : HttpOutcome → Io α) :
    (probe r >>= f).run = .call (S := Ise) (.probe r) fun (x : HttpOutcome) => (f x).run := rfl

theorem run_getSession_bind (sid : Option String) (f : Option Session → Io α) :
    (getSession sid >>= f).run
      = .call (S := Ise) (.getSession sid) fun (x : Option Session) => (f x).run := rfl

end

/-- An operation that talks to ISE. -/
def Op.reachesIse : Op → Bool
  | .invoke _ | .send _ | .probe _ => true
  | _ => false

/-! ## The machine -/

/-- What the outside decides at each step. -/
structure Env where
  now : Nat → Time
  token : Nat → Token
  outcome : Nat → HttpOutcome

/-- One second a step, and every exchange is answered with this status. -/
def Env.always (status : Nat) : Env where
  now := fun n => n
  token := fun _ => ⟨"t", by decide, by decide⟩
  outcome := fun _ => .response ⟨status, none, false, "", .ok .none⟩

/-- The memory of the server and the number of steps taken. -/
structure World where
  steps : Nat
  store : SessionStore
  codes : CodeTable

def World.initial (ttl idle : Int) : World := ⟨0, .empty ttl idle, ∅⟩

def serve (env : Env) (w : World) (o : Op) : o.Ans × World :=
  let w' := { w with steps := w.steps + 1 }
  let now := env.now w.steps
  let token := (env.token w.steps).text
  match o with
  | .invoke _ | .backoff _ _ | .audit _ | .log _ => ((), w')
  | .send _ | .probe _ => (env.outcome w.steps, w')
  | .createSession username auth =>
      ((w.store.create now token username auth).1,
        { w' with store := (w.store.create now token username auth).2 })
  | .getSession sid => ((w.store.get now sid).1, { w' with store := (w.store.get now sid).2 })
  | .deleteSession sid => ((w.store.delete sid).1, { w' with store := (w.store.delete sid).2 })
  | .issueCode grant => (token, { w' with codes := w.codes.issue now token grant })
  | .popCode code => (w.codes.fresh now code, { w' with codes := w.codes.remove code })

@[simp] theorem serve_steps (env : Env) (w : World) (o : Op) :
    (serve env w o).2.steps = w.steps + 1 := by
  cases o <;> rfl

end IseMcp
