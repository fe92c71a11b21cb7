import IseMcp.Ise.Client

set_option autoImplicit false

/-! # The ERS wrapper

`ise/ers.py` and the endpoint part of `ise/models.py`. Every wrapper is one call of
`IseClient.request` under the ERS base. `asdict` on a summary copies what ISE answered at any depth:
the recursion limit of the interpreter is idealised away. -/

namespace IseMcp

open Python

namespace ErsApi

/-- The request of `_get`. -/
def getRequest (cfg : Config) (path : String) (auth : AuthContext)
    (params : Option (List (String × PyVal))) : IseRequest where
  method := .get
  base := cfg.ersBase
  path := path
  auth := auth
  params := params
  jsonBody := none
  accept := "application/json"
  parse := .json

def get (cfg : Config) (path : String) (auth : AuthContext)
    (params : Option (List (String × PyVal))) : Io PyVal :=
  IseClient.request cfg (getRequest cfg path auth params)

/-! ## Endpoints -/

def getEndpointByMac (cfg : Config) (mac : String) (auth : AuthContext) : Io PyVal :=
  get cfg ("/ers/config/endpoint/name/" ++ mac) auth none

def getEndpointById (cfg : Config) (endpointId : String) (auth : AuthContext) : Io PyVal :=
  get cfg ("/ers/config/endpoint/" ++ endpointId) auth none

/-- The query of a paged list. -/
def pageParams (page size : Int) : List (String × PyVal) :=
  [("page", .int page), ("size", .int size)]

/-- The query of a filtered list; an empty filter is left out. -/
def filterParams (filterExpr : Option String) (page size : Int) : List (String × PyVal) :=
  pageParams page size ++
    match filterExpr with
    | some f => if f = "" then [] else [("filter", .str f)]
    | none => []

def searchEndpoints (cfg : Config) (filterExpr : Option String) (auth : AuthContext)
    (page size : Int) : Io PyVal :=
  get cfg "/ers/config/endpoint" auth (some (filterParams filterExpr page size))

/-! ## Groups, profiles and identities -/

def getEndpointGroup (cfg : Config) (groupId : String) (auth : AuthContext) : Io PyVal :=
  get cfg ("/ers/config/endpointgroup/" ++ groupId) auth none

def getProfilerProfile (cfg : Config) (profileId : String) (auth : AuthContext) : Io PyVal :=
  get cfg ("/ers/config/profilerprofile/" ++ profileId) auth none

def getInternalUser (cfg : Config) (name : String) (auth : AuthContext) : Io PyVal :=
  get cfg ("/ers/config/internaluser/name/" ++ name) auth none

/-! ## Network devices and TrustSec -/

def listNetworkDevices (cfg : Config) (filterExpr : Option String) (auth : AuthContext)
    (page size : Int) : Io PyVal :=
  get cfg "/ers/config/networkdevice" auth (some (filterParams filterExpr page size))

def listAuthorizationProfiles (cfg : Config) (auth : AuthContext) (page size : Int) : Io PyVal :=
  get cfg "/ers/config/authorizationprofile" auth (some (pageParams page size))

def listSecurityGroups (cfg : Config) (auth : AuthContext) (page size : Int) : Io PyVal :=
  get cfg "/ers/config/sgt" auth (some (pageParams page size))

def listSgacls (cfg : Config) (auth : AuthContext) (page size : Int) : Io PyVal :=
  get cfg "/ers/config/sgacl" auth (some (pageParams page size))

/-! ## Writes -/

/-- The request of a write wrapper. -/
def writeRequest (cfg : Config) (method : HttpMethod) (path : String) (auth : AuthContext)
    (body : Option PyVal) : IseRequest where
  method := method
  base := cfg.ersBase
  path := path
  auth := auth
  params := none
  jsonBody := body.map fun b => .dict [("ERSEndPoint", b)]
  accept := "application/json"
  parse := .json

def createEndpoint (cfg : Config) (body : PyVal) (auth : AuthContext) : Io PyVal :=
  IseClient.request cfg (writeRequest cfg .post "/ers/config/endpoint" auth (some body))

def updateEndpoint (cfg : Config) (endpointId : String) (body : PyVal) (auth : AuthContext) :
    Io PyVal :=
  IseClient.request cfg
    (writeRequest cfg .put ("/ers/config/endpoint/" ++ endpointId) auth (some body))

def deleteEndpoint (cfg : Config) (endpointId : String) (auth : AuthContext) : Io PyVal :=
  IseClient.request cfg
    (writeRequest cfg .delete ("/ers/config/endpoint/" ++ endpointId) auth none)

end ErsApi

/-! ## Summaries -/

/-- `EndpointSummary`. The values come from ISE and may be anything. -/
structure EndpointSummary where
  mac : PyVal
  endpointId : PyVal
  name : PyVal
  ipAddress : PyVal
  identityGroupId : PyVal
  identityGroup : PyVal
  profileId : PyVal
  profile : PyVal
  staticGroupAssignment : PyVal
  staticProfileAssignment : PyVal
  portalUser : PyVal
  customAttributes : PyVal

/-- The items of `dict()`. -/
def EndpointSummary.items (s : EndpointSummary) : List (String × PyVal) :=
  [("mac", s.mac), ("endpoint_id", s.endpointId), ("name", s.name),
    ("ip_address", s.ipAddress), ("identity_group_id", s.identityGroupId),
    ("identity_group", s.identityGroup), ("profile_id", s.profileId), ("profile", s.profile),
    ("static_group_assignment", s.staticGroupAssignment),
    ("static_profile_assignment", s.staticProfileAssignment), ("portal_user", s.portalUser),
    ("custom_attributes", s.customAttributes)]

def EndpointSummary.dict (s : EndpointSummary) : PyVal := .dict s.items

/-- `raw.get(wrapper, raw) if isinstance(raw, dict) else {}` -/
def unwrap (raw : PyVal) (wrapper : String) : PyVal :=
  match raw with
  | .dict kvs => (PyVal.lookup kvs wrapper).getD raw
  | _ => .dict []

/-- The inner dictionary of `customAttributes`, `{}` if there is none. -/
def customAttributes : PyVal → PyVal
  | .dict kvs =>
      match (PyVal.lookup kvs "customAttributes").getD (.dict kvs) with
      | .dict inner => .dict inner
      | _ => .dict []
  | _ => .dict []

def summarizeEndpoint (raw : PyVal) : Except PyExc EndpointSummary := do
  let ep := unwrap raw "ERSEndPoint"
  let ca ← ep.get "customAttributes"
  return {
    mac := ← ep.get "mac"
    endpointId := ← ep.get "id"
    name := ← ep.get "name"
    ipAddress := ← ep.get "ipAddress"
    identityGroupId := ← ep.get "groupId"
    identityGroup := .none
    profileId := ← ep.get "profileId"
    profile := .none
    staticGroupAssignment := ← ep.get "staticGroupAssignment"
    staticProfileAssignment := ← ep.get "staticProfileAssignment"
    portalUser := (← ep.get "portalUser").or .none
    customAttributes := customAttributes ca }

def nameOf (raw : PyVal) (wrapper : String) : Except PyExc PyVal := (unwrap raw wrapper).get "name"

end IseMcp
