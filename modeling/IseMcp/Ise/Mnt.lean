import IseMcp.Ise.Client

set_option autoImplicit false

/-! # The MNT wrapper

`ise/mnt.py` and the session part of `ise/models.py`. MNT answers in XML. The parser is the
standard library's; what the server does with the element tree is modelled here. `_elem` and `walk`
recur once for each level of the tree, and the recursion limit of the interpreter is idealised
away. -/

namespace IseMcp

open Python Interaction

/-- An element as `ElementTree` gives it: its tag, the text before its first child and its
children. -/
inductive Element where
  | mk (tag : String) (text : Option String) (children : List Element)

/-- `ET.fromstring`. A `ParseError` is `ExcType.other "ParseError"`. -/
abbrev XmlParser : Type := String → Except PyExc Element

/-! ## XML to dictionaries -/

/-- What `_elem` does with one converted child: a repeated tag collects its values in a list. -/
def addChild (out : List (String × PyVal)) (tag : String) (val : PyVal) : List (String × PyVal) :=
  match PyVal.lookup out tag with
  | none => PyVal.setItem out tag val
  | some (.list vs) => PyVal.setItem out tag (.list (vs ++ [val]))
  | some v => PyVal.setItem out tag (.list [v, val])

mutual

def elem : Element → PyVal
  | .mk _ text [] =>
      let stripped := strip (text.getD "")
      if stripped = "" then .none else .str stripped
  | .mk _ _ (c :: cs) => .dict (elemChildren [] (c :: cs))

/-- The loop over the children. -/
def elemChildren (out : List (String × PyVal)) : List Element → List (String × PyVal)
  | [] => out
  | .mk tag text cs :: rest => elemChildren (addChild out tag (elem (.mk tag text cs))) rest

end

def xmlToDict (fromstring : XmlParser) (xml : String) : Except PyExc PyVal :=
  if strip xml = "" then .ok (.dict [])
  else
    match fromstring xml with
    | .ok (.mk tag text children) => .ok (.dict [(tag, elem (.mk tag text children))])
    | .error e =>
        if e.type = .other "ParseError" then .ok (.dict [("_text", .str (takePrefix 1000 xml))])
        else .error e

namespace MntApi

/-- The request of `_get_xml`. -/
def getRequest (cfg : Config) (path : String) (auth : AuthContext) : IseRequest where
  method := .get
  base := cfg.mntBase
  path := path
  auth := auth
  params := none
  jsonBody := none
  accept := "application/xml"
  parse := .text

def getXml (cfg : Config) (fromstring : XmlParser) (path : String) (auth : AuthContext) :
    Io PyVal := do
  match ← IseClient.request cfg (getRequest cfg path auth) with
  | .str xml => Coro.ofExcept (xmlToDict fromstring xml)
  | v => throw (exc .attributeError ("'" ++ v.typeName ++ "' object has no attribute 'strip'"))

def sessionByMac (cfg : Config) (fromstring : XmlParser) (mac : String) (auth : AuthContext) :
    Io PyVal :=
  getXml cfg fromstring ("/admin/API/mnt/Session/MACAddress/" ++ mac) auth

def sessionByIp (cfg : Config) (fromstring : XmlParser) (ip : String) (auth : AuthContext) :
    Io PyVal :=
  getXml cfg fromstring ("/admin/API/mnt/Session/IPAddress/" ++ ip) auth

/-- The path of `auth_status_by_mac`. -/
def authStatusPath (mac : String) (seconds records : Int) : String :=
  "/admin/API/mnt/AuthStatus/MACAddress/" ++ mac ++ "/" ++ toString seconds ++ "/" ++
    toString records ++ "/All"

def authStatusByMac (cfg : Config) (fromstring : XmlParser) (mac : String) (auth : AuthContext)
    (seconds records : Int) : Io PyVal :=
  getXml cfg fromstring (authStatusPath mac seconds records) auth

end MntApi

/-! ## Session summaries -/

structure SessionSummary where
  mac : PyVal
  ipAddress : PyVal
  username : PyVal
  nasIp : PyVal
  nasPort : PyVal
  authzProfile : PyVal
  postureStatus : PyVal
  securityGroup : PyVal
  state : PyVal
  server : PyVal

def SessionSummary.dict (s : SessionSummary) : PyVal :=
  .dict [("mac", s.mac), ("ip_address", s.ipAddress), ("username", s.username),
    ("nas_ip", s.nasIp), ("nas_port", s.nasPort), ("authz_profile", s.authzProfile),
    ("posture_status", s.postureStatus), ("security_group", s.securityGroup), ("state", s.state),
    ("server", s.server)]

mutual

/-- The inner function `walk`: collect the first scalar met under each key. -/
def walk (flat : List (String × PyVal)) : PyVal → List (String × PyVal)
  | .dict kvs => walkItems flat kvs
  | .list xs => walkElems flat xs
  | _ => flat

def walkItems (flat : List (String × PyVal)) : List (String × PyVal) → List (String × PyVal)
  | [] => flat
  | (_, .dict kvs) :: rest => walkItems (walk flat (.dict kvs)) rest
  | (_, .list xs) :: rest => walkItems (walk flat (.list xs)) rest
  | (_, .none) :: rest => walkItems flat rest
  | (k, v) :: rest =>
      walkItems (if (PyVal.lookup flat k).isSome then flat else flat ++ [(k, v)]) rest

def walkElems (flat : List (String × PyVal)) : List PyVal → List (String × PyVal)
  | [] => flat
  | x :: xs => walkElems (walk flat x) xs

end

def summarizeSession (parsed : PyVal) : SessionSummary :=
  let flat := walk [] parsed
  let get := fun key => (PyVal.lookup flat key).getD .none
  { mac := (get "calling_station_id").or (get "macAddress")
    ipAddress := (get "framed_ip_address").or (get "ipAddress")
    username := (get "user_name").or (get "userName")
    nasIp := (get "nas_ip_address").or (get "nasIpAddress")
    nasPort := (get "nas_port_id").or (get "nasPortId")
    authzProfile := (get "authorization_rule").or (get "authProfile")
    postureStatus := get "posture_status"
    securityGroup := get "security_group"
    state := (get "session_state").or (get "state")
    server := (get "acs_server").or (get "server") }

end IseMcp
