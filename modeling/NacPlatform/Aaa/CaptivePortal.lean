import NacPlatform.PolicyManager.SessionHandler

namespace NacPlatform.Aaa

/-- What the directory or the local accounts know of a user. -/
structure UserIdentity where
  username : String
  groups : List String
  deriving DecidableEq, Repr

structure NacClaims where
  sub : String
  groups : List String
  exp : Int
  iat : Int
  deriving DecidableEq, Repr

/-- The state of the portal. A directory, the local accounts and the signer are what they
answer. -/
structure PortalState where
  ldap : Option (String → String → Except String UserIdentity)
  localAuth : String → String → Except String UserIdentity
  signToken : NacClaims → Except String String
  defaultMac : Option String

structure LoginForm where
  username : String
  password : String
  mac : Option String
  endpointId : Option String
  sessionId : Option String
  redirectUrl : Option String
  deriving DecidableEq, Repr

/-- The payload of `nac.events.auth.response` as the portal writes it. -/
structure AuthResponseEvent where
  sessionId : Option String
  endpointId : Option String
  macAddress : String
  ipAddress : String
  success : Bool
  username : Option String
  groups : List String
  reason : Option String
  deriving DecidableEq, Repr

/-- An error counts as no row. -/
def macFromDb (ip : String) : Handler (Option String) := do
  match ← probe (.findByHost ip) with
  | .ok (some row) => return some row.macAddress.text
  | _ => return none

/-- The MAC that needs no look into the database: that of the form, else the default. -/
def givenMac (state : PortalState) (form : LoginForm) : Option String :=
  (form.mac.filter fun m => !m.isEmpty).or state.defaultMac

def loginMac (state : PortalState) (clientIp : String) (form : LoginForm) : Handler String :=
  match givenMac state form with
  | some mac => return mac
  | none => do return (← macFromDb clientIp).getD ""

def authenticate (state : PortalState) (form : LoginForm) : Except String UserIdentity :=
  match state.ldap with
  | some ldap => ldap form.username form.password
  | none => state.localAuth form.username form.password

/-- The page a login came from, if it was one. -/
def redirectTarget (form : LoginForm) : String :=
  (form.redirectUrl.filter fun u =>
    !u.isEmpty && ("http://".isPrefixOf u || "https://".isPrefixOf u)).getD "/success"

/-- The event that is published, if one is, and where the client is sent. -/
def handleLogin (state : PortalState) (now : Int) (clientIp : String) (form : LoginForm) :
    Handler (Option AuthResponseEvent × String) := do
  let mac ← loginMac state clientIp form
  match authenticate state form with
  | .ok identity =>
    match state.signToken ⟨identity.username,identity.groups,now+3600,now⟩ with
    | .error _ => return (none,"/denied?reason=internal_error")
    | .ok _ => return (some ⟨form.sessionId,form.endpointId,mac,clientIp,true,
        some identity.username,identity.groups,none⟩,redirectTarget form)
  | .error _ => return (some ⟨form.sessionId,form.endpointId,mac,clientIp,false,none,[],
      some "invalid_credentials"⟩,"/denied?reason=invalid_credentials")

/-- The event as the policy manager reads it: a text that is no UUID makes it unreadable. -/
def readEvent (uuid : String → Option Uuid) (event : AuthResponseEvent) :
    Option AuthResponse := do
  let sessionId ← event.sessionId.elim (some none) fun s => (uuid s).map some
  let endpointId ← event.endpointId.elim (some none) fun s => (uuid s).map some
  return ⟨sessionId,endpointId,event.macAddress,event.ipAddress,event.success,event.username,
    event.groups,event.reason⟩

/-- A login from the form to the end of its handling by the policy manager. -/
def login (rt : Runtime) (uuid : String → Option Uuid) (state : PortalState) (now : Int)
    (clientIp : String) (form : LoginForm) : Handler Unit := do
  let (event,_) ← handleLogin state now clientIp form
  match event.bind (readEvent uuid) with
  | some resp => SessionHandler.processAuthResponse rt resp
  | none => return

end NacPlatform.Aaa
