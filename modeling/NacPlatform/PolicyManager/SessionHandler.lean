import NacPlatform.PolicyManager.Consumer

namespace NacPlatform

/-- The payload of `nac.events.auth.response`. -/
structure AuthResponse where
  sessionId : Option Uuid
  endpointId : Option Uuid
  macAddress : String
  ipAddress : String
  success : Bool
  username : Option String
  groups : List String
  reason : Option String
  deriving DecidableEq, Repr

namespace SessionHandler

def context (endpoint : EndpointRow) (username : String) (groups : List String) :
    PolicyContext where
  macAddress := endpoint.macAddress.text
  ipAddress := endpoint.ipAddress
  hostname := endpoint.hostname
  osFamily := endpoint.osFamily
  deviceType := endpoint.deviceType
  username := some username
  groups := groups
  isCompliant := none
  switchPort := endpoint.switchPort

/-- Here an unknown status is published as an allow. -/
def commandFor (mac : String) (ip : Option String) (status : Status) (decision : PolicyDecision) :
    EnforcementCommand :=
  enforcementCommand mac (ip.getD "") (status.action.getD "allow") decision.vlanId

def upsertOf (resp : AuthResponse) : UpsertEndpoint where
  macAddress := resp.macAddress
  ipAddress := if resp.ipAddress.isEmpty then none else some resp.ipAddress
  hostname := none
  osFamily := none
  osVersion := none
  deviceType := none
  vendor := none
  interface := none
  agentId := none

/-- By endpoint id, else by MAC, else by address. -/
def lookupEndpoint (resp : AuthResponse) : Handler (Option EndpointRow) :=
  match resp.endpointId with
  | some eid => query (.findById eid)
  | none =>
    if !resp.macAddress.isEmpty then query (.findByMac resp.macAddress)
    else if !resp.ipAddress.isEmpty then query (.findByHost resp.ipAddress)
    else return none

/-- A device that logs in before it was detected is registered. -/
def resolveEndpoint (resp : AuthResponse) : Handler (Option EndpointRow) := do
  let found ← lookupEndpoint resp
  match found with
  | some endpoint => return some endpoint
  | none =>
    if resp.macAddress.isEmpty then return none
    let row ← query (.upsert (upsertOf resp))
    return some row

def resolveSession (resp : AuthResponse) (endpoint : EndpointRow) :
    Handler (Option SessionRow) :=
  match resp.sessionId with
  | some sid => query (.findSession sid)
  | none => query (.findActiveByEndpoint endpoint.id)

def authFailed (endpoint : EndpointRow) (session : Option SessionRow) : Handler Unit := do
  match session with
  | some sess => query (.terminate sess.id)
  | none => pure ()
  query (.logAudit "auth_failed" (some endpoint.id) "aaa/captive_portal")

def activate (endpoint : EndpointRow) (session : Option SessionRow) (username : String) :
    Handler Unit := do
  if !username.isEmpty then query (.setUsername endpoint.id username)
  match session with
  | some sess => query (.transition sess.id "active" (some username))
  | none => pure ()

def reevaluate (rt : Runtime) (endpoint : EndpointRow) (username : String)
    (groups : List String) : Handler Unit := do
  let rules ← loadRules
  if rules.isEmpty then return
  let decision := evaluate rt rules (context endpoint username groups)
  let newStatus := decisionToStatus decision
  if endpoint.status != newStatus then query (.setStatus endpoint.id newStatus.text)
  let _ ← probe (.publishCommand
    (commandFor endpoint.macAddress.text endpoint.ipAddress newStatus decision))
  query (.logAudit "auth_success" (some endpoint.id) "aaa/captive_portal")

def processAuthResponse (rt : Runtime) (resp : AuthResponse) : Handler Unit := do
  let resolved ← resolveEndpoint resp
  match resolved with
  | none => return
  | some endpoint =>
    let session ← resolveSession resp endpoint
    if !resp.success then authFailed endpoint session
    else
      let username := resp.username.getD ""
      activate endpoint session username
      reevaluate rt endpoint username resp.groups

end SessionHandler

end NacPlatform
