import NacPlatform.Store.Call
import NacPlatform.PolicyEngine.Evaluator

namespace NacPlatform

/-- A command as policy-manager publishes it: the gateway is left to the enforcement service. -/
def enforcementCommand (mac ip action : String) (vlanId : Option UInt16) : EnforcementCommand where
  macAddress := mac
  ipAddress := ip
  action := action
  gatewayIp := ""
  gatewayMac := none
  vlanId := vlanId

def PolicyDecision.vlanId : PolicyDecision → Option UInt16
  | .quarantine vlan _ => some vlan
  | .allowVlan vlan => some vlan
  | _ => none

/-- The action an enforced or allowed status is published as. -/
def Status.action : Status → Option String
  | .quarantined => some "quarantine"
  | .denied => some "block"
  | .allowed => some "allow"
  | .pending => none

/-- The command carries the status itself or the action for it. -/
def Status.announcedBy (s : Status) (cmd : EnforcementCommand) : Prop :=
  cmd.action=s.text ∨ s.action=some cmd.action

namespace Consumer

def upsertOf (event : EndpointDetectedEvent) : UpsertEndpoint where
  macAddress := event.macAddress
  ipAddress := if event.ipAddress.isEmpty then none else some event.ipAddress
  hostname := event.hostname
  osFamily := event.osFamily
  osVersion := event.osVersion
  deviceType := event.deviceType
  vendor := event.vendor
  interface := if event.interface.isEmpty then none else some event.interface
  agentId := none

def context (row : EndpointRow) : PolicyContext where
  macAddress := row.macAddress.text
  ipAddress := row.ipAddress
  hostname := row.hostname
  osFamily := row.osFamily
  deviceType := row.deviceType
  username := row.username
  groups := []
  isCompliant := none
  switchPort := row.switchPort

def publishEnforcementCommand (mac : String) (ip : Option String) (status : Status)
    (decision : PolicyDecision) : Handler Unit := do
  match status.action with
  | none => return
  | some action =>
    let ipStr := (ip.map stripCidr).getD ""
    let _ ← probe (.publishCommand (enforcementCommand mac ipStr action decision.vlanId))

/-- The user of an allowed device has an active session; a failed lookup counts as none. -/
def alreadyAuthenticated (row : EndpointRow) : Handler Bool := do
  if row.status==.allowed && row.username.isSome then
    let session ← probe (.findActiveByEndpoint row.id)
    return (session.toOption.join.map fun s => s.state==.active).getD false
  else return false

def captivePortalSession (row : EndpointRow) (decision : PolicyDecision) : CreateSession where
  endpointId := row.id
  authMethod := "captive_portal"
  vlanId :=
    match decision with
    | .quarantine vlan _ => some vlan.toInt16
    | _ => none

def changeStatus (row : EndpointRow) (newIp : Option String) (decision : PolicyDecision) :
    Handler Unit := do
  let newStatus := decisionToStatus decision
  query (.setStatus row.id newStatus.text)
  query (.logAudit "policy_decision" (some row.id) "policy-manager")
  if newStatus==.quarantined then
    let _ ← probe (.createSession (captivePortalSession row decision))
  publishEnforcementCommand row.macAddress.text newIp newStatus decision

def evaluateRow (rt : Runtime) (row : EndpointRow) (newIp : Option String) (ipChanged : Bool) :
    Handler Unit := do
  let rules ← loadRules
  if rules.isEmpty then return
  let decision := evaluate rt rules (context row)
  let authenticated ← alreadyAuthenticated row
  let statusChanged := !authenticated && row.status != decisionToStatus decision
  let needsEnforcementUpdate := ipChanged && row.status.enforced
  if statusChanged then changeStatus row newIp decision
  else if needsEnforcementUpdate then
    publishEnforcementCommand row.macAddress.text newIp row.status decision

/-- `ip_changed`. -/
def ipChanged (oldIp : Option String) (row : EndpointRow) : Bool :=
  (row.ipAddress.map stripCidr).isSome && oldIp != row.ipAddress.map stripCidr

def recordDetection (rt : Runtime) (event : EndpointDetectedEvent) (oldIp : Option String)
    (row : EndpointRow) : Handler Unit := do
  query (.logAudit "endpoint_detected" (some row.id) ("sensor/"++event.source))
  if ipChanged oldIp row then query (.logAudit "endpoint_ip_changed" (some row.id) "sensor")
  evaluateRow rt row (row.ipAddress.map stripCidr) (ipChanged oldIp row)

def processEvent (rt : Runtime) (event : EndpointDetectedEvent) : Handler Unit := do
  let old ← probe (.findByMac event.macAddress)
  let oldIp := (old.toOption.join.bind (·.ipAddress)).map stripCidr
  let row ← query (.upsert (upsertOf event))
  recordDetection rt event oldIp row

end Consumer

/-- A device that no row is about yet. -/
def firstSighting : EndpointDetectedEvent :=
  ⟨"aa:bb:cc:dd:ee:01","10.0.0.7","eth0","arp",0,none,none,none,none,none⟩

end NacPlatform
