import NacPlatform.Store.Call
import NacPlatform.Store.Posture

namespace NacPlatform.AgentService

structure RegisterRequest where
  deviceId : String
  hostname : String
  os : String
  version : String
  primaryMac : String
  deriving DecidableEq, Repr

/-- `"aa:bb:cc:dd:ee:ff"` from twelve digits in any notation; an empty text is none. -/
def normalizeMac (s : String) : Option String :=
  let s := trim s
  if s.isEmpty then none
  else
    match hexDigits s with
    | [a,b,c,d,e,f,g,h,i,j,k,l] =>
      some (String.ofList [a.toLower,b.toLower, ':',c.toLower,d.toLower, ':',e.toLower,f.toLower,
        ':',g.toLower,h.toLower, ':',i.toLower,j.toLower, ':',k.toLower,l.toLower])
    | _ => none

/-- Agents without a primary MAC: the first twelve digits of the device id. -/
def legacyDeviceIdToMac (deviceId : String) : String :=
  match MacAddr.ofHexDigits ((hexDigits deviceId).take 12) with
  | some mac => mac.text
  | none => "00:00:00:00:00:00"

def upsertOf (remoteIp : Option String) (req : RegisterRequest) : UpsertEndpoint where
  macAddress := (normalizeMac req.primaryMac).getD (legacyDeviceIdToMac req.deviceId)
  ipAddress := remoteIp
  hostname := if req.hostname.isEmpty then none else some req.hostname
  osFamily := some req.os
  osVersion := some req.version
  deviceType := none
  vendor := none
  interface := none
  agentId := some req.deviceId

/-- The row that has the agent id, else the one that has the MAC, else a new one. -/
def register (remoteIp : Option String) (req : RegisterRequest) : Handler EndpointRow := do
  let ep := upsertOf remoteIp req
  let updated ← probe (.upsertByAgentId ep)
  match updated with
  | .ok (some row) => return row
  | _ => query (.upsert ep)

structure StatusReport where
  deviceId : String
  installedSoftware : List SoftwareItem
  missingPatches : List PatchItem
  usbEnabled : Bool
  bluetoothEnabled : Bool
  folderSharingEnabled : Bool
  os : String
  osVersion : String
  deriving DecidableEq, Repr

/-- `Status::unauthenticated`. -/
structure Unauthenticated where
  message : String
  deriving DecidableEq, Repr

/-- What follows `Bearer ` in the header. -/
def bearerToken (authorization : Option String) : Option String := do
  let value ← authorization
  if "Bearer ".toList.isPrefixOf value.toList then some (String.ofList (value.toList.drop 7))
  else none

def postureReport (req : StatusReport) (now : Int) : PostureReport where
  deviceId := req.deviceId
  os := req.os
  osVersion := req.osVersion
  installedSoftware := req.installedSoftware
  missingPatches := req.missingPatches
  usbEnabled := req.usbEnabled
  bluetoothEnabled := req.bluetoothEnabled
  folderSharingEnabled := req.folderSharingEnabled
  timestamp := now

def ackAction (endpoint : Option EndpointRow) : String :=
  match endpoint.map EndpointRow.status with
  | some .denied => "Deny"
  | some .quarantined => "Quarantine"
  | _ => "Allow"

/-- The report that is published, and the action that is answered. -/
def reportStatus (verifyToken : String → Bool) (authorization : Option String) (req : StatusReport)
    (now : Int) (t : EndpointTable) : Except Unauthenticated (PostureReport × String) :=
  match bearerToken authorization with
  | none => .error ⟨"missing authorization token"⟩
  | some token =>
    if verifyToken token then
      .ok (postureReport req now,ackAction (t.findByAgentId req.deviceId))
    else .error ⟨"invalid or expired token"⟩

end NacPlatform.AgentService
