import NacPlatform.Framework.Rows
import NacPlatform.Store.Postgres
import NacPlatform.Platform.Json
import Mathlib.Data.List.Sort

namespace NacPlatform

abbrev Uuid := Nat

abbrev Timestamp := Nat

/-- `CHECK (status IN ('allowed','quarantined','denied','pending'))`. -/
inductive Status where
  | allowed
  | quarantined
  | denied
  | pending
  deriving DecidableEq, Repr

namespace Status

def text : Status → String
  | allowed => "allowed"
  | quarantined => "quarantined"
  | denied => "denied"
  | pending => "pending"

def parse (s : String) : Option Status :=
  [allowed,quarantined,denied,pending].find? fun st => st.text==s

theorem parse_text (s : Status) : parse s.text=some s := by cases s <;> decide

theorem text_of_parse {s : String} {st : Status} (h : parse s=some st) : st.text=s := by
  simpa using List.find?_some h

/-- The device is to be kept off the network, wholly or but for the portal. -/
def enforced (s : Status) : Bool := s==denied || s==quarantined

end Status

/-- A row of `endpoints`. The hardware address is read as its text. -/
structure EndpointRow where
  id : Uuid
  macAddress : MacAddr
  ipAddress : Option String
  hostname : Option String
  osFamily : Option String
  osVersion : Option String
  deviceType : Option String
  vendor : Option String
  vlanId : Option Int16
  switchPort : Option String
  interface : Option String
  username : Option String
  status : Status
  firstSeen : Timestamp
  lastSeen : Timestamp
  isCompliant : Option Bool
  lastPostureCheck : Option Timestamp
  assignedPolicyId : Option Uuid
  policyExempt : Bool
  postureSw : Option Json
  postureMissingPatches : Int32
  postureUsbEnabled : Option Bool
  postureBluetooth : Option Bool
  postureFolderSharing : Option Bool
  postureOsVersion : Option String
  agentId : Option String

structure UpsertEndpoint where
  macAddress : String
  ipAddress : Option String
  hostname : Option String
  osFamily : Option String
  osVersion : Option String
  deviceType : Option String
  vendor : Option String
  interface : Option String
  agentId : Option String
  deriving DecidableEq, Repr

structure PostureFields where
  sw : Json
  missingPatches : Int32
  usbEnabled : Bool
  bluetooth : Bool
  folderSharing : Bool
  osVersion : String

structure PostureSoftwareItem where
  name : String
  version : String
  deriving DecidableEq, Repr

/-- `from_value`: an object with the two fields, or an array of exactly the two values. -/
def PostureSoftwareItem.fromValue : Json → Option PostureSoftwareItem
  | .object fields => do
    let name ← (← fields.lookup "name").asString
    let version ← (← fields.lookup "version").asString
    return ⟨name,version⟩
  | .array [name,version] => do return ⟨← name.asString,← version.asString⟩
  | _ => none

/-- The rows of `endpoints` under the constraints of the table. -/
structure EndpointTable where
  rows : List EndpointRow
  ids : (rows.map (·.id)).Nodup
  macs : (rows.map (·.macAddress)).Nodup
  agents : (rows.filterMap (·.agentId)).Nodup

namespace EndpointTable

def empty : EndpointTable := ⟨[],by simp,by simp,by simp⟩

/-- A write that would break a unique constraint is an error and leaves the table as it is. -/
def commit (rows : List EndpointRow) : Except DbError EndpointTable :=
  if h : (rows.map (·.id)).Nodup ∧ (rows.map (·.macAddress)).Nodup ∧
      (rows.filterMap (·.agentId)).Nodup then .ok ⟨rows,h.1,h.2.1,h.2.2⟩
  else .error .uniqueViolation

/-- The columns under a unique constraint stay. -/
def KeepsKeys (f : EndpointRow → EndpointRow) : Prop :=
  ∀ r, (f r).id=r.id ∧ (f r).macAddress=r.macAddress ∧ (f r).agentId=r.agentId

/-- A write to columns without a unique constraint. -/
def modify (t : EndpointTable) (p : EndpointRow → Bool) (f : EndpointRow → EndpointRow)
    (keys : KeepsKeys f) : EndpointTable where
  rows := updateRows p f t.rows
  ids := by rw [map_updateRows fun r => (keys r).1]; exact t.ids
  macs := by rw [map_updateRows fun r => (keys r).2.1]; exact t.macs
  agents := by rw [filterMap_updateRows fun r => (keys r).2.2]; exact t.agents

def findByMac (t : EndpointTable) (mac : MacAddr) : Option EndpointRow :=
  t.rows.find? (·.macAddress==mac)

def findById (t : EndpointTable) (id : Uuid) : Option EndpointRow := t.rows.find? (·.id==id)

def findByAgentId (t : EndpointTable) (agentId : String) : Option EndpointRow :=
  t.rows.find? (·.agentId==some agentId)

def freshId (t : EndpointTable) : Uuid := freshKey (t.rows.map (·.id))

/-- A new row: what the insert gives and, for the rest, the defaults of the columns. -/
def insertedRow (id : Uuid) (mac : MacAddr) (ip : Option String) (ep : UpsertEndpoint)
    (now : Timestamp) : EndpointRow where
  id := id
  macAddress := mac
  ipAddress := ip
  hostname := ep.hostname
  osFamily := ep.osFamily
  osVersion := ep.osVersion
  deviceType := ep.deviceType
  vendor := ep.vendor
  vlanId := none
  switchPort := none
  interface := ep.interface
  username := none
  status := .pending
  firstSeen := now
  lastSeen := now
  isCompliant := none
  lastPostureCheck := none
  assignedPolicyId := none
  policyExempt := false
  postureSw := none
  postureMissingPatches := 0
  postureUsbEnabled := none
  postureBluetooth := none
  postureFolderSharing := none
  postureOsVersion := none
  agentId := ep.agentId

/-- `ON CONFLICT (mac_address) DO UPDATE`: what is given replaces what is stored. -/
def mergedRow (ip : Option String) (ep : UpsertEndpoint) (now : Timestamp) (r : EndpointRow) :
    EndpointRow :=
  { r with
    ipAddress := ip.or r.ipAddress
    hostname := ep.hostname.or r.hostname
    osFamily := ep.osFamily.or r.osFamily
    osVersion := ep.osVersion.or r.osVersion
    deviceType := ep.deviceType.or r.deviceType
    vendor := ep.vendor.or r.vendor
    interface := ep.interface.or r.interface
    agentId := ep.agentId.or r.agentId
    lastSeen := now }

section Statements

variable (pg : Postgres)

/-- The casts `$1::macaddr` and `$2::inet`. -/
def cast (ep : UpsertEndpoint) : Except DbError (MacAddr × Option String) := do
  let mac ← (pg.macaddr ep.macAddress).elim (.error .invalidText) .ok
  match ep.ipAddress with
  | none => return (mac,none)
  | some ip => return (mac,some (← (pg.inet ip).elim (.error .invalidText) .ok))

def upsert (ep : UpsertEndpoint) (now : Timestamp) (t : EndpointTable) :
    Except DbError (EndpointRow × EndpointTable) := do
  let (mac,ip) ← cast pg ep
  match t.findByMac mac with
  | some r =>
    let row := mergedRow ip ep now r
    return (row,← commit (updateRows (·.macAddress==mac) (fun _ => row) t.rows))
  | none =>
    let row := insertedRow t.freshId mac ip ep now
    return (row,← commit (t.rows++[row]))

/-- The row of a device that its agent reports under another address. -/
def movedRow (mac : MacAddr) (ip : Option String) (ep : UpsertEndpoint) (now : Timestamp)
    (r : EndpointRow) : EndpointRow :=
  { r with
    macAddress := mac
    ipAddress := ip.or r.ipAddress
    hostname := ep.hostname.or r.hostname
    osFamily := ep.osFamily.or r.osFamily
    osVersion := ep.osVersion.or r.osVersion
    lastSeen := now }

/-- `UPDATE … WHERE agent_id = $6`; without an agent id nothing is asked of the database. -/
def upsertByAgentId (ep : UpsertEndpoint) (now : Timestamp) (t : EndpointTable) :
    Except DbError (Option EndpointRow × EndpointTable) := do
  match ep.agentId with
  | none => return (none,t)
  | some agent =>
    if agent.isEmpty then return (none,t)
    let (mac,ip) ← cast pg ep
    match t.rows.find? (·.agentId==some agent) with
    | none => return (none,t)
    | some r =>
      let row := movedRow mac ip ep now r
      return (some row,← commit (updateRows (·.agentId==some agent) (fun _ => row) t.rows))

/-- `ORDER BY last_seen DESC LIMIT $1 OFFSET $2`. -/
def list (limit offset : Nat) (t : EndpointTable) : List EndpointRow :=
  (((pg.scan t.rows).insertionSort fun a b => b.lastSeen ≤ a.lastSeen).drop offset).take limit

/-- `WHERE host(ip_address) = $1 LIMIT 1`. -/
def findByHost (ip : String) (t : EndpointTable) : Option EndpointRow :=
  (pg.scan t.rows).find? fun r => r.ipAddress.map pg.host==some ip

end Statements

def setStatus (id : Uuid) (status : Status) (t : EndpointTable) : EndpointTable :=
  t.modify (·.id==id) (fun r => { r with status := status }) fun _ => ⟨rfl,rfl,rfl⟩

def setPolicy (id : Uuid) (policyId : Option Uuid) (t : EndpointTable) : EndpointTable :=
  t.modify (·.id==id) (fun r => { r with assignedPolicyId := policyId }) fun _ => ⟨rfl,rfl,rfl⟩

def setExempt (id : Uuid) (exempt : Bool) (t : EndpointTable) : EndpointTable :=
  t.modify (·.id==id) (fun r => { r with policyExempt := exempt }) fun _ => ⟨rfl,rfl,rfl⟩

def setUsername (id : Uuid) (username : String) (t : EndpointTable) : EndpointTable :=
  t.modify (·.id==id) (fun r => { r with username := some username })
    fun _ => ⟨rfl,rfl,rfl⟩

def setCompliance (id : Uuid) (isCompliant : Bool) (now : Timestamp) (t : EndpointTable) :
    EndpointTable :=
  t.modify (·.id==id)
    (fun r => { r with isCompliant := some isCompliant, lastPostureCheck := some now })
    fun _ => ⟨rfl,rfl,rfl⟩

def withPosture (f : PostureFields) (r : EndpointRow) : EndpointRow :=
  { r with
    postureSw := some f.sw
    postureMissingPatches := f.missingPatches
    postureUsbEnabled := some f.usbEnabled
    postureBluetooth := some f.bluetooth
    postureFolderSharing := some f.folderSharing
    postureOsVersion := some f.osVersion }

def updatePostureFields (id : Uuid) (f : PostureFields) (t : EndpointTable) : EndpointTable :=
  t.modify (·.id==id) (withPosture f) fun _ => ⟨rfl,rfl,rfl⟩

/-- `UPDATE endpoints SET ip_address, last_seen WHERE mac_address`. -/
def updateIp (mac : MacAddr) (ip : String) (now : Timestamp) (t : EndpointTable) :
    EndpointTable :=
  t.modify (·.macAddress==mac) (fun r => { r with ipAddress := some ip, lastSeen := now })
    fun _ => ⟨rfl,rfl,rfl⟩

end EndpointTable

end NacPlatform
