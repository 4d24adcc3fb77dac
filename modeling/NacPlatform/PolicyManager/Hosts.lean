import NacPlatform.PolicyManager.Network
import NacPlatform.PolicyManager.Users

namespace NacPlatform.Network

open Users (AppError)

structure HostEntry where
  ip : String
  octet : Nat
  mac : Option String
  hostname : Option String
  osFamily : Option String
  osVersion : Option String
  deviceType : Option String
  vendor : Option String
  nacStatus : String
  endpointId : Option Uuid
  lastAuthUser : Option String
  arpActive : Bool
  lastSeen : Option Timestamp

structure ArpEntry where
  ip : String
  mac : String

/-- A line of `/proc/net/arp`; incomplete entries do not count. -/
def arpEntry (line : List Char) : Option ArpEntry :=
  match splitWhitespace line with
  | ip::_::flags::mac::_ =>
    if flags="0x0".toList ∨ mac="00:00:00:00:00:00".toList then none
    else some ⟨String.ofList ip,String.ofList mac⟩
  | _ => none

/-- The file, if it can be read; its first line is a header. -/
def readArpTable : Option String → List ArpEntry
  | none => []
  | some content => ((lines content).drop 1).filterMap arpEntry

/-- `192.168.0.1 dev eth0 lladdr aa:bb:cc:dd:ee:ff REACHABLE`. -/
def neighEntry (line : List Char) : Option ArpEntry :=
  let parts := splitWhitespace line
  if parts.length<5 then none
  else do
    let ip ← parts[0]?
    let pos ← parts.findIdx? (·=="lladdr".toList)
    let mac ← parts[pos+1]?
    return ⟨String.ofList ip,String.ofList mac⟩

/-- What `ip neigh show` prints, if it succeeds. -/
def readIpNeigh : Option String → List ArpEntry
  | none => []
  | some text => (lines text).filterMap neighEntry

structure DbEndpoint where
  id : Uuid
  ip : String
  mac : Option String
  hostname : Option String
  osFamily : Option String
  osVersion : Option String
  deviceType : Option String
  vendor : Option String
  status : String
  username : Option String
  lastSeen : Option Timestamp

/-- A row, under the address it has. -/
def DbEndpoint.ofRow (r : EndpointRow) : DbEndpoint where
  id := r.id
  ip := stripCidr (r.ipAddress.getD "")
  mac := some r.macAddress.text
  hostname := r.hostname
  osFamily := r.osFamily
  osVersion := r.osVersion
  deviceType := r.deviceType
  vendor := r.vendor
  status := r.status.text
  username := r.username
  lastSeen := some r.lastSeen

/-- A later row with the same address takes the place of the one before it. -/
def insertRow (map : String → Option DbEndpoint) (r : EndpointRow) : String → Option DbEndpoint :=
  let ep := DbEndpoint.ofRow r
  if ep.ip.isEmpty then map else Function.update map ep.ip (some ep)

/-- The entry of an address, for a device in the database or for none. -/
def hostEntry (ip : String) (octet : Nat) (arpMac : Option String) : Option DbEndpoint → HostEntry
  | some ep =>
    { ip := ip, octet := octet, mac := ep.mac.or arpMac, hostname := ep.hostname,
      osFamily := ep.osFamily, osVersion := ep.osVersion, deviceType := ep.deviceType,
      vendor := ep.vendor, nacStatus := ep.status, endpointId := some ep.id,
      lastAuthUser := ep.username, arpActive := arpMac.isSome, lastSeen := ep.lastSeen }
  | none =>
    { ip := ip, octet := octet, mac := arpMac, hostname := none, osFamily := none,
      osVersion := none, deviceType := none, vendor := none, nacStatus := "unregistered",
      endpointId := none, lastAuthUser := none, arpActive := arpMac.isSome, lastSeen := none }

/-- The address of the entry is that of the device, and so is all that the entry says. -/
structure HostEntry.Shows (e : HostEntry) (r : EndpointRow) : Prop where
  ip : e.ip=stripCidr (r.ipAddress.getD "")
  mac : e.mac=some r.macAddress.text
  hostname : e.hostname=r.hostname
  osFamily : e.osFamily=r.osFamily
  osVersion : e.osVersion=r.osVersion
  deviceType : e.deviceType=r.deviceType
  vendor : e.vendor=r.vendor
  nacStatus : e.nacStatus=r.status.text
  endpointId : e.endpointId=some r.id
  lastAuthUser : e.lastAuthUser=r.username
  lastSeen : e.lastSeen=some r.lastSeen

section Maps

end Maps

section Listing

variable {q : ScanQuery} {r : SubnetRange} {arpProc arpNeigh : Option String}
  {rows : List EndpointRow}

/-- The entries that are listed, each by its own address. -/
def entries (r : SubnetRange) (arpProc arpNeigh : Option String) (rows : List EndpointRow) :
    List HostEntry :=
  (List.range' r.first.toNat (r.last.toNat+1-r.first.toNat)).map fun octet =>
    hostEntry (r.base++toString octet) octet
      (((readArpTable arpProc++readIpNeigh arpNeigh).find? fun e =>
        e.ip==r.base++toString octet).map (·.mac))
      (rows.foldl insertRow (fun _ => none) (r.base++toString octet))

theorem hostEntry_ip (ip : String) (octet : Nat) (arpMac : Option String)
    (ep : Option DbEndpoint) : (hostEntry ip octet arpMac ep).ip=ip := by cases ep <;> rfl

theorem mem_entries {e : HostEntry} (he : e ∈ entries r arpProc arpNeigh rows) :
    ∃ octet, e.ip=r.base++toString octet ∧ e=hostEntry e.ip octet
      (((readArpTable arpProc++readIpNeigh arpNeigh).find? fun a => a.ip==e.ip).map (·.mac))
      (rows.foldl insertRow (fun _ => none) e.ip) := by
  unfold entries at he
  obtain ⟨octet,-,rfl⟩ := List.mem_map.mp he
  exact ⟨octet,hostEntry_ip _ _ _ _,by rw [hostEntry_ip]⟩

end Listing

end NacPlatform.Network
