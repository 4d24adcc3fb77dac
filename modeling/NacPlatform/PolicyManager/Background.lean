import NacPlatform.PolicyManager.Consumer
import Mathlib.Logic.Function.Basic

namespace NacPlatform.Background

/-- The gateway of one line of `/proc/net/route`, if it is a default route. -/
def routeGateway (line : List Char) : Option Ipv4Addr :=
  match splitWhitespace line with
  | _::dest::gw::_ =>
    match fromHex (2^32) dest,fromHex (2^32) gw with
    | some dest,some gw => if dest==0 && gw != 0 then some (.ofLittleEndian gw) else none
    | _,_ => none
  | _ => none

/-- The gateways of all default routes; the first line is the heading. -/
def detectDefaultGateways (content : String) : List Ipv4Addr :=
  ((lines content).drop 1).filterMap routeGateway

/-- The new address seen for a MAC in the last cycle, not yet confirmed. -/
abbrev PendingIp := String → Option String

def publishEnforcement (mac ip action : String) : Handler Unit := do
  let _ ← probe (.publishCommand (enforcementCommand mac ip action none))

def arpSyncEvent (mac ip : String) (now : Int) : EndpointDetectedEvent where
  macAddress := mac
  ipAddress := ip
  interface := ""
  source := "arp-sync"
  timestamp := now
  hostname := none
  osFamily := none
  osVersion := none
  deviceType := none
  vendor := none

/-- An address confirmed in two cycles is stored, and an enforced device published again. -/
def confirmIp (mac ip : String) : Handler Unit := do
  let _ ← probe (.updateIp mac ip)
  let found ← probe (.findByMac mac)
  match found.toOption.join with
  | none => return
  | some ep =>
    match ep.status with
    | .denied => publishEnforcement mac ip "block"
    | .quarantined => publishEnforcement mac ip "quarantine"
    | _ => return

def arpSyncEntry (gatewayIps : List String) (existing : List (String × Option String)) (now : Int)
    (pending : PendingIp) (entry : String × String) : Handler PendingIp := do
  let (mac,ip) := entry
  if gatewayIps.contains ip then return Function.update pending mac none
  match existing.lookup mac with
  | none =>
    let _ ← probe (.publishDetected (arpSyncEvent mac ip now))
    return Function.update pending mac none
  | some stored =>
    if stored.map stripCidr != some ip then
      if pending mac==some ip then
        confirmIp mac ip
        return Function.update pending mac none
      else return Function.update pending mac (some ip)
    else return Function.update pending mac none

/-- One cycle on the MAC → IP map read from the ARP table, in the order the map yields it. -/
def arpSync (rt : Runtime) (arpMap : List (String × String)) (gatewayIps : List String) (now : Int)
    (pending : PendingIp) : Handler PendingIp := do
  let rows ← query .listAddresses
  let existing := rows.map fun r => (rt.toLowercase r.1.text,r.2)
  let kept : PendingIp := fun mac => if (arpMap.lookup mac).isSome then pending mac else none
  arpMap.foldlM (arpSyncEntry gatewayIps existing now) kept

end NacPlatform.Background
