import NacPlatform.Platform.Bus
import NacPlatform.Framework.Address

namespace NacPlatform.Sensor

/-- The addresses of an ARP packet on the wire. -/
structure ArpPacket where
  senderHwAddr : MacAddr
  senderProtoAddr : Ipv4Addr
  targetProtoAddr : Ipv4Addr
  deriving DecidableEq, Repr

structure ArpEvent where
  macAddress : String
  ipAddress : Ipv4Addr
  interface : String
  isGratuitous : Bool
  deriving DecidableEq, Repr

/-- `{:02X}` with colons. -/
def formatMac (octets : MacAddr) : String := asciiUpper octets.text

/-- An ARP probe, sent from 0.0.0.0, is skipped. -/
def snoop (ifaceName : String) (arp : ArpPacket) : Option ArpEvent :=
  if arp.senderProtoAddr=Ipv4Addr.unspecified then none
  else some ⟨formatMac arp.senderHwAddr,arp.senderProtoAddr,ifaceName,
    arp.senderProtoAddr==arp.targetProtoAddr⟩

/-- What the task of an event publishes. -/
def endpointDetected (event : ArpEvent) (now : Int) : EndpointDetectedEvent where
  macAddress := event.macAddress
  ipAddress := event.ipAddress.text
  interface := event.interface
  source := "arp"
  timestamp := now
  hostname := none
  osFamily := none
  osVersion := none
  deviceType := none
  vendor := none

end NacPlatform.Sensor
