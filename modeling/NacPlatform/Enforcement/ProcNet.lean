import NacPlatform.Framework.Address

namespace NacPlatform.Enforcement

/-! What the service reads from the kernel's route and ARP tables. -/

/-- The gateway of one line of `/proc/net/route`, if it is a default route. -/
def routeLineGateway (line : List Char) : Option Ipv4Addr :=
  match splitWhitespace line with
  | _::dest::gw::_ =>
    if fromHex (2^32) dest=some 0 then (fromHex (2^32) gw).map .ofLittleEndian else none
  | _ => none

/-- The gateway of the first default route. -/
def detectDefaultGateway (content : String) : Option Ipv4Addr :=
  ((lines content).drop 1).findSome? routeLineGateway

/-- The bytes of one line of `/proc/net/arp` that is about `ip`. -/
def arpLineMac (ip : List Char) (line : List Char) : Option MacAddr :=
  match splitWhitespace line with
  | addr::_::_::mac::_ =>
    if addr=ip && mac != "00:00:00:00:00:00".toList then
      match (mac.splitOnP (· == ':')).filterMap (fromHex 256) with
      | [a,b,c,d,e,f] => some ⟨.ofNat a,.ofNat b,.ofNat c,.ofNat d,.ofNat e,.ofNat f⟩
      | _ => none
    else none
  | _ => none

/-- The hardware address the ARP cache has for an address. -/
def getArpMac (content : String) (ip : Ipv4Addr) : Option MacAddr :=
  ((lines content).drop 1).findSome? (arpLineMac ip.text.toList)

end NacPlatform.Enforcement
