import NacPlatform.Enforcement.Releases

namespace NacPlatform.Enforcement

/-- A release of the address changes nothing: it is in no IP set that nft would take it out of. -/
def NoRelease (env : Env) (h : Host) (x : Ipv4Addr) : Prop :=
  ∀ a, h.inIps x.text a → env.nftFails .delete (ipSet a) x.text=true

/-- A command leaves the IP sets as they are about an address. -/
structure Spares (rt : Runtime) (h : Host) (c : Env × EnforcementCommand) (x : Ipv4Addr) :
    Prop where
  /-- An allow for the address finds nothing to release. -/
  allowed : isAllowAction c.2.action=true → ipOpt (received c.2)=some x.text → NoRelease c.1 h x
  /-- Nor does the cleanup, where the device of the command moves away from the address. -/
  left : isAllowAction c.2.action=false → leftIp rt h (received c.2)=some x → NoRelease c.1 h x
  /-- A block or quarantine of the address finds it in the set that it puts it in, and in no
  other. -/
  named : isAllowAction c.2.action=false → ipOpt (received c.2)=some x.text →
    c.1.nftFails .add (macSet (mapAction c.2.action)) (nftMac rt c.2.macAddress)=false →
    (h.inIps x.text (mapAction c.2.action) ∨
      c.1.nftFails .add (ipSet (mapAction c.2.action)) x.text=true) ∧
    (h.inIps x.text (mapAction c.2.action).other →
      c.1.nftFails .delete (ipSet (mapAction c.2.action).other) x.text=true)

section Frame

variable (rt : Runtime) (h : Host) (c : Env × EnforcementCommand)

end Frame

end NacPlatform.Enforcement
