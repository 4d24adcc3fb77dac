import NacPlatform.Enforcement.Host

namespace NacPlatform.Enforcement

/-- Unicast ARP reply: tells `targetMac` that `senderIp` is at `senderMac`. -/
def craftArpReply (dstMac senderMac : MacAddr) (senderIp : Ipv4Addr) (targetMac : MacAddr)
    (targetIp : Ipv4Addr) : ArpFrame :=
  ⟨dstMac,senderMac,senderIp,targetMac,targetIp⟩

/-- Broadcast ARP reply about the sender's own binding. -/
def craftGratuitousArp (senderMac : MacAddr) (senderIp targetIp : Ipv4Addr) : ArpFrame :=
  ⟨.broadcast,senderMac,senderIp,.zero,targetIp⟩

/-- Poisons the victim (the gateway's address is at `myMac`) and the gateway (the victim's
address is at `myMac`). -/
def poison (myMac : MacAddr) (victimIp : Ipv4Addr) (victimMac : MacAddr)
    (gatewayIp : Ipv4Addr) : EnfProc Unit := do
  sendFrame .poison (craftArpReply victimMac myMac gatewayIp victimMac victimIp)
  let gwMac := (← arpLookup gatewayIp).getD .broadcast
  sendFrame .poison (craftArpReply gwMac myMac victimIp gwMac gatewayIp)

/-- `Spoofer::quarantine`. -/
def spooferQuarantine := poison

/-- `Spoofer::block`, the same frames as a quarantine: the firewall makes the difference. -/
def spooferBlock := poison

def spoof : NacAction → MacAddr → Ipv4Addr → MacAddr → Ipv4Addr → EnfProc Unit
  | .block => spooferBlock
  | .quarantine => spooferQuarantine

/-- `Spoofer::allow`: the three frames that restore the caches of victim and gateway. -/
def spooferAllow (victimIp : Ipv4Addr) (victimMac : MacAddr) (gatewayIp : Ipv4Addr)
    (gatewayMac : MacAddr) : EnfProc Unit := do
  sendFrame .restore (craftArpReply victimMac gatewayMac gatewayIp victimMac victimIp)
  sendFrame .restore (craftArpReply gatewayMac victimMac victimIp gatewayMac gatewayIp)
  sendFrame .restore (craftGratuitousArp victimMac victimIp victimIp)

@[simp] theorem spoof_eq (action : NacAction) : spoof action=poison := by cases action <;> rfl

end NacPlatform.Enforcement
