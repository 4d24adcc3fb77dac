import NacPlatform.Enforcement.IpRules
import NacPlatform.Enforcement.Legacy

namespace NacPlatform.Enforcement

/-! The verdicts of the two backends on one packet. -/

/-- The rules of `nac_forward`, each of which drops what members of its set send. The policy of the
chain is to accept. -/
def nacForward : List NftSet := [.blockedMacs,.quarantinedMacs,.blockedIps,.quarantinedIps]

/-- The sender of a packet is a member of a set. -/
def Packet.SentBy (p : Packet) (h : Host) : NftSet → Prop
  | .blockedMacs => p.srcMac.text ∈ h.sets .blockedMacs
  | .quarantinedMacs => p.srcMac.text ∈ h.sets .quarantinedMacs
  | .blockedIps => ∃ x, p.srcIp=some x ∧ x.text ∈ h.sets .blockedIps
  | .quarantinedIps => ∃ x, p.srcIp=some x ∧ x.text ∈ h.sets .quarantinedIps

def Host.nftDrops (h : Host) (p : Packet) : Prop := ∃ set ∈ nacForward, p.SentBy h set

/-- iptables-legacy sees IPv4 packets only. -/
def Host.legacyDrops (h : Host) (p : Packet) : Prop :=
  p.srcIp.isSome=true ∧ h.drops (setupIptLegacy ⟨[],[]⟩).forward p

/-- The call names a device, and an IPv4 address or none. -/
structure FirewallCall.WellFormed (c : FirewallCall) : Prop where
  mac : (hexDigits c.mac).length=12
  ip : ∃ x : Option Ipv4Addr, c.ip=x.map Ipv4Addr.text

/-- What a call writes about an address that can be in a set. -/
def ipCallFor (c : FirewallCall) (x : Ipv4Addr) : Option (Option NacAction) :=
  if c.ip=some x.text ∧ specified x=true then some c.action else none

/-- What the last call that names an address asks for. -/
def lastIpAction (x : Ipv4Addr) (calls : List FirewallCall) : Option NacAction :=
  (lastWrite ipCallFor x calls).join

section Nft

variable {env : Env} (rt : Runtime)

/-- A call moves its device between the MAC sets, and no other. -/
theorem callFirewall_inMacs (hok : env.MacsOk) (h : Host) (c : FirewallCall) (x : String)
    (a : NacAction) : (callFirewall rt .nft env h c).inMacs x a ↔
      if x=nftMac rt c.mac then c.action=some a else h.inMacs x a := by
  unfold callFirewall FirewallCall.body
  cases c.action with
  | none =>
    simp only []
    rw [allow_inMacs rt hok]
    by_cases hx : x=nftMac rt c.mac <;> simp [hx]
  | some action =>
    simp only [treat_nft]
    rw [nftTreat_inMacs rt hok]
    simp

theorem nftTreat_filter (action : NacAction) (mac : String) (ip : Option String) :
    nftTreat rt action mac ip=nftTreat rt action mac (ip.filter usableIp) := by
  unfold nftTreat nftMoveIp
  rw [Option.filter_filter]
  simp only [Bool.and_self]

/-- A call moves the address that it names, if a set can hold it, and no other. -/
theorem callFirewall_inIps (hw : env.Works) (h : Host) (c : FirewallCall) (x : String)
    (a : NacAction) : (callFirewall rt .nft env h c).inIps x a ↔
      if c.ip.filter usableIp=some x then c.action=some a else h.inIps x a := by
  unfold callFirewall FirewallCall.body
  cases c.action with
  | none =>
    simp only []
    rw [allow_inIps rt hw]
    by_cases hx : c.ip.filter usableIp=some x <;> simp [hx]
  | some action =>
    simp only [treat_nft]
    rw [nftTreat_filter]
    cases hip : c.ip.filter usableIp with
    | none =>
      rw [nftTreat_none_failing rt]
      simp
    | some y =>
      have hy : usableIp y=true := (Option.filter_eq_some_iff.mp hip).2
      rw [nftTreat_inIps rt hw action c.mac hy]
      simp only [Option.some.injEq,eq_comm]

/-- The MAC sets answer for each device by the last call for it, if there is one. -/
theorem runs_call_lastMac (hok : env.MacsOk) (calls : List FirewallCall)
    (hcalls : ∀ c ∈ calls, (hexDigits c.mac).length=12) (h : Host) (m : MacAddr)
    (a : NacAction) : (runs (callFirewall rt .nft env) h calls).inMacs m.text a=
      ((lastWrite callFor m calls).map fun action => action=some a).getD (h.inMacs m.text a) := by
  have hstep (h : Host) (c : FirewallCall) (hc : c ∈ calls) (m : MacAddr) :
      (callFirewall rt .nft env h c).inMacs m.text a=
        ((callFor c m).map fun action => action=some a).getD (h.inMacs m.text a) := by
    obtain ⟨m',hm'⟩ : ∃ m, parseMac c.mac=some m := MacAddr.ofHexDigits_isSome.mpr (hcalls c hc)
    rw [callFirewall_inMacs rt hok,nftMac_eq rt hm',callFor,hm']
    by_cases hm : m=m'
    · simp [hm]
    · have hm'' : ¬m'=m := fun e => hm e.symm
      simp [hm,hm'']
  rw [view_runs (fun h m => h.inMacs m.text a) h calls hstep m,lastWrite_map]

theorem runs_call_inMacs (hok : env.MacsOk) (calls : List FirewallCall)
    (hcalls : ∀ c ∈ calls, c.WellFormed) {h : Host} (hempty : ∀ set, h.sets set=∅) (m : MacAddr)
    (a : NacAction) : (runs (callFirewall rt .nft env) h calls).inMacs m.text a ↔
      lastAction m calls=some a := by
  rw [runs_call_lastMac rt hok calls fun c hc => (hcalls c hc).mac,lastAction]
  cases lastWrite callFor m calls <;> simp [Host.inMacs,hempty]

/-- The IP sets answer for each address that they can hold by the last call that names it. -/
theorem runs_call_inIps (hw : env.Works) (calls : List FirewallCall) {h : Host}
    (hempty : ∀ set, h.sets set=∅) (x : Ipv4Addr) (a : NacAction) :
    (runs (callFirewall rt .nft env) h calls).inIps x.text a ↔ lastIpAction x calls=some a := by
  have hstep (h : Host) (c : FirewallCall) (_ : c ∈ calls) (x : Ipv4Addr) :
      (callFirewall rt .nft env h c).inIps x.text a=
        ((ipCallFor c x).map fun action => action=some a).getD (h.inIps x.text a) := by
    have holds : c.ip.filter usableIp=some x.text ↔ c.ip=some x.text ∧ specified x=true := by
      rw [Option.filter_eq_some_iff,usableIp_text]
    rw [callFirewall_inIps rt hw,ipCallFor]
    by_cases hx : c.ip.filter usableIp=some x.text
    · rw [if_pos hx,if_pos (holds.mp hx)]
      rfl
    · have hx' : ¬(c.ip=some x.text ∧ specified x=true) := fun h => hx (holds.mpr h)
      rw [if_neg hx,if_neg hx']
      rfl
  rw [view_runs (fun h x => h.inIps x.text a) h calls hstep x,lastWrite_map,lastIpAction]
  cases lastWrite ipCallFor x calls <;> simp [Host.inIps,hempty]

/-- The nft backend drops what comes from a device or an address under block or quarantine. -/
theorem nftDrops_iff (hw : env.Works) (calls : List FirewallCall)
    (hcalls : ∀ c ∈ calls, c.WellFormed) {h : Host} (hempty : ∀ set, h.sets set=∅) (p : Packet) :
    (runs (callFirewall rt .nft env) h calls).nftDrops p ↔
      lastAction p.srcMac calls≠none ∨ ∃ x, p.srcIp=some x ∧ lastIpAction x calls≠none := by
  have mac := runs_call_inMacs rt hw.macsOk calls hcalls hempty p.srcMac
  have ip := runs_call_inIps rt hw calls hempty
  generalize runs (callFirewall rt .nft env) h calls=h' at mac ip
  have some_action (o : Option NacAction) : o≠none ↔ o=some .block ∨ o=some .quarantine := by
    rcases o with _|_|_ <;> simp
  have blockedMac : p.srcMac.text ∈ h'.sets .blockedMacs ↔ _ := mac .block
  have quarantinedMac : p.srcMac.text ∈ h'.sets .quarantinedMacs ↔ _ := mac .quarantine
  have blockedIp (x : Ipv4Addr) : x.text ∈ h'.sets .blockedIps ↔ _ := ip x .block
  have quarantinedIp (x : Ipv4Addr) : x.text ∈ h'.sets .quarantinedIps ↔ _ := ip x .quarantine
  simp only [Host.nftDrops,nacForward,List.mem_cons,List.not_mem_nil,or_false,exists_eq_or_imp,
    exists_eq_left,Packet.SentBy,some_action,blockedMac,quarantinedMac,blockedIp,quarantinedIp,
    and_or_left,exists_or,or_assoc]

end Nft

/-- The last calls for the sender of a packet are such that both backends have one verdict on it.
The address counts only on nft, and only there a quarantine has no exceptions. -/
def SameVerdict (calls : List FirewallCall) (p : Packet) : Prop :=
  match p.srcIp with
  | none => lastAction p.srcMac calls=none
  | some x => lastAction p.srcMac calls=some .block ∨
    lastAction p.srcMac calls=some .quarantine ∧ ¬p.Excepted ∨
    lastAction p.srcMac calls=none ∧ lastIpAction x calls=none

/-- The two backends agree on a packet exactly when the last calls for its sender let them. -/
theorem backends_agree_iff (rt : Runtime) {env : Env} (hw : env.Works) (hipt : env.IptWorks)
    (calls : List FirewallCall) (hcalls : ∀ c ∈ calls, c.WellFormed) {h : Host}
    (hsets : ∀ set, h.sets set=∅) (hchains : ∀ chain, h.chains chain=[]) (p : Packet) :
    ((runs (callFirewall rt .nft env) h calls).nftDrops p ↔
      (runs (callFirewall rt .iptablesLegacy env) h calls).legacyDrops p) ↔
        SameVerdict calls p := by
  have holds := runs_holds rt hipt calls (fun c hc => (hcalls c hc).mac) hchains
  rw [nftDrops_iff rt hw calls hcalls hsets,Host.legacyDrops,holds.drops_forward,SameVerdict]
  cases p.srcIp with
  | none => simp
  | some x =>
    have ip : (∃ y, some x=some y ∧ lastIpAction y calls≠none) ↔ lastIpAction x calls≠none := by
      simp
    rw [ip]
    rcases lastAction p.srcMac calls with _|_|_
    · simp
    · simp
    · simp

/-- A blocked device is blocked on both. -/
theorem backends_agree_iff_blocked :
    let calls := [FirewallCall.mk (some .block) "aa:bb:cc:dd:ee:01" (some "10.0.0.7")]
    let p : Packet := ⟨⟨0xaa,0xbb,0xcc,0xdd,0xee,1⟩,some ⟨10,0,0,7⟩,some (.udp,53)⟩
    (runs (callFirewall .ascii .nft (.calm none none)) (.empty none) calls).nftDrops p ↔
      (runs (callFirewall .ascii .iptablesLegacy (.calm none none)) (.empty none)
        calls).legacyDrops p := by
  intro calls p
  refine (backends_agree_iff .ascii ⟨fun _ _ _ => rfl,fun _ => rfl⟩ (fun _ _ => rfl) calls ?_
    (fun _ => rfl) (fun _ => rfl) p).mpr (.inl (by decide))
  intro c hc
  rw [List.mem_singleton.mp hc]
  exact ⟨by decide,some ⟨10,0,0,7⟩,by decide⟩

/-- A quarantined device asks for a name: nft drops the question, iptables-legacy lets it pass. -/
theorem quarantined_dns_differs :
    let calls := [FirewallCall.mk (some .quarantine) "aa:bb:cc:dd:ee:01" none]
    let p : Packet := ⟨⟨0xaa,0xbb,0xcc,0xdd,0xee,1⟩,some ⟨10,0,0,7⟩,some (.udp,53)⟩
    ¬((runs (callFirewall .ascii .nft (.calm none none)) (.empty none) calls).nftDrops p ↔
      (runs (callFirewall .ascii .iptablesLegacy (.calm none none)) (.empty none)
        calls).legacyDrops p) := by
  intro calls p hsame
  have held : (runs (callFirewall .ascii .nft (.calm none none)) (.empty none) calls).nftDrops p :=
    ⟨.quarantinedMacs,by decide,show _ ∈ _ by decide⟩
  have holds : (runs (callFirewall .ascii .iptablesLegacy (.calm none none)) (.empty none)
      calls).Holds fun m => lastAction m calls :=
    runs_holds .ascii (fun _ _ => rfl) calls (by decide) fun _ => rfl
  rcases (holds.drops_forward p).mp (hsame.mp held).2 with hblock | ⟨-,hexcepted⟩
  · exact absurd hblock (by decide)
  · exact hexcepted (.inl rfl)

end NacPlatform.Enforcement
