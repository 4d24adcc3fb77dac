import NacPlatform.Enforcement.NftChains
import NacPlatform.Framework.FirstRule

namespace NacPlatform.Enforcement

/-! The chain `nac_prerouting` of `setup_nft`, and the way of the first packet of a connection
through all the chains. -/

inductive NatAction where
  | redirect (port : Nat)
  | reset
  deriving DecidableEq, Repr

/-- `ether|ip saddr @.. udp|tcp dport .. redirect to :..|reject with tcp reset`. -/
structure NatRule where
  source : NftSet
  dport : IptProto × Nat
  action : NatAction
  deriving DecidableEq, Repr

def nacPrerouting : List NatRule :=
  [⟨.blockedMacs,(.udp,53),.redirect captiveDnsPort⟩,
    ⟨.blockedMacs,(.tcp,53),.redirect captiveDnsPort⟩,
    ⟨.quarantinedMacs,(.udp,53),.redirect captiveDnsPort⟩,
    ⟨.quarantinedMacs,(.tcp,53),.redirect captiveDnsPort⟩,
    ⟨.blockedIps,(.udp,53),.redirect captiveDnsPort⟩,
    ⟨.blockedIps,(.tcp,53),.redirect captiveDnsPort⟩,
    ⟨.quarantinedIps,(.udp,53),.redirect captiveDnsPort⟩,
    ⟨.quarantinedIps,(.tcp,53),.redirect captiveDnsPort⟩,
    ⟨.blockedMacs,(.tcp,80),.redirect captivePort⟩,
    ⟨.quarantinedMacs,(.tcp,80),.redirect captivePort⟩,
    ⟨.blockedIps,(.tcp,80),.redirect captivePort⟩,
    ⟨.quarantinedIps,(.tcp,80),.redirect captivePort⟩,
    ⟨.blockedMacs,(.tcp,443),.reset⟩,
    ⟨.quarantinedMacs,(.tcp,443),.reset⟩,
    ⟨.blockedIps,(.tcp,443),.reset⟩,
    ⟨.quarantinedIps,(.tcp,443),.reset⟩]

structure NatRule.Matches (rule : NatRule) (h : Host) (p : Packet) : Prop where
  source : p.SentBy h rule.source
  dport : p.dport=some rule.dport

instance (rule : NatRule) (h : Host) (p : Packet) : Decidable (rule.Matches h p) :=
  decidable_of_iff (p.SentBy h rule.source ∧ p.dport=some rule.dport)
    ⟨fun given => ⟨given.1,given.2⟩,fun given => ⟨given.source,given.dport⟩⟩

/-- What prerouting does to a packet that it does not leave as it is. -/
def natAction (h : Host) (p : Packet) : Option NatAction :=
  firstRule (·.action) (fun rule => rule.Matches h p) nacPrerouting

inductive Fate where
  | forwarded
  | delivered (dport : Option (IptProto × Nat))
  | dropped
  | reset
  deriving DecidableEq, Repr

section Path

variable (ips : List String) (members : Finset String) (h : Host)

/-- The input chain, for a packet to the gateway. -/
def deliver (p : Packet) : Fate :=
  match nftVerdict (setupNft ips members).input h (setupNft ips members).managementIps
      ⟨p,false⟩ with
  | .accept => .delivered p.dport
  | .drop => .dropped

/-- The forward chain, for a packet to somebody else. -/
def forward (p : Packet) : Fate :=
  match nftVerdict (setupNft ips members).forward h (setupNft ips members).managementIps
      ⟨p,false⟩ with
  | .accept => .forwarded
  | .drop => .dropped

/-- The first packet of a connection, to the gateway or through it. A packet that is redirected goes
to the gateway. -/
def fate (toGateway : Bool) (p : Packet) : Fate :=
  match natAction h p with
  | some .reset => .reset
  | some (.redirect port) =>
    deliver ips members h { p with dport := p.dport.map fun d => (d.1,port) }
  | none => if toGateway then deliver ips members h p else forward ips members h p

end Path

/-- The services that a device under treatment meets instead of the ones it asks for. -/
def captiveService : IptProto × Nat → Option NatAction
  | (_,53) => some (.redirect captiveDnsPort)
  | (.tcp,80) => some (.redirect captivePort)
  | (.tcp,443) => some .reset
  | _ => none

/-- The ports of the gateway that are open to every device. -/
def openPorts : List (IptProto × Nat) :=
  [(.udp,captiveDnsPort),(.tcp,captiveDnsPort),(.tcp,captivePort)]

/-- One of the rules about management ports is about the packet. -/
def Packet.Manages (p : Packet) (ips : List String) (members : Finset String) : Prop :=
  ∃ port ∈ [22,3000,8000,8001], p.dport=some (.tcp,port) ∧
    (ips=[] ∨ ∃ x, p.srcIp=some x ∧ x.text ∈ members ∪ ips.toFinset)

section Promise

variable (p : Packet) (h : Host) (ips : List String) (members : Finset String)

/-- The gateway treats the sender, by its hardware address or by its address. -/
def Packet.Treated : Prop := ∃ set ∈ nacForward, p.SentBy h set

def Packet.Blocked : Prop := p.SentBy h .blockedMacs ∨ p.SentBy h .blockedIps

instance : Decidable (p.Treated h) :=
  inferInstanceAs (Decidable (∃ set ∈ nacForward, p.SentBy h set))

instance : Decidable (p.Blocked h) :=
  inferInstanceAs (Decidable (p.SentBy h .blockedMacs ∨ p.SentBy h .blockedIps))

instance : Decidable (p.Manages ips members) :=
  inferInstanceAs (Decidable (∃ port ∈ [22,3000,8000,8001], p.dport=some (.tcp,port) ∧
    (ips=[] ∨ ∃ x, p.srcIp=some x ∧ x.text ∈ members ∪ ips.toFinset)))

/-- Who is under treatment meets the captive services in place of names and pages, and nothing beyond
the gateway. Who is blocked reaches nothing else on it. -/
def confined (toGateway : Bool) : Fate :=
  match p.dport.bind captiveService with
  | some .reset => .reset
  | some (.redirect port) => .delivered (p.dport.map fun d => (d.1,port))
  | none =>
    if toGateway=true ∧ (p.Blocked h → p.Manages ips members ∨ ∃ d ∈ openPorts, p.dport=some d)
    then .delivered p.dport
    else .dropped

end Promise

section Chains

variable {p : Packet} {h : Host} {ips : List String} {members : Finset String}

theorem treated_iff : p.Treated h ↔ ∃ set, p.SentBy h set := by
  constructor
  · intro given
    obtain ⟨set,-,hset⟩ := given
    exact ⟨set,hset⟩
  · intro given
    obtain ⟨set,hset⟩ := given
    exact ⟨set,by cases set <;> decide,hset⟩

theorem Packet.Blocked.treated (hb : p.Blocked h) : p.Treated h := by
  rcases hb with hmac|hip
  · exact treated_iff.mpr ⟨_,hmac⟩
  · exact treated_iff.mpr ⟨_,hip⟩

theorem nacPrerouting_sound :
    ∀ rule ∈ nacPrerouting, captiveService rule.dport=some rule.action := by decide

theorem nacPrerouting_complete (set : NftSet) (action : NatAction) (d : IptProto × Nat)
    (hd : captiveService d=some action) : ⟨set,d,action⟩ ∈ nacPrerouting := by
  have hport : d ∈ [(IptProto.udp,53),(.tcp,53),(.tcp,80),(.tcp,443)] := by
    unfold captiveService at hd
    split at hd
    · rename_i proto
      cases proto <;> decide
    · decide
    · decide
    · cases hd
  simp only [List.mem_cons,List.not_mem_nil,or_false] at hport
  rcases hport with rfl|rfl|rfl|rfl <;> cases hd <;> cases set <;> decide

/-- The sixteen rules are the table of the captive services for every set. -/
theorem natAction_eq (h : Host) (p : Packet) :
    natAction h p=if p.Treated h then p.dport.bind captiveService else none := by
  by_cases ht : p.Treated h
  · rw [if_pos ht]
    cases hd : p.dport with
    | none =>
      apply firstRule_eq_none.mpr
      intro rule _ hm
      have hsome := hm.dport
      rw [hd] at hsome
      cases hsome
    | some d =>
      refine firstRule_table NatRule.source NatRule.dport captiveService (p.SentBy h)
        (fun d => p.dport=some d) ?_ nacPrerouting_sound ?_ ?_ (treated_iff.mp ht)
      · intro rule
        exact ⟨fun hm => ⟨hm.source,hm.dport⟩,fun hm => ⟨hm.1,hm.2⟩⟩
      · intro set action d hact
        exact ⟨_,nacPrerouting_complete set action d hact,rfl,rfl,rfl⟩
      · intro d'
        rw [hd,Option.some.injEq,eq_comm]
  · rw [if_neg ht]
    apply firstRule_eq_none.mpr
    intro rule _ hm
    exact ht (treated_iff.mpr ⟨_,hm.source⟩)

theorem isManagement_iff :
    (∃ rule ∈ mgmtPortRules ips, rule.Matches h (setupNft ips members).managementIps ⟨p,false⟩) ↔
      p.Manages ips members := by
  constructor
  · intro given
    obtain ⟨rule,hrule,hm⟩ := given
    obtain ⟨port,hport,rfl⟩ := List.mem_map.mp hrule
    refine ⟨port,hport,hm.dport _ rfl,?_⟩
    by_cases hips : ips=[]
    · exact .inl hips
    · right
      have hempty : ips.isEmpty=false := by simpa using hips
      exact hm.source .managementIps (by simp [hempty])
  · intro given
    obtain ⟨port,hport,hd,hsource⟩ := given
    refine ⟨_,List.mem_map.mpr ⟨port,hport,rfl⟩,?_⟩
    constructor
    · intro he
      cases he
    · intro s hs
      rcases hsource with rfl|hip
      · cases hs
      · by_cases hempty : ips.isEmpty=true
        · rw [if_pos hempty] at hs
          cases hs
        · rw [if_neg hempty] at hs
          cases hs
          exact hip
    · intro d he
      cases he
      exact hd

/-- Two rules of the input chain are about the captive DNS, and four about the portal. -/
def captiveAccepts : List NftRule :=
  [⟨false,none,some (.udp,captiveDnsPort),.accept⟩,
    ⟨false,none,some (.tcp,captiveDnsPort),.accept⟩,
    ⟨false,some (.nac .blockedMacs),some (.tcp,captivePort),.accept⟩,
    ⟨false,some (.nac .quarantinedMacs),some (.tcp,captivePort),.accept⟩,
    ⟨false,some (.nac .blockedIps),some (.tcp,captivePort),.accept⟩,
    ⟨false,some (.nac .quarantinedIps),some (.tcp,captivePort),.accept⟩]

theorem inputAccepts_eq (ips : List String) :
    inputAccepts ips=mgmtPortRules ips++captiveAccepts := rfl

theorem captiveAccepts_iff (elems : Finset String) :
    (∃ rule ∈ captiveAccepts, rule.Matches h elems ⟨p,false⟩) ↔
      p.dport=some (.udp,captiveDnsPort) ∨ p.dport=some (.tcp,captiveDnsPort) ∨
        p.Treated h ∧ p.dport=some (.tcp,captivePort) := by
  have anybody (d : IptProto × Nat) :
      NftRule.Matches ⟨false,none,some d,.accept⟩ h elems ⟨p,false⟩ ↔ p.dport=some d := by
    constructor
    · intro hm
      exact hm.dport d rfl
    · intro hd
      exact ⟨by simp,by simp,by simpa using hd⟩
  have member (set : NftSet) (d : IptProto × Nat) :
      NftRule.Matches ⟨false,some (.nac set),some d,.accept⟩ h elems ⟨p,false⟩ ↔
        p.SentBy h set ∧ p.dport=some d := by
    constructor
    · intro hm
      exact ⟨hm.source _ rfl,hm.dport d rfl⟩
    · intro given
      refine ⟨by simp,?_,by simpa using given.2⟩
      intro s hs
      cases hs
      exact given.1
  simp only [captiveAccepts,List.mem_cons,List.not_mem_nil,or_false,exists_eq_or_imp,
    exists_eq_left,anybody,member,Packet.Treated,nacForward]
  tauto

theorem inputAccepts_iff :
    (∃ rule ∈ inputAccepts ips, rule.Matches h (setupNft ips members).managementIps ⟨p,false⟩) ↔
      p.Manages ips members ∨ p.dport=some (.udp,captiveDnsPort) ∨
        p.dport=some (.tcp,captiveDnsPort) ∨ p.Treated h ∧ p.dport=some (.tcp,captivePort) := by
  rw [← isManagement_iff (h := h),← captiveAccepts_iff (setupNft ips members).managementIps]
  simp only [inputAccepts_eq,List.mem_append,or_and_right,exists_or]

/-- The input chain keeps the blocked to the management ports and the captive services. -/
theorem deliver_eq (ips : List String) (members : Finset String) (h : Host) (p : Packet) :
    deliver ips members h p=
      if p.Blocked h → p.Manages ips members ∨ ∃ d ∈ openPorts, p.dport=some d then
        .delivered p.dport
      else .dropped := by
  rw [deliver,nftVerdict_input ips members h rfl]
  simp only [inputAccepts_iff]
  by_cases hb : p.Blocked h
  · have ht := hb.treated
    have hopen : (∃ d ∈ openPorts, p.dport=some d) ↔ p.dport=some (.udp,captiveDnsPort) ∨
        p.dport=some (.tcp,captiveDnsPort) ∨ p.dport=some (.tcp,captivePort) := by
      simp [openPorts]
    simp only [ht,true_and,hb,true_implies,hopen]
    rw [if_pos (show _ ∨ _ from hb)]
    split_ifs <;> rfl
  · rw [if_neg (show ¬(_ ∨ _) from hb),ite_self]
    simp [hb]

theorem forward_eq (ips : List String) (members : Finset String) (h : Host) (p : Packet) :
    forward ips members h p=if p.Treated h then .dropped else .forwarded := by
  have hdrop := @nftVerdict_forward h (setupNft ips members).managementIps ⟨p,false⟩ ips members
  rw [forward]
  by_cases ht : p.Treated h
  · rw [if_pos ht,hdrop.mpr ht]
  · rw [if_neg ht]
    cases hv : nftVerdict (setupNft ips members).forward h (setupNft ips members).managementIps
        ⟨p,false⟩ with
    | accept => rfl
    | drop => exact absurd (hdrop.mp hv) ht

theorem captiveService_open {d : IptProto × Nat} {port : Nat}
    (hd : captiveService d=some (.redirect port)) : (d.1,port) ∈ openPorts := by
  unfold captiveService at hd
  split at hd
  · rename_i proto
    cases hd
    cases proto <;> decide
  · cases hd
    decide
  · cases hd
  · cases hd

theorem fate_of_treated (ht : p.Treated h) (toGateway : Bool) :
    fate ips members h toGateway p=confined p h ips members toGateway := by
  rw [fate,confined,natAction_eq,if_pos ht]
  cases hservice : p.dport.bind captiveService with
  | none =>
    simp only []
    rw [forward_eq,if_pos ht,deliver_eq]
    cases toGateway with
    | false => rfl
    | true => simp only [true_and,if_true]
  | some action =>
    cases action with
    | reset => rfl
    | redirect port =>
      obtain ⟨d,hd,hport⟩ := Option.bind_eq_some_iff.mp hservice
      simp only []
      rw [deliver_eq,if_pos]
      intro _
      right
      exact ⟨_,captiveService_open hport,by rw [hd]; rfl⟩

theorem fate_of_untreated (ht : ¬p.Treated h) (toGateway : Bool) :
    fate ips members h toGateway p=if toGateway then .delivered p.dport else .forwarded := by
  have hb : ¬p.Blocked h := fun hb => ht hb.treated
  rw [fate,natAction_eq,if_neg ht]
  simp only []
  rw [forward_eq,if_neg ht,deliver_eq]
  simp [hb]

/-- Nothing that a device under treatment sends goes beyond the gateway. -/
theorem confined_ne_forwarded (toGateway : Bool) :
    confined p h ips members toGateway≠.forwarded := by
  unfold confined
  split
  · exact nofun
  · exact nofun
  · split <;> exact nofun

/-- Who is blocked reaches the open ports of the gateway, and those for administrators. -/
theorem confined_reaches (hb : p.Blocked h) {toGateway : Bool} {reached : Option (IptProto × Nat)}
    (hreached : confined p h ips members toGateway=.delivered reached) :
    (∃ d ∈ openPorts, reached=some d) ∨ p.Manages ips members := by
  unfold confined at hreached
  cases hservice : p.dport.bind captiveService with
  | none =>
    rw [hservice] at hreached
    simp only [] at hreached
    split at hreached
    · rename_i hcond
      cases hreached
      exact (hcond.2 hb).symm
    · cases hreached
  | some action =>
    rw [hservice] at hreached
    cases action with
    | reset => cases hreached
    | redirect port =>
      obtain ⟨d,hd,hport⟩ := Option.bind_eq_some_iff.mp hservice
      cases hreached
      exact .inl ⟨_,captiveService_open hport,by rw [hd]; rfl⟩

end Chains

end NacPlatform.Enforcement
