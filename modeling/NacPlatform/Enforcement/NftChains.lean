import NacPlatform.Enforcement.Backends

namespace NacPlatform.Enforcement

/-! The chains that `setup_nft` writes. -/

/-- Whom a rule looks for: the members of a NAC set, or the management addresses. -/
inductive NftSource where
  | nac (set : NftSet)
  | managementIps
  deriving DecidableEq, Repr

inductive NftVerdict where
  | accept
  | drop
  deriving DecidableEq, Repr

/-- `[ct state established,related] [ether|ip saddr @..] [udp|tcp dport ..] accept|drop`. -/
structure NftRule where
  established : Bool
  source : Option NftSource
  dport : Option (IptProto × Nat)
  verdict : NftVerdict
  deriving DecidableEq, Repr

def captiveDnsPort : Nat := 5353

/-- The rules about the sources of a set, and the members of the set of management addresses. -/
structure NftChains where
  forward : List NftRule
  input : List NftRule
  managementIps : Finset String

/-- SSH and the pages for administrators, from the management addresses only where there are any. -/
def mgmtPortRules (managementIps : List String) : List NftRule :=
  [22,3000,8000,8001].map fun port =>
    ⟨false,if managementIps.isEmpty then none else some .managementIps,some (.tcp,port),.accept⟩

/-- The management set keeps the members that it had. -/
def setupNft (managementIps : List String) (members : Finset String) : NftChains where
  forward := nacForward.map fun set => ⟨false,some (.nac set),none,.drop⟩
  input := ⟨true,none,none,.accept⟩::(mgmtPortRules managementIps++
    [⟨false,none,some (.udp,captiveDnsPort),.accept⟩,
      ⟨false,none,some (.tcp,captiveDnsPort),.accept⟩,
      ⟨false,some (.nac .blockedMacs),some (.tcp,captivePort),.accept⟩,
      ⟨false,some (.nac .quarantinedMacs),some (.tcp,captivePort),.accept⟩,
      ⟨false,some (.nac .blockedIps),some (.tcp,captivePort),.accept⟩,
      ⟨false,some (.nac .quarantinedIps),some (.tcp,captivePort),.accept⟩,
      ⟨false,some (.nac .blockedMacs),none,.drop⟩,
      ⟨false,some (.nac .blockedIps),none,.drop⟩])
  managementIps := members ∪ managementIps.toFinset

/-- A packet with what connection tracking says about it. -/
structure Arrival where
  packet : Packet
  established : Bool
  deriving DecidableEq, Repr

def Packet.From (p : Packet) (h : Host) (managementIps : Finset String) : NftSource → Prop
  | .nac set => p.SentBy h set
  | .managementIps => ∃ x, p.srcIp=some x ∧ x.text ∈ managementIps

structure NftRule.Matches (rule : NftRule) (h : Host) (managementIps : Finset String)
    (a : Arrival) : Prop where
  established : rule.established=true → a.established=true
  source : ∀ s, rule.source=some s → a.packet.From h managementIps s
  dport : ∀ d, rule.dport=some d → a.packet.dport=some d

section Decide

variable (p : Packet) (h : Host) (managementIps : Finset String)

instance (elems : Finset String) : Decidable (∃ x, p.srcIp=some x ∧ x.text ∈ elems) :=
  decidable_of_iff (∃ x ∈ p.srcIp, x.text ∈ elems) (by simp [Option.mem_def])

instance : (set : NftSet) → Decidable (p.SentBy h set)
  | .blockedMacs => inferInstanceAs (Decidable (p.srcMac.text ∈ h.sets .blockedMacs))
  | .quarantinedMacs => inferInstanceAs (Decidable (p.srcMac.text ∈ h.sets .quarantinedMacs))
  | .blockedIps => inferInstanceAs (Decidable (∃ x, p.srcIp=some x ∧ x.text ∈ h.sets .blockedIps))
  | .quarantinedIps =>
    inferInstanceAs (Decidable (∃ x, p.srcIp=some x ∧ x.text ∈ h.sets .quarantinedIps))

instance : (s : NftSource) → Decidable (p.From h managementIps s)
  | .nac set => inferInstanceAs (Decidable (p.SentBy h set))
  | .managementIps =>
    inferInstanceAs (Decidable (∃ x, p.srcIp=some x ∧ x.text ∈ managementIps))

instance (rule : NftRule) (a : Arrival) : Decidable (rule.Matches h managementIps a) :=
  decidable_of_iff ((rule.established=true → a.established=true) ∧
    (∀ s ∈ rule.source, a.packet.From h managementIps s) ∧
    ∀ d ∈ rule.dport, a.packet.dport=some d)
    ⟨fun given => ⟨given.1,given.2.1,given.2.2⟩,fun given => ⟨given.1,given.2,given.3⟩⟩

end Decide

/-- The first rule that matches decides. The policy of both chains is to accept. -/
def nftVerdict (rules : List NftRule) (h : Host) (managementIps : Finset String) (a : Arrival) :
    NftVerdict :=
  ((rules.find? fun rule => rule.Matches h managementIps a).map (·.verdict)).getD .accept

section Verdict

variable {h : Host} {managementIps : Finset String} {a : Arrival}

theorem nftVerdict_cons_of_matches {rule : NftRule} (hm : rule.Matches h managementIps a)
    (rules : List NftRule) : nftVerdict (rule::rules) h managementIps a=rule.verdict := by
  simp [nftVerdict,hm]

theorem nftVerdict_cons_of_not {rule : NftRule} (hm : ¬rule.Matches h managementIps a)
    (rules : List NftRule) :
    nftVerdict (rule::rules) h managementIps a=nftVerdict rules h managementIps a := by
  simp [nftVerdict,hm]

/-- A list of rules to drop drops what one of them matches. -/
theorem nftVerdict_drops {rules : List NftRule} (hdrop : ∀ rule ∈ rules, rule.verdict=.drop) :
    nftVerdict rules h managementIps a=.drop ↔ ∃ rule ∈ rules, rule.Matches h managementIps a := by
  induction rules with
  | nil => simp [nftVerdict]
  | cons rule rules ih =>
    have rest := ih fun r hr => hdrop r (List.mem_cons_of_mem rule hr)
    by_cases hm : rule.Matches h managementIps a
    · rw [nftVerdict_cons_of_matches hm]
      exact ⟨fun _ => ⟨rule,List.mem_cons_self,hm⟩,fun _ => hdrop rule List.mem_cons_self⟩
    · rw [nftVerdict_cons_of_not hm,rest]
      simp [hm]

/-- Rules to accept before others: what one of them matches is accepted, and the others decide about
the rest. -/
theorem nftVerdict_accepts {rules : List NftRule} (haccept : ∀ rule ∈ rules, rule.verdict=.accept)
    (rest : List NftRule) : nftVerdict (rules++rest) h managementIps a=
      if ∃ rule ∈ rules, rule.Matches h managementIps a then .accept
      else nftVerdict rest h managementIps a := by
  induction rules with
  | nil => simp
  | cons rule rules ih =>
    have others := ih fun r hr => haccept r (List.mem_cons_of_mem rule hr)
    rw [List.cons_append]
    by_cases hm : rule.Matches h managementIps a
    · rw [nftVerdict_cons_of_matches hm,if_pos ⟨rule,List.mem_cons_self,hm⟩]
      exact haccept rule List.mem_cons_self
    · rw [nftVerdict_cons_of_not hm,others]
      simp [hm]

theorem matches_source {set : NftSet} {verdict : NftVerdict} :
    NftRule.Matches ⟨false,some (.nac set),none,verdict⟩ h managementIps a ↔
      a.packet.SentBy h set := by
  constructor
  · intro given
    exact given.source _ rfl
  · intro given
    constructor
    · simp
    · intro s hs
      rw [← Option.some.inj hs]
      exact given
    · simp

/-- The forward chain drops what members of the NAC sets send, in every state of the connection. -/
theorem nftVerdict_forward (ips : List String) (members : Finset String) :
    nftVerdict (setupNft ips members).forward h managementIps a=.drop ↔
      h.nftDrops a.packet := by
  have hdrop : ∀ rule ∈ (setupNft ips members).forward, rule.verdict=.drop := by
    intro rule hrule
    obtain ⟨set,_,rfl⟩ := List.mem_map.mp hrule
    rfl
  rw [nftVerdict_drops hdrop,Host.nftDrops]
  simp only [setupNft,List.mem_map]
  constructor
  · intro given
    obtain ⟨rule,⟨set,hset,rfl⟩,hm⟩ := given
    exact ⟨set,hset,matches_source.mp hm⟩
  · intro given
    obtain ⟨set,hset,hsent⟩ := given
    exact ⟨_,⟨set,hset,rfl⟩,matches_source.mpr hsent⟩

end Verdict

/-- The packet goes to the port of the captive DNS or of the captive portal. -/
def Packet.ToCaptive (p : Packet) : Prop :=
  ∃ proto port, p.dport=some (proto,port) ∧ (port=captiveDnsPort ∨ port=captivePort)

/-- One of the management rules is about the packet. -/
def Arrival.IsManagement (a : Arrival) (managementIps : List String) (h : Host)
    (members : Finset String) : Prop :=
  ∃ rule ∈ mgmtPortRules managementIps, rule.Matches h members a

/-- What the chains owe the sources in the NAC sets: on the gateway they reach the captive services,
and administrators it, and nothing of theirs is forwarded. -/
def Contained (ips : List String) (members : Finset String) (h : Host) (a : Arrival) : Prop :=
  let chains := setupNft ips members
  (nftVerdict chains.input h chains.managementIps a=.accept →
    a.IsManagement ips h chains.managementIps ∨ a.packet.ToCaptive) ∧
  nftVerdict chains.forward h chains.managementIps a=.drop

/-- The rules of the input chain before its two drops. -/
def inputAccepts (ips : List String) : List NftRule :=
  mgmtPortRules ips++
    [⟨false,none,some (.udp,captiveDnsPort),.accept⟩,
      ⟨false,none,some (.tcp,captiveDnsPort),.accept⟩,
      ⟨false,some (.nac .blockedMacs),some (.tcp,captivePort),.accept⟩,
      ⟨false,some (.nac .quarantinedMacs),some (.tcp,captivePort),.accept⟩,
      ⟨false,some (.nac .blockedIps),some (.tcp,captivePort),.accept⟩,
      ⟨false,some (.nac .quarantinedIps),some (.tcp,captivePort),.accept⟩]

def inputDrops : List NftRule :=
  [⟨false,some (.nac .blockedMacs),none,.drop⟩,⟨false,some (.nac .blockedIps),none,.drop⟩]

theorem inputAccepts_verdict {ips : List String} {rule : NftRule} (h : rule ∈ inputAccepts ips) :
    rule.verdict=.accept := by
  rcases List.mem_append.mp h with hmgmt|hcaptive
  · obtain ⟨port,_,rfl⟩ := List.mem_map.mp hmgmt
    rfl
  · simp only [List.mem_cons,List.not_mem_nil,or_false] at hcaptive
    rcases hcaptive with rfl|rfl|rfl|rfl|rfl|rfl <;> rfl

/-- A packet that one of these rules matches is a management packet or goes to a captive service. -/
theorem inputAccepts_matches {ips : List String} {h : Host} {members : Finset String} {a : Arrival}
    (hm : ∃ rule ∈ inputAccepts ips, rule.Matches h members a) :
    a.IsManagement ips h members ∨ a.packet.ToCaptive := by
  obtain ⟨rule,hrule,hm⟩ := hm
  rcases List.mem_append.mp hrule with hmgmt|hcaptive
  · exact .inl ⟨rule,hmgmt,hm⟩
  · right
    simp only [List.mem_cons,List.not_mem_nil,or_false] at hcaptive
    rcases hcaptive with rfl|rfl|rfl|rfl|rfl|rfl
    · exact ⟨_,_,hm.dport _ rfl,.inl rfl⟩
    · exact ⟨_,_,hm.dport _ rfl,.inl rfl⟩
    all_goals exact ⟨_,_,hm.dport _ rfl,.inr rfl⟩

/-- A packet of a new connection is decided by the rules to accept, then by the two drops. -/
theorem nftVerdict_input (ips : List String) (members : Finset String) (h : Host)
    {a : Arrival} (hnew : a.established=false) :
    nftVerdict (setupNft ips members).input h (setupNft ips members).managementIps a=
      if ∃ rule ∈ inputAccepts ips, rule.Matches h (setupNft ips members).managementIps a then
        .accept
      else if a.packet.SentBy h .blockedMacs ∨ a.packet.SentBy h .blockedIps then .drop
      else .accept := by
  have hinput : (setupNft ips members).input=
      ⟨true,none,none,.accept⟩::(inputAccepts ips++inputDrops) := by
    simp [setupNft,inputAccepts,inputDrops]
  have hfirst : ¬NftRule.Matches ⟨true,none,none,.accept⟩ h (setupNft ips members).managementIps
      a := by
    intro given
    have hold := given.established rfl
    rw [hnew] at hold
    cases hold
  have hdrops : nftVerdict inputDrops h (setupNft ips members).managementIps a=.drop ↔
      a.packet.SentBy h .blockedMacs ∨ a.packet.SentBy h .blockedIps := by
    rw [nftVerdict_drops (by decide)]
    simp [inputDrops,matches_source]
  rw [hinput,nftVerdict_cons_of_not hfirst,nftVerdict_accepts fun _ => inputAccepts_verdict]
  congr 1
  by_cases hsent : a.packet.SentBy h .blockedMacs ∨ a.packet.SentBy h .blockedIps
  · rw [if_pos hsent,hdrops.mpr hsent]
  · rw [if_neg hsent]
    cases hv : nftVerdict inputDrops h (setupNft ips members).managementIps a with
    | accept => rfl
    | drop => exact absurd (hdrops.mp hv) hsent

/-- The input chain has no drop for the quarantined: they are contained exactly where they are
blocked too, or ask for what they may have. Nothing of theirs is ever forwarded. -/
theorem contained_iff (ips : List String) (members : Finset String) (h : Host) (a : Arrival)
    (hnew : a.established=false) (hsent : ∃ set, a.packet.SentBy h set) :
    Contained ips members h a ↔
      a.packet.SentBy h .blockedMacs ∨ a.packet.SentBy h .blockedIps ∨
      a.IsManagement ips h (setupNft ips members).managementIps ∨ a.packet.ToCaptive := by
  have hforward : nftVerdict (setupNft ips members).forward h
      (setupNft ips members).managementIps a=.drop := by
    obtain ⟨set,hset⟩ := hsent
    refine (nftVerdict_forward ips members).mpr ⟨set,?_,hset⟩
    cases set <;> decide
  simp only [Contained,hforward,and_true]
  rw [nftVerdict_input ips members h hnew]
  constructor
  · intro hcontained
    by_cases hblocked : a.packet.SentBy h .blockedMacs ∨ a.packet.SentBy h .blockedIps
    · exact hblocked.imp_right Or.inl
    · rw [if_neg hblocked,ite_self] at hcontained
      exact .inr (.inr (hcontained rfl))
  · intro hcase haccept
    by_cases hrules : ∃ rule ∈ inputAccepts ips,
        rule.Matches h (setupNft ips members).managementIps a
    · exact inputAccepts_matches hrules
    · rw [if_neg hrules] at haccept
      rcases hcase with hmac|hip|hasked
      · rw [if_pos (.inl hmac)] at haccept
        cases haccept
      · rw [if_pos (.inr hip)] at haccept
        cases haccept
      · exact hasked

/-- A quarantined device on the network, and no management address. -/
def quarantinedHost : Host :=
  (Host.empty none).setNft .quarantinedMacs {"aa:bb:cc:dd:ee:01"}

/-- The first packet of a connection of that device to a port of the gateway. -/
def firstPacket (port : Nat) : Arrival :=
  ⟨⟨⟨0xaa,0xbb,0xcc,0xdd,0xee,1⟩,some ⟨10,0,0,7⟩,some (.tcp,port)⟩,false⟩

theorem contained_iff_portal : Contained [] ∅ quarantinedHost (firstPacket 8080) := by
  refine (contained_iff [] ∅ quarantinedHost (firstPacket 8080) rfl
    ⟨.quarantinedMacs,?_⟩).mpr (.inr (.inr (.inr ⟨.tcp,8080,rfl,.inr rfl⟩)))
  decide +kernel

/-- It reaches the database of the gateway. -/
theorem quarantined_reaches_gateway :
    (firstPacket 5432).packet.SentBy quarantinedHost .quarantinedMacs ∧
      ¬Contained [] ∅ quarantinedHost (firstPacket 5432) := by
  constructor
  · decide +kernel
  · intro given
    have accepted : nftVerdict (setupNft [] ∅).input quarantinedHost (setupNft [] ∅).managementIps
        (firstPacket 5432)=.accept := by decide +kernel
    rcases given.1 accepted with hmgmt|hcaptive
    · obtain ⟨rule,hrule,hm⟩ := hmgmt
      obtain ⟨port,hport,rfl⟩ := List.mem_map.mp hrule
      have hsame := hm.dport _ rfl
      cases hsame
      exact absurd hport (by decide)
    · obtain ⟨proto,port,hport,hnumber⟩ := hcaptive
      cases hport
      exact absurd hnumber (by decide)

end NacPlatform.Enforcement
