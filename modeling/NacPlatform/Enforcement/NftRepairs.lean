import NacPlatform.Enforcement.NftChains

namespace NacPlatform.Enforcement

/-! What is left of the nft chains when some of their rules are gone. -/

/-- The rule of `nac_forward` about a set. -/
def forwardRule (set : NftSet) : NftRule := ⟨false,some (.nac set),none,.drop⟩

/-- The rules of `nac_input` that serve a blocked device: those of the management ports come on
top. -/
def servingRules : List NftRule :=
  [⟨true,none,none,.accept⟩,⟨false,none,some (.udp,captiveDnsPort),.accept⟩,
    ⟨false,none,some (.tcp,captiveDnsPort),.accept⟩,
    ⟨false,some (.nac .blockedMacs),some (.tcp,captivePort),.accept⟩]

/-- What a blocked device may send to the gateway all the same. -/
def Arrival.Served (a : Arrival) (ips : List String) (h : Host) (managementIps : Finset String) :
    Prop :=
  ∃ rule ∈ servingRules++mgmtPortRules ips, rule.Matches h managementIps a

section Input

variable {ips : List String} {members managementIps full : Finset String} {h : Host} {a : Arrival}

/-- A rule to accept that matches tells what it is by the packet. -/
inductive Accepting (ips : List String) (h : Host) (a : Arrival) : NftRule → Prop where
  | established : a.established=true → Accepting ips h a ⟨true,none,none,.accept⟩
  | management (port : Nat) : port ∈ [22,3000,8000,8001] → a.packet.dport=some (.tcp,port) →
    Accepting ips h a
      ⟨false,if ips.isEmpty then none else some .managementIps,some (.tcp,port),.accept⟩
  | dns (proto : IptProto) : a.packet.dport=some (proto,captiveDnsPort) →
    Accepting ips h a ⟨false,none,some (proto,captiveDnsPort),.accept⟩
  | portal (set : NftSet) : a.packet.dport=some (.tcp,captivePort) → a.packet.SentBy h set →
    Accepting ips h a ⟨false,some (.nac set),some (.tcp,captivePort),.accept⟩

theorem accepting_of_matches {rule : NftRule} (hrule : rule ∈ (setupNft ips members).input)
    (haccept : rule.verdict=.accept) (hm : rule.Matches h managementIps a) :
    Accepting ips h a rule := by
  simp only [setupNft,mgmtPortRules,List.map_cons,List.map_nil,List.cons_append,List.nil_append,
    List.mem_cons,List.not_mem_nil,or_false] at hrule
  rcases hrule with rfl|rfl|rfl|rfl|rfl|rfl|rfl|rfl|rfl|rfl|rfl|rfl|rfl
  · exact .established (hm.established rfl)
  · exact .management 22 (by decide) (hm.dport _ rfl)
  · exact .management 3000 (by decide) (hm.dport _ rfl)
  · exact .management 8000 (by decide) (hm.dport _ rfl)
  · exact .management 8001 (by decide) (hm.dport _ rfl)
  · exact .dns .udp (hm.dport _ rfl)
  · exact .dns .tcp (hm.dport _ rfl)
  · exact .portal .blockedMacs (hm.dport _ rfl) (hm.source _ rfl)
  · exact .portal .quarantinedMacs (hm.dport _ rfl) (hm.source _ rfl)
  · exact .portal .blockedIps (hm.dport _ rfl) (hm.source _ rfl)
  · exact .portal .quarantinedIps (hm.dport _ rfl) (hm.source _ rfl)
  · cases haccept
  · cases haccept

/-- What is left of the input chain drops what one of its drops matches and nothing before. -/
theorem leftInput_drops {rules : List NftRule}
    (hleft : rules.Sublist (setupNft ips members).input) :
    nftVerdict rules h managementIps a=.drop ↔
      (∀ rule ∈ rules, rule.verdict=.accept → ¬rule.Matches h managementIps a) ∧
      ∃ rule ∈ rules, rule.verdict=.drop ∧ rule.Matches h managementIps a := by
  have hinput : (setupNft ips members).input=
      (⟨true,none,none,.accept⟩::inputAccepts ips)++inputDrops := by
    simp [setupNft,inputAccepts,inputDrops]
  rw [hinput,List.sublist_append_iff] at hleft
  obtain ⟨accepts,drops,rfl,haccepts,hdrops⟩ := hleft
  have haccept : ∀ rule ∈ accepts, rule.verdict=.accept := by
    intro rule hrule
    rcases List.mem_cons.mp (haccepts.subset hrule) with rfl|hin
    · rfl
    · exact inputAccepts_verdict hin
  have hdrop : ∀ rule ∈ drops, rule.verdict=.drop := by
    intro rule hrule
    have hin := hdrops.subset hrule
    simp only [inputDrops,List.mem_cons,List.not_mem_nil,or_false] at hin
    rcases hin with rfl|rfl <;> rfl
  rw [nftVerdict_accepts haccept]
  by_cases hany : ∃ rule ∈ accepts, rule.Matches h managementIps a
  · rw [if_pos hany]
    obtain ⟨rule,hrule,hm⟩ := hany
    constructor
    · intro e
      cases e
    · intro given
      exact absurd hm (given.1 rule (List.mem_append_left _ hrule) (haccept rule hrule))
  · rw [if_neg hany,nftVerdict_drops hdrop]
    constructor
    · intro given
      obtain ⟨rule,hrule,hm⟩ := given
      refine ⟨?_,rule,List.mem_append_right _ hrule,hdrop rule hrule,hm⟩
      intro other hin hv hmatch
      rcases List.mem_append.mp hin with hin|hin
      · exact hany ⟨other,hin,hmatch⟩
      · rw [hdrop other hin] at hv
        cases hv
    · intro given
      obtain ⟨-,rule,hin,hv,hm⟩ := given
      rcases List.mem_append.mp hin with hin|hin
      · rw [haccept rule hin] at hv
        cases hv
      · exact ⟨rule,hin,hm⟩

section Blocked

variable {m : MacAddr} (hblocked : m.text ∈ h.sets .blockedMacs)
  (hother : m.text ∉ h.sets .quarantinedMacs)

theorem portal_matches (hsent : a.packet.SentBy h .blockedMacs)
    (hport : a.packet.dport=some (.tcp,captivePort)) :
    NftRule.Matches ⟨false,some (.nac .blockedMacs),some (.tcp,captivePort),.accept⟩ h
      managementIps a := by
  refine ⟨by simp,?_,?_⟩
  · intro s hs
    rw [← Option.some.inj hs]
    exact hsent
  · intro d hd
    rw [← Option.some.inj hd]
    exact hport

/-- What the chain accepts from a blocked device is what serves it. -/
theorem accepting_serves (hsent : a.packet.SentBy h .blockedMacs) {rule : NftRule}
    (hm : rule.Matches h managementIps a) (haccepting : Accepting ips h a rule) :
    ∃ rule ∈ servingRules++mgmtPortRules ips, rule.Matches h managementIps a := by
  cases haccepting with
  | established _ => exact ⟨_,by simp [servingRules],hm⟩
  | management port hport _ =>
    exact ⟨_,List.mem_append_right _ (List.mem_map.mpr ⟨port,hport,rfl⟩),hm⟩
  | dns proto _ =>
    cases proto
    · exact ⟨_,by simp [servingRules],hm⟩
    · exact ⟨_,by simp [servingRules],hm⟩
  | portal set hport _ =>
    exact ⟨⟨false,some (.nac .blockedMacs),some (.tcp,captivePort),.accept⟩,
      by simp [servingRules],portal_matches hsent hport⟩

theorem servingRules_accept {rule : NftRule} (hrule : rule ∈ servingRules++mgmtPortRules ips) :
    rule.verdict=.accept := by
  rcases List.mem_append.mp hrule with hin|hin
  · simp only [servingRules,List.mem_cons,List.not_mem_nil,or_false] at hin
    rcases hin with rfl|rfl|rfl|rfl <;> rfl
  · obtain ⟨port,_,rfl⟩ := List.mem_map.mp hin
    rfl

theorem servingRules_mem (members : Finset String) {rule : NftRule}
    (hrule : rule ∈ servingRules++mgmtPortRules ips) : rule ∈ (setupNft ips members).input := by
  rcases List.mem_append.mp hrule with hin|hin
  · simp only [servingRules,List.mem_cons,List.not_mem_nil,or_false] at hin
    rcases hin with rfl|rfl|rfl|rfl <;> simp [setupNft]
  · simp [setupNft,hin]

/-- Neither IPv4 nor to a port, and the first of its connection. -/
theorem plain_unserved (m : MacAddr) : ¬∃ rule ∈ servingRules++mgmtPortRules ips,
    rule.Matches h managementIps ⟨⟨m,none,none⟩,false⟩ := by
  intro given
  obtain ⟨rule,hrule,hm⟩ := given
  cases accepting_of_matches (servingRules_mem ∅ hrule)
    (servingRules_accept hrule) hm <;> contradiction

theorem inputDrop_of_mem {rule : NftRule} (hrule : rule ∈ (setupNft ips members).input)
    (hdrop : rule.verdict=.drop) :
    rule=forwardRule .blockedMacs ∨ rule=forwardRule .blockedIps := by
  simp only [setupNft,mgmtPortRules,List.map_cons,List.map_nil,List.cons_append,List.nil_append,
    List.mem_cons,List.not_mem_nil,or_false] at hrule
  rcases hrule with rfl|rfl|rfl|rfl|rfl|rfl|rfl|rfl|rfl|rfl|rfl|rfl|rfl
  case inr.inr.inr.inr.inr.inr.inr.inr.inr.inr.inr.inl => exact .inl rfl
  case inr.inr.inr.inr.inr.inr.inr.inr.inr.inr.inr.inr => exact .inr rfl
  all_goals cases hdrop

theorem matches_mono (hsub : managementIps ⊆ full) {rule : NftRule}
    (hm : rule.Matches h managementIps a) : rule.Matches h full a := by
  refine ⟨hm.established,?_,hm.dport⟩
  intro s hs
  have hfrom := hm.source s hs
  cases s with
  | nac set => exact hfrom
  | managementIps =>
    obtain ⟨x,hx,hmem⟩ := hfrom
    exact ⟨x,hx,hsub hmem⟩

theorem serving_matches {rule : NftRule} (hrule : rule ∈ servingRules)
    (hm : rule.Matches h full a) : rule.Matches h managementIps a := by
  refine ⟨hm.established,?_,hm.dport⟩
  intro s hs
  have hfrom := hm.source s hs
  cases s with
  | nac set => exact hfrom
  | managementIps =>
    simp only [servingRules,List.mem_cons,List.not_mem_nil,or_false] at hrule
    rcases hrule with rfl|rfl|rfl|rfl <;> cases hs

/-- The input chain drops what a blocked device sends, unless it is to be served. -/
def TreatsBlocked (rules : List NftRule) (ips : List String) (h : Host)
    (managementIps full : Finset String) (m : MacAddr) : Prop :=
  ∀ a : Arrival, a.packet.srcMac=m →
    (nftVerdict rules h managementIps a=.drop ↔ ¬a.Served ips h full)

include hblocked in
theorem sent_by_blocked {a : Arrival} (ha : a.packet.srcMac=m) :
    a.packet.SentBy h .blockedMacs := by
  rw [Packet.SentBy,ha]
  exact hblocked

section Needed

variable {rules : List NftRule} (hleft : rules.Sublist (setupNft ips members).input)
  (hall : TreatsBlocked rules ips h managementIps full m)
include hleft hall

theorem blockedDrop_left : forwardRule .blockedMacs ∈ rules := by
  have hdropped := (hall ⟨⟨m,none,none⟩,false⟩ rfl).mpr (plain_unserved m)
  obtain ⟨-,rule,hin,hv,hm⟩ := (leftInput_drops hleft).mp hdropped
  rcases inputDrop_of_mem (hleft.subset hin) hv with rfl|rfl
  · exact hin
  · obtain ⟨x,hx,-⟩ := matches_source.mp hm
    cases hx

include hblocked

/-- A rule that alone serves some packet is left, and what it looks for. -/
theorem alone_left {rule : NftRule} (hrule : rule ∈ servingRules++mgmtPortRules ips) (a : Arrival)
    (ha : a.packet.srcMac=m) (hm : rule.Matches h full a)
    (hone : ∀ other, Accepting ips h a other → other=rule) :
    rule ∈ rules ∧ rule.Matches h managementIps a := by
  have hnot : nftVerdict rules h managementIps a≠.drop :=
    fun e => (hall a ha).mp e ⟨rule,hrule,hm⟩
  rw [Ne,leftInput_drops hleft] at hnot
  by_contra hgone
  refine hnot ⟨?_,forwardRule .blockedMacs,blockedDrop_left hleft hall,rfl,
    matches_source.mpr (sent_by_blocked hblocked ha)⟩
  intro other hin hv hmatch
  have same := hone other (accepting_of_matches (hleft.subset hin) hv hmatch)
  subst same
  exact hgone ⟨hin,hmatch⟩

include hother in
theorem serving_left : ∀ rule ∈ servingRules, rule ∈ rules := by
  intro rule hrule
  have hin : rule ∈ servingRules++mgmtPortRules ips := List.mem_append_left _ hrule
  have alone := alone_left hblocked hleft hall hin
  simp only [servingRules,List.mem_cons,List.not_mem_nil,or_false] at hrule
  rcases hrule with rfl|rfl|rfl|rfl
  · refine (alone ⟨⟨m,none,none⟩,true⟩ rfl ⟨by simp,by simp,by simp⟩ ?_).1
    intro other haccepting
    cases haccepting <;> first | rfl | contradiction
  · refine (alone ⟨⟨m,none,some (.udp,captiveDnsPort)⟩,false⟩ rfl
      ⟨by simp,by simp,by simp⟩ fun other haccepting => ?_).1
    cases haccepting with
    | established e => cases e
    | management port _ e => cases e
    | dns proto e => cases e; rfl
    | portal set e _ => cases e
  · refine (alone ⟨⟨m,none,some (.tcp,captiveDnsPort)⟩,false⟩ rfl
      ⟨by simp,by simp,by simp⟩ fun other haccepting => ?_).1
    cases haccepting with
    | established e => cases e
    | management port hport e => cases e; exact absurd hport (by decide)
    | dns proto e => cases e; rfl
    | portal set e _ => simp [captiveDnsPort,captivePort] at e
  · refine (alone ⟨⟨m,none,some (.tcp,captivePort)⟩,false⟩ rfl
      (portal_matches (sent_by_blocked hblocked rfl) rfl) fun other haccepting => ?_).1
    cases haccepting with
    | established e => cases e
    | management port hport e => cases e; exact absurd hport (by decide)
    | dns proto e => simp [captiveDnsPort,captivePort] at e
    | portal set _ hset =>
      cases set with
      | blockedMacs => rfl
      | quarantinedMacs => exact absurd hset hother
      | blockedIps => obtain ⟨x,hx,-⟩ := hset; cases hx
      | quarantinedIps => obtain ⟨x,hx,-⟩ := hset; cases hx

theorem mgmt_left (port : Nat) (hport : port ∈ [22,3000,8000,8001]) (srcIp : Option Ipv4Addr)
    (hsource : ips≠[] → ∃ x, srcIp=some x ∧ x.text ∈ full) :
    let rule : NftRule :=
      ⟨false,if ips.isEmpty then none else some .managementIps,some (.tcp,port),.accept⟩
    rule ∈ rules ∧ rule.Matches h managementIps ⟨⟨m,srcIp,some (.tcp,port)⟩,false⟩ := by
  intro rule
  have hin : rule ∈ servingRules++mgmtPortRules ips :=
    List.mem_append_right _ (List.mem_map.mpr ⟨port,hport,rfl⟩)
  refine alone_left hblocked hleft hall hin _ rfl ⟨by simp [rule],?_,by simp [rule]⟩ ?_
  · intro s hs
    simp only [rule] at hs
    split at hs
    · cases hs
    · next hne =>
      rw [← Option.some.inj hs]
      exact hsource (by simpa using hne)
  · intro other haccepting
    cases haccepting with
    | established e => cases e
    | management port' _ e => cases e; rfl
    | dns proto e => cases e; exact absurd hport (by decide)
    | portal set e _ => cases e; exact absurd hport (by decide)

end Needed

include hblocked hother in
/-- What is left of the input chain treats a blocked device as prescribed exactly where the drop of
its set is left, and all that can serve it. -/
theorem treatsBlocked_iff (hsub : managementIps ⊆ full) {rules : List NftRule}
    (hleft : rules.Sublist (setupNft ips members).input) :
    TreatsBlocked rules ips h managementIps full m ↔
    (∀ rule ∈ forwardRule .blockedMacs::servingRules, rule ∈ rules) ∧
    if ips=[] then ∀ rule ∈ mgmtPortRules ips, rule ∈ rules
    else ∀ x : Ipv4Addr, x.text ∈ full →
      x.text ∈ managementIps ∧ ∀ rule ∈ mgmtPortRules ips, rule ∈ rules := by
  constructor
  · intro hall
    have mgmt := mgmt_left hblocked hleft hall
    refine ⟨List.forall_mem_cons.mpr ⟨blockedDrop_left hleft hall,
      serving_left hblocked hother hleft hall⟩,?_⟩
    split
    · next hips =>
      intro rule hrule
      obtain ⟨port,hport,rfl⟩ := List.mem_map.mp hrule
      exact (mgmt port hport none fun hne => absurd hips hne).1
    · next hips =>
      intro x hx
      constructor
      · obtain ⟨-,hm⟩ := mgmt 22 (by decide) (some x) fun _ => ⟨x,rfl,hx⟩
        obtain ⟨y,hy,hmem⟩ := hm.source .managementIps (by simp [hips])
        cases hy
        exact hmem
      · intro rule hrule
        obtain ⟨port,hport,rfl⟩ := List.mem_map.mp hrule
        exact (mgmt port hport (some x) fun _ => ⟨x,rfl,hx⟩).1
  · intro given a ha
    obtain ⟨hserving,hmgmt⟩ := given
    have hsent := sent_by_blocked hblocked ha
    rw [leftInput_drops hleft]
    constructor
    · intro hdropped hserved
      obtain ⟨rule,hrule,hm⟩ := hserved
      have haccept := servingRules_accept hrule
      rcases List.mem_append.mp hrule with hin|hin
      · exact hdropped.1 rule (hserving rule (List.mem_cons_of_mem _ hin)) haccept
          (serving_matches hin hm)
      · by_cases hips : ips=[]
        · rw [if_pos hips] at hmgmt
          refine hdropped.1 rule (hmgmt rule hin) haccept ⟨hm.established,?_,hm.dport⟩
          obtain ⟨port,_,rfl⟩ := List.mem_map.mp hin
          simp [hips]
        · rw [if_neg hips] at hmgmt
          have hsource : rule.source=some .managementIps := by
            obtain ⟨port,_,rfl⟩ := List.mem_map.mp hin
            simp [hips]
          obtain ⟨x,hx,hmem⟩ := hm.source _ hsource
          obtain ⟨hkept,hrules⟩ := hmgmt x hmem
          refine hdropped.1 rule (hrules rule hin) haccept ⟨hm.established,?_,hm.dport⟩
          intro s hs
          cases hsource.symm.trans hs
          exact ⟨x,hx,hkept⟩
    · intro hunserved
      refine ⟨?_,forwardRule .blockedMacs,hserving _ List.mem_cons_self,rfl,
        matches_source.mpr hsent⟩
      intro rule hin hv hm
      exact hunserved (accepting_serves hsent (matches_mono hsub hm)
        (accepting_of_matches (hleft.subset hin) hv hm))

end Blocked

end Input

end NacPlatform.Enforcement
