import NacPlatform.Enforcement.LegacyRepairs
import NacPlatform.Enforcement.NftRepairs

namespace NacPlatform.Enforcement

/-! What a reinforcement tick restores of rules and elements that someone else has deleted. -/

/-- All that decides about packets on one backend or the other. -/
structure Firewall where
  host : Host
  chains : NftChains
  hooks : Hooks

/-- The firewall with its chains as they are set up. -/
def Firewall.setUp (h : Host) (ips : List String) (members : Finset String) : Firewall :=
  ⟨h,setupNft ips members,setupIptLegacy ⟨[],[]⟩⟩

/-- Elements of the sets are gone, rules of the NAC chains, and jumps to these. -/
structure Firewall.Leaves (fw left : Firewall) : Prop where
  state : left.host.state=fw.host.state
  elements : ∀ set, left.host.sets set ⊆ fw.host.sets set
  rules : ∀ chain, (left.host.chains chain).Sublist (fw.host.chains chain)
  forward : left.chains.forward.Sublist fw.chains.forward
  input : left.chains.input.Sublist fw.chains.input
  managementIps : left.chains.managementIps ⊆ fw.chains.managementIps
  forwardJumps : left.hooks.forward.Sublist fw.hooks.forward
  inputJumps : left.hooks.input.Sublist fw.hooks.input

def Firewall.tick (rt : Runtime) (ipt : Backend) (env : Env) (fw : Firewall) : Firewall :=
  { fw with host := reinforce rt ipt env fw.host }

/-- Every entry is under a text that names its device. -/
def Host.Keyed (h : Host) : Prop :=
  ∀ key entry, h.state.lookup key=some entry → parseMac key=some entry.victimMac

/-- Every device with an entry is treated as one of its entries says. -/
def Host.Applied (h : Host) (ipt : Backend) : Prop :=
  ∀ key entry, h.state.lookup key=some entry →
    ∃ key' entry', h.state.lookup key'=some entry' ∧ entry'.victimMac=entry.victimMac ∧
      match ipt with
      | .nft => h.inMacs entry.victimMac.text entry'.action
      | .iptablesLegacy => h.rulesFor entry.victimMac=rulesOf entry.victimMac (some entry'.action)
      | .unavailable => True

/-- What an action prescribes for a packet on nft. Nothing is forwarded; the gateway serves the
blocked in a few things only, and has no rule about the hardware addresses in quarantine. -/
def NftPrescribes (fw : Firewall) (ips : List String) (members : Finset String)
    (action : NacAction) (a : Arrival) : Prop :=
  nftVerdict fw.chains.forward fw.host fw.chains.managementIps a=.drop ∧
  match action with
  | .block => nftVerdict fw.chains.input fw.host fw.chains.managementIps a=.drop ↔
    ¬a.Served ips fw.host (setupNft ips members).managementIps
  | .quarantine => ¬a.packet.SentBy fw.host .blockedIps →
    nftVerdict fw.chains.input fw.host fw.chains.managementIps a=.accept

/-- And on iptables-legacy. -/
def LegacyPrescribes (fw : Firewall) (action : NacAction) (p : Packet) : Prop :=
  (fw.host.drops fw.hooks.forward p ↔
    action=.block ∨ action=.quarantine ∧ ¬p.Excepted) ∧
  (fw.host.drops fw.hooks.input p ↔ action=.block)

/-- Every packet of the device of an entry meets the verdict that the action of the entry
prescribes. Iptables-legacy sees IPv4 packets only. -/
def Firewall.Enforces (fw : Firewall) (ipt : Backend) (ips : List String)
    (members : Finset String) (entry : QuarantineEntry) : Prop :=
  match ipt with
  | .nft => ∀ a : Arrival, a.packet.srcMac=entry.victimMac →
    NftPrescribes fw ips members entry.action a
  | .iptablesLegacy => ∀ p : Packet, p.srcMac=entry.victimMac → p.srcIp.isSome=true →
    LegacyPrescribes fw entry.action p
  | .unavailable => True

/-- Nothing that a tick does not bring back is missing of what an action needs. -/
def Firewall.Keeps (fw : Firewall) (ipt : Backend) (ips : List String) (members : Finset String)
    (entry : QuarantineEntry) : Prop :=
  match ipt,entry.action with
  | .nft,.block => forwardRule .blockedMacs ∈ fw.chains.forward ∧
    (∀ rule ∈ forwardRule .blockedMacs::servingRules, rule ∈ fw.chains.input) ∧
    if ips=[] then ∀ rule ∈ mgmtPortRules ips, rule ∈ fw.chains.input
    else ∀ x : Ipv4Addr, x.text ∈ (setupNft ips members).managementIps →
      x.text ∈ fw.chains.managementIps ∧ ∀ rule ∈ mgmtPortRules ips, rule ∈ fw.chains.input
  | .nft,.quarantine => forwardRule .quarantinedMacs ∈ fw.chains.forward
  | .iptablesLegacy,.block => .nacBlock ∈ fw.hooks.forward ∧ .nacBlock ∈ fw.hooks.input
  | .iptablesLegacy,.quarantine => .nacQuarantine ∈ fw.hooks.forward ∧
    (dropRule (iptText entry.victimMac) ∈ fw.host.chains .nacQuarantine →
      dnsRule (iptText entry.victimMac) ∈ fw.host.chains .nacQuarantine ∧
      portalRule (iptText entry.victimMac) ∈ fw.host.chains .nacQuarantine)
  | .unavailable,_ => True

/-- The entries of a device ask for one action. -/
def Firewall.Agrees (fw : Firewall) (ipt : Backend) (entry : QuarantineEntry) : Prop :=
  ipt≠.unavailable → ∀ key other, fw.host.state.lookup key=some other →
    other.victimMac=entry.victimMac → other.action=entry.action

section Tick

variable (rt : Runtime) {env : Env} {h : Host}

theorem reinforce_calls (ipt : Backend) (env : Env) (h : Host) :
    reinforce rt ipt env h=runs (callFirewall rt ipt env) h (tickCalls (env.walk h.entries)) := by
  rw [reinforce_eq,reinforceEntries_calls]

/-- The calls of a tick are those for the live entries. -/
theorem mem_tickCalls {c : FirewallCall} : c ∈ tickCalls (env.walk h.entries) ↔
    ∃ key entry, h.state.lookup key=some entry ∧
      c=⟨some entry.action,key,some entry.victimIp.text⟩ := by
  simp only [tickCalls,List.mem_map,Prod.exists,(env.walk_perm h.entries).mem_iff,mem_entries,
    eq_comm]

variable (hkeyed : h.Keyed)
include hkeyed

theorem tickCalls_length (env : Env) : ∀ c ∈ tickCalls (env.walk h.entries),
    (hexDigits c.mac).length=12 := by
  intro c hc
  obtain ⟨key,entry,hl,rfl⟩ := mem_tickCalls.mp hc
  exact MacAddr.ofHexDigits_isSome.mp ⟨_,hkeyed key entry hl⟩

variable {entry : QuarantineEntry}

theorem tickCalls_has (env : Env) {key : String} (hl : h.state.lookup key=some entry) :
    ∃ c ∈ tickCalls (env.walk h.entries), parseMac c.mac=some entry.victimMac :=
  ⟨_,mem_tickCalls.mpr ⟨key,entry,hl,rfl⟩,hkeyed key entry hl⟩

/-- The last call for a device is that for one of its entries. -/
theorem tickCalls_last (env : Env) {key : String} (hl : h.state.lookup key=some entry) :
    ∃ key' last, h.state.lookup key'=some last ∧ last.victimMac=entry.victimMac ∧
      lastWrite callFor entry.victimMac (tickCalls (env.walk h.entries))=
        some (some last.action) := by
  cases hlast : lastWrite callFor entry.victimMac (tickCalls (env.walk h.entries)) with
  | none =>
    obtain ⟨c,hc,hm⟩ := tickCalls_has hkeyed env hl
    have hnone := lastWrite_eq_none.mp hlast c hc
    rw [callFor,if_pos hm] at hnone
    cases hnone
  | some action =>
    obtain ⟨pre,c,post,hsplit,hc,-⟩ := lastWrite_eq_some.mp hlast
    have hin : c ∈ tickCalls (env.walk h.entries) := by simp [hsplit]
    obtain ⟨key',last,hl',rfl⟩ := mem_tickCalls.mp hin
    unfold callFor at hc
    split at hc
    · next hm =>
      have hmac := (hkeyed key' last hl').symm.trans hm
      exact ⟨key',last,hl',Option.some.inj hmac,hc.symm⟩
    · cases hc

variable (hagree : ∀ key other, h.state.lookup key=some other →
  other.victimMac=entry.victimMac → other.action=entry.action)
include hagree

theorem tickCalls_agree (c : FirewallCall) (hc : c ∈ tickCalls (env.walk h.entries))
    (hm : parseMac c.mac=some entry.victimMac) : c.action=some entry.action := by
  obtain ⟨key',other,hl',rfl⟩ := mem_tickCalls.mp hc
  have hmac := hkeyed key' other hl'
  exact congrArg some (hagree key' other hl' (Option.some.inj (hmac.symm.trans hm)))

variable {key : String} (hl : h.state.lookup key=some entry)
include hl

/-- After a tick a device whose entries agree is in the set of their action, and in no other. -/
theorem tick_inMacs (hok : env.MacsOk) (a : NacAction) :
    (reinforce rt .nft env h).inMacs entry.victimMac.text a ↔ entry.action=a := by
  obtain ⟨key',last,hl',hmac,hlast⟩ := tickCalls_last hkeyed env hl
  rw [reinforce_calls,runs_call_lastMac rt hok _ (tickCalls_length hkeyed env),hlast,
    hagree key' last hl' hmac]
  simp

/-- And its rules are those that a single call would leave. -/
theorem tick_rulesFor (hw : env.IptWorks) :
    (reinforce rt .iptablesLegacy env h).rulesFor entry.victimMac=
      treatRules entry.victimMac (h.rulesFor entry.victimMac) entry.action := by
  rw [reinforce_calls,runs_treatRules rt hw _ (tickCalls_length hkeyed env)
    (tickCalls_agree hkeyed hagree),if_pos (tickCalls_has hkeyed env hl)]

end Tick

/-! Which hosts there are: every reachable one has its entries under the texts of their devices, and
a tick applies them all. -/

section Reachable

variable (rt : Runtime) (ipt : Backend)

/-- The firewall does not look at the quarantine state. -/
theorem treat_offState (action : NacAction) (mac : String) (ip : Option String) :
    Performs OffState (treat rt ipt action mac ip) := by
  have one {α : Type} {op : EnfOp} {result : op.Reply → Except EnforceError α}
      (hop : OffState op) : Performs OffState (.performOrFail op result) :=
    Proc.only_performOrFail.mpr hop
  have deletes (chain : Chain) (rule : IptRule) : Performs OffState (iptDeleteLoop chain rule) :=
    Proc.only_perform.mpr trivial
  cases ipt with
  | nft =>
    rw [treat_nft]
    exact (nftTreat_performs rt action mac ip).mono fun op hop => by cases hop <;> trivial
  | iptablesLegacy =>
    cases action with
    | block =>
      refine .bind (.bind (deletes _ _) fun _ => .bind (deletes _ _) fun _ => deletes _ _)
        fun _ => .bind (Proc.only_perform.mpr trivial) fun found => ?_
      cases found with
      | true => exact Proc.only_pure _
      | false => exact one trivial
    | quarantine =>
      refine .bind (deletes _ _) fun _ => .bind (Proc.only_perform.mpr trivial) fun found => ?_
      cases found with
      | true => exact Proc.only_pure _
      | false => exact .bind (one trivial) fun _ => .bind (one trivial) fun _ => one trivial
  | unavailable => cases action <;> exact Proc.only_pure _

theorem removeIp_offState (ip : String) : Performs OffState (removeIp ipt ip) := by
  cases ipt with
  | nft => exact (removeIp_performs ip).mono fun op hop => by cases hop <;> trivial
  | iptablesLegacy => exact Proc.only_pure _
  | unavailable => exact Proc.only_pure _

theorem allow_offState (mac : String) (ip : Option String) :
    Performs OffState (allow rt ipt mac ip) := by
  have deletes (chain : Chain) (rule : IptRule) : Performs OffState (iptDeleteLoop chain rule) :=
    Proc.only_perform.mpr trivial
  cases ipt with
  | nft =>
    refine (allow_performs rt mac ip).mono fun op hop => ?_
    obtain ⟨set,elem,rfl⟩ := hop
    trivial
  | iptablesLegacy =>
    exact .bind (deletes _ _) fun _ => .bind (deletes _ _) fun _ => .bind (deletes _ _) fun _ =>
      deletes _ _
  | unavailable => exact Proc.only_pure _

/-- An entry is made under a text that names its device. -/
def KeyedOp : EnfOp → Prop
  | .stateInsert key entry => parseMac key=some entry.victimMac
  | _ => True

theorem keyedOp_of_offState {op : EnfOp} (hop : OffState op) : KeyedOp op := by
  cases op <;> trivial

theorem Host.Keyed.of_state {h h' : Host} (hk : h.Keyed) (same : h'.state=h.state) : h'.Keyed := by
  intro key entry hl
  rw [same] at hl
  exact hk key entry hl

theorem exec_keyed (env : Env) (op : EnfOp) {h : Host} (hop : KeyedOp op) (hk : h.Keyed) :
    (exec env op h).2.Keyed := by
  cases op with
  | stateInsert key entry =>
    intro key' entry' hl
    rw [exec,lookup_insert_eq] at hl
    split at hl
    · next same =>
      subst same hl
      exact hop
    · exact hk key' entry' hl
  | stateRemove key =>
    intro key' entry' hl
    rw [exec,lookup_erase_eq] at hl
    exact hk key' entry' hl.2
  | _ => exact hk.of_state (exec_state env _ h trivial)

theorem consume_keyed (cmd : EnforcementCommand) :
    Performs KeyedOp (consume rt ipt cmd) := by
  have off {α : Type} {p : EnfProc α} (hp : Performs OffState p) : Performs KeyedOp p :=
    hp.mono fun _ => keyedOp_of_offState
  refine .bind (Proc.Only.attempt ?_) fun _ => Proc.only_pure _
  split
  · refine .bind (off (allow_offState rt ipt _ _)) fun _ => ?_
    refine .bind (Proc.only_perform.mpr trivial) fun entry => ?_
    exact (restoreArp_performs _ entry).mono fun op hop => by cases op <;> trivial
  · have release : Performs KeyedOp (releaseOldIp rt ipt (received cmd)) := by
      unfold releaseOldIp
      split
      · refine .bind (Proc.only_perform.mpr trivial) fun old => ?_
        split
        · split
          · exact Proc.only_pure _
          · exact off (removeIp_offState ipt _)
        · exact Proc.only_pure _
      · exact Proc.only_pure _
    refine .bind release fun _ => .bind (off (treat_offState rt ipt _ _ _)) fun _ => ?_
    refine (enforceArp_performs rt _ _).mono fun op hop => ?_
    rcases hop with hop|hop
    · cases op <;> trivial
    · obtain ⟨entry,-,hmac,-⟩ := hop
      exact (parseMac_stateKey rt cmd).trans hmac

theorem reinforceEntries_offState (entries : List (String × QuarantineEntry)) :
    Performs OffState (reinforceEntries rt ipt entries) := by
  induction entries with
  | nil => exact Proc.only_pure _
  | cons e entries ih => exact .bind (treat_offState rt ipt _ _ _).attempt fun _ => ih

theorem reinforce_state (env : Env) (h : Host) : (reinforce rt ipt env h).state=h.state := by
  rw [reinforce_eq]
  exact (reinforceEntries_offState rt ipt _).run_frame Host.state (exec_state env) h

theorem runs_keyed (spoofer : Option MacAddr) (steps : List EnfStep) :
    (runs (step rt ipt) (.empty spoofer) steps).Keyed := by
  refine runs_invariant Host.Keyed ?_ steps fun key entry hl => by cases hl
  intro h s hk
  cases s with
  | command env cmd =>
    exact (consume_keyed rt ipt cmd).run_invariant Host.Keyed (fun op _ => exec_keyed env op) hk
  | tick env => exact hk.of_state (reinforce_state rt ipt env h)

/-- A tick applies the entries, on iptables-legacy to chains in which the rules about each device
are those of one action. -/
theorem reinforce_applied {env : Env} (hmacs : env.MacsOk) (hworks : env.IptWorks) {h : Host}
    (hkeyed : h.Keyed) {action : MacAddr → Option NacAction} (hh : h.Holds action) :
    (reinforce rt ipt env h).Applied ipt := by
  intro key entry hl
  rw [reinforce_state] at hl ⊢
  obtain ⟨key',last,hl',hmac,hlast⟩ := tickCalls_last hkeyed env hl
  refine ⟨key',last,hl',hmac,?_⟩
  have hcalls := tickCalls_length hkeyed env
  cases ipt with
  | nft =>
    simp only []
    rw [reinforce_calls,runs_call_lastMac rt hmacs _ hcalls,hlast]
    simp
  | iptablesLegacy =>
    have hrules := runs_holds_last rt hworks _ hcalls hh entry.victimMac
    simp only [hlast,Option.getD_some] at hrules
    rw [reinforce_calls]
    exact hrules
  | unavailable => trivial

end Reachable

section Restored

variable {ips : List String} {members : Finset String} {left : Firewall} {entry : QuarantineEntry}

section Nft

variable (hin : ∀ a, left.host.inMacs entry.victimMac.text a ↔ entry.action=a)
  (hforward : left.chains.forward.Sublist (setupNft ips members).forward)
include hin hforward

/-- What is left of the forward chain drops all that the device of an entry sends exactly where the
rule about the set of the device is left. -/
theorem forward_drops_iff :
    (∀ a : Arrival, a.packet.srcMac=entry.victimMac →
      nftVerdict left.chains.forward left.host left.chains.managementIps a=.drop) ↔
    forwardRule (macSet entry.action) ∈ left.chains.forward := by
  have hdrop : ∀ rule ∈ left.chains.forward, ∃ set, rule=forwardRule set := by
    intro rule hrule
    obtain ⟨set,-,rfl⟩ := List.mem_map.mp (hforward.subset hrule)
    exact ⟨set,rfl⟩
  have hverdict : ∀ rule ∈ left.chains.forward, rule.verdict=.drop := by
    intro rule hrule
    obtain ⟨set,rfl⟩ := hdrop rule hrule
    rfl
  simp only [nftVerdict_drops hverdict]
  constructor
  · intro hall
    obtain ⟨rule,hrule,hm⟩ := hall ⟨⟨entry.victimMac,none,none⟩,false⟩ rfl
    obtain ⟨set,rfl⟩ := hdrop rule hrule
    have hset := matches_source.mp hm
    cases set with
    | blockedMacs =>
      have haction : entry.action=.block := (hin .block).mp hset
      rw [haction]
      exact hrule
    | quarantinedMacs =>
      have haction : entry.action=.quarantine := (hin .quarantine).mp hset
      rw [haction]
      exact hrule
    | blockedIps => obtain ⟨x,hx,-⟩ := hset; cases hx
    | quarantinedIps => obtain ⟨x,hx,-⟩ := hset; cases hx
  · intro hrule a ha
    refine ⟨_,hrule,matches_source.mpr ?_⟩
    have hmember := (hin entry.action).mpr rfl
    rw [← ha] at hmember
    cases haction : entry.action with
    | block => rw [haction] at hmember; exact hmember
    | quarantine => rw [haction] at hmember; exact hmember

theorem nft_enforces_iff (hinput : left.chains.input.Sublist (setupNft ips members).input)
    (hsub : left.chains.managementIps ⊆ (setupNft ips members).managementIps) :
    left.Enforces .nft ips members entry ↔ left.Keeps .nft ips members entry := by
  have hdrops := forward_drops_iff hin hforward
  unfold Firewall.Enforces Firewall.Keeps
  cases haction : entry.action with
  | block =>
    have hblocked : entry.victimMac.text ∈ left.host.sets .blockedMacs :=
      (hin .block).mpr haction
    have hother : entry.victimMac.text ∉ left.host.sets .quarantinedMacs := by
      intro hmem
      have hquarantine : entry.action=.quarantine := (hin .quarantine).mp hmem
      rw [haction] at hquarantine
      cases hquarantine
    have hserves := treatsBlocked_iff hblocked hother hsub hinput
    rw [haction] at hdrops
    simp only [NftPrescribes]
    rw [forall₂_and]
    exact and_congr hdrops hserves
  | quarantine =>
    rw [haction] at hdrops
    simp only [NftPrescribes]
    rw [forall₂_and,and_iff_left]
    · exact hdrops
    · intro a ha hip
      cases hv : nftVerdict left.chains.input left.host left.chains.managementIps a with
      | accept => rfl
      | drop =>
        obtain ⟨-,rule,hrule,hdrop,hm⟩ := (leftInput_drops hinput).mp hv
        rcases inputDrop_of_mem (hinput.subset hrule) hdrop with rfl|rfl
        · have hblock : entry.action=.block := (hin .block).mp (ha ▸ matches_source.mp hm)
          rw [haction] at hblock
          cases hblock
        · exact absurd (matches_source.mp hm) hip

end Nft

section Legacy

/-- On iptables-legacy a packet meets the rules about its sender. -/
theorem drops_iff (fw : Firewall) (hook : List Chain) (p : Packet) :
    fw.host.drops hook p ↔
      ∃ chain ∈ hook, iptVerdict (fw.host.rulesFor p.srcMac chain) p=.drop := by
  simp only [Host.drops,Host.rulesFor,iptVerdict_rulesAbout]

theorem legacy_block_iff (haction : entry.action=.block)
    (hrules : left.host.rulesFor entry.victimMac=rulesOf entry.victimMac (some .block)) :
    left.Enforces .iptablesLegacy ips members entry ↔
      .nacBlock ∈ left.hooks.forward ∧ .nacBlock ∈ left.hooks.input := by
  have verdict (p : Packet) (hp : p.srcMac=entry.victimMac) (hook : List Chain) :
      left.host.drops hook p ↔ .nacBlock ∈ hook := by
    rw [drops_iff,hp,hrules,← hp]
    have hblock := (verdict_block p (some .block)).mpr rfl
    have hquarantine : iptVerdict (rulesOf p.srcMac (some .block) .nacQuarantine) p≠.drop := by
      rw [Ne,verdict_quarantine]
      simp
    constructor
    · intro given
      obtain ⟨chain,hchain,hdrop⟩ := given
      cases chain with
      | nacBlock => exact hchain
      | nacQuarantine => exact absurd hdrop hquarantine
    · intro hmem
      exact ⟨_,hmem,hblock⟩
  simp only [Firewall.Enforces,LegacyPrescribes,haction]
  constructor
  · intro hall
    let p : Packet := ⟨entry.victimMac,some .unspecified,none⟩
    obtain ⟨hforward,hinput⟩ := hall p rfl rfl
    exact ⟨(verdict p rfl _).mp (hforward.mpr (.inl trivial)),
      (verdict p rfl _).mp (hinput.mpr trivial)⟩
  · intro given p hp _
    rw [verdict p hp,verdict p hp]
    simp [given]

theorem legacy_quarantine_iff (haction : entry.action=.quarantine)
    (hblock : left.host.rulesFor entry.victimMac .nacBlock=[])
    (hinput : .nacQuarantine ∉ left.hooks.input) :
    left.Enforces .iptablesLegacy ips members entry ↔
      .nacQuarantine ∈ left.hooks.forward ∧
      ∀ p : Packet, p.srcMac=entry.victimMac → p.srcIp.isSome=true →
        (iptVerdict (left.host.rulesFor entry.victimMac .nacQuarantine) p=.drop ↔
          ¬p.Excepted) := by
  have verdict (p : Packet) (hp : p.srcMac=entry.victimMac) (hook : List Chain) :
      left.host.drops hook p ↔ .nacQuarantine ∈ hook ∧
        iptVerdict (left.host.rulesFor entry.victimMac .nacQuarantine) p=.drop := by
    rw [drops_iff,hp]
    constructor
    · intro given
      obtain ⟨chain,hchain,hdrop⟩ := given
      cases chain with
      | nacBlock =>
        rw [hblock] at hdrop
        cases hdrop
      | nacQuarantine => exact ⟨hchain,hdrop⟩
    · intro given
      exact ⟨_,given⟩
  simp only [Firewall.Enforces,LegacyPrescribes,haction]
  constructor
  · intro hall
    have hforward : Chain.nacQuarantine ∈ left.hooks.forward := by
      obtain ⟨hdrops,-⟩ := hall ⟨entry.victimMac,some .unspecified,none⟩ rfl rfl
      exact ((verdict _ rfl _).mp (hdrops.mpr (.inr ⟨trivial,by simp [Packet.Excepted]⟩))).1
    refine ⟨hforward,fun p hp hsome => ?_⟩
    obtain ⟨hdrops,-⟩ := hall p hp hsome
    rw [verdict p hp] at hdrops
    simpa [hforward] using hdrops
  · intro given p hp hsome
    rw [verdict p hp,verdict p hp,given.2 p hp hsome]
    simp [given.1,hinput]

/-- The rules of the device of an entry are those that a treatment makes of what was left. -/
theorem legacy_enforces_iff (rt : Runtime) {env : Env}
    (hleft : ∀ chain, (left.host.rulesFor entry.victimMac chain).Sublist
      (rulesOf entry.victimMac (some entry.action) chain))
    (hrules : (left.tick rt .iptablesLegacy env).host.rulesFor entry.victimMac=
      treatRules entry.victimMac (left.host.rulesFor entry.victimMac) entry.action)
    (hinput : .nacQuarantine ∉ left.hooks.input) :
    (left.tick rt .iptablesLegacy env).Enforces .iptablesLegacy ips members entry ↔
      left.Keeps .iptablesLegacy ips members entry := by
  unfold Firewall.Keeps
  cases haction : entry.action with
  | block =>
    rw [haction] at hleft hrules
    rw [block_remade hleft] at hrules
    exact legacy_block_iff haction hrules
  | quarantine =>
    rw [haction] at hleft hrules
    have hblock : (left.tick rt .iptablesLegacy env).host.rulesFor entry.victimMac
        .nacBlock=[] := by
      rw [hrules,treatRules,List.sublist_nil.mp (hleft .nacBlock)]
      rfl
    rw [legacy_quarantine_iff haction hblock hinput,hrules,
      quarantine_remade_iff (hleft .nacQuarantine)]
    have hmem (rule : IptRule) (hrule : rule.macSource=iptText entry.victimMac) :
        rule ∈ left.host.rulesFor entry.victimMac .nacQuarantine ↔
          rule ∈ left.host.chains .nacQuarantine := by
      rw [Host.rulesFor,mem_rulesAbout,hrule]
      exact and_iff_left (parseMac_iptText _)
    rw [hmem (dropRule (iptText entry.victimMac)) rfl,
      hmem (dnsRule (iptText entry.victimMac)) rfl,
      hmem (portalRule (iptText entry.victimMac)) rfl]
    exact Iff.rfl

end Legacy

/-- No device can be treated as both actions prescribe. -/
theorem enforces_agree {ipt : Backend} (hipt : ipt≠.unavailable) {other : QuarantineEntry}
    (hentry : left.Enforces ipt ips members entry) (hother : left.Enforces ipt ips members other)
    (hmac : other.victimMac=entry.victimMac) : other.action=entry.action := by
  cases ipt with
  | nft =>
    let plain : Arrival := ⟨⟨entry.victimMac,none,none⟩,false⟩
    have clash {one two : QuarantineEntry} (hblock : one.action=.block)
        (hquarantine : two.action=.quarantine)
        (hone : NftPrescribes left ips members one.action plain)
        (htwo : NftPrescribes left ips members two.action plain) : False := by
      rw [hblock] at hone
      rw [hquarantine] at htwo
      have hdrop := hone.2.mpr (plain_unserved entry.victimMac)
      have haccept := htwo.2 (by simp [Packet.SentBy,plain])
      rw [hdrop] at haccept
      cases haccept
    have hone := hentry plain rfl
    have htwo := hother plain hmac.symm
    cases he : entry.action <;> cases ho : other.action
    · rfl
    · exact (clash he ho hone htwo).elim
    · exact (clash ho he htwo hone).elim
    · rfl
  | iptablesLegacy =>
    let p : Packet := ⟨entry.victimMac,some .unspecified,none⟩
    have hone := (hentry p rfl rfl).2
    have htwo := (hother p hmac.symm rfl).2
    have hsame := htwo.symm.trans hone
    revert hsame
    cases entry.action <;> cases other.action <;> simp
  | unavailable => exact absurd rfl hipt

end Restored

/-- After some elements of the NAC sets and some rules are gone, a tick gives every packet from the
device of a live entry the verdict that its action prescribes, exactly where the entries of a device
agree and what a tick does not bring back is there: on nft the rules of the chains, on
iptables-legacy the jumps, and the two exceptions of a quarantine whose drop is left. -/
theorem tick_restores_iff (rt : Runtime) (ipt : Backend) {env : Env} (hmacs : env.MacsOk)
    (hworks : env.IptWorks) {h : Host} (hkeyed : h.Keyed) (happlied : h.Applied ipt)
    {ips : List String} {members : Finset String} {left : Firewall}
    (hleaves : (Firewall.setUp h ips members).Leaves left) :
    (∀ key entry, h.state.lookup key=some entry →
      (left.tick rt ipt env).Enforces ipt ips members entry) ↔
    ∀ key entry, h.state.lookup key=some entry →
      left.Agrees ipt entry ∧ left.Keeps ipt ips members entry := by
  have hstate : left.host.state=h.state := hleaves.state
  have hkeyed' : left.host.Keyed := hkeyed.of_state hstate
  have one {key : String} {entry : QuarantineEntry} (hl : h.state.lookup key=some entry)
      (hagree : left.Agrees ipt entry) :
      (left.tick rt ipt env).Enforces ipt ips members entry ↔ left.Keeps ipt ips members entry := by
    have hl' : left.host.state.lookup key=some entry := hstate ▸ hl
    cases ipt with
    | nft =>
      have hin := tick_inMacs rt hkeyed' (hagree (by decide)) hl' hmacs
      have hkeeps : (left.tick rt .nft env).Keeps .nft ips members entry ↔
          left.Keeps .nft ips members entry := by
        unfold Firewall.Keeps
        cases entry.action <;> exact Iff.rfl
      have henforces : (left.tick rt .nft env).Enforces .nft ips members entry ↔
          (left.tick rt .nft env).Keeps .nft ips members entry :=
        nft_enforces_iff hin hleaves.forward hleaves.input hleaves.managementIps
      exact henforces.trans hkeeps
    | iptablesLegacy =>
      have hrules := tick_rulesFor rt hkeyed' (hagree (by decide)) hl' hworks
      obtain ⟨key',applied,hl'',hmac,happlied⟩ := happlied key entry hl
      have hsame := hagree (by decide) key' applied (hstate ▸ hl'') hmac
      have hleft (chain : Chain) : (left.host.rulesFor entry.victimMac chain).Sublist
          (rulesOf entry.victimMac (some entry.action) chain) := by
        rw [← hsame,← happlied]
        exact (hleaves.rules chain).filter _
      exact legacy_enforces_iff rt hleft hrules fun hmem => by
        have hin : Chain.nacQuarantine ∈ [Chain.nacBlock] := hleaves.inputJumps.subset hmem
        cases List.mem_singleton.mp hin
    | unavailable => exact Iff.rfl
  constructor
  · intro hall key entry hl
    have hagree : left.Agrees ipt entry := by
      intro hipt key' other hl' hmac
      exact enforces_agree hipt (hall key entry hl) (hall key' other (hstate ▸ hl')) hmac
    exact ⟨hagree,(one hl hagree).mp (hall key entry hl)⟩
  · intro hall key entry hl
    obtain ⟨hagree,hkeeps⟩ := hall key entry hl
    exact (one hl hagree).mpr hkeeps

/-- A device that the service has been told to treat, on iptables-legacy. -/
def treatedHost (action : String) : Host :=
  handle .ascii .iptablesLegacy (.empty none)
    (.calm none none,⟨"AA:BB:CC:DD:EE:01","10.0.0.7",action,"10.0.0.1",none,none⟩)

def treatedEntry (action : NacAction) : QuarantineEntry :=
  ⟨⟨10,0,0,7⟩,⟨0xaa,0xbb,0xcc,0xdd,0xee,1⟩,⟨10,0,0,1⟩,action⟩

/-- Its firewall, when of the rules in the NAC chains only some of the quarantine are left. -/
def someLeft (action : String) (rules : List IptRule) : Firewall :=
  let h := treatedHost action
  .setUp (h.setChain .nacBlock [] |>.setChain .nacQuarantine rules) [] ∅

theorem someLeft_leaves (action : String) {rules : List IptRule}
    (hrules : rules.Sublist ((treatedHost action).chains .nacQuarantine)) :
    (Firewall.setUp (treatedHost action) [] ∅).Leaves (someLeft action rules) := by
  refine ⟨rfl,fun _ => Finset.Subset.refl _,?_,.refl _,.refl _,Finset.Subset.refl _,.refl _,
    .refl _⟩
  intro chain
  cases chain
  · exact List.nil_sublist _
  · exact hrules

theorem treatedHost_lookup {action : String} {a : NacAction}
    (hall : ∀ e ∈ (treatedHost action).entries, e=("aa:bb:cc:dd:ee:01",treatedEntry a))
    {key : String} {entry : QuarantineEntry}
    (hl : (treatedHost action).state.lookup key=some entry) : entry=treatedEntry a :=
  congrArg Prod.snd (hall _ (mem_entries.mpr hl))

theorem treatedHost_keyed (action : String) : (treatedHost action).Keyed :=
  runs_keyed .ascii .iptablesLegacy none [.command (.calm none none) _]

theorem treatedHost_applied {action : String} {a : NacAction}
    (hall : ∀ e ∈ (treatedHost action).entries, e=("aa:bb:cc:dd:ee:01",treatedEntry a))
    (hrules : ∀ chain, (treatedHost action).rulesFor (treatedEntry a).victimMac chain=
      rulesOf (treatedEntry a).victimMac (some a) chain) :
    (treatedHost action).Applied .iptablesLegacy := by
  intro key entry hl
  have same := treatedHost_lookup hall hl
  subst same
  exact ⟨key,_,hl,rfl,funext hrules⟩

theorem treatedHost_block : ∀ e ∈ (treatedHost "block").entries,
    e=("aa:bb:cc:dd:ee:01",treatedEntry .block) := by
  decide +kernel

theorem treatedHost_quarantine : ∀ e ∈ (treatedHost "quarantine").entries,
    e=("aa:bb:cc:dd:ee:01",treatedEntry .quarantine) := by
  decide +kernel

/-- A blocked device whose rule is gone is blocked again. -/
theorem tick_restores_iff_block :
    ((someLeft "block" []).tick .ascii .iptablesLegacy (.calm none none)).Enforces
      .iptablesLegacy [] ∅ (treatedEntry .block) := by
  have happlied := treatedHost_applied treatedHost_block fun chain => by
    cases chain <;> decide +kernel
  refine (tick_restores_iff .ascii .iptablesLegacy (fun _ _ _ => rfl) (fun _ _ => rfl)
    (treatedHost_keyed "block") happlied (someLeft_leaves "block" (List.nil_sublist _))).mpr ?_
    "aa:bb:cc:dd:ee:01" _ (by decide +kernel)
  intro key entry hl
  have same := treatedHost_lookup treatedHost_block hl
  subst same
  refine ⟨?_,by decide,by decide⟩
  intro _ key' other hl' _
  rw [treatedHost_lookup treatedHost_block hl']

/-- The drop of a quarantined device is left without the exceptions: it stays without them, and the
device cannot ask for names. -/
theorem exceptions_not_restored : ¬∀ (h : Host) (left : Firewall), h.Keyed →
    h.Applied .iptablesLegacy → (Firewall.setUp h [] ∅).Leaves left →
      ∀ key entry, h.state.lookup key=some entry →
        (left.tick .ascii .iptablesLegacy (.calm none none)).Enforces .iptablesLegacy [] ∅
          entry := by
  intro hall
  let rule : IptRule := dropRule (iptText (treatedEntry .quarantine).victimMac)
  have happlied := treatedHost_applied treatedHost_quarantine fun chain => by
    cases chain <;> decide +kernel
  have hleft : [rule].Sublist ((treatedHost "quarantine").chains .nacQuarantine) := by
    decide +kernel
  have entry : (treatedHost "quarantine").state.lookup "aa:bb:cc:dd:ee:01"=
      some (treatedEntry .quarantine) := by
    decide +kernel
  have enforced := hall _ _ (treatedHost_keyed "quarantine") happlied
    (someLeft_leaves "quarantine" hleft) _ _ entry
  let dns : Packet := ⟨(treatedEntry .quarantine).victimMac,some ⟨10,0,0,7⟩,some (.udp,53)⟩
  have dropped : ((someLeft "quarantine" [rule]).tick .ascii .iptablesLegacy
      (.calm none none)).host.drops [.nacQuarantine,.nacBlock] dns :=
    ⟨.nacQuarantine,by decide,by decide +kernel⟩
  rcases (enforced dns rfl rfl).1.mp dropped with hblock|⟨-,hexcepted⟩
  · cases hblock
  · exact hexcepted (.inl rfl)

end NacPlatform.Enforcement
