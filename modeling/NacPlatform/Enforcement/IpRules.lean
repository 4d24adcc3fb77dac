import NacPlatform.Enforcement.Remembered
import NacPlatform.Framework.Slot

namespace NacPlatform.Enforcement

/-- The IP sets a text is an element of, told by the action they stand for. -/
def Host.inIps (h : Host) (elem : String) (action : NacAction) : Prop :=
  elem ∈ h.sets (ipSet action)

/-- No nft command and no frame fails. -/
structure Env.Works (env : Env) : Prop where
  nft : ∀ verb set elem, env.nftFails verb set elem=false
  send : ∀ frame, env.sendFails frame=false

/-- Operations that leave the IP sets alone. -/
def OffIps (op : EnfOp) : Prop := ∀ verb action elem, op≠.nft verb (ipSet action) elem

theorem exec_inIps (env : Env) (op : EnfOp) (h : Host) (hop : OffIps op) :
    (exec env op h).2.inIps=h.inIps := by
  funext elem action
  unfold Host.inIps
  cases op with
  | nft verb set elem' =>
    have hs : ipSet action≠set := fun e => hop verb action elem' (e ▸ rfl)
    rw [exec,execNft_sets_ne env verb elem' h hs]
  | _ => rw [exec_sets env _ h (by simp)]

theorem Env.Works.macsOk {env : Env} (hw : env.Works) : env.MacsOk :=
  fun verb action elem => hw.nft verb (macSet action) elem

/-- The address a command lets go of: the one its device was remembered by, where the command
names another. -/
def leftIp (rt : Runtime) (h : Host) (cmd : EnforcementCommand) : Option Ipv4Addr := do
  let newIp ← (ipOpt cmd).bind Ipv4Addr.parse
  let old ← h.state.lookup (stateKey rt cmd)
  if old.victimIp=newIp then none else some old.victimIp

section Addresses

variable {env : Env} (rt : Runtime)

theorem macs_inIps (env : Env) (verb : NftVerb) (action : NacAction) (elem : String) (h : Host) :
    (exec env (.nft verb (macSet action) elem) h).2.inIps=h.inIps :=
  exec_inIps env _ h (by simp [OffIps])

theorem nft_inIps (env : Env) (verb : NftVerb) (action : NacAction) (elem : String) (h : Host)
    (x : String) (a : NacAction) : (exec env (.nft verb (ipSet action) elem) h).2.inIps x a ↔
      if x=elem ∧ a=action ∧ env.nftFails verb (ipSet action) elem=false then verb=.add
      else h.inIps x a := by
  cases hf : env.nftFails verb (ipSet action) elem with
  | true => simp [exec,execNft,hf]
  | false =>
    obtain ⟨-,hm⟩ := exec_nft_mem hf h
    simpa only [Host.inIps,ipSet_inj,and_true] using hm x (ipSet a)

/-- A release reaches the sets that nft does not fail on. -/
theorem removeIp_failing (ip : String) (h : Host) (x : String) (a : NacAction) :
    ((removeIp .nft ip).run (exec env) h).2.inIps x a ↔
      (x=ip → env.nftFails .delete (ipSet a) x=true) ∧ h.inIps x a := by
  have hb := nft_inIps env .delete .block ip h x a
  have hq := nft_inIps env .delete .quarantine ip
    (exec env (.nft .delete (ipSet .block) ip) h).2 x a
  simp only [ipSet] at hb hq
  simp only [removeIp,tryNft,Proc.run_bind,Proc.run_perform,Proc.run_pure,hq,hb]
  by_cases hx : x=ip
  · subst hx
    cases a <;> simp [ipSet]
  · simp [hx]

/-- What nft is asked to do with an address in the set of `a`, when `action` treats it. -/
def treatVerb (action a : NacAction) : NftVerb := if action=a then .add else .delete

theorem nftMoveIp_failing (action : NacAction) {ip : String} (hip : usableIp ip=true) (h : Host)
    (x : String) (a : NacAction) : ((nftMoveIp action (some ip)).run (exec env) h).2.inIps x a ↔
      if x=ip ∧ env.nftFails (treatVerb action a) (ipSet a) ip=false then action=a
      else h.inIps x a := by
  simp only [nftMoveIp,Option.filter,hip,if_true,tryNft,Proc.run_bind,Proc.run_perform,
    Proc.run_pure,nft_inIps]
  by_cases hx : x=ip
  · subst hx
    cases action <;> cases a <;> simp [treatVerb,NacAction.other]
  · simp [hx]

/-- Nothing is said about the address where the hardware address cannot be put in its set. -/
theorem nftTreat_failing (action : NacAction) (mac : String) {ip : String}
    (hip : usableIp ip=true) (h : Host) (x : String) (a : NacAction) :
    ((nftTreat rt action mac (some ip)).run (exec env) h).2.inIps x a ↔
      if x=ip ∧ env.nftFails .add (macSet action) (nftMac rt mac)=false ∧
        env.nftFails (treatVerb action a) (ipSet a) ip=false then action=a
      else h.inIps x a := by
  have moved (w : Host) := macs_inIps env .delete action.other (nftMac rt mac) w
  have entered (w : Host) := macs_inIps env .add action (nftMac rt mac) w
  have result (w : Host) : (exec env (.nft .add (macSet action) (nftMac rt mac)) w).1=
      if env.nftFails .add (macSet action) (nftMac rt mac) then
        .error (.nft .add (macSet action) (nftMac rt mac)) else .ok () := by
    simp only [exec,execNft]
    split <;> rfl
  simp only [nftTreat,tryNft,nft,Proc.run_bind,Proc.run_perform,Proc.run_performOrFail,id,result]
  cases hf : env.nftFails .add (macSet action) (nftMac rt mac) with
  | true => simp [entered,moved]
  | false =>
    simp only [Bool.false_eq_true,if_false]
    rw [nftMoveIp_failing action hip,entered,moved]
    simp

theorem nftTreat_none_failing (action : NacAction) (mac : String) (h : Host) :
    ((nftTreat rt action mac none).run (exec env) h).2.inIps=h.inIps := by
  refine Proc.Only.run_frame (s := OffIps) Host.inIps (exec_inIps env) ?_ h
  refine (nftTreat_performs rt action mac none).mono fun op hop => ?_
  cases hop <;> simp_all [OffIps]

theorem ipOpt_usable {cmd : EnforcementCommand} {ip : String} (h : ipOpt cmd=some ip) :
    cmd.ipAddress=ip ∧ usableIp ip=true := by
  rw [ipOpt_eq,Option.filter_eq_some_iff] at h
  exact ⟨Option.some.inj h.1,h.2⟩

theorem leftIp_eq_some {h : Host} {cmd : EnforcementCommand} {x : Ipv4Addr} :
    leftIp rt h cmd=some x ↔ ∃ newIp old, (ipOpt cmd).bind Ipv4Addr.parse=some newIp ∧
      h.state.lookup (stateKey rt cmd)=some old ∧ old.victimIp≠newIp ∧ old.victimIp=x := by
  simp only [leftIp,Option.bind_eq_bind,Option.bind_eq_some_iff]
  constructor
  · intro given
    obtain ⟨newIp,hnew,old,hold,hx⟩ := given
    split at hx
    · cases hx
    · next hne => exact ⟨newIp,old,hnew,hold,hne,Option.some.inj hx⟩
  · intro given
    obtain ⟨newIp,old,hnew,hold,hne,hx⟩ := given
    exact ⟨newIp,hnew,old,hold,by rw [if_neg hne,hx]⟩

/-- The address that a command names is not the one that its device leaves. -/
theorem leftIp_ne_named {h : Host} {cmd : EnforcementCommand} {x : Ipv4Addr}
    (hip : ipOpt cmd=some x.text) : leftIp rt h cmd≠some x := by
  intro hleft
  obtain ⟨newIp,old,hnew,-,hne,hold⟩ := (leftIp_eq_some rt).mp hleft
  rw [hip,Option.bind_some,Ipv4Addr.parse_text] at hnew
  exact hne (hold.trans (Option.some.inj hnew))

/-- An address other than the named one is left where the device was remembered by it. -/
theorem leftIp_ne_iff {h : Host} {cmd : EnforcementCommand} {ip x : Ipv4Addr}
    (hip : ipOpt cmd=some ip.text) (hx : x≠ip) : leftIp rt h cmd≠some x ↔
      ∀ old, h.state.lookup (stateKey rt cmd)=some old → old.victimIp≠x := by
  rw [Ne,leftIp_eq_some,hip,Option.bind_some,Ipv4Addr.parse_text]
  constructor
  · intro stays old hold same
    exact stays ⟨ip,old,rfl,hold,same ▸ hx,same⟩
  · intro others left
    obtain ⟨_,old,-,hold,-,same⟩ := left
    exact others old hold same

theorem releaseOldIp_failing (env : Env) (cmd : EnforcementCommand) (h : Host) (x : Ipv4Addr)
    (a : NacAction) : ((releaseOldIp rt .nft cmd).run (exec env) h).2.inIps x.text a ↔
      (leftIp rt h cmd=some x → env.nftFails .delete (ipSet a) x.text=true) ∧
        h.inIps x.text a := by
  rw [leftIp]
  cases hip : ipOpt cmd with
  | none => simp [releaseOldIp,hip]
  | some ip =>
    obtain ⟨rfl,-⟩ := ipOpt_usable hip
    simp only [releaseOldIp,hip,Option.isSome_some,if_true,stateGet,Proc.run_bind,
      Proc.run_perform,exec,Option.bind_some,Option.bind_eq_bind]
    cases hnew : Ipv4Addr.parse cmd.ipAddress with
    | none => cases h.state.lookup (stateKey rt cmd) <;> simp
    | some newIp =>
      cases hold : h.state.lookup (stateKey rt cmd) with
      | none => simp
      | some old =>
        by_cases ho : old.victimIp=newIp
        · simp [ho]
        · have same : x.text=old.victimIp.text ↔ old.victimIp=x :=
            Ipv4Addr.text_inj.trans eq_comm
          simp only [ho,if_false,removeIp_failing,Option.bind_some,Option.some.injEq,same]

/-- A block or quarantine writes about the address that it names and the one that it leaves. -/
theorem executeCommand_failing (cmd : EnforcementCommand) (h : Host) (x : Ipv4Addr)
    (a : NacAction) : ((executeCommand rt .nft cmd).run (exec env) h).2.inIps x.text a ↔
      if ipOpt cmd=some x.text then
        if env.nftFails .add (macSet (mapAction cmd.action)) (nftMac rt cmd.macAddress)=false ∧
          env.nftFails (treatVerb (mapAction cmd.action) a) (ipSet a) x.text=false then
          mapAction cmd.action=a
        else h.inIps x.text a
      else (leftIp rt h cmd=some x → env.nftFails .delete (ipSet a) x.text=true) ∧
        h.inIps x.text a := by
  have released := releaseOldIp_failing rt env cmd h x a
  have arp (w : Host) : ((enforceArp rt cmd (mapAction cmd.action)).run (exec env) w).2.inIps=
      w.inIps := by
    refine Proc.Only.run_frame (s := OffIps) Host.inIps (exec_inIps env) ?_ w
    refine (enforceArp_performs rt cmd _).mono fun op hop => ?_
    rcases hop with hop | hop
    · cases op <;> simp_all [ArpOp,OffIps]
    · cases hop; simp [OffIps]
  have after (w : Host) : ((treat rt .nft (mapAction cmd.action) cmd.macAddress (ipOpt cmd) >>=
      fun _ => enforceArp rt cmd (mapAction cmd.action)).run (exec env) w).2.inIps=
      ((nftTreat rt (mapAction cmd.action) cmd.macAddress (ipOpt cmd)).run (exec env)
        w).2.inIps := by
    rw [treat_nft,Proc.run_bind]
    split
    · next heq => rw [arp,heq]
    · next heq => rw [heq]
  rw [executeCommand,(releaseOldIp_total rt .nft cmd).run_bind,after]
  cases hip : ipOpt cmd with
  | none => simp [nftTreat_none_failing,released]
  | some ip =>
    rw [nftTreat_failing rt _ _ (ipOpt_usable hip).2]
    by_cases hx : x.text=ip
    · subst hx
      simp [released,leftIp_ne_named rt hip]
    · have hx' : ¬ip=x.text := fun e => hx e.symm
      simp [released,hx,hx']

/-- An allow takes its address, if it can be in a set at all, out of the IP sets that nft does not
fail on. -/
theorem allow_failing (mac : String) (ip : Option String) (h : Host) (x : String)
    (a : NacAction) : ((allow rt .nft mac ip).run (exec env) h).2.inIps x a ↔
      (ip.filter usableIp=some x → env.nftFails .delete (ipSet a) x=true) ∧ h.inIps x a := by
  have macs (w : Host) : (exec env (.nft .delete .quarantinedMacs (nftMac rt mac))
      (exec env (.nft .delete .blockedMacs (nftMac rt mac)) w).2).2.inIps=w.inIps := by
    rw [show NftSet.quarantinedMacs=macSet .quarantine from rfl,
      show NftSet.blockedMacs=macSet .block from rfl,macs_inIps,macs_inIps]
  simp only [allow,tryNft,Proc.run_bind,Proc.run_perform]
  unfold allowIp
  cases hip : ip.filter usableIp with
  | none => simp [macs]
  | some y =>
    simp only [removeIp_failing,macs,Option.some.injEq]
    simp only [eq_comm]

theorem executeAllow_failing (cmd : EnforcementCommand) (h : Host) (x : String)
    (a : NacAction) : ((executeAllow rt .nft cmd).run (exec env) h).2.inIps x a ↔
      (ipOpt cmd=some x → env.nftFails .delete (ipSet a) x=true) ∧ h.inIps x a := by
  have rest (w : Host) : (Proc.run (exec env) (do
      let entry ← stateRemove (stateKey rt cmd)
      restoreArp cmd entry) w).2.inIps=w.inIps := by
    refine Proc.Only.run_frame (s := OffIps) Host.inIps (exec_inIps env) ?_ w
    refine .bind (Proc.only_perform.mpr (by simp [OffIps])) fun entry => ?_
    refine (restoreArp_performs cmd entry).mono fun op hop => ?_
    cases op <;> simp_all [ArpOp,OffIps]
  have twice : (ipOpt cmd).filter usableIp=ipOpt cmd := by
    simp [ipOpt_eq]
  rw [executeAllow,(allow_total rt .nft cmd.macAddress (ipOpt cmd)).run_bind,rest,
    allow_failing,twice]

variable (hw : env.Works)
include hw

theorem allow_inIps (mac : String) (ip : Option String) (h : Host) (x : String)
    (a : NacAction) : ((allow rt .nft mac ip).run (exec env) h).2.inIps x a ↔
      ip.filter usableIp≠some x ∧ h.inIps x a := by
  simp [allow_failing,hw.nft]

theorem nftTreat_inIps (action : NacAction) (mac : String) {ip : String}
    (hip : usableIp ip=true) (h : Host) (x : String) (a : NacAction) :
    ((nftTreat rt action mac (some ip)).run (exec env) h).2.inIps x a ↔
      if x=ip then action=a else h.inIps x a := by
  simp [nftTreat_failing rt action mac hip,hw.nft]

theorem executeCommand_inIps (cmd : EnforcementCommand) (h : Host) (x : Ipv4Addr)
    (a : NacAction) : ((executeCommand rt .nft cmd).run (exec env) h).2.inIps x.text a ↔
      if ipOpt cmd=some x.text then mapAction cmd.action=a
      else leftIp rt h cmd≠some x ∧ h.inIps x.text a := by
  simp [executeCommand_failing,hw.nft]

theorem executeAllow_inIps (cmd : EnforcementCommand) (h : Host) (x : String) (a : NacAction) :
    ((executeAllow rt .nft cmd).run (exec env) h).2.inIps x a ↔
      ipOpt cmd≠some x ∧ h.inIps x a := by
  simp [executeAllow_failing,hw.nft]

end Addresses

/-- The hardware address that stands for no device in the commands of IP rules. -/
def placeholderMac : String := "00:00:00:00:00:00"

def ruleIp (c : Env × EnforcementCommand) : Ipv4Addr :=
  (Ipv4Addr.parse c.2.ipAddress).getD .unspecified

/-- A command for an IP rule on a plain IPv4 address, handled while a gateway is known and nothing
fails. -/
structure IpRule (c : Env × EnforcementCommand) : Prop where
  mac : c.2.macAddress=placeholderMac
  ip : c.2.ipAddress=(ruleIp c).text
  gateway : (knownGateway c.1 (received c.2)).isSome=true
  works : c.1.Works

def ruleTreatment (c : Env × EnforcementCommand) : Option NacAction := c.2.treatment

/-- `0.0.0.0` cannot be in an IP set. -/
def specified (x : Ipv4Addr) : Bool := x≠.unspecified

/-- The quarantine state as IP rules see it: one slot, whose owner is the address of the entry
under the placeholder. -/
abbrev slotStep := Slot.step ruleIp ruleTreatment specified

/-- The host holds what the slot machine holds. -/
structure SlotView (rt : Runtime) (h : Host) (s : Slot Ipv4Addr NacAction) : Prop where
  owner : (h.state.lookup (rt.toLowercase placeholderMac)).map (·.victimIp)=s.owner
  held : ∀ x a, h.inIps x.text a ↔ s.held x=some a
  unspecified : s.held .unspecified=none

section Rules

variable (rt : Runtime)

theorem usableIp_text (x : Ipv4Addr) : usableIp x.text=specified x := by
  have h := x.text_ne_empty
  by_cases hx : x=.unspecified
  · subst hx; decide
  · have h0 : x.text≠"0.0.0.0" := fun e => hx (Ipv4Addr.text_eq_unspecified.mp e)
    simp [usableIp,specified,h,hx,h0]

theorem IpRule.received_ip {c : Env × EnforcementCommand} (hc : IpRule c) :
    (received c.2).ipAddress=(ruleIp c).text := by
  rw [received,hc.ip,stripCidr_text]

theorem IpRule.ipOpt {c : Env × EnforcementCommand} (hc : IpRule c) :
    ipOpt (received c.2)=if specified (ruleIp c) then some (ruleIp c).text else none := by
  rw [ipOpt_eq,hc.received_ip,Option.filter,usableIp_text]

theorem IpRule.stateKey {c : Env × EnforcementCommand} (hc : IpRule c) :
    stateKey rt c.2=rt.toLowercase placeholderMac := by rw [Enforcement.stateKey,hc.mac]

/-- A rule that enforces a usable address is remembered, whatever the spoofer. -/
theorem IpRule.commandEntry {c : Env × EnforcementCommand} (hc : IpRule c)
    (spoofer : Option MacAddr) :
    (commandEntry c.1 spoofer (received c.2)).map (·.victimIp)=
      if specified (ruleIp c) then some (ruleIp c) else none := by
  obtain ⟨gw,hgw⟩ := Option.isSome_iff_exists.mp hc.gateway
  have hmac : parseMac (received c.2).macAddress=some .zero := by
    rw [received_macAddress,hc.mac]
    decide
  have hok : (spoofer.all fun myMac => poisonOk c.1 myMac (ruleIp c) .zero gw)=true := by
    cases spoofer <;> simp [poisonOk,hc.works.send]
  simp only [Enforcement.commandEntry,hc.ipOpt]
  split
  · simp only [Option.bind_eq_bind,Option.bind_some,Ipv4Addr.parse_text,hmac,hgw,hok,if_true,
      Option.map_some]
  · rfl

section Step

variable {rt} {c : Env × EnforcementCommand} (hc : IpRule c) {h : Host}
  {s : Slot Ipv4Addr NacAction} (hv : SlotView rt h s)
include hc hv

theorem slotView_allow (hallow : isAllowAction c.2.action=true) :
    SlotView rt (handle rt .nft h c) ⟨none,Function.update s.held (ruleIp c) none⟩ := by
  have hstate := handle_state rt hc.works.macsOk h
  rw [hc.stateKey,if_pos hallow] at hstate
  refine ⟨by rw [hstate,AList.lookup_erase]; rfl,fun y a => ?_,?_⟩
  · rw [handle_eq,if_pos hallow,executeAllow_inIps rt hc.works,hc.ipOpt,hv.held]
    by_cases hx : specified (ruleIp c)=true
    · by_cases hy : y=ruleIp c
      · simp [hx,hy]
      · have hy' : ¬ruleIp c=y := fun e => hy e.symm
        simp [hx,hy,hy',Function.update_of_ne]
    · have hx0 : ruleIp c=.unspecified := by simpa [specified] using hx
      by_cases hy : y=ruleIp c
      · simp [hy,hx0,hv.unspecified]
      · simp [hx,Function.update_of_ne hy]
  · by_cases hy : Ipv4Addr.unspecified=ruleIp c
    · simp [← hy]
    · simp [Function.update_of_ne hy,hv.unspecified]

/-- A rule that enforces takes the slot, and its address takes the place of the one that had it. -/
theorem slotView_enforce (hallow : ¬isAllowAction c.2.action=true)
    (hx : specified (ruleIp c)=true) : SlotView rt (handle rt .nft h c)
      ⟨some (ruleIp c),Function.update s.evicted (ruleIp c) (some (mapAction c.2.action))⟩ := by
  have hstate := handle_state rt hc.works.macsOk h
  have hentry := hc.commandEntry h.spoofer
  rw [if_pos hx] at hentry
  obtain ⟨entry,he,hip⟩ := Option.map_eq_some_iff.mp hentry
  rw [hc.stateKey,if_neg hallow,he] at hstate
  refine ⟨by rw [hstate]; simp [hip],fun y a => ?_,?_⟩
  · have hop : Enforcement.ipOpt (received c.2)=some (ruleIp c).text := by
      rw [hc.ipOpt,if_pos hx]
    rw [handle_eq,if_neg hallow]
    simp only [executeCommand_inIps rt hc.works,hop,Option.some.injEq,Ipv4Addr.text_inj,
      hv.held,received_action]
    by_cases hy : y=ruleIp c
    · simp [hy]
    · have leaves : leftIp rt h (received c.2)≠some y ↔ s.owner≠some y := by
        rw [leftIp_ne_iff rt hop hy,stateKey_received,hc.stateKey,← hv.owner]
        simp
      have hy' : ¬ruleIp c=y := fun e => hy e.symm
      rw [if_neg hy',leaves,← Slot.evicted_eq_some]
      simp [Function.update_of_ne hy]
  · have hne : Ipv4Addr.unspecified≠ruleIp c := fun e => by simp [specified,← e] at hx
    have hev (a : NacAction) : s.evicted .unspecified≠some a := by
      simp [Slot.evicted_eq_some,hv.unspecified]
    simp only [Function.update_of_ne hne]
    exact Option.eq_none_iff_forall_ne_some.mpr hev

theorem slotView_unusable (hallow : ¬isAllowAction c.2.action=true)
    (hx : ¬specified (ruleIp c)=true) : SlotView rt (handle rt .nft h c) s := by
  have hstate := handle_state rt hc.works.macsOk h
  have hentry := hc.commandEntry h.spoofer
  rw [if_neg hx] at hentry
  have hnone : commandEntry c.1 h.spoofer (received c.2)=none := by
    simpa using hentry
  rw [if_neg hallow,hnone] at hstate
  have hip : Enforcement.ipOpt (received c.2)=none := by rw [hc.ipOpt,if_neg hx]
  refine ⟨by rw [hstate]; exact hv.owner,fun y a => ?_,hv.unspecified⟩
  rw [handle_eq,if_neg hallow]
  simp [executeCommand_inIps rt hc.works,leftIp,hip,hv.held]

/-- The consumer takes IP rules as the slot machine takes its operations. -/
theorem handle_slotView : SlotView rt (handle rt .nft h c) (slotStep s c) := by
  by_cases hallow : isAllowAction c.2.action=true
  · have hval : ruleTreatment c=none := treatment_eq_none.mpr hallow
    simp only [slotStep,Slot.step,hval]
    exact slotView_allow hc hv hallow
  · have hval : ruleTreatment c=some (mapAction c.2.action) :=
      treatment_eq_some.mpr ⟨by simpa using hallow,rfl⟩
    simp only [slotStep,Slot.step,hval]
    by_cases hx : specified (ruleIp c)=true
    · rw [if_pos hx]
      exact slotView_enforce hc hv hallow hx
    · rw [if_neg hx]
      exact slotView_unusable hc hv hallow hx

end Step

/-- The last rule on an address. -/
def lastRule (x : Ipv4Addr) (cmds : List (Env × EnforcementCommand)) :
    Option (Env × EnforcementCommand) := Slot.last ruleIp x cmds

theorem runs_slotView (cmds : List (Env × EnforcementCommand)) (hc : ∀ c ∈ cmds, IpRule c)
    (spoofer : Option MacAddr) :
    SlotView rt (runs (handle rt .nft) (.empty spoofer) cmds) (runs slotStep .empty cmds) := by
  refine runs_simulates (SlotView rt) cmds (fun h s c hm hv => handle_slotView (hc c hm) hv) ?_
  refine ⟨by simp [Host.empty,Slot.empty],fun x a => ?_,rfl⟩
  simp [Host.inIps,Host.empty,Slot.empty]

/-- After a sequence of IP rules every address is in the set its last rule asks for, and in no
other, if and only if each block or quarantine that no later rule on its address replaces is on
an address other than 0.0.0.0 and is not followed by another one: the next rule, those on 0.0.0.0
that enforce nothing left aside, is an allow or there is none. -/
theorem ipRules_hold_iff (cmds : List (Env × EnforcementCommand)) (hc : ∀ c ∈ cmds, IpRule c)
    (spoofer : Option MacAddr) :
    let h := runs (handle rt .nft) (.empty spoofer) cmds
    (∀ x a, x.text ∈ h.sets (ipSet a) ↔ ∃ c, lastRule x cmds=some c ∧ c.2.treatment=some a) ↔
      ∀ pre c post, cmds=pre++c::post → c.2.treatment.isSome=true →
        (∀ d ∈ post, ruleIp d≠ruleIp c) →
        specified (ruleIp c)=true ∧
        Slot.stands ruleIp ruleTreatment specified post=true := by
  intro h
  have hv := runs_slotView rt cmds hc spoofer
  refine Iff.trans ?_ (show (∀ x, (runs slotStep .empty cmds).held x=
    (lastRule x cmds).bind ruleTreatment) ↔ _ from Slot.runs_held_iff cmds)
  refine forall_congr' fun x => ?_
  have held (a : NacAction) : x.text ∈ h.sets (ipSet a) ↔
      (runs slotStep .empty cmds).held x=some a := hv.held x a
  simp only [held]
  constructor
  · intro heq
    refine Option.ext fun a => (heq a).trans ?_
    simp [Option.bind_eq_some_iff,ruleTreatment]
  · intro heq a
    rw [heq]
    simp [Option.bind_eq_some_iff,ruleTreatment]

/-- A rule on `ip` as it arrives on a system with the default gateway 10.0.0.1. -/
def sampleRule (ip action : String) : Env × EnforcementCommand :=
  (.calm (some "Iface Destination Gateway\neth0 00000000 0100000A") none,
    ⟨placeholderMac,ip,action,"",none,none⟩)

theorem ipRules_hold_iff_run :
    let h := runs (handle .ascii .nft) (.empty none)
      [sampleRule "10.0.0.7" "block",sampleRule "10.0.0.8" "allow"]
    ∀ x a, x.text ∈ h.sets (ipSet a) ↔
      ∃ c, lastRule x [sampleRule "10.0.0.7" "block",sampleRule "10.0.0.8" "allow"]=some c ∧
        c.2.treatment=some a := by
  intro h
  have hc : ∀ c ∈ [sampleRule "10.0.0.7" "block",sampleRule "10.0.0.8" "allow"], IpRule c := by
    intro c hm
    rcases List.mem_pair.mp hm with rfl | rfl
    · exact ⟨rfl,by decide,by decide,fun _ _ _ => rfl,fun _ => rfl⟩
    · exact ⟨rfl,by decide,by decide,fun _ _ _ => rfl,fun _ => rfl⟩
  refine (ipRules_hold_iff .ascii _ hc none).mpr fun pre c post heq hv _ => ?_
  match pre,heq with
  | [],heq =>
    obtain ⟨rfl,rfl⟩ := List.cons.inj heq
    decide
  | [p],heq =>
    obtain ⟨-,heq⟩ := List.cons.inj heq
    obtain ⟨rfl,-⟩ := List.cons.inj heq
    exact absurd hv (by decide)
  | p::q::pre,heq => exact absurd (congrArg List.length heq) (by simp)

/-- Two addresses are blocked by rules of their own: the second rule lets the first one go. -/
theorem second_rule_releases_first :
    let cmds := [sampleRule "10.0.0.7" "block",sampleRule "10.0.0.8" "block"]
    let h := runs (handle .ascii .nft) (.empty none) cmds
    (∀ c ∈ cmds, IpRule c) ∧
      (lastRule ⟨10,0,0,7⟩ cmds).map (·.2.treatment)=some (some .block) ∧
      (Ipv4Addr.mk 10 0 0 7).text ∉ h.sets .blockedIps := by
  refine ⟨fun c hm => ?_,by decide,by decide +kernel⟩
  rcases List.mem_pair.mp hm with rfl | rfl
  · exact ⟨rfl,by decide,by decide,fun _ _ _ => rfl,fun _ => rfl⟩
  · exact ⟨rfl,by decide,by decide,fun _ _ _ => rfl,fun _ => rfl⟩

end Rules

end NacPlatform.Enforcement
