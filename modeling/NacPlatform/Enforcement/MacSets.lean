import NacPlatform.Enforcement.Footprint

namespace NacPlatform.Enforcement

/-- The MAC sets a text is an element of, told by the action they stand for. -/
def Host.inMacs (h : Host) (elem : String) (action : NacAction) : Prop :=
  elem ∈ h.sets (macSet action)

/-- Nft commands on the two MAC sets succeed. -/
def Env.MacsOk (env : Env) : Prop := ∀ verb action elem, env.nftFails verb (macSet action) elem=false

/-- Operations that leave the MAC sets alone. -/
def OffMacs (op : EnfOp) : Prop := ∀ verb action elem, op≠.nft verb (macSet action) elem

/-- An nft set other than the one a command names stays as it was. -/
theorem execNft_sets_ne (env : Env) (verb : NftVerb) {set other : NftSet} (elem : String)
    (h : Host) (hs : other≠set) : (execNft env verb set elem h).2.sets other=h.sets other := by
  unfold execNft
  split
  · rfl
  · cases verb <;> simp [Function.update_of_ne hs]

theorem execIpt_sets (env : Env) (chain : Chain) (rule : IptRule) (rules : List IptRule)
    (h : Host) : (execIpt env chain rule rules h).2.sets=h.sets := by
  unfold execIpt
  split <;> rfl

/-- Operations other than nft commands leave every nft set alone. -/
theorem exec_sets (env : Env) (op : EnfOp) (h : Host)
    (hop : ∀ verb set elem, op≠.nft verb set elem) : (exec env op h).2.sets=h.sets := by
  cases op with
  | nft verb set elem => exact absurd rfl (hop verb set elem)
  | iptInsert chain rule => exact execIpt_sets ..
  | iptAppend chain rule => exact execIpt_sets ..
  | iptDeleteLoop chain rule => simp only [exec]; split <;> rfl
  | sendFrame frame => simp only [exec]; split <;> rfl
  | _ => rfl

theorem exec_inMacs (env : Env) (op : EnfOp) (h : Host) (hop : OffMacs op) :
    (exec env op h).2.inMacs=h.inMacs := by
  funext elem action
  unfold Host.inMacs
  cases op with
  | nft verb set elem' =>
    have hs : macSet action≠set := fun e => hop verb action elem' (e ▸ rfl)
    rw [exec,execNft_sets_ne env verb elem' h hs]
  | _ => rw [exec_sets env _ h (by simp)]

/-- A command on an nft set that succeeds writes one element of that set. -/
theorem exec_nft_mem {env : Env} {verb : NftVerb} {set : NftSet} {elem : String}
    (hf : env.nftFails verb set elem=false) (h : Host) :
    (exec env (.nft verb set elem) h).1=.ok () ∧
    ∀ x other, x ∈ (exec env (.nft verb set elem) h).2.sets other ↔
      if x=elem ∧ other=set then verb=.add else x ∈ h.sets other := by
  constructor
  · cases verb <;> simp [exec,execNft,hf]
  · intro x other
    by_cases hs : other=set
    · subst hs
      by_cases hx : x=elem <;> cases verb <;> simp [exec,execNft,hf,hx]
    · simp only [exec,execNft_sets_ne env verb elem h hs,hs,and_false,if_false]

theorem exec_nft_inMacs {env : Env} (hok : env.MacsOk) (verb : NftVerb) (action : NacAction)
    (elem : String) (h : Host) :
    (exec env (.nft verb (macSet action) elem) h).1=.ok () ∧
    ∀ x a, (exec env (.nft verb (macSet action) elem) h).2.inMacs x a ↔
      if x=elem ∧ a=action then verb=.add else h.inMacs x a := by
  obtain ⟨hr,hm⟩ := exec_nft_mem (hok verb action elem) h
  refine ⟨hr,fun x a => ?_⟩
  simpa only [Host.inMacs,macSet_inj] using hm x (macSet a)

section Treatment

variable {env : Env} (rt : Runtime)

theorem nftMoveIp_inMacs (env : Env) (action : NacAction) (ip : Option String) (h : Host) :
    ((nftMoveIp action ip).run (exec env) h).2.inMacs=h.inMacs := by
  refine Proc.Only.run_frame (s := OffMacs) Host.inMacs (exec_inMacs env) ?_ h
  unfold nftMoveIp
  split
  · refine .bind (Proc.only_perform.mpr ?_) fun _ => .bind (Proc.only_perform.mpr ?_) fun _ => ?_
    all_goals simp [OffMacs]
  · trivial

/-- What a treatment leaves in the MAC sets: the device in the set of its action only, every
other device where it was. -/
theorem nftTreat_inMacs (hok : env.MacsOk) (action : NacAction) (mac : String)
    (ip : Option String) (h : Host) (x : String) (a : NacAction) :
    ((nftTreat rt action mac ip).run (exec env) h).2.inMacs x a ↔
      if x=nftMac rt mac then action=a else h.inMacs x a := by
  obtain ⟨-,hleave⟩ := exec_nft_inMacs hok .delete action.other (nftMac rt mac) h
  obtain ⟨hr,henter⟩ := exec_nft_inMacs hok .add action (nftMac rt mac)
    (exec env (.nft .delete (macSet action.other) (nftMac rt mac)) h).2
  simp only [nftTreat,tryNft,nft,Proc.run_bind,Proc.run_perform,Proc.run_performOrFail,id,hr,
    nftMoveIp_inMacs,henter,hleave]
  cases action <;> cases a <;> by_cases hx : x=nftMac rt mac <;> simp [hx,NacAction.other]

theorem removeIp_inMacs (env : Env) (ip : String) (h : Host) :
    ((removeIp .nft ip).run (exec env) h).2.inMacs=h.inMacs := by
  refine Proc.Only.run_frame (s := OffMacs) Host.inMacs (exec_inMacs env) ?_ h
  refine (removeIp_performs ip).mono fun op hop => ?_
  cases hop <;> simp [OffMacs]

/-- An allow takes the device out of both MAC sets. -/
theorem allow_inMacs (hok : env.MacsOk) (mac : String) (ip : Option String) (h : Host)
    (x : String) (a : NacAction) :
    ((allow rt .nft mac ip).run (exec env) h).2.inMacs x a ↔
      x≠nftMac rt mac ∧ h.inMacs x a := by
  obtain ⟨-,hblock⟩ := exec_nft_inMacs hok .delete .block (nftMac rt mac) h
  obtain ⟨-,hquar⟩ := exec_nft_inMacs hok .delete .quarantine (nftMac rt mac)
    (exec env (.nft .delete (macSet .block) (nftMac rt mac)) h).2
  have tail (w : Host) : ((allowIp ip).run (exec env) w).2.inMacs=w.inMacs := by
    unfold allowIp
    split
    · exact removeIp_inMacs ..
    · rfl
  simp only [macSet] at hblock hquar
  simp only [allow,tryNft,Proc.run_bind,Proc.run_perform,tail,hquar,hblock]
  cases a <;> by_cases hx : x=nftMac rt mac <;> simp [hx]

theorem executeCommand_inMacs (hok : env.MacsOk) (cmd : EnforcementCommand) (h : Host)
    (x : String) (a : NacAction) :
    ((executeCommand rt .nft cmd).run (exec env) h).2.inMacs x a ↔
      if x=nftMac rt cmd.macAddress then mapAction cmd.action=a else h.inMacs x a := by
  have release (w : Host) : ((releaseOldIp rt .nft cmd).run (exec env) w).2.inMacs=w.inMacs := by
    refine Proc.Only.run_frame (s := OffMacs) Host.inMacs (exec_inMacs env) ?_ w
    refine (releaseOldIp_performs rt cmd).mono fun op hop => ?_
    cases hop <;> simp [OffMacs]
  have arp (w : Host) : ((enforceArp rt cmd (mapAction cmd.action)).run (exec env) w).2.inMacs=
      w.inMacs := by
    refine Proc.Only.run_frame (s := OffMacs) Host.inMacs (exec_inMacs env) ?_ w
    refine (enforceArp_performs rt cmd _).mono fun op hop => ?_
    rcases hop with hop | hop
    · cases op <;> simp_all [ArpOp,OffMacs]
    · cases hop; simp [OffMacs]
  rw [executeCommand,(releaseOldIp_total rt .nft cmd).run_bind,treat_nft,Proc.run_bind]
  have treated := nftTreat_inMacs rt hok (mapAction cmd.action) cmd.macAddress (ipOpt cmd)
    ((releaseOldIp rt .nft cmd).run (exec env) h).2 x a
  rw [release] at treated
  rw [← treated]
  split
  · rename_i heq
    rw [arp,heq]
  · rename_i heq
    rw [heq]

theorem executeAllow_inMacs (hok : env.MacsOk) (cmd : EnforcementCommand) (h : Host)
    (x : String) (a : NacAction) :
    ((executeAllow rt .nft cmd).run (exec env) h).2.inMacs x a ↔
      x≠nftMac rt cmd.macAddress ∧ h.inMacs x a := by
  have rest (w : Host) : (Proc.run (exec env) (do
      let entry ← stateRemove (stateKey rt cmd)
      restoreArp cmd entry) w).2.inMacs=w.inMacs := by
    refine Proc.Only.run_frame (s := OffMacs) Host.inMacs (exec_inMacs env) ?_ w
    refine .bind (Proc.only_perform.mpr (by simp [OffMacs])) fun entry => ?_
    refine (restoreArp_performs cmd entry).mono fun op hop => ?_
    cases op <;> simp_all [ArpOp,OffMacs]
  rw [executeAllow,(allow_total rt .nft cmd.macAddress (ipOpt cmd)).run_bind,rest,
    allow_inMacs rt hok]

/-- One command puts its device in the set it asks for, or in none, and moves no other device,
however far its handling gets. -/
theorem handle_inMacs {c : Env × EnforcementCommand} (hok : c.1.MacsOk) {m : MacAddr}
    (hm : parseMac c.2.macAddress=some m) (h : Host) (x : String) (a : NacAction) :
    (handle rt .nft h c).inMacs x a ↔
      if x=m.text then c.2.treatment=some a else h.inMacs x a := by
  have hx : nftMac rt (received c.2).macAddress=m.text := nftMac_eq rt hm
  rw [handle_eq]
  by_cases hallow : isAllowAction c.2.action=true
  · rw [if_pos hallow,executeAllow_inMacs rt hok,hx]
    by_cases hxm : x=m.text <;> simp [hxm,EnforcementCommand.treatment,hallow]
  · rw [if_neg hallow,executeCommand_inMacs rt hok,hx]
    simp [EnforcementCommand.treatment,hallow]

end Treatment

section LastWriter

variable (rt : Runtime)

end LastWriter

end NacPlatform.Enforcement
