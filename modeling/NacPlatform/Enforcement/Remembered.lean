import NacPlatform.Enforcement.MacSets

namespace NacPlatform.Enforcement

/-! What a command leaves in the quarantine state. -/

theorem lookup_insert_eq {s : QuarantineState} {key k : String} {entry e : QuarantineEntry} :
    (s.insert key entry).lookup k=some e ↔
      if k=key then entry=e else s.lookup k=some e := by
  by_cases hk : k=key
  · rw [if_pos hk,hk,AList.lookup_insert,Option.some.injEq]
  · rw [if_neg hk,AList.lookup_insert_ne hk]

theorem lookup_erase_eq {s : QuarantineState} {key k : String} {e : QuarantineEntry} :
    (s.erase key).lookup k=some e ↔ k≠key ∧ s.lookup k=some e := by
  by_cases hk : k=key
  · rw [hk,AList.lookup_erase]
    simp
  · simp [hk,AList.lookup_erase_ne]

/-- The gateway `commandGateway` finds. -/
def knownGateway (env : Env) (cmd : EnforcementCommand) : Option Ipv4Addr :=
  if cmd.gatewayIp != "" && cmd.gatewayIp != "0.0.0.0" then Ipv4Addr.parse cmd.gatewayIp
  else env.route.bind detectDefaultGateway

/-- Neither of the two poison frames fails. -/
def poisonOk (env : Env) (myMac : MacAddr) (victimIp : Ipv4Addr) (victimMac : MacAddr)
    (gatewayIp : Ipv4Addr) : Bool :=
  let gwMac := (env.arp.bind fun content => getArpMac content gatewayIp).getD .broadcast
  !env.sendFails (craftArpReply victimMac myMac gatewayIp victimMac victimIp) &&
    !env.sendFails (craftArpReply gwMac myMac victimIp gwMac gatewayIp)

/-- The entry a block or quarantine command is remembered by: its device's addresses and the
gateway are known, and no poison frame fails. -/
def commandEntry (env : Env) (spoofer : Option MacAddr) (cmd : EnforcementCommand) :
    Option QuarantineEntry := do
  let ip ← ipOpt cmd
  let victimIp ← Ipv4Addr.parse ip
  let victimMac ← parseMac cmd.macAddress
  let gatewayIp ← knownGateway env cmd
  if spoofer.all fun myMac => poisonOk env myMac victimIp victimMac gatewayIp then
    some ⟨victimIp,victimMac,gatewayIp,mapAction cmd.action⟩
  else none

/-- A remembered command names its entry's device. -/
theorem commandEntry_eq_some {env : Env} {spoofer : Option MacAddr} {cmd : EnforcementCommand}
    {entry : QuarantineEntry} (h : commandEntry env spoofer cmd=some entry) :
    Ipv4Addr.parse cmd.ipAddress=some entry.victimIp ∧ usableIp cmd.ipAddress=true ∧
    parseMac cmd.macAddress=some entry.victimMac ∧ entry.action=mapAction cmd.action := by
  simp only [commandEntry,ipOpt_eq,Option.bind_eq_bind,Option.bind_eq_some_iff,
    Option.filter_eq_some_iff] at h
  obtain ⟨ip,⟨hip,husable⟩,victimIp,hvi,victimMac,hvm,gatewayIp,-,h⟩ := h
  cases hip
  split at h
  · cases h
    exact ⟨hvi,husable,hvm,rfl⟩
  · cases h

/-- Operations that leave the quarantine state alone. -/
def OffState : EnfOp → Prop
  | .stateInsert .. => False
  | .stateRemove .. => False
  | _ => True

theorem exec_state (env : Env) (op : EnfOp) (h : Host) (hop : OffState op) :
    (exec env op h).2.state=h.state := by
  cases op with
  | nft verb set elem => simp only [exec,execNft]; split <;> [rfl; (cases verb <;> rfl)]
  | iptInsert chain rule => simp only [exec,execIpt]; split <;> rfl
  | iptAppend chain rule => simp only [exec,execIpt]; split <;> rfl
  | iptDeleteLoop chain rule => simp only [exec]; split <;> rfl
  | sendFrame frame => simp only [exec]; split <;> rfl
  | stateInsert key entry => exact absurd hop id
  | stateRemove key => exact absurd hop id
  | _ => rfl

theorem exec_spoofer (env : Env) (op : EnfOp) (h : Host) :
    (exec env op h).2.spoofer=h.spoofer := by
  cases op with
  | nft verb set elem => simp only [exec,execNft]; split <;> [rfl; (cases verb <;> rfl)]
  | iptInsert chain rule => simp only [exec,execIpt]; split <;> rfl
  | iptAppend chain rule => simp only [exec,execIpt]; split <;> rfl
  | iptDeleteLoop chain rule => simp only [exec]; split <;> rfl
  | sendFrame frame => simp only [exec]; split <;> rfl
  | _ => rfl

section Effect

variable {env : Env} (rt : Runtime)

theorem run_commandGateway (env : Env) (cmd : EnforcementCommand) (h : Host) :
    (commandGateway cmd).run (exec env) h=(.ok (knownGateway env cmd),h) := by
  unfold commandGateway knownGateway
  split <;> rfl

/-- A device is poisoned, up to the first frame that fails. -/
theorem run_poison (env : Env) (myMac : MacAddr) (victimIp : Ipv4Addr) (victimMac : MacAddr)
    (gatewayIp : Ipv4Addr) (h : Host) :
    ∃ frames, (poison myMac victimIp victimMac gatewayIp).run (exec env) h=
      (if poisonOk env myMac victimIp victimMac gatewayIp then .ok () else .error .sendFrame,
        { h with frames := frames }) := by
  simp only [poison,sendFrame,arpLookup,Proc.run_bind,Proc.run_perform,Proc.run_performOrFail,id,
    exec]
  cases h1 : env.sendFails (craftArpReply victimMac myMac gatewayIp victimMac victimIp) with
  | true => exact ⟨h.frames,by simp [poisonOk,h1]⟩
  | false =>
    simp only [Bool.false_eq_true,if_false,poisonOk,h1]
    split <;> rename_i h2
    · exact ⟨_,by simp [h2]; rfl⟩
    · exact ⟨_,by simp [h2]; rfl⟩

/-- The ARP part of a command remembers the command as `commandEntry` says. -/
theorem enforceArp_state (env : Env) (cmd : EnforcementCommand) (h : Host) :
    ((enforceArp rt cmd (mapAction cmd.action)).run (exec env) h).2.state=
      match commandEntry env h.spoofer cmd with
      | some entry => h.state.insert (stateKey rt cmd) entry
      | none => h.state := by
  unfold enforceArp commandEntry
  cases hip : ipOpt cmd with
  | none => rfl
  | some ip =>
    cases hvi : Ipv4Addr.parse ip with
    | none => simp [hvi]
    | some victimIp =>
      cases hvm : parseMac cmd.macAddress with
      | none => simp [hvi]
      | some victimMac =>
        cases hgw : knownGateway env cmd with
        | none => simp [hvi,Proc.run_bind,run_commandGateway,hgw]
        | some gatewayIp =>
          cases hs : h.spoofer with
          | none =>
            simp [hvi,Proc.run_bind,run_commandGateway,hgw,lockSpoofer,exec,hs,updateState,
              stateInsert]
          | some myMac =>
            obtain ⟨frames,hp⟩ := run_poison env myMac victimIp victimMac gatewayIp h
            cases hok : poisonOk env myMac victimIp victimMac gatewayIp <;>
              simp [hvi,Proc.run_bind,run_commandGateway,hgw,lockSpoofer,exec,hs,hp,hok,
                updateState,stateInsert]

theorem nftTreat_state (env : Env) (action : NacAction) (mac : String) (ip : Option String)
    (h : Host) : ((nftTreat rt action mac ip).run (exec env) h).2.state=h.state := by
  refine Proc.Only.run_frame (s := OffState) Host.state (exec_state env) ?_ h
  exact (nftTreat_performs rt action mac ip).mono fun op hop => by cases hop <;> trivial

theorem run_spoofer {α : Type} (env : Env) (p : EnfProc α) (h : Host) :
    (p.run (exec env) h).2.spoofer=h.spoofer := by
  refine Proc.Only.run_frame (s := fun _ => True) Host.spoofer
    (fun op w _ => exec_spoofer env op w) ?_ h
  induction p with
  | ret a => trivial
  | fail e => trivial
  | call op k ih => exact ⟨trivial,fun r _ => ih r⟩

/-- A treatment goes through when the MAC sets can be changed: errors on addresses are ignored. -/
theorem nftTreat_ok (hok : env.MacsOk) (action : NacAction) (mac : String) (ip : Option String)
    (h : Host) : ((nftTreat rt action mac ip).run (exec env) h).1=.ok () := by
  have move : (nftMoveIp action ip).Total := by
    unfold nftMoveIp
    split
    · exact .bind (Proc.total_perform _) fun _ => .bind (Proc.total_perform _) fun _ => trivial
    · trivial
  obtain ⟨hr,-⟩ := exec_nft_inMacs hok .add action (nftMac rt mac)
    (exec env (.nft .delete (macSet action.other) (nftMac rt mac)) h).2
  simp only [nftTreat,tryNft,nft,Proc.run_bind,Proc.run_perform,Proc.run_performOrFail,id,hr]
  obtain ⟨u,hu⟩ := move.run_eq (exec env) (exec env (.nft .add (macSet action) (nftMac rt mac))
    (exec env (.nft .delete (macSet action.other) (nftMac rt mac)) h).2).2
  rw [hu]

theorem executeCommand_state (hok : env.MacsOk) (cmd : EnforcementCommand) (h : Host) :
    ((executeCommand rt .nft cmd).run (exec env) h).2.state=
      match commandEntry env h.spoofer cmd with
      | some entry => h.state.insert (stateKey rt cmd) entry
      | none => h.state := by
  have release : ((releaseOldIp rt .nft cmd).run (exec env) h).2.state=h.state := by
    refine Proc.Only.run_frame (s := OffState) Host.state (exec_state env) ?_ h
    exact (releaseOldIp_performs rt cmd).mono fun op hop => by cases hop <;> trivial
  rw [executeCommand,(releaseOldIp_total rt .nft cmd).run_bind,treat_nft]
  generalize hw : ((releaseOldIp rt .nft cmd).run (exec env) h).2=w at release
  have hsp : w.spoofer=h.spoofer := hw ▸ run_spoofer env _ h
  have hr := nftTreat_ok rt hok (mapAction cmd.action) cmd.macAddress (ipOpt cmd) w
  have hst := nftTreat_state rt env (mapAction cmd.action) cmd.macAddress (ipOpt cmd) w
  have hsp' := run_spoofer env (nftTreat rt (mapAction cmd.action) cmd.macAddress (ipOpt cmd)) w
  rw [Proc.run_bind]
  rcases hrun : (nftTreat rt (mapAction cmd.action) cmd.macAddress (ipOpt cmd)).run (exec env) w
    with ⟨r,w'⟩
  rw [hrun] at hr hst hsp'
  subst hr
  rw [enforceArp_state,hst,release,hsp',hsp]

/-- What one command leaves in the quarantine state. -/
theorem handle_state {c : Env × EnforcementCommand} (hok : c.1.MacsOk) (h : Host) :
    (handle rt .nft h c).state=
      if isAllowAction c.2.action then h.state.erase (stateKey rt c.2)
      else match commandEntry c.1 h.spoofer (received c.2) with
        | some entry => h.state.insert (stateKey rt c.2) entry
        | none => h.state := by
  rw [handle_eq]
  split
  · have allowed : ((allow rt .nft (received c.2).macAddress (ipOpt (received c.2))).run
        (exec c.1) h).2.state=h.state := by
      refine Proc.Only.run_frame (s := OffState) Host.state (exec_state c.1) ?_ h
      refine (allow_performs rt _ _).mono ?_
      intro op given
      obtain ⟨set,elem,rfl⟩ := given
      trivial
    have restored (entry : Option QuarantineEntry) (w : Host) :
        ((restoreArp (received c.2) entry).run (exec c.1) w).2.state=w.state := by
      refine Proc.Only.run_frame (s := OffState) Host.state (exec_state c.1) ?_ w
      exact (restoreArp_performs _ entry).mono fun op hop => by cases op <;> simp_all [ArpOp,OffState]
    rw [executeAllow,(allow_total rt .nft _ _).run_bind,stateRemove,Proc.run_bind,
      Proc.run_perform]
    simp only [restored,exec,allowed,stateKey_received]
  · exact executeCommand_state rt hok (received c.2) h

end Effect

end NacPlatform.Enforcement
