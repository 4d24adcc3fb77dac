import NacPlatform.Enforcement.Remembered

namespace NacPlatform.Enforcement

/-! What the steps of the service send on the ARP side. -/

/-- Firewall commands, and looks into the quarantine state. -/
def FirewallOp : EnfOp → Prop
  | .nft .. => True
  | .iptCheck .. => True
  | .iptInsert .. => True
  | .iptAppend .. => True
  | .iptDeleteLoop .. => True
  | .stateGet _ => True
  | _ => False

/-- What the ARP side works on. -/
def Host.arpSide (h : Host) : List (FrameKind × ArpFrame) × QuarantineState := (h.frames,h.state)

theorem exec_arpSide (env : Env) (op : EnfOp) (h : Host) (hop : FirewallOp op) :
    (exec env op h).2.arpSide=h.arpSide := by
  cases op with
  | nft verb set elem => simp only [exec,execNft]; split <;> [rfl; (cases verb <;> rfl)]
  | iptCheck chain rule => rfl
  | iptInsert chain rule => simp only [exec,execIpt]; split <;> rfl
  | iptAppend chain rule => simp only [exec,execIpt]; split <;> rfl
  | iptDeleteLoop chain rule => simp only [exec]; split <;> rfl
  | stateGet key => rfl
  | _ => exact absurd hop id

section Firewall

variable (rt : Runtime) (ipt : Backend)

theorem ipt_firewallOps (mac : String) :
    Performs FirewallOp (iptBlock rt mac) ∧ Performs FirewallOp (iptQuarantine rt mac) ∧
      Performs FirewallOp (iptAllow rt mac) := by
  have loop (chain : Chain) (rule : IptRule) :
      Performs FirewallOp (iptDeleteLoop chain rule) := Proc.only_perform.mpr trivial
  have release (mac : String) : Performs FirewallOp (iptRemoveQuarantine mac) :=
    .bind (loop _ _) fun _ => .bind (loop _ _) fun _ => loop _ _
  have insert (chain : Chain) (rule : IptRule) :
      Performs FirewallOp (iptInsert chain rule) := Proc.only_performOrFail.mpr trivial
  refine ⟨?_,?_,.bind (loop _ _) fun _ => release _⟩
  · refine .bind (release _) fun _ => .bind (Proc.only_perform.mpr trivial) fun found => ?_
    cases found with
    | true => exact Proc.only_pure _
    | false => exact insert _ _
  · refine .bind (loop _ _) fun _ => .bind (Proc.only_perform.mpr trivial) fun found => ?_
    cases found with
    | true => exact Proc.only_pure _
    | false =>
      exact .bind (insert _ _) fun _ => .bind (insert _ _) fun _ =>
        Proc.only_performOrFail.mpr trivial

theorem treat_firewallOps (action : NacAction) (mac : String) (ip : Option String) :
    Performs FirewallOp (treat rt ipt action mac ip) := by
  cases ipt with
  | nft =>
    rw [treat_nft]
    exact (nftTreat_performs rt action mac ip).mono fun op hop => by cases hop <;> trivial
  | iptablesLegacy =>
    cases action with
    | block => exact (ipt_firewallOps rt mac).1
    | quarantine => exact (ipt_firewallOps rt mac).2.1
  | unavailable =>
    cases action with
    | block => exact Proc.only_pure _
    | quarantine => exact Proc.only_pure _

theorem allow_firewallOps (mac : String) (ip : Option String) :
    Performs FirewallOp (allow rt ipt mac ip) := by
  cases ipt with
  | nft =>
    refine (allow_performs rt mac ip).mono ?_
    intro op given
    obtain ⟨set,elem,rfl⟩ := given
    trivial
  | iptablesLegacy => exact (ipt_firewallOps rt mac).2.2
  | unavailable => exact Proc.only_pure _

theorem releaseOldIp_firewallOps (cmd : EnforcementCommand) :
    Performs FirewallOp (releaseOldIp rt ipt cmd) := by
  have remove (ip : String) : Performs FirewallOp (removeIp ipt ip) := by
    cases ipt with
    | nft =>
      exact .bind (Proc.only_perform.mpr trivial) fun _ =>
        .bind (Proc.only_perform.mpr trivial) fun _ => Proc.only_pure _
    | iptablesLegacy => exact Proc.only_pure _
    | unavailable => exact Proc.only_pure _
  unfold releaseOldIp
  split
  · refine .bind (Proc.only_perform.mpr trivial) fun old => ?_
    split
    · split
      · exact Proc.only_pure _
      · exact remove _
    · exact Proc.only_pure _
  · exact Proc.only_pure _

/-- The part of `execute_command` before the ARP side. -/
def firewallPart (cmd : EnforcementCommand) : EnfProc Unit := do
  releaseOldIp rt ipt cmd
  treat rt ipt (mapAction cmd.action) cmd.macAddress (ipOpt cmd)

theorem executeCommand_eq (cmd : EnforcementCommand) : executeCommand rt ipt cmd=
    firewallPart rt ipt cmd >>= fun _ => enforceArp rt cmd (mapAction cmd.action) :=
  (Proc.bind_assoc ..).symm

theorem firewallPart_arpSide (env : Env) (cmd : EnforcementCommand) (h : Host) :
    ((firewallPart rt ipt cmd).run (exec env) h).2.arpSide=h.arpSide := by
  refine Proc.Only.run_frame (s := FirewallOp) Host.arpSide (exec_arpSide env) ?_ h
  exact .bind (releaseOldIp_firewallOps rt ipt cmd) fun _ => treat_firewallOps rt ipt _ _ _

end Firewall

section Frames

variable (env : Env) (myMac : MacAddr)

/-- Frames sent one after another, up to the first that fails. -/
def sentFrames (kind : FrameKind) (frames : List ArpFrame) : List (FrameKind × ArpFrame) :=
  (frames.takeWhile fun frame => !env.sendFails frame).map (kind,·)

def Host.send (h : Host) (frames : List (FrameKind × ArpFrame)) : Host :=
  { h with frames := h.frames++frames }

theorem run_sendFrame_bind {α : Type} (kind : FrameKind) (frame : ArpFrame) (f : Unit → EnfProc α)
    (h : Host) : (sendFrame kind frame >>= f).run (exec env) h=
      if env.sendFails frame then (.error .sendFrame,h)
      else (f ()).run (exec env) (h.send [(kind,frame)]) := by
  rw [sendFrame,Proc.run_bind,Proc.run_performOrFail]
  cases hf : env.sendFails frame <;> simp [exec,hf,Host.send]

theorem run_sendFrame (kind : FrameKind) (frame : ArpFrame) (h : Host) :
    (sendFrame kind frame).run (exec env) h=
      if env.sendFails frame then (.error .sendFrame,h)
      else (.ok (),h.send [(kind,frame)]) := by
  rw [sendFrame,Proc.run_performOrFail]
  cases hf : env.sendFails frame <;> simp [exec,hf,Host.send]

/-- The gateway's hardware address, or all of them if it is not known. -/
def arpMac (ip : Ipv4Addr) : MacAddr :=
  (env.arp.bind fun content => getArpMac content ip).getD .broadcast

def poisonFrames (victimIp : Ipv4Addr) (victimMac : MacAddr) (gatewayIp : Ipv4Addr) :
    List ArpFrame :=
  [craftArpReply victimMac myMac gatewayIp victimMac victimIp,
    craftArpReply (arpMac env gatewayIp) myMac victimIp (arpMac env gatewayIp) gatewayIp]

def restoreFrames (victimIp : Ipv4Addr) (victimMac : MacAddr) (gatewayIp : Ipv4Addr)
    (gatewayMac : MacAddr) : List ArpFrame :=
  [craftArpReply victimMac gatewayMac gatewayIp victimMac victimIp,
    craftArpReply gatewayMac victimMac victimIp gatewayMac gatewayIp,
    craftGratuitousArp victimMac victimIp victimIp]

theorem run_poison_frames (victimIp : Ipv4Addr) (victimMac : MacAddr) (gatewayIp : Ipv4Addr)
    (h : Host) : (poison myMac victimIp victimMac gatewayIp).run (exec env) h=
      (if poisonOk env myMac victimIp victimMac gatewayIp then .ok () else .error .sendFrame,
        h.send (sentFrames env .poison (poisonFrames env myMac victimIp victimMac gatewayIp))) := by
  have hok : poisonOk env myMac victimIp victimMac gatewayIp=
      (poisonFrames env myMac victimIp victimMac gatewayIp).all (!env.sendFails ·) := by
    simp [poisonOk,poisonFrames,arpMac]
  rw [poison,run_sendFrame_bind,arpLookup,hok,poisonFrames,sentFrames]
  cases h1 : env.sendFails (craftArpReply victimMac myMac gatewayIp victimMac victimIp) with
  | true => simp [h1,Host.send]
  | false =>
    rw [if_neg (by simp),Proc.run_bind,Proc.run_perform]
    simp only [exec]
    rw [run_sendFrame]
    simp only [arpMac]
    split <;> rename_i h2 <;> simp [h1,h2,Host.send]

theorem run_spooferAllow (victimIp : Ipv4Addr) (victimMac : MacAddr) (gatewayIp : Ipv4Addr)
    (gatewayMac : MacAddr) (h : Host) :
    ((spooferAllow victimIp victimMac gatewayIp gatewayMac).run (exec env) h).2=
      h.send (sentFrames env .restore
        (restoreFrames victimIp victimMac gatewayIp gatewayMac)) := by
  rw [spooferAllow,run_sendFrame_bind,restoreFrames,sentFrames]
  cases h1 : env.sendFails (craftArpReply victimMac gatewayMac gatewayIp victimMac victimIp) with
  | true => simp [h1,Host.send]
  | false =>
    rw [if_neg (by simp),run_sendFrame_bind]
    cases h2 : env.sendFails (craftArpReply gatewayMac victimMac victimIp gatewayMac gatewayIp) with
    | true => simp [h1,h2,Host.send]
    | false =>
      rw [if_neg (by simp),run_sendFrame]
      split <;> rename_i h3 <;> simp [h1,h2,h3,Host.send]

end Frames

section Effects

variable (rt : Runtime) (env : Env) {myMac : MacAddr} {h : Host}

/-- A command either leaves the ARP side alone, or poisons its device through the gateway that is
known; it is remembered if both frames go out. -/
inductive Poisons (env : Env) (myMac : MacAddr) (rt : Runtime) (cmd : EnforcementCommand)
    (h h' : Host) : Prop where
  | quiet (same : h'.arpSide=h.arpSide)
  | poisoned (victimIp : Ipv4Addr) (victimMac : MacAddr) (gatewayIp : Ipv4Addr)
      (ip : (ipOpt cmd).bind Ipv4Addr.parse=some victimIp)
      (mac : parseMac cmd.macAddress=some victimMac)
      (gateway : knownGateway env cmd=some gatewayIp)
      (frames : h'.frames=h.frames++
        sentFrames env .poison (poisonFrames env myMac victimIp victimMac gatewayIp))
      (state : h'.state=if poisonOk env myMac victimIp victimMac gatewayIp then
        h.state.insert (stateKey rt cmd) ⟨victimIp,victimMac,gatewayIp,mapAction cmd.action⟩
        else h.state)

theorem enforceArp_poisons (hs : h.spoofer=some myMac) (cmd : EnforcementCommand) :
    Poisons env myMac rt cmd h
      ((enforceArp rt cmd (mapAction cmd.action)).run (exec env) h).2 := by
  unfold enforceArp
  cases hip : ipOpt cmd with
  | none => exact .quiet rfl
  | some ip =>
    cases hvi : Ipv4Addr.parse ip with
    | none => exact .quiet (by simp [hvi])
    | some victimIp =>
      cases hvm : parseMac cmd.macAddress with
      | none => exact .quiet (by simp [hvi])
      | some victimMac =>
        simp only [hvi,Proc.run_bind,run_commandGateway]
        cases hgw : knownGateway env cmd with
        | none => exact .quiet rfl
        | some gatewayIp =>
          simp only [lockSpoofer,Proc.run_bind,Proc.run_perform,exec,hs,spoof_eq,
            run_poison_frames]
          refine .poisoned victimIp victimMac gatewayIp (by rw [hip]; exact hvi) hvm hgw ?_ ?_
          all_goals cases hok : poisonOk env myMac victimIp victimMac gatewayIp <;>
            simp [updateState,stateInsert,exec,Host.send]

/-- The gateway that an allow restores. -/
def restoredGateway (entry : Option QuarantineEntry) : Option Ipv4Addr :=
  match entry with
  | some entry => some entry.gatewayIp
  | none => env.route.bind detectDefaultGateway

/-- What an allow takes for the hardware address of a gateway. -/
def restoredMac (cmd : EnforcementCommand) (gatewayIp : Ipv4Addr) : MacAddr :=
  (cmd.gatewayMac.bind parseMac).getD (arpMac env gatewayIp)

/-- The frames of an allow, up to the first that fails. -/
def restoreSent (cmd : EnforcementCommand) (entry : Option QuarantineEntry) :
    List (FrameKind × ArpFrame) :=
  let gatewayIp := (restoredGateway env entry).getD .unspecified
  match (entry.map (·.victimMac)).or (parseMac cmd.macAddress),
    (entry.map (·.victimIp)).or (Ipv4Addr.parse cmd.ipAddress) with
  | some victimMac,some victimIp => sentFrames env .restore
    (restoreFrames victimIp victimMac gatewayIp (restoredMac env cmd gatewayIp))
  | _,_ => []

theorem run_restoreGateway (entry : Option QuarantineEntry) (h : Host) :
    (restoreGateway entry).run (exec env) h=(.ok (restoredGateway env entry),h) := by
  cases entry <;> rfl

theorem run_commandGatewayMac (cmd : EnforcementCommand) (gatewayIp : Ipv4Addr) (h : Host) :
    ∃ mac, (commandGatewayMac cmd gatewayIp).run (exec env) h=(.ok mac,h) ∧
      mac.getD .broadcast=restoredMac env cmd gatewayIp := by
  unfold commandGatewayMac restoredMac
  cases cmd.gatewayMac.bind parseMac with
  | none => exact ⟨_,rfl,rfl⟩
  | some mac => exact ⟨_,rfl,rfl⟩

theorem restoreArp_send (hs : h.spoofer=some myMac) (cmd : EnforcementCommand)
    (entry : Option QuarantineEntry) :
    ((restoreArp cmd entry).run (exec env) h).2=h.send (restoreSent env cmd entry) := by
  have quiet : h=h.send [] := by simp [Host.send]
  unfold restoreArp restoreSent
  cases (entry.map (·.victimMac)).or (parseMac cmd.macAddress) with
  | none => exact quiet
  | some victimMac =>
    cases (entry.map (·.victimIp)).or (Ipv4Addr.parse cmd.ipAddress) with
    | none => exact quiet
    | some victimIp =>
      obtain ⟨mac,hrun,hmac⟩ := run_commandGatewayMac env cmd
        ((restoredGateway env entry).getD .unspecified) h
      simp only [Proc.run_bind,run_restoreGateway,hrun,hmac,lockSpoofer,Proc.run_perform,exec,hs,
        run_spooferAllow]

theorem executeAllow_arpSide (ipt : Backend) (hs : h.spoofer=some myMac)
    (cmd : EnforcementCommand) :
    ((executeAllow rt ipt cmd).run (exec env) h).2.arpSide=
      (h.frames++restoreSent env cmd (h.state.lookup (stateKey rt cmd)),
        h.state.erase (stateKey rt cmd)) := by
  have side : ((allow rt ipt cmd.macAddress (ipOpt cmd)).run (exec env) h).2.arpSide=h.arpSide :=
    Proc.Only.run_frame (s := FirewallOp) Host.arpSide (exec_arpSide env)
      (allow_firewallOps rt ipt _ _) h
  have hs' := run_spoofer env (allow rt ipt cmd.macAddress (ipOpt cmd)) h
  rw [executeAllow,(allow_total rt ipt _ _).run_bind,stateRemove,Proc.run_bind,Proc.run_perform]
  generalize ((allow rt ipt cmd.macAddress (ipOpt cmd)).run (exec env) h).2=w at side hs'
  simp only [Host.arpSide,Prod.mk.injEq] at side
  have restored := restoreArp_send env (h := { w with state := w.state.erase (stateKey rt cmd) })
    (hs'.trans hs) cmd (w.state.lookup (stateKey rt cmd))
  simp only [exec]
  rw [restored]
  simp only [Host.arpSide,Host.send,side]

theorem executeCommand_poisons (ipt : Backend) (hs : h.spoofer=some myMac)
    (cmd : EnforcementCommand) :
    let h' := ((executeCommand rt ipt cmd).run (exec env) h).2
    h'.arpSide=h.arpSide ∨
      ((firewallPart rt ipt cmd).run (exec env) h).1=.ok () ∧ Poisons env myMac rt cmd h h' := by
  intro h'
  have side := firewallPart_arpSide rt ipt env cmd h
  have hs' := run_spoofer env (firewallPart rt ipt cmd) h
  have hrun : h'=((firewallPart rt ipt cmd >>= fun _ =>
      enforceArp rt cmd (mapAction cmd.action)).run (exec env) h).2 := by
    rw [← executeCommand_eq]
  rw [Proc.run_bind] at hrun
  rcases hfw : (firewallPart rt ipt cmd).run (exec env) h with ⟨r,w⟩
  rw [hfw] at hrun side hs'
  cases r with
  | error e =>
    rw [hrun]
    exact .inl side
  | ok _ =>
    refine .inr ⟨rfl,?_⟩
    rw [hrun]
    simp only [Host.arpSide,Prod.mk.injEq] at side
    have poisons := enforceArp_poisons rt env (hs'.trans hs) cmd
    cases poisons with
    | quiet same => exact .quiet (same.trans (by simp [Host.arpSide,side]))
    | poisoned victimIp victimMac gatewayIp ip mac gateway frames state =>
      rw [side.1] at frames
      rw [side.2] at state
      exact .poisoned victimIp victimMac gatewayIp ip mac gateway frames state

/-- A tick poisons the devices of all entries through the gateway of now, if there is one. -/
theorem repoisonEntries_send (currentGw : Option Ipv4Addr)
    (entries : List (String × QuarantineEntry)) (h : Host) :
    (repoisonEntries myMac currentGw entries).run (exec env) h=
      (.ok (),h.send (entries.flatMap fun e => sentFrames env .poison
        (poisonFrames env myMac e.2.victimIp e.2.victimMac (currentGw.getD e.2.gatewayIp)))) := by
  induction entries generalizing h with
  | nil => simp [repoisonEntries,Host.send]
  | cons e entries ih =>
    obtain ⟨key,entry⟩ := e
    simp only [repoisonEntries,spoof_eq,Proc.run_bind,Proc.run_attempt,run_poison_frames,ih]
    simp [Host.send]

theorem repoisonRest_send (hs : h.spoofer=some myMac) (entries : List (String × QuarantineEntry)) :
    ((repoisonRest entries).run (exec env) h).2=h.send (entries.flatMap fun e =>
      sentFrames env .poison (poisonFrames env myMac e.2.victimIp e.2.victimMac
        ((env.route.bind detectDefaultGateway).getD e.2.gatewayIp))) := by
  cases entries with
  | nil => simp [repoisonRest,Host.send]
  | cons e entries =>
    rw [repoisonRest,if_neg (by simp),lockSpoofer,Proc.run_bind,Proc.run_perform]
    simp only [exec,hs,detectGateway,Proc.run_bind,Proc.run_perform,repoisonEntries_send]

theorem repoisonPass_send (hs : h.spoofer=some myMac) :
    (repoisonPass.run (exec env) h).2=h.send ((env.walk h.entries).flatMap fun e =>
      sentFrames env .poison (poisonFrames env myMac e.2.victimIp e.2.victimMac
        ((env.route.bind detectDefaultGateway).getD e.2.gatewayIp))) := by
  rw [repoisonPass,stateSnapshot,Proc.run_bind,Proc.run_perform]
  exact repoisonRest_send env hs _

end Effects

end NacPlatform.Enforcement
