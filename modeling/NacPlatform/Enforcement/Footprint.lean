import NacPlatform.Enforcement.Loops

namespace NacPlatform.Enforcement

/-! Which operations each handler can perform on the nft backend. -/

/-- Any answer of the host. -/
def anyReply : (op : EnfOp) → op.Reply → Prop := fun _ _ => True

abbrev Performs {α : Type} (s : EnfOp → Prop) (p : EnfProc α) : Prop := p.Only anyReply s

/-- The operations of the ARP side, where all frames are of one kind: no firewall command, no
access to the quarantine state. -/
def ArpOp (kind : FrameKind) : EnfOp → Prop
  | .detectGateway => True
  | .arpLookup _ => True
  | .lockSpoofer => True
  | .sendFrame kind' _ => kind'=kind
  | _ => False

/-- Firewall commands that move `mac`, and `ip` if there is one, to the sets of `action`. -/
inductive TreatOp (mac : String) (ip : Option String) (action : NacAction) : EnfOp → Prop where
  | leaveMac : TreatOp mac ip action (.nft .delete (macSet action.other) mac)
  | enterMac : TreatOp mac ip action (.nft .add (macSet action) mac)
  | leaveIp (x : String) : ip=some x → TreatOp mac ip action (.nft .delete (ipSet action.other) x)
  | enterIp (x : String) : ip=some x → TreatOp mac ip action (.nft .add (ipSet action) x)

/-- Taking an address out of the IP sets, or looking up which one. -/
inductive ReleaseOp : EnfOp → Prop where
  | get (key : String) : ReleaseOp (.stateGet key)
  | leaveIp (a : NacAction) (x : String) : ReleaseOp (.nft .delete (ipSet a) x)

/-- Remembering the device a command names, under the key and the action of the command. -/
inductive RememberOp (rt : Runtime) (cmd : EnforcementCommand) (action : NacAction) :
    EnfOp → Prop where
  | insert (entry : QuarantineEntry) : entry.action=action →
      parseMac cmd.macAddress=some entry.victimMac →
      Ipv4Addr.parse cmd.ipAddress=some entry.victimIp →
      RememberOp rt cmd action (.stateInsert (stateKey rt cmd) entry)

section Footprints

variable (rt : Runtime)

theorem filter_eq_some {ip : Option String} {p : String → Bool} {x : String}
    (h : ip.filter p=some x) : ip=some x := by
  cases ip with
  | none => simp at h
  | some y => simpa using (Option.filter_eq_some_iff.mp h).1

theorem nftMoveIp_performs (action : NacAction) (mac : String) (ip : Option String) :
    Performs (TreatOp mac ip action) (nftMoveIp action ip) := by
  unfold nftMoveIp
  cases h : ip.filter usableIp with
  | none => exact Proc.only_pure _
  | some x =>
    have hx := filter_eq_some h
    refine .bind (Proc.only_perform.mpr (.leaveIp x hx)) fun _ => ?_
    exact .bind (Proc.only_perform.mpr (.enterIp x hx)) fun _ => Proc.only_pure _

theorem nftTreat_performs (action : NacAction) (mac : String) (ip : Option String) :
    Performs (TreatOp (nftMac rt mac) ip action) (nftTreat rt action mac ip) := by
  refine .bind (Proc.only_perform.mpr .leaveMac) fun _ => ?_
  exact .bind (Proc.only_performOrFail.mpr .enterMac) fun _ => nftMoveIp_performs ..

theorem removeIp_performs (x : String) : Performs ReleaseOp (removeIp .nft x) := by
  refine .bind (Proc.only_perform.mpr (.leaveIp .block x)) fun _ => ?_
  exact .bind (Proc.only_perform.mpr (.leaveIp .quarantine x)) fun _ => Proc.only_pure _

theorem releaseOldIp_performs (cmd : EnforcementCommand) :
    Performs ReleaseOp (releaseOldIp rt .nft cmd) := by
  unfold releaseOldIp
  split
  · refine .bind (Proc.only_perform.mpr (.get _)) fun old => ?_
    split
    · split
      · exact Proc.only_pure _
      · exact removeIp_performs _
    · exact Proc.only_pure _
  · exact Proc.only_pure _

theorem poison_performs (myMac : MacAddr) (victimIp : Ipv4Addr) (victimMac : MacAddr)
    (gatewayIp : Ipv4Addr) :
    Performs (ArpOp .poison) (poison myMac victimIp victimMac gatewayIp) := by
  refine .bind (Proc.only_performOrFail.mpr rfl) fun _ => ?_
  exact .bind (Proc.only_perform.mpr trivial) fun _ => Proc.only_performOrFail.mpr rfl

theorem commandGateway_only {allowed : (op : EnfOp) → op.Reply → Prop} {s : EnfOp → Prop}
    (hroute : s .detectGateway) (cmd : EnforcementCommand) :
    (commandGateway cmd).Only allowed s := by
  unfold commandGateway
  split
  · exact Proc.only_pure _
  · exact Proc.only_perform.mpr hroute

/-- The ARP part of a command looks for the gateway, poisons the device the command names and
remembers it. -/
theorem enforceArp_only {allowed : (op : EnfOp) → op.Reply → Prop} {s : EnfOp → Prop}
    (cmd : EnforcementCommand) (action : NacAction) (hroute : s .detectGateway)
    (hlock : s .lockSpoofer)
    (hpoison : ∀ myMac victimIp victimMac gatewayIp, parseMac cmd.macAddress=some victimMac →
      (poison myMac victimIp victimMac gatewayIp).Only allowed s)
    (hremember : ∀ op, RememberOp rt cmd action op → s op) :
    (enforceArp rt cmd action).Only allowed s := by
  unfold enforceArp
  split
  · exact Proc.only_pure _
  · rename_i ip hip
    have hip' : cmd.ipAddress=ip := by
      rw [ipOpt_eq] at hip
      simpa using filter_eq_some hip
    split
    · rename_i victimIp victimMac hvi hvm
      have remember (gatewayIp : Ipv4Addr) :
          (updateState rt cmd victimIp victimMac gatewayIp action).Only allowed s :=
        Proc.only_perform.mpr (hremember _ (.insert _ rfl hvm (hip' ▸ hvi)))
      refine .bind (commandGateway_only hroute cmd) fun gw => ?_
      split
      · exact Proc.only_pure _
      · refine .bind (Proc.only_perform.mpr hlock) fun spoofer => ?_
        split
        · exact remember _
        · rw [spoof_eq]
          exact .bind (hpoison _ _ _ _ hvm) fun _ => remember _
    · exact Proc.only_pure _

theorem enforceArp_performs (cmd : EnforcementCommand) (action : NacAction) :
    Performs (fun op => ArpOp .poison op ∨ RememberOp rt cmd action op)
      (enforceArp rt cmd action) :=
  enforceArp_only rt cmd action (.inl trivial) (.inl trivial)
    (fun _ _ _ _ _ => (poison_performs ..).mono fun _ => .inl) fun _ => .inr

theorem allowIp_performs (ip : Option String) :
    Performs (fun op => ∃ set elem, op=.nft .delete set elem) (allowIp ip) := by
  unfold allowIp
  split
  · refine .bind (Proc.only_perform.mpr ⟨_,_,rfl⟩) fun _ => ?_
    exact .bind (Proc.only_perform.mpr ⟨_,_,rfl⟩) fun _ => Proc.only_pure _
  · exact Proc.only_pure _

theorem allow_performs (mac : String) (ip : Option String) :
    Performs (fun op => ∃ set elem, op=.nft .delete set elem) (allow rt .nft mac ip) := by
  refine .bind (Proc.only_perform.mpr ⟨_,_,rfl⟩) fun _ => ?_
  exact .bind (Proc.only_perform.mpr ⟨_,_,rfl⟩) fun _ => allowIp_performs ip

theorem restoreGateway_performs (entry : Option QuarantineEntry) :
    Performs (ArpOp .restore) (restoreGateway entry) := by
  cases entry with
  | none => exact Proc.only_perform.mpr trivial
  | some e => exact Proc.only_pure _

theorem commandGatewayMac_performs (cmd : EnforcementCommand) (gatewayIp : Ipv4Addr) :
    Performs (ArpOp .restore) (commandGatewayMac cmd gatewayIp) := by
  unfold commandGatewayMac
  split
  · exact Proc.only_pure _
  · exact Proc.only_perform.mpr trivial

theorem spooferAllow_performs (victimIp : Ipv4Addr) (victimMac : MacAddr)
    (gatewayIp : Ipv4Addr) (gatewayMac : MacAddr) :
    Performs (ArpOp .restore) (spooferAllow victimIp victimMac gatewayIp gatewayMac) := by
  refine .bind (Proc.only_performOrFail.mpr rfl) fun _ => ?_
  refine .bind (Proc.only_performOrFail.mpr rfl) fun _ => ?_
  exact Proc.only_performOrFail.mpr rfl

theorem restoreArp_performs (cmd : EnforcementCommand) (entry : Option QuarantineEntry) :
    Performs (ArpOp .restore) (restoreArp cmd entry) := by
  unfold restoreArp
  simp only
  split
  · refine .bind (restoreGateway_performs _) fun _ => ?_
    refine .bind (commandGatewayMac_performs _ _) fun _ => ?_
    refine .bind (Proc.only_perform.mpr trivial) fun _ => ?_
    split
    · exact spooferAllow_performs ..
    · exact Proc.only_pure _
  · exact Proc.only_pure _

/-! The firewall calls whose errors are all ignored. -/

theorem removeIp_total (ipt : Backend) (ip : String) : (removeIp ipt ip).Total := by
  cases ipt with
  | nft => exact .bind (Proc.total_perform _) fun _ => .bind (Proc.total_perform _) fun _ => trivial
  | iptablesLegacy => trivial
  | unavailable => trivial

theorem releaseOldIp_total (ipt : Backend) (cmd : EnforcementCommand) :
    (releaseOldIp rt ipt cmd).Total := by
  unfold releaseOldIp
  split
  · refine .bind (Proc.total_perform _) fun _ => ?_
    split
    · split
      · trivial
      · exact removeIp_total ..
    · trivial
  · trivial

theorem allowIp_total (ip : Option String) : (allowIp ip).Total := by
  unfold allowIp
  split
  · exact removeIp_total ..
  · trivial

theorem allow_total (ipt : Backend) (mac : String) (ip : Option String) :
    (allow rt ipt mac ip).Total := by
  have deletes (chain : Chain) (rule : IptRule) : (iptDeleteLoop chain rule).Total :=
    Proc.total_perform _
  cases ipt with
  | nft =>
    refine .bind (Proc.total_perform _) fun _ => ?_
    exact .bind (Proc.total_perform _) fun _ => allowIp_total ip
  | iptablesLegacy =>
    refine .bind (deletes _ _) fun _ => ?_
    exact .bind (deletes _ _) fun _ => .bind (deletes _ _) fun _ => deletes _ _
  | unavailable => trivial

end Footprints

end NacPlatform.Enforcement
