import NacPlatform.Enforcement.ArpTraffic
import NacPlatform.Enforcement.Tasks

namespace NacPlatform.Enforcement

/-! Under which hardware address the frames of the service go out, however its tasks interleave. -/

/-- A poison frame that is sent under another hardware address is none of ours. -/
def OwnPoison (myMac : MacAddr) : EnfOp → Prop
  | .sendFrame .poison frame => frame.senderMac=myMac
  | _ => True

/-- Who asks for the spoofer gets this one. -/
def Answers (spoofer : Option MacAddr) : (op : EnfOp) → op.Reply → Prop
  | .lockSpoofer, reply => reply=spoofer
  | _, _ => True

/-- The spoofer is this one, and so have been all that were sent by it. -/
structure Host.PoisonsAs (h : Host) (myMac : MacAddr) : Prop where
  spoofer : h.spoofer=some myMac
  frames : ∀ frame, (.poison,frame) ∈ h.frames → frame.senderMac=myMac

abbrev Own {α : Type} (myMac : MacAddr) (p : EnfProc α) : Prop :=
  p.Only (Answers (some myMac)) (OwnPoison myMac)

section Handlers

variable {myMac : MacAddr} {α : Type} (rt : Runtime) (ipt : Backend)

theorem answers_exec {h : Host} (hs : h.spoofer=some myMac) (env : Env) (op : EnfOp) :
    Answers (some myMac) op (exec env op h).1 := by
  cases op with
  | lockSpoofer => exact hs
  | _ => trivial

/-- Only an operation that sends a frame adds one. -/
theorem exec_frames_same (env : Env) (op : EnfOp) (h : Host)
    (hop : ∀ kind frame, op≠.sendFrame kind frame) :
    (exec env op h).2.frames=h.frames := by
  cases op with
  | nft verb set elem =>
    simp only [exec,execNft]
    split
    · rfl
    · cases verb <;> rfl
  | iptInsert chain rule =>
    simp only [exec,execIpt]
    split <;> rfl
  | iptAppend chain rule =>
    simp only [exec,execIpt]
    split <;> rfl
  | iptDeleteLoop chain rule =>
    simp only [exec]
    split <;> rfl
  | sendFrame kind frame => exact absurd rfl (hop kind frame)
  | _ => rfl

theorem Host.PoisonsAs.exec {env : Env} {op : EnfOp} {h : Host} (hop : OwnPoison myMac op)
    (hp : h.PoisonsAs myMac) : (exec env op h).2.PoisonsAs myMac := by
  refine ⟨(exec_spoofer env op h).trans hp.spoofer,?_⟩
  intro frame hframe
  cases op with
  | sendFrame kind sent =>
    simp only [Enforcement.exec] at hframe
    split at hframe
    · exact hp.frames frame hframe
    · rcases List.mem_append.mp hframe with hframe|hframe
      · exact hp.frames frame hframe
      · obtain ⟨rfl,rfl⟩ := Prod.mk.inj (List.mem_singleton.mp hframe)
        exact hop
  | _ =>
    rw [exec_frames_same env _ h (by simp)] at hframe
    exact hp.frames frame hframe

theorem own_of_performs {s : EnfOp → Prop} (hs : ∀ op, s op → OwnPoison myMac op) {p : EnfProc α}
    (h : Performs s p) : Own myMac p :=
  (h.mono hs).of_anyReply

theorem own_of_firewall (op : EnfOp) (hop : FirewallOp op) : OwnPoison myMac op := by
  cases op with
  | sendFrame kind frame => exact absurd hop id
  | _ => trivial

theorem own_of_restore (op : EnfOp) (hop : ArpOp .restore op) : OwnPoison myMac op := by
  cases op with
  | sendFrame kind frame =>
    obtain rfl : kind=.restore := hop
    trivial
  | _ => trivial

theorem poison_own (victimIp : Ipv4Addr) (victimMac : MacAddr) (gatewayIp : Ipv4Addr) :
    Own myMac (poison myMac victimIp victimMac gatewayIp) := by
  refine .bind (Proc.only_performOrFail.mpr rfl) fun _ => ?_
  refine .bind (Proc.only_perform.mpr trivial) fun _ => ?_
  exact Proc.only_performOrFail.mpr rfl

/-- Who goes on with the spoofer goes on with this one. -/
theorem own_lockSpoofer {f : Option MacAddr → EnfProc α} (h : Own myMac (f (some myMac))) :
    Own myMac (lockSpoofer >>= f) := by
  refine ⟨trivial,?_⟩
  intro reply hreply
  obtain rfl : reply=some myMac := hreply
  exact h

theorem enforceArp_own (cmd : EnforcementCommand) (action : NacAction) :
    Own myMac (enforceArp rt cmd action) := by
  unfold enforceArp
  split
  · exact Proc.only_pure _
  · split
    · refine .bind (commandGateway_only trivial cmd) fun gateway => ?_
      split
      · exact Proc.only_pure _
      · apply own_lockSpoofer
        rw [spoof_eq]
        exact .bind (poison_own ..) fun _ => Proc.only_perform.mpr trivial
    · exact Proc.only_pure _

theorem consume_own (cmd : EnforcementCommand) : Own myMac (consume rt ipt cmd) := by
  refine .bind (Proc.Only.attempt ?_) fun _ => Proc.only_pure _
  split
  · refine .bind (own_of_performs own_of_firewall (allow_firewallOps rt ipt _ _)) fun _ => ?_
    refine .bind (Proc.only_perform.mpr trivial) fun entry => ?_
    exact own_of_performs own_of_restore (restoreArp_performs _ entry)
  · refine .bind (own_of_performs own_of_firewall (releaseOldIp_firewallOps rt ipt _)) fun _ => ?_
    refine .bind (own_of_performs own_of_firewall (treat_firewallOps rt ipt _ _ _)) fun _ => ?_
    exact enforceArp_own rt _ _

theorem reinforceEntries_own (entries : List (String × QuarantineEntry)) :
    Own myMac (reinforceEntries rt ipt entries) := by
  induction entries with
  | nil => exact Proc.only_pure _
  | cons e entries ih =>
    obtain ⟨key,entry⟩ := e
    exact .bind (own_of_performs own_of_firewall (treat_firewallOps rt ipt _ _ _)).attempt
      fun _ => ih

theorem reinforcePass_own : Own myMac (reinforcePass rt ipt) :=
  .bind (Proc.only_perform.mpr trivial) fun entries => reinforceEntries_own rt ipt entries

theorem repoisonEntries_own (gw : Option Ipv4Addr) (entries : List (String × QuarantineEntry)) :
    Own myMac (repoisonEntries myMac gw entries) := by
  induction entries with
  | nil => exact Proc.only_pure _
  | cons e entries ih =>
    obtain ⟨key,entry⟩ := e
    refine .bind (Proc.Only.attempt ?_) fun _ => ih
    rw [spoof_eq]
    exact poison_own ..

theorem repoisonPass_own : Own myMac repoisonPass := by
  refine .bind (Proc.only_perform.mpr trivial) fun entries => ?_
  unfold repoisonRest
  split
  · exact Proc.only_pure _
  · apply own_lockSpoofer
    exact .bind (Proc.only_perform.mpr trivial) fun gw => repoisonEntries_own gw entries

end Handlers

section Interleavings

variable {rt : Runtime} {ipt : Backend} {myMac : MacAddr}

/-- What is the same at every step of an interleaving. -/
structure Service.PoisonsAs (s : Service) (myMac : MacAddr) : Prop where
  shared : s.shared.PoisonsAs myMac
  tasks : ∀ task, Own myMac (s.tasks task)

theorem Service.PoisonsAs.start {s : Service} (h : s.PoisonsAs myMac) (task : Task)
    {p : EnfProc Unit} (hp : Own myMac p) : Service.PoisonsAs (s.start task p) myMac :=
  ⟨by rw [Pool.start_shared]; exact h.shared,Pool.start_only h.tasks task hp⟩

theorem Service.PoisonsAs.step {s : Service} (h : s.PoisonsAs myMac) (a : TaskStep) :
    (taskStep rt ipt s a).PoisonsAs myMac := by
  cases a with
  | receive cmd => exact h.start .consumer (consume_own rt ipt cmd)
  | reinforceTick => exact h.start .reinforce (reinforcePass_own rt ipt)
  | repoisonTick => exact h.start .repoison repoisonPass_own
  | advance task env =>
    obtain ⟨hshared,htasks⟩ := Pool.advance_answered (exec env)
      (J := fun host => host.PoisonsAs myMac) (fun _ _ hop hhost => hhost.exec hop) h.shared
      h.tasks (answers_exec h.shared.spoofer env) task
    exact ⟨hshared,htasks⟩

end Interleavings

end NacPlatform.Enforcement
