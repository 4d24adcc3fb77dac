import NacPlatform.Enforcement.NftPath
import NacPlatform.Enforcement.Reinforce
import NacPlatform.PolicyManager.Changes
import NacPlatform.PolicyManager.IpRuleApi

namespace NacPlatform

open Enforcement

/-! From the tables to the firewall: policy-manager and agent-gateway publish commands, and the
enforcement service takes them up one after another, at its own time. Both may start anew. -/

structure Deployment where
  platform : Platform
  ipRules : IpRuleState
  /-- `nac.commands.enforcement`, oldest first. -/
  published : List EnforcementCommand
  /-- How many of the commands the enforcement service has handled or missed. -/
  taken : Nat
  host : Host

inductive DeploymentStep where
  | manage (a : Step)
  | ipRule (call : IpRuleCall)
  | deliver (env : Env)
  | tick (env : Env)
  | managerStarts
  | reconcile
  /-- The gateway may have started with the service. -/
  | enforcementStarts (gateway : Bool) (spoofer : Option MacAddr)

namespace Deployment

def initial (policies : List PolicyRow) (spoofer : Option MacAddr) : Deployment :=
  ⟨Platform.initial policies,.initial,[],0,.empty spoofer⟩

section Run

variable (pg : Postgres) (rt : Runtime)

def ipRuleRows (d : Deployment) : List IpRuleRow := d.ipRules.rules.rows.map (·.row)

/-- Who starts anew has lost what was in memory only. A subscriber does not get what was published
before, and the sets of nft outlive the service, but not the gateway. -/
def step (d : Deployment) : DeploymentStep → Deployment
  | .manage a =>
    let platform := d.platform.step pg rt a
    { d with
      platform := platform
      published := d.published++platform.world.commands.drop d.platform.world.commands.length }
  | .ipRule call =>
    let ipRules := d.ipRules.step call
    { d with
      ipRules := ipRules
      published := d.published++ipRules.commands.drop d.ipRules.commands.length }
  | .deliver env =>
    match d.published[d.taken]? with
    | some cmd => { d with taken := d.taken+1, host := handle rt .nft d.host (env,cmd) }
    | none => d
  | .tick env => { d with host := reinforce rt .nft env d.host }
  | .managerStarts => { d with platform := { d.platform with pendingIp := fun _ => none } }
  | .reconcile =>
    let world := (Background.reconcile.run (ReconcileCall.exec pg d.ipRuleRows)
      d.platform.world).2
    { d with
      platform := { d.platform with world := world }
      published := d.published++world.commands.drop d.platform.world.commands.length }
  | .enforcementStarts gateway spoofer =>
    { d with
      taken := d.published.length
      host := if gateway then .empty spoofer else { d.host with state := ∅, spoofer := spoofer } }

/-- nft does its work on the MAC sets. No command changes the treatment of a remembered device where
it cannot be remembered itself. -/
def Handled (d : Deployment) : DeploymentStep → Prop
  | .deliver env => env.MacsOk ∧ ∀ cmd, d.published[d.taken]?=some cmd →
      ∀ action entry, cmd.treatment=some action →
        commandEntry env d.host.spoofer (received cmd)=none →
        d.host.state.lookup (stateKey rt cmd)=some entry → entry.action=action
  | .tick env => env.MacsOk
  | _ => True

/-- Registrations leave devices whose status binds where they are, and the enforcement service
misses nothing. -/
def Careful (binds : Status → Bool) (d : Deployment) : DeploymentStep → Prop
  | .manage a => StaysPut binds pg d.platform a
  | .enforcementStarts gateway _ => gateway=false ∧ d.taken=d.published.length
  | _ => True

def Proper (binds : Status → Bool) (d : Deployment) (a : DeploymentStep) : Prop :=
  d.Handled rt a ∧ d.Careful pg binds a

end Run

/-- No status binds. -/
def free (_ : Status) : Bool := false

/-- What holds in every run. -/
structure Wired (d : Deployment) : Prop where
  named : ∀ cmd ∈ d.published, ∃ m : MacAddr, cmd.macAddress=m.text
  taken : d.taken ≤ d.published.length

/-- What the enforcement service remembers is what it has in the MAC sets. -/
structure Recalls (h : Host) : Prop where
  agree : Agree h
  keys : ∀ key entry, h.state.lookup key=some entry → ∃ m : MacAddr, key=m.text

/-- The commands since `base` say where the devices with a status that binds belong, and the MAC
sets follow those that have been handled. -/
structure Sound (binds : Status → Bool) (base : Nat) (d : Deployment) : Prop extends Wired d where
  recalls : Recalls d.host
  begun : base ≤ d.published.length
  commanded : Commanded binds d.platform.world.endpoints (d.published.drop base)
  sets : ∀ (m : MacAddr) cmd,
    lastWrite naming m.text ((d.published.drop base).take (d.taken-base))=some cmd →
      ∀ a, d.host.inMacs m.text a ↔ cmd.treatment=some a

/-- A step that leaves the enforcement service alone and may publish commands. -/
structure Publishes (binds : Status → Bool) (d d' : Deployment) (sent : List EnforcementCommand) :
    Prop where
  published : d'.published=d.published++sent
  taken : d'.taken=d.taken
  host : d'.host=d.host
  named : ∀ cmd ∈ sent, ∃ m : MacAddr, cmd.macAddress=m.text
  commanded : ∀ cmds, Commanded binds d.platform.world.endpoints cmds →
    Commanded binds d'.platform.world.endpoints (cmds++sent)

section Publishing

variable {pg : Postgres} {rt : Runtime} {d d' : Deployment} {binds : Status → Bool} {base : Nat}
  {sent : List EnforcementCommand}

theorem Wired.publish (h : d.Wired) (hp : Publishes binds d d' sent) : d'.Wired where
  named cmd hcmd := by
    rw [hp.published] at hcmd
    rcases List.mem_append.mp hcmd with hcmd|hcmd
    · exact h.named cmd hcmd
    · exact hp.named cmd hcmd
  taken := by
    have hlength := h.taken
    rw [hp.taken,hp.published,List.length_append]
    omega

theorem Sound.publish (h : d.Sound binds base) (hp : Publishes binds d d' sent) :
    d'.Sound binds base where
  toWired := h.toWired.publish hp
  recalls := hp.host ▸ h.recalls
  begun := by
    have hlength := h.begun
    rw [hp.published,List.length_append]
    omega
  commanded := by
    rw [hp.published,List.drop_append_of_le_length h.begun]
    exact hp.commanded _ h.commanded
  sets m cmd hcmd := by
    have hbase := h.begun
    have htaken := h.taken
    have hlength : d.taken-base ≤ (d.published.drop base).length := by
      rw [List.length_drop]
      omega
    rw [hp.published,hp.taken,List.drop_append_of_le_length h.begun,
      List.take_append_of_le_length hlength] at hcmd
    rw [hp.host]
    exact h.sets m cmd hcmd

/-- Where no status binds, devices may move as they will. -/
theorem staysPut_free (s : Platform) (a : Step) : StaysPut free pg s a := by
  cases a with
  | register remoteIp req =>
    intro row t _ r _ hst
    cases hst
  | _ => trivial

theorem commanded_free (t : EndpointTable) (cmds : List EnforcementCommand) :
    Commanded free t cmds := by
  intro id p _ hst
  cases hst

theorem manage_publishes (hpending : binds .pending=false) {a : Step}
    (hok : StaysPut binds pg d.platform a) :
    ∃ sent, Publishes binds d (d.step pg rt (.manage a)) sent := by
  have hchanges : Changes binds d.platform.world (d.platform.step pg rt a).world :=
    Platform.step_changes hpending hok
  refine ⟨_,rfl,rfl,rfl,?_,?_⟩
  · have hfree : Changes free d.platform.world (d.platform.step pg rt a).world :=
      Platform.step_changes rfl (staysPut_free d.platform a)
    obtain ⟨sent,hsent,hnamed,-⟩ := hfree.commanded (commanded_free d.platform.world.endpoints [])
    rw [hsent,List.drop_left]
    exact hnamed
  · intro cmds h
    obtain ⟨sent,hsent,-,hcommanded⟩ := hchanges.commanded h
    rw [hsent,List.drop_left]
    exact hcommanded

theorem noDevice_text : noDevice.text="00:00:00:00:00:00" := by decide

/-- Commands for IP rules name no device. -/
theorem ipRule_sent (s : IpRuleState) (call : IpRuleCall) : ∃ sent,
    (s.step call).commands=s.commands++sent ∧ ∀ cmd ∈ sent, cmd.macAddress=noDevice.text := by
  have publish (rules : IpRuleTable) (ip action : String) :
      ∃ sent, ({s with rules := rules}.publishIpEnforcement ip action).commands=s.commands++sent ∧
        ∀ cmd ∈ sent, cmd.macAddress=noDevice.text := by
    unfold IpRuleState.publishIpEnforcement
    split
    · exact ⟨_,rfl,List.forall_mem_singleton.mpr noDevice_text.symm⟩
    · exact ⟨[],by simp,by simp⟩
  have still : ∃ sent, s.commands=s.commands++sent ∧
      ∀ cmd ∈ sent, cmd.macAddress=noDevice.text := ⟨[],by simp,by simp⟩
  cases call with
  | create req =>
    simp only [IpRuleState.step,IpRuleState.createIpRule]
    split
    · exact still
    · split
      · exact still
      · split
        · exact still
        · exact publish _ _ _
  | delete id =>
    simp only [IpRuleState.step,IpRuleState.deleteIpRule]
    split
    · exact still
    · exact publish _ _ _
  | setEnabled id action =>
    simp only [IpRuleState.step,IpRuleState.setIpRuleEnabled]
    split
    · split
      · exact still
      · exact publish _ _ _
    · split
      · exact still
      · exact publish _ _ _
    · exact still

theorem ipRule_publishes (call : IpRuleCall) :
    ∃ sent, Publishes binds d (d.step pg rt (.ipRule call)) sent := by
  obtain ⟨sent,hsent,hname⟩ := ipRule_sent d.ipRules call
  refine ⟨sent,?_,rfl,rfl,?_,?_⟩
  · show d.published++(d.ipRules.step call).commands.drop d.ipRules.commands.length=_
    rw [hsent,List.drop_left]
  · intro cmd hcmd
    exact ⟨noDevice,hname cmd hcmd⟩
  · intro cmds h
    apply h.append
    intro id p _ hdevice cmd hcmd hmac
    exact hdevice (MacAddr.text_injective ((hname cmd hcmd).symm.trans hmac).symm)

end Publishing

section Reconciling

open Background

variable {pg : Postgres} {rt : Runtime} {ipRules : List IpRuleRow} {w w' : World} {d : Deployment}

/-- The commands of `reconcile`. -/
def reconcileSent (pg : Postgres) (ipRules : List IpRuleRow) (w : World) :
    List EnforcementCommand :=
  (reauthOf pg w).map (enforcementFor · "quarantine")++
    ((enforcedOf pg w).map reapplied++((pg.scan ipRules).filter (·.enabled)).map reappliedIpRule)

theorem reapplied_announces {ep : EndpointRow} (h : ep.status.enforced=true) :
    ep.status.announcedBy (reapplied ep) := by
  right
  unfold reapplied
  cases hst : ep.status with
  | denied => rfl
  | quarantined => rfl
  | allowed =>
    rw [hst] at h
    cases h
  | pending =>
    rw [hst] at h
    cases h

/-- Of the devices, only those that are enforced afterwards are named, and as they are. -/
theorem reconcile_announces (h : Reconciliation pg ipRules w w') {id : Uuid} {p : MacAddr × Status}
    (hp : w'.endpoints.column station id=some p) (hdevice : p.1≠noDevice)
    {cmd : EnforcementCommand} (hcmd : cmd ∈ reconcileSent pg ipRules w)
    (hmac : cmd.macAddress=p.1.text) : p.2.enforced=true ∧ p.2.announcedBy cmd := by
  obtain ⟨row,hrow,rfl⟩ := EndpointTable.column_eq_some.mp hp
  have same {ep : EndpointRow} (hep : ep ∈ w'.endpoints.rows)
      (hname : ep.macAddress.text=row.macAddress.text) : ep=row := by
    have hfind : w'.endpoints.findById ep.id=some ep := EndpointTable.findById_eq_some.mpr ⟨hep,rfl⟩
    have hid : ep.id=id := EndpointTable.mac_unique hfind hrow (MacAddr.text_injective hname)
    rw [hid,hrow] at hfind
    exact (Option.some.inj hfind).symm
  rcases List.mem_append.mp hcmd with hcmd|hcmd
  · obtain ⟨ep,hep,rfl⟩ := List.mem_map.mp hcmd
    obtain ⟨r,hr,rfl⟩ := List.mem_map.mp hep
    obtain ⟨hr,hallowed⟩ := List.mem_filter.mp hr
    have hmem : EndpointTable.loggedOut r ∈ w'.endpoints.rows := by
      rw [h.endpoints]
      exact mem_requarantine.mpr (.inl ⟨r,(pg.scan_perm _).mem_iff.mp hr,hallowed,rfl⟩)
    obtain rfl := same hmem hmac
    exact ⟨rfl,.inr rfl⟩
  rcases List.mem_append.mp hcmd with hcmd|hcmd
  · obtain ⟨ep,hep,rfl⟩ := List.mem_map.mp hcmd
    obtain ⟨hep,hst⟩ := List.mem_filter.mp hep
    have hmem : ep ∈ w'.endpoints.rows := by
      rw [h.endpoints]
      exact (pg.scan_perm _).mem_iff.mp hep
    obtain rfl := same hmem hmac
    exact ⟨hst,reapplied_announces hst⟩
  · obtain ⟨rule,-,rfl⟩ := List.mem_map.mp hcmd
    have hname : noDevice.text=row.macAddress.text := noDevice_text.trans hmac
    exact absurd (MacAddr.text_injective hname).symm hdevice

theorem reconcile_names (h : Reconciliation pg ipRules w w') {id : Uuid} {p : MacAddr × Status}
    (hp : w'.endpoints.column station id=some p) (hst : p.2.enforced=true) :
    ∃ cmd ∈ reconcileSent pg ipRules w, cmd.macAddress=p.1.text := by
  obtain ⟨row,hrow,rfl⟩ := EndpointTable.column_eq_some.mp hp
  refine ⟨reapplied row,?_,rfl⟩
  refine List.mem_append_right _ (List.mem_append_left _ (List.mem_map_of_mem ?_))
  refine List.mem_filter.mpr ⟨(pg.scan_perm _).mem_iff.mpr ?_,hst⟩
  rw [← h.endpoints]
  exact (EndpointTable.findById_eq_some.mp hrow).1

/-- Whatever has been sent before, the commands of `reconcile` say of every enforced device what it
is. -/
theorem reconcile_tells (h : Reconciliation pg ipRules w w') (cmds : List EnforcementCommand)
    {id : Uuid} {p : MacAddr × Status} (hp : w'.endpoints.column station id=some p)
    (hst : p.2.enforced=true) (hdevice : p.1≠noDevice) :
    ∃ cmd, lastWrite naming p.1.text (cmds++reconcileSent pg ipRules w)=some cmd ∧
      p.2.announcedBy cmd := by
  obtain ⟨cmd,hcmd,hmac⟩ := reconcile_names h hp hst
  obtain ⟨last,hmem,hlast,hname⟩ := lastWrite_named hcmd hmac
  refine ⟨last,?_,(reconcile_announces h hp hdevice hmem hname).2⟩
  rw [lastWrite_append,hlast,Option.some_or]

/-- A device that is not enforced after `reconcile` is as it was before. -/
theorem reconcile_leaves (h : Reconciliation pg ipRules w w') {id : Uuid} {p : MacAddr × Status}
    (hp : w'.endpoints.column station id=some p) (hst : p.2.enforced=false) :
    w.endpoints.column station id=some p := by
  obtain ⟨row,hrow,rfl⟩ := EndpointTable.column_eq_some.mp hp
  obtain ⟨hmem,rfl⟩ := EndpointTable.findById_eq_some.mp hrow
  rw [h.endpoints] at hmem
  rcases mem_requarantine.mp hmem with ⟨r,-,-,rfl⟩|⟨hmem,-⟩
  · cases hst
  · exact column_station (EndpointTable.findById_eq_some.mpr ⟨hmem,rfl⟩)

theorem reconcile_publishes (binds : Status → Bool) :
    Publishes binds d (d.step pg rt .reconcile)
      (reconcileSent pg d.ipRuleRows d.platform.world) := by
  obtain ⟨w',hrun,h⟩ := run_reconcile pg d.ipRuleRows d.platform.world
  have hstep : d.step pg rt .reconcile={ d with
      platform := { d.platform with world := w' }
      published := d.published++reconcileSent pg d.ipRuleRows d.platform.world } := by
    unfold step
    dsimp only
    rw [hrun]
    show { d with
      platform := { d.platform with world := w' }
      published := d.published++w'.commands.drop d.platform.world.commands.length }=_
    rw [h.commands,List.drop_left]
    rfl
  rw [hstep]
  refine ⟨rfl,rfl,rfl,?_,?_⟩
  · intro cmd hcmd
    rcases List.mem_append.mp hcmd with hcmd|hcmd
    · obtain ⟨ep,-,rfl⟩ := List.mem_map.mp hcmd
      exact ⟨ep.macAddress,rfl⟩
    rcases List.mem_append.mp hcmd with hcmd|hcmd
    · obtain ⟨ep,-,rfl⟩ := List.mem_map.mp hcmd
      exact ⟨ep.macAddress,rfl⟩
    · obtain ⟨rule,-,rfl⟩ := List.mem_map.mp hcmd
      exact ⟨noDevice,noDevice_text.symm⟩
  · intro cmds hcommanded id p hp hst hdevice
    by_cases henforced : p.2.enforced=true
    · exact reconcile_tells h cmds hp henforced hdevice
    · rw [lastWrite_append,lastWrite_unnamed,Option.none_or]
      · exact hcommanded id p (reconcile_leaves h hp (by simpa using henforced)) hst hdevice
      · intro cmd hcmd hmac
        exact henforced (reconcile_announces h hp hdevice hcmd hmac).1

/-- After `reconcile` its own commands are enough. -/
theorem reconcile_commands : Commanded Status.enforced
    (d.step pg rt .reconcile).platform.world.endpoints
    (reconcileSent pg d.ipRuleRows d.platform.world) := by
  obtain ⟨w',hrun,h⟩ := run_reconcile pg d.ipRuleRows d.platform.world
  intro id p hp hst hdevice
  have hworld : (d.step pg rt .reconcile).platform.world=w' := congrArg Prod.snd hrun
  rw [hworld] at hp
  exact reconcile_tells h [] hp hst hdevice

end Reconciling

end Deployment

end NacPlatform
