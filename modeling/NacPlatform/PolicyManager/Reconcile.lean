import NacPlatform.PolicyManager.Outcomes
import NacPlatform.Store.OpenSessions

namespace NacPlatform

/-- `CHECK (action IN ('block','quarantine'))` of the table `ip_rules`. -/
inductive IpRuleAction where
  | block
  | quarantine
  deriving DecidableEq, Repr

def IpRuleAction.text : IpRuleAction → String
  | block => "block"
  | quarantine => "quarantine"

/-- A row of `ip_rules`, with the columns that are read at the start. -/
structure IpRuleRow where
  ipCidr : String
  action : IpRuleAction
  enabled : Bool
  deriving DecidableEq, Repr

namespace EndpointTable

/-- `status = 'allowed' AND username IS NOT NULL`. -/
def portalAllowed (r : EndpointRow) : Bool := r.status==.allowed && r.username.isSome

def loggedOut (r : EndpointRow) : EndpointRow := { r with status := .quarantined, username := none }

/-- `UPDATE endpoints SET status = 'quarantined', username = NULL …`. -/
def requarantine (t : EndpointTable) : EndpointTable :=
  t.modify portalAllowed loggedOut fun _ => ⟨rfl,rfl,rfl⟩

end EndpointTable

/-- The statements of `reconcile` over whole tables, and the calls it makes besides. -/
inductive ReconcileCall where
  | terminateOpen
  | requarantine
  | listEnforced
  | enabledIpRules
  | call (c : Call)

namespace ReconcileCall

abbrev Result : ReconcileCall → Type
  | terminateOpen => Nat
  | requarantine => List EndpointRow
  | listEnforced => List EndpointRow
  | enabledIpRules => List IpRuleRow
  | call c => c.Result

abbrev Reply (c : ReconcileCall) : Type := Except DbError c.Result

/-- `reconcile` reads the table `ip_rules` only. -/
def exec (pg : Postgres) (ipRules : List IpRuleRow) :
    (c : ReconcileCall) → World → c.Reply × World
  | terminateOpen,w =>
    (.ok (w.sessions.rows.countP (·.endedAt.isNone)),
      { w with sessions := w.sessions.terminateOpen w.clock, clock := w.clock+1 })
  | requarantine,w =>
    (.ok (((pg.scan w.endpoints.rows).filter EndpointTable.portalAllowed).map
        EndpointTable.loggedOut),
      { w with endpoints := w.endpoints.requarantine })
  | listEnforced,w => (.ok ((pg.scan w.endpoints.rows).filter (·.status.enforced)),w)
  | enabledIpRules,w => (.ok ((pg.scan ipRules).filter (·.enabled)),w)
  | call c,w => c.exec pg w

end ReconcileCall

namespace Background

abbrev ReconcileHandler := Proc ReconcileCall ReconcileCall.Reply DbError

/-- The address as the commands of `reconcile` carry it. -/
def commandIp (ep : EndpointRow) : String := (ep.ipAddress.map stripCidr).getD ""

def sendEnforcement (mac ip action : String) : ReconcileHandler Unit := do
  let cmd := enforcementCommand mac ip action none
  let _ ← Proc.perform (ReconcileCall.call (.publishCommand cmd))

/-- A new session for the portal, and the command; a session that cannot be stored is logged. -/
def requireLogin (ep : EndpointRow) : ReconcileHandler Unit := do
  let _ ← Proc.perform (ReconcileCall.call (.createSession ⟨ep.id,"captive_portal",none⟩))
  sendEnforcement ep.macAddress.text (commandIp ep) "quarantine"

def reapply (ep : EndpointRow) : ReconcileHandler Unit :=
  sendEnforcement ep.macAddress.text (commandIp ep)
    (if ep.status==.denied then "block" else "quarantine")

def reapplyIpRule (rule : IpRuleRow) : ReconcileHandler Unit :=
  sendEnforcement "00:00:00:00:00:00" (stripCidr rule.ipCidr) rule.action.text

def reconcile : ReconcileHandler Unit := do
  let _ ← Proc.perform ReconcileCall.terminateOpen
  let reauth ← Proc.performOrFail ReconcileCall.requarantine id
  reauth.forM requireLogin
  let rows ← Proc.performOrFail ReconcileCall.listEnforced id
  rows.forM reapply
  let ipRules ← Proc.performOrFail ReconcileCall.enabledIpRules id
  ipRules.forM reapplyIpRule

def enforcementFor (ep : EndpointRow) (action : String) : EnforcementCommand :=
  enforcementCommand ep.macAddress.text (commandIp ep) action none

/-- The devices that have to log in again, as `reconcile` leaves them. -/
def reauthOf (pg : Postgres) (w : World) : List EndpointRow :=
  ((pg.scan w.endpoints.rows).filter EndpointTable.portalAllowed).map EndpointTable.loggedOut

/-- The devices whose enforcement is applied again. -/
def enforcedOf (pg : Postgres) (w : World) : List EndpointRow :=
  (pg.scan w.endpoints.requarantine.rows).filter (·.status.enforced)

def reapplied (ep : EndpointRow) : EnforcementCommand :=
  enforcementFor ep (if ep.status==.denied then "block" else "quarantine")

def reappliedIpRule (rule : IpRuleRow) : EnforcementCommand :=
  enforcementCommand "00:00:00:00:00:00" (stripCidr rule.ipCidr) rule.action.text none

/-- The sessions with a new one for each of the devices. -/
def reopened : List EndpointRow → Timestamp → SessionTable → SessionTable
  | [],_,t => t
  | ep::eps,now,t => reopened eps (now+1) (t.create ⟨ep.id,"captive_portal",none⟩ now)

/-- What a run of `reconcile` comes to, where no call fails. -/
structure Reconciliation (pg : Postgres) (ipRules : List IpRuleRow) (w w' : World) : Prop where
  endpoints : w'.endpoints=w.endpoints.requarantine
  sessions : w'.sessions=
    reopened (reauthOf pg w) (w.clock+1) (w.sessions.terminateOpen w.clock)
  commands : w'.commands=w.commands++((reauthOf pg w).map (enforcementFor · "quarantine")++
    ((enforcedOf pg w).map reapplied++
      ((pg.scan ipRules).filter (·.enabled)).map reappliedIpRule))
  policies : w'.policies=w.policies

section Run

variable {pg : Postgres} {ipRules : List IpRuleRow}

/-- The world after a device has been asked to log in again. -/
def loginRequired (w : World) (ep : EndpointRow) : World :=
  { w with
    sessions := w.sessions.create ⟨ep.id,"captive_portal",none⟩ w.clock
    clock := w.clock+1
    commands := w.commands++[enforcementFor ep "quarantine"] }

theorem run_requireLogin (ep : EndpointRow) (w : World) :
    (requireLogin ep).run (ReconcileCall.exec pg ipRules) w=(.ok (),loginRequired w ep) := rfl

theorem run_reapply (ep : EndpointRow) (w : World) :
    (reapply ep).run (ReconcileCall.exec pg ipRules) w=
      (.ok (),{ w with commands := w.commands++[reapplied ep] }) := rfl

theorem run_reapplyIpRule (rule : IpRuleRow) (w : World) :
    (reapplyIpRule rule).run (ReconcileCall.exec pg ipRules) w=
      (.ok (),{ w with commands := w.commands++[reappliedIpRule rule] }) := rfl

/-- A loop that publishes one command for each of its rows. -/
theorem foldl_publish {α : Type} (cmd : α → EnforcementCommand) (rows : List α) (w : World) :
    rows.foldl (fun w r => { w with commands := w.commands++[cmd r] }) w=
      { w with commands := w.commands++rows.map cmd } := by
  induction rows generalizing w with
  | nil => simp
  | cons r rows ih =>
    rw [List.foldl_cons,ih]
    simp

theorem foldl_loginRequired (eps : List EndpointRow) (w : World) :
    ∃ now, eps.foldl loginRequired w={ w with
      sessions := reopened eps w.clock w.sessions
      clock := now
      commands := w.commands++eps.map (enforcementFor · "quarantine") } := by
  induction eps generalizing w with
  | nil => exact ⟨w.clock,by simp [reopened]⟩
  | cons ep eps ih =>
    obtain ⟨now,h⟩ := ih (loginRequired w ep)
    refine ⟨now,?_⟩
    rw [List.foldl_cons,h]
    simp [reopened,loginRequired]

theorem run_reconcile (pg : Postgres) (ipRules : List IpRuleRow) (w : World) :
    ∃ w', reconcile.run (ReconcileCall.exec pg ipRules) w=(.ok (),w') ∧
      Reconciliation pg ipRules w w' := by
  obtain ⟨now,hreauth⟩ := foldl_loginRequired (reauthOf pg w) { w with
    sessions := w.sessions.terminateOpen w.clock
    clock := w.clock+1
    endpoints := w.endpoints.requarantine }
  have hrun : reconcile.run (ReconcileCall.exec pg ipRules) w=
      ((reauthOf pg w).forM requireLogin >>= fun _ => do
        let rows ← Proc.performOrFail ReconcileCall.listEnforced id
        rows.forM reapply
        let ipRules ← Proc.performOrFail ReconcileCall.enabledIpRules id
        ipRules.forM reapplyIpRule).run (ReconcileCall.exec pg ipRules) { w with
          sessions := w.sessions.terminateOpen w.clock
          clock := w.clock+1
          endpoints := w.endpoints.requarantine } := rfl
  rw [hrun,Proc.run_bind,Proc.run_forM _ run_requireLogin,hreauth]
  simp only [Proc.run_bind,Proc.run_performOrFail,ReconcileCall.exec,id]
  rw [Proc.run_forM _ run_reapply,foldl_publish]
  dsimp only
  rw [Proc.run_forM _ run_reapplyIpRule,foldl_publish]
  refine ⟨_,rfl,rfl,rfl,?_,rfl⟩
  simp only [List.append_assoc]
  rfl

end Run

/-- What is to hold after `reconcile`: nobody is logged in through the portal, no other status has
changed, exactly the quarantined devices have a session, one each, and all that is enforced has been
sent again. -/
structure Reconciled (w w' : World) : Prop where
  loggedOut : ∀ ep ∈ w'.endpoints.rows, ¬(ep.status=.allowed ∧ ep.username.isSome=true)
  kept : ∀ ep ∈ w.endpoints.rows, ¬(ep.status=.allowed ∧ ep.username.isSome=true) →
    w'.endpoints.findById ep.id=some ep
  sessions : ∀ ep ∈ w'.endpoints.rows,
    w'.sessions.openCount ep.id=if ep.status=.quarantined then 1 else 0
  sent : ∃ sent, w'.commands=w.commands++sent ∧
    (∀ ep ∈ w'.endpoints.rows, ep.status=.denied → enforcementFor ep "block" ∈ sent) ∧
    (∀ ep ∈ w'.endpoints.rows, ep.status=.quarantined → enforcementFor ep "quarantine" ∈ sent) ∧
    ∀ cmd ∈ sent, cmd.action≠"allow"

section Correct

variable {pg : Postgres} {ipRules : List IpRuleRow} {w w' : World} {ep : EndpointRow}

theorem portalAllowed_iff : EndpointTable.portalAllowed ep=true ↔
    ep.status=.allowed ∧ ep.username.isSome=true := by
  simp [EndpointTable.portalAllowed]

theorem openCount_reopened (eps : List EndpointRow) (now : Timestamp) (t : SessionTable)
    (e : Uuid) : (reopened eps now t).openCount e=t.openCount e+(eps.map (·.id)).count e := by
  induction eps generalizing now t with
  | nil => rfl
  | cons ep eps ih =>
    rw [reopened,ih,SessionTable.openCount_create,List.map_cons,List.count_cons]
    simp only [beq_iff_eq]
    omega

theorem reauthOf_ids (pg : Postgres) (w : World) : ((reauthOf pg w).map (·.id)).Perm
    ((w.endpoints.rows.filter EndpointTable.portalAllowed).map (·.id)) := by
  unfold reauthOf
  rw [List.map_map]
  exact ((pg.scan_perm w.endpoints.rows).filter _).map _

/-- A device has one turn if it has to log in again, and none otherwise. -/
theorem count_reauthOf (pg : Postgres) (hep : ep ∈ w.endpoints.rows) :
    ((reauthOf pg w).map (·.id)).count ep.id=
      if EndpointTable.portalAllowed ep=true then 1 else 0 := by
  rw [(reauthOf_ids pg w).count_eq]
  by_cases h : EndpointTable.portalAllowed ep=true
  · rw [if_pos h]
    exact List.count_eq_one_of_mem ((List.filter_sublist.map _).nodup w.endpoints.ids)
      (List.mem_map_of_mem (List.mem_filter.mpr ⟨hep,h⟩))
  · rw [if_neg h,List.count_eq_zero]
    intro hmem
    obtain ⟨r,hr,hid⟩ := List.mem_map.mp hmem
    obtain ⟨hr,hp⟩ := List.mem_filter.mp hr
    rw [List.inj_on_of_nodup_map w.endpoints.ids hr hep hid] at hp
    exact h hp

theorem Reconciliation.openCount (h : Reconciliation pg ipRules w w')
    (hep : ep ∈ w.endpoints.rows) : w'.sessions.openCount ep.id=
      if EndpointTable.portalAllowed ep=true then 1 else 0 := by
  rw [h.sessions,openCount_reopened,SessionTable.openCount_terminateOpen,Nat.zero_add,
    count_reauthOf pg hep]

theorem mem_requarantine : ep ∈ w.endpoints.requarantine.rows ↔
    (∃ r ∈ w.endpoints.rows, EndpointTable.portalAllowed r=true ∧ ep=EndpointTable.loggedOut r) ∨
      ep ∈ w.endpoints.rows ∧ EndpointTable.portalAllowed ep=false := mem_updateRows

theorem Reconciliation.kept (h : Reconciliation pg ipRules w w') (hep : ep ∈ w.endpoints.rows)
    (hp : EndpointTable.portalAllowed ep=false) : w'.endpoints.findById ep.id=some ep := by
  rw [h.endpoints,EndpointTable.findById_eq_some]
  exact ⟨mem_requarantine.mpr (.inr ⟨hep,hp⟩),rfl⟩

/-- All that is enforced is sent again, and nothing is allowed. -/
theorem Reconciliation.sent (h : Reconciliation pg ipRules w w') :
    ∃ sent, w'.commands=w.commands++sent ∧
      (∀ ep ∈ w'.endpoints.rows, ep.status=.denied → enforcementFor ep "block" ∈ sent) ∧
      (∀ ep ∈ w'.endpoints.rows, ep.status=.quarantined → enforcementFor ep "quarantine" ∈ sent) ∧
      ∀ cmd ∈ sent, cmd.action≠"allow" := by
  have hsent {ep : EndpointRow} (hep : ep ∈ w'.endpoints.rows) (he : ep.status.enforced=true) :
      reapplied ep ∈ (enforcedOf pg w).map reapplied := by
    refine List.mem_map_of_mem (List.mem_filter.mpr ⟨?_,he⟩)
    rw [(pg.scan_perm _).mem_iff,← h.endpoints]
    exact hep
  refine ⟨_,h.commands,?_,?_,?_⟩
  · intro ep hep hst
    refine List.mem_append_right _ (List.mem_append_left _ ?_)
    have hcmd := hsent hep (by rw [hst]; rfl)
    rwa [reapplied,hst] at hcmd
  · intro ep hep hst
    refine List.mem_append_right _ (List.mem_append_left _ ?_)
    have hcmd := hsent hep (by rw [hst]; rfl)
    rwa [reapplied,hst] at hcmd
  · intro cmd hcmd
    rcases List.mem_append.mp hcmd with hcmd | hcmd
    · obtain ⟨ep,-,rfl⟩ := List.mem_map.mp hcmd
      change "quarantine"≠"allow"
      decide
    rcases List.mem_append.mp hcmd with hcmd | hcmd
    · obtain ⟨ep,-,rfl⟩ := List.mem_map.mp hcmd
      change (if ep.status==.denied then "block" else "quarantine")≠"allow"
      split <;> decide
    · obtain ⟨rule,-,rfl⟩ := List.mem_map.mp hcmd
      change rule.action.text≠"allow"
      cases rule.action <;> decide

theorem Reconciliation.correct_iff (h : Reconciliation pg ipRules w w') :
    Reconciled w w' ↔ ∀ ep ∈ w.endpoints.rows, ep.status≠.quarantined := by
  constructor
  · intro hr ep hep hst
    have hp : EndpointTable.portalAllowed ep=false := by simp [EndpointTable.portalAllowed,hst]
    have hmem : ep ∈ w'.endpoints.rows := by
      rw [h.endpoints]
      exact mem_requarantine.mpr (.inr ⟨hep,hp⟩)
    have hone := hr.sessions ep hmem
    rw [h.openCount hep,hp,if_pos hst] at hone
    cases hone
  · intro hno
    refine ⟨?_,?_,?_,h.sent⟩
    · intro ep hep hp
      rw [h.endpoints] at hep
      rcases mem_requarantine.mp hep with ⟨r,-,-,rfl⟩ | ⟨-,hfalse⟩
      · cases hp.1
      · rw [portalAllowed_iff.mpr hp] at hfalse
        cases hfalse
    · intro ep hep hp
      exact h.kept hep (by rw [← Bool.not_eq_true,portalAllowed_iff]; exact hp)
    · intro ep hep
      rw [h.endpoints] at hep
      rcases mem_requarantine.mp hep with ⟨r,hr,hp,rfl⟩ | ⟨hep,hp⟩
      · have hone := h.openCount hr
        rw [if_pos hp] at hone
        exact hone
      · rw [h.openCount hep,hp,if_neg (hno ep hep)]
        rfl

/-- A run of `reconcile` in which no call fails ends as it should exactly when no device was in
quarantine before it: the open sessions of those are ended, and they get no new one. -/
theorem reconcile_correct_iff (pg : Postgres) (ipRules : List IpRuleRow) (w : World) :
    ∃ w', reconcile.run (ReconcileCall.exec pg ipRules) w=(.ok (),w') ∧
      (Reconciled w w' ↔ ∀ ep ∈ w.endpoints.rows, ep.status≠.quarantined) := by
  obtain ⟨w',hrun,h⟩ := run_reconcile pg ipRules w
  exact ⟨w',hrun,h.correct_iff⟩

/-- A device that has been quarantined when it was detected: its session is ended by the restart,
and it is left in quarantine without one. -/
theorem reconcile_leaves_quarantined :
    let w := (Platform.initial [catchAll .quarantine]).world.handle .plain
      (Consumer.processEvent .ascii firstSighting)
    let w' := (reconcile.run (ReconcileCall.exec .plain []) w).2
    w.sessions.openCount 1=1 ∧
      w'.endpoints.column (fun r => (r.status,r.policyExempt)) 1=some (.quarantined,false) ∧
      w'.sessions.openCount 1=0 ∧ ¬Reconciled w w' := by
  intro w w'
  have hrow : ∃ ep ∈ w'.endpoints.rows, ep.id=1 ∧ ep.status=.quarantined := ⟨_,.head _,rfl,rfl⟩
  have hzero : w'.sessions.openCount 1=0 := by decide +kernel
  refine ⟨by decide +kernel,by decide +kernel,hzero,?_⟩
  intro h
  obtain ⟨ep,hep,hid,hst⟩ := hrow
  have hone := h.sessions ep hep
  rw [hid,hzero,if_pos hst] at hone
  cases hone

end Correct

end Background

end NacPlatform
