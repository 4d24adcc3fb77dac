import NacPlatform.PolicyManager.Reconcile
import NacPlatform.PolicyManager.Settled
import NacPlatform.PolicyManager.Standing

namespace NacPlatform

/-- The steps of a run with those that write sessions: an insert, and `reconcile` at a restart. -/
inductive SessionStep where
  | handle (a : Step)
  | create (c : CreateSession)
  | reconcile (ipRules : List IpRuleRow)

variable {pg : Postgres} {rt : Runtime} {w : World}

def Platform.sessionStep (pg : Postgres) (rt : Runtime) (s : Platform) : SessionStep → Platform
  | .handle a => s.step pg rt a
  | .create c => { s with world := (Call.exec pg (.createSession c) s.world).2 }
  | .reconcile ipRules =>
    { s with
      world := (Background.reconcile.run (ReconcileCall.exec pg ipRules) s.world).2 }

/-- The policies put the device in quarantine, where it was not. -/
def Quarantines (pg : Postgres) (rt : Runtime) (w : World) (row : EndpointRow) : Prop :=
  Consumer.loggedIn pg w row=false ∧ row.status≠.quarantined ∧ ∃ rules, w.rules pg=.ok rules ∧
    rules≠[] ∧ decisionToStatus (evaluate rt rules (Consumer.context row))=.quarantined

/-- An event opens a session if it puts its device in quarantine, and writes none otherwise. -/
theorem processEvent_sessions (pg : Postgres) (rt : Runtime) (event : EndpointDetectedEvent)
    (w : World) :
    (∃ row t d now, w.endpoints.upsert pg (Consumer.upsertOf event) w.clock=.ok (row,t) ∧
        Quarantines pg rt w row ∧ (w.handle pg (Consumer.processEvent rt event)).sessions=
          w.sessions.create (Consumer.captivePortalSession row d) now) ∨
      (w.handle pg (Consumer.processEvent rt event)).sessions=w.sessions ∧
        ∀ row t, w.endpoints.upsert pg (Consumer.upsertOf event) w.clock=.ok (row,t) →
          ¬Quarantines pg rt w row := by
  rcases Consumer.processEvent_outcome pg rt event w with
    ⟨⟨e,he⟩,hsame⟩ | ⟨row,t,w₁,hput,hout,heffect⟩
  · refine .inr ⟨by rw [hsame],?_⟩
    intro row t hput
    rw [he] at hput
    cases hput
  have hrules : w₁.rules pg=w.rules pg := rules_congr heffect.policies
  have hopen : Consumer.loggedIn pg w₁ row=Consumer.loggedIn pg w row :=
    Consumer.loggedIn_congr heffect.sessions
  have keeps {w' : World} (hs : w'.sessions=w₁.sessions) (hno : ¬Quarantines pg rt w row) :
      w'.sessions=w.sessions ∧ ∀ row' t',
        w.endpoints.upsert pg (Consumer.upsertOf event) w.clock=.ok (row',t') →
          ¬Quarantines pg rt w row' := by
    refine ⟨hs.trans heffect.sessions,?_⟩
    intro row' t' hput'
    rw [hput] at hput'
    cases hput'
    exact hno
  cases hout with
  | unevaluated hno heff =>
    refine .inr (keeps heff.sessions ?_)
    intro given
    obtain ⟨-,-,rules,hload,hne,-⟩ := given
    exact hne (hno rules (hrules.trans hload))
  | kept hload hne hreason heff =>
    refine .inr (keeps heff.sessions ?_)
    intro given
    obtain ⟨hclosed,hstatus,rules,hload',-,hquarantined⟩ := given
    rw [hrules,hload'] at hload
    cases hload
    rcases hreason with hin | hsame
    · rw [hopen,hclosed] at hin
      cases hin
    · exact hstatus (hsame.trans hquarantined)
  | @changed rules hload hne hclosed hdiffers heff =>
    have hsessions := heff.sessions
    rw [Consumer.sessionsAfter] at hsessions
    by_cases hq : decisionToStatus (evaluate rt rules (Consumer.context row))=.quarantined
    · rw [if_pos hq,heffect.sessions] at hsessions
      refine .inl ⟨row,t,_,_,hput,⟨hopen ▸ hclosed,hq ▸ hdiffers,rules,hrules ▸ hload,hne,hq⟩,
        hsessions⟩
    · rw [if_neg hq] at hsessions
      refine .inr (keeps hsessions ?_)
      intro given
      obtain ⟨-,-,rules',hload',-,hquarantined⟩ := given
      rw [hrules,hload'] at hload
      cases hload
      exact hq hquarantined

/-- A response ends the session it is about, or makes it active, and writes no other. -/
theorem processAuthResponse_sessions (pg : Postgres) (rt : Runtime) (resp : AuthResponse)
    (w : World) :
    (∃ row w₁ sess, SessionHandler.Resolved pg resp w row w₁ ∧ sess ∈ w.sessions.rows ∧
        SessionHandler.sessionOf pg resp w₁ row=some sess ∧
        (w.handle pg (SessionHandler.processAuthResponse rt resp)).sessions=
          if resp.success then
            w.sessions.transition sess.id .active (some (resp.username.getD "")) w₁.clock
          else w.sessions.terminate sess.id w₁.clock) ∨
      (w.handle pg (SessionHandler.processAuthResponse rt resp)).sessions=w.sessions ∧
        ∀ row w₁, SessionHandler.Resolved pg resp w row w₁ →
          SessionHandler.sessionOf pg resp w₁ row=none := by
  rcases SessionHandler.resolveEndpoint_cases pg resp w with ⟨row,w₁,hres,-⟩ | ⟨hno,hrun⟩
  · have hsessions : (w.handle pg (SessionHandler.processAuthResponse rt resp)).sessions=_ :=
      SessionHandler.settled_sessions hres
    have hsame : w₁.sessions=w.sessions := hres.same.1
    cases hs : SessionHandler.sessionOf pg resp w₁ row with
    | none =>
      rw [hs] at hsessions
      refine .inr ⟨hsessions.trans hsame,fun row' w₁' hres' => ?_⟩
      obtain ⟨rfl,rfl⟩ := hres.unique hres'
      exact hs
    | some sess =>
      rw [hs] at hsessions
      refine .inl ⟨row,w₁,sess,hres,?_,hs,?_⟩
      · rw [← hsame]
        unfold SessionHandler.sessionOf at hs
        cases hsid : resp.sessionId with
        | some sid =>
          rw [hsid] at hs
          exact List.mem_of_find?_eq_some hs
        | none =>
          rw [hsid] at hs
          exact (SessionTable.findActiveByEndpoint_latest hs).1.1
      · rw [hsessions,SessionHandler.settledSessions_some,hsame]
  · refine .inr ⟨?_,fun row w₁ h => absurd h (hno row w₁)⟩
    unfold SessionHandler.processAuthResponse
    rcases hrun with hrun | ⟨e,hrun⟩
    · rw [World.handle_bind_ok hrun]
      rfl
    · rw [World.handle_bind_error hrun]

def Step.writesSessions : Step → Bool
  | .detected _ => true
  | .auth _ => true
  | _ => false

/-- The other steps write no session. -/
theorem step_sessions {s : Platform} {a : Step} (ha : a.writesSessions=false) :
    (s.step pg rt a).world.sessions=s.world.sessions := by
  cases a with
  | detected => cases ha
  | auth => cases ha
  | posture report => exact processPosture_sessions pg rt report s.world
  | admin id action =>
    rcases action.handler_outcome pg id s.world with ⟨-,hsame⟩ | ⟨row,-,heff⟩
    · exact congrArg World.sessions hsame
    · exact heff.sessions
  | assignPolicy id policyId =>
    rcases Endpoints.assignPolicy_outcome pg id policyId s.world with hsame | heff
    · exact congrArg World.sessions hsame
    · exact heff.sessions
  | setExempt id exempt =>
    rcases Endpoints.setExempt_outcome pg id exempt s.world with hsame | heff
    · exact congrArg World.sessions hsame
    · exact heff.sessions
  | evaluate defaultAction =>
    exact Evaluate.evaluatePolicies_invariant (fun w => w.sessions=s.world.sessions)
      (fun _ _ _ h _ _ _ => h) defaultAction s.world rfl
  | arpSync arpMap gatewayIps now =>
    exact Background.arpSync_invariant (fun w => w.sessions=s.world.sessions) arpMap
      (gatewayIps.map Ipv4Addr.text) now s.pendingIp s.world (fun _ _ _ _ h => h)
      (fun _ _ _ _ h _ => h) rfl
  | register remoteIp req =>
    have hout := AgentService.register_outcome pg remoteIp req s.world
    change (s.world.handle pg (AgentService.register remoteIp req)).sessions=_
    generalize s.world.handle pg (AgentService.register remoteIp req)=w' at hout ⊢
    cases hout with
    | refused heff => exact heff.sessions
    | moved _ heff => exact heff.sessions
    | upserted _ _ heff => exact heff.sessions

/-- What a step comes to in the table of sessions. -/
inductive SessionEffect (pg : Postgres) (rt : Runtime) (w : World) :
    SessionStep → SessionTable → Prop where
  | other {a : Step} (h : a.writesSessions=false) : SessionEffect pg rt w (.handle a) w.sessions
  | undetected {event : EndpointDetectedEvent}
      (h : ∀ row t, w.endpoints.upsert pg (Consumer.upsertOf event) w.clock=.ok (row,t) →
        ¬Quarantines pg rt w row) :
      SessionEffect pg rt w (.handle (.detected event)) w.sessions
  | detected {event : EndpointDetectedEvent} {row : EndpointRow} {t : EndpointTable}
      {d : PolicyDecision} {now : Timestamp}
      (stored : w.endpoints.upsert pg (Consumer.upsertOf event) w.clock=.ok (row,t))
      (h : Quarantines pg rt w row) : SessionEffect pg rt w (.handle (.detected event))
        (w.sessions.create (Consumer.captivePortalSession row d) now)
  | unanswered {resp : AuthResponse}
      (h : ∀ row w₁, SessionHandler.Resolved pg resp w row w₁ →
        SessionHandler.sessionOf pg resp w₁ row=none) :
      SessionEffect pg rt w (.handle (.auth resp)) w.sessions
  | answered {resp : AuthResponse} {row : EndpointRow} {w₁ : World} {sess : SessionRow}
      {username : Option String} {now : Timestamp}
      (resolved : SessionHandler.Resolved pg resp w row w₁) (stored : sess ∈ w.sessions.rows)
      (h : SessionHandler.sessionOf pg resp w₁ row=some sess) :
      SessionEffect pg rt w (.handle (.auth resp))
        (if resp.success then w.sessions.transition sess.id .active username now
          else w.sessions.terminate sess.id now)
  | created {c : CreateSession} {now : Timestamp} :
      SessionEffect pg rt w (.create c) (w.sessions.create c now)
  | reconciled {ipRules : List IpRuleRow} {now now' : Timestamp} :
      SessionEffect pg rt w (.reconcile ipRules)
        (Background.reopened (Background.reauthOf pg w) now (w.sessions.terminateOpen now'))

theorem sessionStep_effect (s : Platform) (a : SessionStep) :
    SessionEffect pg rt s.world a (s.sessionStep pg rt a).world.sessions := by
  cases a with
  | create c => exact .created
  | reconcile ipRules =>
    obtain ⟨w',hrun,h⟩ := Background.run_reconcile pg ipRules s.world
    change SessionEffect pg rt s.world (.reconcile ipRules)
      (Background.reconcile.run (ReconcileCall.exec pg ipRules) s.world).2.sessions
    rw [hrun]
    dsimp only
    rw [h.sessions]
    exact .reconciled
  | handle a =>
    cases a with
    | detected event =>
      change SessionEffect pg rt s.world _
        (s.world.handle pg (Consumer.processEvent rt event)).sessions
      rcases processEvent_sessions pg rt event s.world with
        ⟨row,t,d,now,hput,hq,hsessions⟩ | ⟨hsessions,hno⟩
      · rw [hsessions]
        exact .detected hput hq
      · rw [hsessions]
        exact .undetected hno
    | auth resp =>
      change SessionEffect pg rt s.world _
        (s.world.handle pg (SessionHandler.processAuthResponse rt resp)).sessions
      rcases processAuthResponse_sessions pg rt resp s.world with
        ⟨row,w₁,sess,hres,hstored,hs,hsessions⟩ | ⟨hsessions,hno⟩
      · rw [hsessions]
        exact .answered hres hstored hs
      · rw [hsessions]
        exact .unanswered hno
    | _ =>
      rw [Platform.sessionStep,step_sessions rfl]
      exact .other rfl

/-! A session is terminated exactly when it has ended. -/

/-- A login that names its session names one that is open. -/
def ActivatesOpen (pg : Postgres) (w : World) : SessionStep → Prop
  | .handle (.auth resp) => resp.success=true →
      (∃ row w₁, SessionHandler.Resolved pg resp w row w₁) →
      ∀ sid sess, resp.sessionId=some sid → w.sessions.findById sid=some sess → sess.endedAt=none
  | _ => True

theorem ActivatesOpen.other {a : Step} (h : a.writesSessions=false) :
    ActivatesOpen pg w (.handle a) := by
  cases a with
  | auth => cases h
  | _ => trivial

/-- The session of a device, where the response names none, is open. -/
theorem activatesOpen_iff {resp : AuthResponse} {row : EndpointRow} {w₁ : World} {sess : SessionRow}
    (hsuccess : resp.success=true) (hres : SessionHandler.Resolved pg resp w row w₁)
    (hs : SessionHandler.sessionOf pg resp w₁ row=some sess) :
    ActivatesOpen pg w (.handle (.auth resp)) ↔ sess.endedAt=none := by
  unfold SessionHandler.sessionOf at hs
  cases hsid : resp.sessionId with
  | some sid =>
    rw [hsid,hres.same.1] at hs
    constructor
    · intro h
      exact h hsuccess ⟨row,w₁,hres⟩ sid sess hsid hs
    · intro h _ _ sid' sess' hsid' hs'
      rw [hsid,Option.some.injEq] at hsid'
      subst hsid'
      exact Option.some.inj (hs.symm.trans hs') ▸ h
  | none =>
    rw [hsid] at hs
    have hopen := (SessionTable.findActiveByEndpoint_latest hs).1.2
    simp only [SessionTable.isOpen,Bool.and_eq_true,Option.isNone_iff_eq_none] at hopen
    refine iff_of_true ?_ hopen.2
    intro _ _ sid _ hsid'
    rw [hsid] at hsid'
    cases hsid'

theorem Background.consistent_reopened (eps : List EndpointRow) (now : Timestamp)
    {t : SessionTable} (h : t.Consistent) : (reopened eps now t).Consistent := by
  induction eps generalizing now t with
  | nil => exact h
  | cons ep eps ih => exact ih _ (h.create _ now)

theorem Background.keepsEnded_reopened (eps : List EndpointRow) (now : Timestamp)
    (t : SessionTable) : SessionTable.KeepsEnded t (reopened eps now t) := by
  induction eps generalizing now t with
  | nil => exact .refl t
  | cons ep eps ih => exact (SessionTable.KeepsEnded.create _ now t).trans (ih _ _)

theorem SessionEffect.consistent_iff {a : SessionStep} {t : SessionTable}
    (h : SessionEffect pg rt w a t) (hw : w.sessions.Consistent) :
    t.Consistent ↔ ActivatesOpen pg w a := by
  cases h with
  | other ha => exact iff_of_true hw (.other ha)
  | undetected => exact iff_of_true hw trivial
  | detected => exact iff_of_true (hw.create _ _) trivial
  | unanswered hno =>
    refine iff_of_true hw ?_
    intro _ given sid sess hsid hs
    obtain ⟨row,w₁,hres⟩ := given
    have hnone := hno row w₁ hres
    rw [SessionHandler.sessionOf,hsid,hres.same.1] at hnone
    dsimp only at hnone
    rw [hs] at hnone
    cases hnone
  | @answered resp _ _ _ _ _ hres hstored hs =>
    cases hsuccess : resp.success with
    | true =>
      rw [if_pos rfl,activatesOpen_iff hsuccess hres hs]
      exact hw.activate_iff hstored _
    | false =>
      rw [if_neg (by simp)]
      refine iff_of_true hw.terminate ?_
      intro h
      rw [hsuccess] at h
      cases h
  | created => exact iff_of_true (hw.create _ _) trivial
  | reconciled =>
    exact iff_of_true (Background.consistent_reopened _ _ hw.terminateOpen) trivial

theorem SessionEffect.keepsEnded {a : SessionStep} {t : SessionTable}
    (h : SessionEffect pg rt w a t) : SessionTable.KeepsEnded w.sessions t := by
  cases h with
  | other => exact .refl _
  | undetected => exact .refl _
  | detected => exact .create _ _ _
  | unanswered => exact .refl _
  | answered =>
    split
    · exact .transition
    · exact .terminate
  | created => exact .create _ _ _
  | reconciled =>
    exact SessionTable.KeepsEnded.terminateOpen.trans (Background.keepsEnded_reopened _ _ _)

theorem keepsEnded_runs (s : Platform) (steps : List SessionStep) :
    SessionTable.KeepsEnded s.world.sessions
      (runs (Platform.sessionStep pg rt) s steps).world.sessions :=
  runs_invariant (fun s' => SessionTable.KeepsEnded s.world.sessions s'.world.sessions)
    (fun s' a h => h.trans (sessionStep_effect s' a).keepsEnded) steps (.refl _)

/-- In a run, every session is terminated exactly when it has ended and keeps its state from then
on, if and only if each login that names its session names one that is open. -/
theorem sessions_consistent_iff {s : Platform} (h : s.world.sessions.Consistent)
    (steps : List SessionStep) :
    (∀ before between after, steps=before++between++after →
      let s₁ := runs (Platform.sessionStep pg rt) s before
      let s₂ := runs (Platform.sessionStep pg rt) s₁ between
      s₂.world.sessions.Consistent ∧
        SessionTable.KeepsState s₁.world.sessions s₂.world.sessions) ↔
      Guarded (Platform.sessionStep pg rt) (fun s => ActivatesOpen pg s.world) s steps := by
  rw [guarded_iff_throughout (I := fun s => s.world.sessions.Consistent)
    (fun s a hs => (sessionStep_effect s a).consistent_iff hs) h]
  constructor
  · intro hall pre post same
    subst same
    exact (hall [] pre post rfl).1
  · intro hall before between after same
    subst same
    have hbefore := hall before (between++after) (by rw [List.append_assoc])
    have hbetween := hall (before++between) after rfl
    rw [runs_append] at hbetween
    exact ⟨hbetween,(keepsEnded_runs _ between).keepsState hbefore hbetween⟩

theorem initial_consistent (policies : List PolicyRow) :
    (Platform.initial policies).world.sessions.Consistent := fun _ hs => nomatch hs

/-- An answer about the one device of the samples. -/
def sampleResponse (success : Bool) (sessionId : Option Uuid) : AuthResponse where
  sessionId := sessionId
  endpointId := some 1
  macAddress := ""
  ipAddress := ""
  success := success
  username := some "kim"
  groups := []
  reason := none

/-- A login is refused and then accepted, neither with a word of the session. -/
theorem sessions_consistent_run :
    let s₁ := runs (Platform.sessionStep .plain .ascii) (Platform.initial [catchAll .quarantine])
      [.handle (.detected firstSighting),.handle (.auth (sampleResponse false none))]
    let s₂ := runs (Platform.sessionStep .plain .ascii) s₁
      [.handle (.auth (sampleResponse true none))]
    s₂.world.sessions.Consistent ∧
      SessionTable.KeepsState s₁.world.sessions s₂.world.sessions :=
  have hok : Guarded (Platform.sessionStep .plain .ascii) (fun s => ActivatesOpen .plain s.world)
      (Platform.initial [catchAll .quarantine]) [.handle (.detected firstSighting),
        .handle (.auth (sampleResponse false none)),.handle (.auth (sampleResponse true none))] :=
    ⟨trivial,nofun,fun _ _ _ _ h => (nomatch h),trivial⟩
  (sessions_consistent_iff (initial_consistent _) _).mpr hok _ _ [] rfl

/-- A session that a refused login has ended is active again after a login that names it. -/
theorem ended_session_reactivated :
    let run := runs (Platform.sessionStep .plain .ascii) (Platform.initial [catchAll .quarantine])
    let refused := [SessionStep.handle (.detected firstSighting),
      .handle (.auth (sampleResponse false none))]
    let accepted := refused++[.handle (.auth (sampleResponse true (some 1)))]
    let states := fun (s : Platform) =>
      s.world.sessions.rows.map fun r => (r.id,r.state,r.endedAt.isSome)
    states (run refused)=[(1,.terminated,true)] ∧ states (run accepted)=[(1,.active,true)] ∧
      ¬(run accepted).world.sessions.Consistent := by
  intro run refused accepted states
  have hstates : states (run accepted)=[(1,.active,true)] := by decide +kernel
  refine ⟨by decide +kernel,hstates,?_⟩
  intro h
  have hmem : (1,SessionState.active,true) ∈ states (run accepted) := by
    rw [hstates]
    exact .head _
  obtain ⟨r,hr,he⟩ := List.mem_map.mp hmem
  simp only [Prod.mk.injEq] at he
  have hterminated := (h r hr).mpr he.2.2
  rw [he.2.1] at hterminated
  cases hterminated

/-! No device has two open sessions. -/

/-- A session is opened for a device that has none open. -/
def OpensFirst (pg : Postgres) (rt : Runtime) (w : World) : SessionStep → Prop
  | .handle (.detected event) => ∀ row t,
      w.endpoints.upsert pg (Consumer.upsertOf event) w.clock=.ok (row,t) →
      Quarantines pg rt w row → w.sessions.findActiveByEndpoint pg row.id=none
  | .create c => w.sessions.findActiveByEndpoint pg c.endpointId=none
  | _ => True

theorem OpensFirst.other {a : Step} (h : a.writesSessions=false) :
    OpensFirst pg rt w (.handle a) := by
  cases a with
  | detected => cases h
  | _ => trivial

theorem Background.single_reopened (pg : Postgres) (w : World) (now now' : Timestamp) :
    (reopened (reauthOf pg w) now (w.sessions.terminateOpen now')).Single := by
  intro e
  rw [openCount_reopened,SessionTable.openCount_terminateOpen,Nat.zero_add,
    (reauthOf_ids pg w).count_eq]
  exact List.nodup_iff_count_le_one.mp
    ((List.filter_sublist.map _).nodup w.endpoints.ids) e

theorem SessionEffect.single_iff {a : SessionStep} {t : SessionTable}
    (h : SessionEffect pg rt w a t) (hw : w.sessions.Single) :
    t.Single ↔ OpensFirst pg rt w a := by
  cases h with
  | other ha => exact iff_of_true hw (.other ha)
  | undetected hno =>
    exact iff_of_true hw fun row t hput hq => absurd hq (hno row t hput)
  | @detected _ row t _ _ hput hq =>
    rw [hw.create_iff,SessionTable.openCount_eq_zero pg]
    constructor
    · intro h row' t' hput' _
      rw [hput] at hput'
      cases hput'
      exact h
    · intro h
      exact h row t hput hq
  | unanswered => exact iff_of_true hw trivial
  | answered =>
    refine iff_of_true ?_ trivial
    split
    · exact hw.transition
    · exact hw.terminate
  | created => rw [hw.create_iff,SessionTable.openCount_eq_zero pg,OpensFirst]
  | reconciled => exact iff_of_true (Background.single_reopened pg w _ _) trivial

/-- In a run, no device ever has two open sessions if and only if each event that puts its device in
quarantine, and each insert, comes when the device has none. -/
theorem sessions_single_iff {s : Platform} (h : s.world.sessions.Single)
    (steps : List SessionStep) :
    (∀ before after, steps=before++after →
      (runs (Platform.sessionStep pg rt) s before).world.sessions.Single) ↔
      Guarded (Platform.sessionStep pg rt) (fun s => OpensFirst pg rt s.world) s steps :=
  (guarded_iff_throughout (I := fun s => s.world.sessions.Single)
    (fun s a hs => (sessionStep_effect s a).single_iff hs) h).symm

theorem initial_single (policies : List PolicyRow) :
    (Platform.initial policies).world.sessions.Single := fun _ => Nat.zero_le 1

/-- A device is detected and blocked, and the service starts again. -/
theorem sessions_single_run :
    (runs (Platform.sessionStep .plain .ascii) (Platform.initial [catchAll .quarantine])
      [.handle (.detected firstSighting),.handle (.admin 1 .block),
        .reconcile []]).world.sessions.Single :=
  have hok : Guarded (Platform.sessionStep .plain .ascii)
      (fun s => OpensFirst .plain .ascii s.world) (Platform.initial [catchAll .quarantine])
      [.handle (.detected firstSighting),.handle (.admin 1 .block),.reconcile []] :=
    ⟨fun _ _ _ _ => rfl,trivial,trivial,trivial⟩
  (sessions_single_iff (initial_single _) _).mpr hok _ [] rfl

/-- Quarantined, allowed by an administrator and detected again, the device has two sessions. -/
theorem second_session_opened :
    let s := runs (Platform.sessionStep .plain .ascii) (Platform.initial [catchAll .quarantine])
      [.handle (.detected firstSighting),.handle (.admin 1 .allow),
        .handle (.detected firstSighting)]
    s.world.sessions.openCount 1=2 ∧ ¬s.world.sessions.Single := by
  intro s
  have htwo : s.world.sessions.openCount 1=2 := by decide +kernel
  refine ⟨htwo,fun h => ?_⟩
  have hone := h 1
  omega

end NacPlatform
