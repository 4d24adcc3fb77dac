import NacPlatform.PolicyManager.Redetection

namespace NacPlatform

/-- The event says nothing about the device that its row does not say. -/
structure Redundant (pg : Postgres) (event : EndpointDetectedEvent) (r : EndpointRow) : Prop where
  ip : event.ipAddress.isEmpty=true ∨ pg.inet event.ipAddress=r.ipAddress
  hostname : event.hostname=none ∨ event.hostname=r.hostname
  osFamily : event.osFamily=none ∨ event.osFamily=r.osFamily
  osVersion : event.osVersion=none ∨ event.osVersion=r.osVersion
  deviceType : event.deviceType=none ∨ event.deviceType=r.deviceType
  vendor : event.vendor=none ∨ event.vendor=r.vendor
  interface : event.interface.isEmpty=true ∨ some event.interface=r.interface

/-- The event is about another device, or redundant. -/
def AddsNothing (pg : Postgres) (id : Uuid) (w : World) (event : EndpointDetectedEvent) : Prop :=
  ∀ r, w.endpoints.findById id=some r → pg.macaddr event.macAddress=some r.macAddress →
    Redundant pg event r

/-- A frame that shows a MAC and nothing else. -/
def sighting (mac : MacAddr) : EndpointDetectedEvent :=
  ⟨mac.text,"","","arp",0,none,none,none,none,none⟩

section Standing

variable {pg : Postgres} {rt : Runtime} {w : World}

theorem or_known {α : Type} {a b : Option α} (h : a=none ∨ a=b) : a.or b=b := by
  rcases h with rfl | rfl
  · rfl
  · cases a <;> rfl

theorem Redundant.merged {event : EndpointDetectedEvent} {r : EndpointRow} {mac : MacAddr}
    {ip : Option String} (h : Redundant pg event r)
    (hcast : EndpointTable.cast pg (Consumer.upsertOf event)=.ok (mac,ip)) (now : Timestamp) :
    EndpointTable.mergedRow ip (Consumer.upsertOf event) now r={ r with lastSeen := now } := by
  have hip : ip.or r.ipAddress=r.ipAddress := by
    rcases (EndpointTable.cast_ok hcast).2 with ⟨_,rfl⟩ | ⟨s,shown,hs,hshown,rfl⟩
    · rfl
    · obtain ⟨hne,rfl⟩ : event.ipAddress.isEmpty=false ∧ event.ipAddress=s := by
        simpa [Consumer.upsertOf] using hs
      rcases h.ip with hempty | hsame
      · rw [hne] at hempty
        cases hempty
      · rw [← hsame,hshown]
        rfl
  have hinterface : (Consumer.upsertOf event).interface.or r.interface=r.interface := by
    apply or_known
    by_cases hempty : event.interface.isEmpty=true
    · exact .inl (by simp [Consumer.upsertOf,hempty])
    · right
      rcases h.interface with hnone | hsame
      · exact absurd hnone hempty
      · simpa [Consumer.upsertOf,hempty] using hsame
  unfold EndpointTable.mergedRow
  rw [hip,hinterface]
  simp only [Consumer.upsertOf,or_known h.hostname,or_known h.osFamily,or_known h.osVersion,
    or_known h.deviceType,or_known h.vendor,Option.none_or]

/-- A redundant event about a known device is taken up and finds the row as it is. -/
theorem sighting_upsert (pg : Postgres) {r : EndpointRow} (hr : w.endpoints.findById r.id=some r) :
    ∃ t, w.endpoints.upsert pg (Consumer.upsertOf (sighting r.macAddress)) w.clock=
      .ok ({ r with lastSeen := w.clock },t) := by
  have hcast : EndpointTable.cast pg (Consumer.upsertOf (sighting r.macAddress))=
      .ok (r.macAddress,none) := by
    unfold EndpointTable.cast
    simp [Consumer.upsertOf,sighting,pg.macaddr_text,bind,Except.bind,pure,Except.pure]
  obtain ⟨t,ht⟩ := EndpointTable.upsert_known w.clock hr hcast rfl
  exact ⟨t,ht⟩

/-- One event, handled to its end. -/
def redetect (pg : Postgres) (rt : Runtime) (w : World) (event : EndpointDetectedEvent) : World :=
  w.handle pg (Consumer.processEvent rt event)

/-- What a report leaves on the row it is about. -/
theorem processPosture_row (rt : Runtime) {report : PostureReport} {row : EndpointRow}
    (hfound : (pg.macaddr report.deviceId).bind w.endpoints.findByMac=some row) :
    ∃ r, (w.handle pg (PostureHandler.processPosture rt report)).endpoints.findById row.id=some r ∧
      Consumer.context r=Consumer.context row ∧ r.macAddress=row.macAddress ∧
      (r.status=row.status ∧ NoRules pg w ∨ ∃ rules, w.rules pg=.ok rules ∧ rules≠[] ∧
        r.status=decisionToStatus (evaluate rt rules (PostureHandler.context row report
          (PostureHandler.verdict rt report)))) := by
  have hrow : w.endpoints.findById row.id=some row := by
    obtain ⟨m,_,hm⟩ := Option.bind_eq_some_iff.mp hfound
    exact (EndpointTable.findByMac_eq_some.mp hm).1
  have hstored := PostureHandler.find_reported hrow report (PostureHandler.verdict rt report)
  have hout := PostureHandler.processPosture_outcome pg rt report w
  generalize w.handle pg (PostureHandler.processPosture rt report)=w' at hout
  cases hout with
  | unknown hnone =>
    rw [hfound] at hnone
    cases hnone
  | @kept _ row' hfound' hreason heff =>
    rw [hfound] at hfound'
    obtain rfl := Option.some.inj hfound'
    have hrow' := heff.endpoints ▸ hstored
    refine ⟨PostureHandler.reportedRow row report (PostureHandler.verdict rt report) w.clock,hrow',
      rfl,rfl,?_⟩
    rcases hreason with hno | hsame
    · exact .inl ⟨rfl,hno⟩
    · exact .inr hsame
  | @changed _ row' rules new hfound' hloaded hsome hdecided _ heff =>
    rw [hfound] at hfound'
    obtain rfl := Option.some.inj hfound'
    have hrow' : w'.endpoints.findById row.id=some { PostureHandler.reportedRow row report
        (PostureHandler.verdict rt report) w.clock with status := new } := by
      rw [heff.endpoints,EndpointTable.findById_setStatus,hstored,Option.map_some]
      exact congrArg some (if_pos (beq_self_eq_true row.id))
    exact ⟨_,hrow',rfl,rfl,.inr ⟨rules,hloaded,hsome,hdecided⟩⟩

theorem processPosture_sessions (pg : Postgres) (rt : Runtime) (report : PostureReport)
    (w : World) : (w.handle pg (PostureHandler.processPosture rt report)).sessions=w.sessions := by
  have hout := PostureHandler.processPosture_outcome pg rt report w
  generalize w.handle pg (PostureHandler.processPosture rt report)=w' at hout ⊢
  cases hout with
  | unknown _ => rfl
  | kept _ _ heff => exact heff.sessions
  | changed _ _ _ _ _ heff => exact heff.sessions

/-- The policies see the device as one of `Ctx`, it has the status, and `session` is open for it. -/
structure Stands (pg : Postgres) (id : Uuid) (Ctx : PolicyContext → Prop) (status : Status)
    (session : Option SessionRow) (policies : List PolicyRow) (w : World) : Prop where
  row : ∃ r, w.endpoints.findById id=some r ∧ Ctx (Consumer.context r) ∧ r.status=status
  session : w.sessions.findActiveByEndpoint pg id=session
  policies : w.policies=policies
  timed : w.Timed

/-- Why no event changes the status: the user is logged in, or the policies confirm it. -/
def Holds (pg : Postgres) (rt : Runtime) (Ctx : PolicyContext → Prop) (status : Status)
    (session : Option SessionRow) (w : World) : Prop :=
  (status=.allowed ∧ (∀ ctx, Ctx ctx → ctx.username.isSome=true) ∧
      ∃ s, session=some s ∧ s.state=.active) ∨
    ∀ rules, w.rules pg=.ok rules → rules≠[] → ∀ ctx, Ctx ctx →
      decisionToStatus (evaluate rt rules ctx)=status

theorem Stands.redetect {id : Uuid} {Ctx : PolicyContext → Prop} {status : Status}
    {session : Option SessionRow} {policies : List PolicyRow} {event : EndpointDetectedEvent}
    (h : Stands pg id Ctx status session policies w)
    (hkeeps : ∀ r ip, w.endpoints.findById id=some r → Ctx (Consumer.context r) →
      EndpointTable.cast pg (Consumer.upsertOf event)=.ok (r.macAddress,ip) →
      Ctx (Consumer.context (EndpointTable.mergedRow ip (Consumer.upsertOf event) w.clock r)))
    (hholds : Holds pg rt Ctx status session w) :
    Stands pg id Ctx status session policies (redetect pg rt w event) := by
  obtain ⟨r,hr,hctx,hstatus⟩ := h.row
  have about (row : EndpointRow) (t : EndpointTable) (hid : row.id=id)
      (hput : w.endpoints.upsert pg (Consumer.upsertOf event) w.clock=.ok (row,t)) :
      Ctx (Consumer.context row) ∧ row.status=status := by
    obtain ⟨ip,hcast,hrow⟩ := EndpointTable.upsert_stored hput (hid ▸ hr)
    rw [hrow]
    exact ⟨hkeeps r ip hr hctx hcast,hstatus⟩
  have keeps (row : EndpointRow) (t : EndpointTable) (hid : row.id=id)
      (hput : w.endpoints.upsert pg (Consumer.upsertOf event) w.clock=.ok (row,t)) (st : Status)
      (hverdict : Consumer.Verdict pg rt w row st) : st=row.status := by
    obtain ⟨hctx',hstatus'⟩ := about row t hid hput
    rcases hholds with ⟨hallowed,huser,s,hsome,hactive⟩ | hconfirms
    · apply hverdict.of_loggedIn
      have huser' : row.username.isSome=true := huser _ hctx'
      rw [Consumer.loggedIn,hid,h.session,hsome,hstatus',hallowed,huser']
      simp [hactive]
    · apply hverdict.of_confirmed
      intro rules hloaded hne
      rw [hstatus']
      exact hconfirms rules hloaded hne _ hctx'
  refine ⟨?_,?_,(World.handle_policies _ _ _).trans h.policies,h.timed.run _⟩
  · by_cases hother : ∀ row t,
        w.endpoints.upsert pg (Consumer.upsertOf event) w.clock=.ok (row,t) → row.id≠id
    · exact ⟨r,Consumer.processEvent_other hr hother,hctx,hstatus⟩
    · push Not at hother
      obtain ⟨row,t,hput,hid⟩ := hother
      obtain ⟨st,hfind,hverdict,_⟩ := Consumer.processEvent_self rt hput
      rw [keeps row t hid hput st hverdict] at hfind
      exact ⟨row,hid ▸ hfind,about row t hid hput⟩
  · rw [← h.session]
    refine Consumer.processEvent_findActive h.timed fun row t hput => ?_
    by_cases hid : row.id=id
    · exact .inr (keeps row t hid hput)
    · exact .inl hid

/-- A status that holds against every event of the run is the one at its end. -/
theorem Stands.run {id : Uuid} {Ctx : PolicyContext → Prop} {status : Status}
    {session : Option SessionRow} {policies : List PolicyRow} {events : List EndpointDetectedEvent}
    {ok : World → EndpointDetectedEvent → Prop}
    (h : Stands pg id Ctx status session policies w)
    (hkeeps : ∀ w event, ok w event → ∀ r ip, w.endpoints.findById id=some r →
      Ctx (Consumer.context r) →
      EndpointTable.cast pg (Consumer.upsertOf event)=.ok (r.macAddress,ip) →
      Ctx (Consumer.context (EndpointTable.mergedRow ip (Consumer.upsertOf event) w.clock r)))
    (hholds : ∀ w', w'.policies=policies → Holds pg rt Ctx status session w')
    (hok : Guarded (NacPlatform.redetect pg rt) ok w events) :
    (runs (NacPlatform.redetect pg rt) w events).endpoints.statusOf id=status := by
  have hend := hok.invariant (Stands pg id Ctx status session policies)
    (fun w' event hstands hevent => hstands.redetect (hkeeps w' event hevent)
      (hholds w' hstands.policies)) h
  obtain ⟨r,hr,_,hstatus⟩ := hend.row
  rw [EndpointTable.statusOf_of_find hr,hstatus]

/-- What the policies decide on a device that is not logged in is what one event leaves. -/
theorem redetect_refuted (rt : Runtime) {event : EndpointDetectedEvent} {row : EndpointRow}
    {t : EndpointTable} {rules : List PolicyRule}
    (hput : w.endpoints.upsert pg (Consumer.upsertOf event) w.clock=.ok (row,t))
    (hloaded : w.rules pg=.ok rules) (hne : rules≠[])
    (hopen : Consumer.loggedIn pg w row=false) :
    (redetect pg rt w event).endpoints.statusOf row.id=
      decisionToStatus (evaluate rt rules (Consumer.context row)) := by
  obtain ⟨st,hfind,hverdict,_⟩ := Consumer.processEvent_self rt hput
  have hfind' : (redetect pg rt w event).endpoints.findById row.id=
      some { row with status := st } := hfind
  rw [EndpointTable.statusOf_of_find hfind']
  exact hverdict.of_refuted hloaded hne hopen

/-- In a reachable state, the status that a posture report leaves stands against every sequence of
events that add nothing exactly when the policies decide the same without the report, or the user
of the then allowed device has an active session. -/
theorem posture_verdict_stands_iff {policies : List PolicyRow} {steps : List Step}
    {report : PostureReport} {row : EndpointRow}
    (hw : w=(runs (Platform.step pg rt) (Platform.initial policies) steps).world)
    (hfound : (pg.macaddr report.deviceId).bind w.endpoints.findByMac=some row) :
    (∀ events,
      Guarded (redetect pg rt) (AddsNothing pg row.id)
        (w.handle pg (PostureHandler.processPosture rt report)) events →
      (runs (redetect pg rt) (w.handle pg (PostureHandler.processPosture rt report))
          events).endpoints.statusOf row.id=
        (w.handle pg (PostureHandler.processPosture rt report)).endpoints.statusOf row.id) ↔
    ∀ rules, w.rules pg=.ok rules → rules≠[] →
      decisionToStatus (evaluate rt rules (Consumer.context row))=
          decisionToStatus (evaluate rt rules (PostureHandler.context row report
            (PostureHandler.verdict rt report))) ∨
        decisionToStatus (evaluate rt rules (PostureHandler.context row report
            (PostureHandler.verdict rt report)))=.allowed ∧ row.username.isSome=true ∧
          ∃ s, w.sessions.findActiveByEndpoint pg row.id=some s ∧ s.state=.active := by
  obtain ⟨r,hr,hctx,hmac,hstatus⟩ := processPosture_row rt hfound
  have hpolicies := World.handle_policies pg (PostureHandler.processPosture rt report) w
  have hsessions := processPosture_sessions pg rt report w
  have htimed : (w.handle pg (PostureHandler.processPosture rt report)).Timed := by
    rw [hw]
    exact (Platform.reachable_timed policies steps).run _
  generalize w.handle pg (PostureHandler.processPosture rt report)=w₁ at *
  have hid : r.id=row.id := EndpointTable.findById_id hr
  rw [EndpointTable.statusOf_of_find hr]
  constructor
  · intro h rules hloaded hne
    have hdecided : r.status=decisionToStatus (evaluate rt rules (PostureHandler.context row report
        (PostureHandler.verdict rt report))) := by
      rcases hstatus with ⟨_,hno⟩ | ⟨rules',hloaded',_,hnew⟩
      · exact absurd (hno rules hloaded) hne
      · rw [hloaded] at hloaded'
        obtain rfl := Except.ok.inj hloaded'
        exact hnew
    rw [← hdecided]
    by_cases hin : Consumer.loggedIn pg w₁ { r with lastSeen := w₁.clock }=true
    · right
      have husername : row.username=r.username := congrArg PolicyContext.username hctx.symm
      simp only [Consumer.loggedIn,Bool.and_eq_true,beq_iff_eq,hid,hsessions] at hin
      obtain ⟨⟨hallowed,huser⟩,hactive⟩ := hin
      refine ⟨hallowed,husername ▸ huser,?_⟩
      cases hsession : w.sessions.findActiveByEndpoint pg row.id with
      | none => simp [hsession] at hactive
      | some s => exact ⟨s,rfl,by simpa [hsession] using hactive⟩
    · left
      obtain ⟨t,hput⟩ := sighting_upsert pg (hid ▸ hr)
      have hst := redetect_refuted rt hput ((rules_congr hpolicies).trans hloaded) hne
        (by simpa using hin)
      have hadds : AddsNothing pg row.id w₁ (sighting r.macAddress) := by
        intro r' hr' _
        obtain rfl := Option.some.inj (hr.symm.trans hr')
        exact ⟨.inl rfl,.inl rfl,.inl rfl,.inl rfl,.inl rfl,.inl rfl,.inl rfl⟩
      have hkept := h [sighting r.macAddress] ⟨hadds,trivial⟩
      rw [runs_cons,runs_nil,← hid,hst] at hkept
      rw [← hkept,← hctx]
      rfl
  · intro hcond events hguarded
    have hstart : Stands pg row.id (· =Consumer.context row) r.status
        (w.sessions.findActiveByEndpoint pg row.id) w.policies w₁ :=
      ⟨⟨r,hr,hctx,rfl⟩,by rw [hsessions],hpolicies,htimed⟩
    refine hstart.run ?_ ?_ hguarded
    · intro w' event hadds r' ip hr' hctx' hcast
      rw [(hadds r' hr' (EndpointTable.cast_ok hcast).1).merged hcast]
      exact hctx'
    · intro w' hw'
      rcases hstatus with ⟨_,hno⟩ | ⟨rules,hloaded,hne,hnew⟩
      · refine .inr fun rules hloaded hne => ?_
        exact absurd (hno rules ((rules_congr hw'.symm).trans hloaded)) hne
      rw [hnew]
      rcases hcond rules hloaded hne with hsame | ⟨hallowed,huser,hactive⟩
      · refine .inr fun rules' hloaded' _ => ?_
        rw [rules_congr hw',hloaded] at hloaded'
        obtain rfl := Except.ok.inj hloaded'
        intro _ same
        subst same
        exact hsame
      · refine .inl ⟨hallowed,?_,hactive⟩
        intro _ same
        subst same
        exact huser

end Standing

/-- Compliant devices are allowed. -/
def compliantPolicy : PolicyRow where
  id := 2
  name := "compliant"
  priority := 10
  conditions := .array [.object [("type",.string "compliant"),("required",.bool true)]]
  action := .allow
  vlanId := none
  enabled := true

def goodReport : PostureReport :=
  ⟨"aa:bb:cc:dd:ee:01","linux","6.1",[],[],false,false,false,0⟩

/-- Under a policy that allows every device. -/
theorem posture_verdict_stands_run :
    let s := runs (Platform.step Postgres.plain Runtime.ascii) (Platform.initial [catchAll .allow])
      [.detected firstSighting]
    let w := s.world.handle Postgres.plain (PostureHandler.processPosture Runtime.ascii goodReport)
    ∀ events, Guarded (redetect Postgres.plain Runtime.ascii) (AddsNothing Postgres.plain 1) w events →
      (runs (redetect Postgres.plain Runtime.ascii) w events).endpoints.statusOf 1=
        w.endpoints.statusOf 1 := by
  intro s w
  have hid : ((Postgres.plain.macaddr goodReport.deviceId).bind s.world.endpoints.findByMac).map
      (·.id)=some 1 := by decide +kernel
  obtain ⟨row,hfound,hrow⟩ := Option.map_eq_some_iff.mp hid
  have hrules : s.world.rules Postgres.plain=.ok [⟨"catch-all",100,.and [],.allow⟩] :=
    (rules_congr (World.handle_policies _ _ _)).trans rfl
  have hstands := (@posture_verdict_stands_iff Postgres.plain Runtime.ascii _ _ _ _ _ rfl
    hfound).mpr (by
    intro rules hloaded _
    obtain rfl := Except.ok.inj (hrules.symm.trans hloaded)
    exact .inl rfl)
  rw [hrow] at hstands
  exact hstands

/-- A device that its report has shown to be compliant is quarantined again when it is seen again:
the next evaluation knows no verdict. -/
theorem compliant_device_requarantined :
    let step := Platform.step Postgres.plain Runtime.ascii
    let s := runs step (Platform.initial [compliantPolicy,catchAll .quarantine])
      [.detected firstSighting,.posture goodReport]
    s.world.endpoints.column (fun r => (r.status,r.isCompliant)) 1=some (.allowed,some true) ∧
      (step s (.detected firstSighting)).world.endpoints.column
        (fun r => (r.status,r.isCompliant)) 1=some (.quarantined,some true) := by
  decide +kernel

end NacPlatform
