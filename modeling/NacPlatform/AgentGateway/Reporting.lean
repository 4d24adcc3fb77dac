import NacPlatform.PolicyManager.Outcomes

namespace NacPlatform

namespace PostureHandler

variable {pg : Postgres} {rt : Runtime}

def SavesNoReport (c : Call) : Prop := ∀ id report b, c≠.savePosture id report b

theorem exec_reports {c : Call} (h : SavesNoReport c) (w : World) :
    (c.exec pg w).2.postureReports=w.postureReports := by
  cases c
  case savePosture id report b => exact absurd rfl (h id report b)
  all_goals
    simp only [Call.exec,World.logged]
    try split
  all_goals try rfl
  all_goals
    split
    · rfl
    · rfl

theorem changeStatus_only (row : EndpointRow) (status : Status) :
    Proc.Only (fun _ _ => True) SavesNoReport (changeStatus row status) := by
  apply Proc.Only.bind
  · exact Proc.only_performOrFail.mpr fun _ _ _ h => nomatch h
  · intro _
    apply Proc.Only.bind
    · exact Proc.only_performOrFail.mpr fun _ _ _ h => nomatch h
    · intro _
      apply Proc.Only.bind
      · exact Proc.only_perform.mpr fun _ _ _ h => nomatch h
      · exact fun _ => trivial

theorem evaluateEndpoint_only (row : EndpointRow) (report : PostureReport) (b : Bool) :
    Proc.Only (fun _ _ => True) SavesNoReport (evaluateEndpoint rt row report b) := by
  have hload : Proc.Only (fun _ _ => True) SavesNoReport loadRules := by
    apply Proc.Only.bind
    · exact Proc.only_performOrFail.mpr fun _ _ _ h => nomatch h
    · intro rows
      cases rows.mapM toPolicyRule with
      | ok rules => trivial
      | error e => trivial
  apply Proc.Only.bind hload
  intro rules
  by_cases hemp : rules.isEmpty=true
  · rw [if_pos hemp]
    trivial
  · rw [if_neg hemp]
    by_cases hnew : (row.status != decisionToStatus (evaluate rt rules (context row report b)))=true
    · simp only [hnew,if_true]
      exact changeStatus_only row _
    · simp only [hnew]
      trivial

theorem processPosture_unknown {report : PostureReport} {w : World}
    (h : (pg.macaddr report.deviceId).bind w.endpoints.findByMac=none) :
    w.handle pg (processPosture rt report)=w := by
  have hout := processPosture_outcome pg rt report w
  generalize hw : w.handle pg (processPosture rt report)=w' at hout
  cases hout with
  | unknown _ => rfl
  | kept found => simp [h] at found
  | changed found => simp [h] at found

/-- The report is filed under the endpoint that was found. -/
theorem processPosture_saved {report : PostureReport} {w : World} {row : EndpointRow}
    (h : (pg.macaddr report.deviceId).bind w.endpoints.findByMac=some row) :
    (w.handle pg (processPosture rt report)).postureReports=
      w.postureReports++[⟨row.id,report,verdict rt report⟩] := by
  obtain ⟨mac,hmac,hrow⟩ := Option.bind_eq_some_iff.mp h
  have hexec : Call.exec pg (.findByMac report.deviceId) w=(.ok (some row),w) := by
    simp only [Call.exec,hmac,hrow]
  unfold processPosture
  rw [World.handle_query_ok hexec,World.handle_query_ok rfl,World.handle_query_ok rfl,
    World.handle_query_ok rfl,World.handle_query_ok rfl]
  exact (evaluateEndpoint_only row report (verdict rt report)).run_frame (·.postureReports)
    (fun c w' hc => exec_reports hc w') _

/-- The columns that a report sets. -/
def posture (r : EndpointRow) : Option Bool × Option Json × Int32 × Option Bool × Option Bool ×
    Option Bool × Option String :=
  (r.isCompliant,r.postureSw,r.postureMissingPatches,r.postureUsbEnabled,r.postureBluetooth,
    r.postureFolderSharing,r.postureOsVersion)

def reportedPosture (rt : Runtime) (report : PostureReport) : Option Bool × Option Json × Int32 ×
    Option Bool × Option Bool × Option Bool × Option String :=
  (some (verdict rt report),some report.fields.sw,report.fields.missingPatches,
    some report.fields.usbEnabled,some report.fields.bluetooth,some report.fields.folderSharing,
    some report.fields.osVersion)

theorem posture_reported {report : PostureReport} {w : World} {row : EndpointRow}
    (h : w.endpoints.findById row.id=some row) (id : Uuid) :
    (reported w row report (verdict rt report)).column posture id=
      if id=row.id then some (reportedPosture rt report) else w.endpoints.column posture id := by
  by_cases hid : id=row.id
  · rw [if_pos hid,hid,EndpointTable.column,find_reported h]
    rfl
  · rw [if_neg hid,EndpointTable.column,reported,EndpointTable.findById_updatePostureFields,
      EndpointTable.map_findById_other hid,EndpointTable.findById_setCompliance,
      EndpointTable.map_findById_other hid,EndpointTable.column]

theorem processPosture_posture {report : PostureReport} {w : World} {row : EndpointRow}
    (h : (pg.macaddr report.deviceId).bind w.endpoints.findByMac=some row) (id : Uuid) :
    (w.handle pg (processPosture rt report)).endpoints.column posture id=
      if id=row.id then some (reportedPosture rt report) else w.endpoints.column posture id := by
  have hself : w.endpoints.findById row.id=some row := by
    obtain ⟨mac,_,hrow⟩ := Option.bind_eq_some_iff.mp h
    exact (EndpointTable.findByMac_eq_some.mp hrow).1
  have hout := processPosture_outcome pg rt report w
  generalize w.handle pg (processPosture rt report)=w' at hout
  cases hout with
  | unknown hno => simp [h] at hno
  | @kept _ row' found _ effect =>
    have hsame : row=row' := Option.some.inj (h.symm.trans found)
    rw [effect.endpoints,← hsame]
    exact posture_reported hself id
  | @changed _ row' _ new found _ _ _ _ effect =>
    have hsame : row=row' := Option.some.inj (h.symm.trans found)
    have hstatus : ∀ t : EndpointTable, (t.setStatus row.id new).column posture=t.column posture :=
      fun t => EndpointTable.column_modify _ fun _ => rfl
    rw [effect.endpoints,← hsame,hstatus]
    exact posture_reported hself id

end PostureHandler

namespace AgentService

open PostureHandler

/-- The report of an agent has been filed under, and written to, the row with its agent id, and no
other row has got a posture by it. -/
def Stored (rt : Runtime) (deviceId : String) (report : PostureReport) (w w' : World) : Prop :=
  ∃ r ∈ w.endpoints.rows, r.agentId=some deviceId ∧
    w'.postureReports=w.postureReports++[⟨r.id,report,verdict rt report⟩] ∧
    ∀ id, w'.endpoints.column posture id=
      if id=r.id then some (reportedPosture rt report) else w.endpoints.column posture id

/-- Whatever has happened since the registration: a published report is stored on the row of its
agent exactly when the device id, read as a hardware address, is the one in that row. -/
theorem report_stored_iff {verifyToken : String → Bool} {authorization : Option String}
    {req : StatusReport} {now : Int} {t : EndpointTable} {report : PostureReport} {action : String}
    (h : reportStatus verifyToken authorization req now t=.ok (report,action))
    (pg : Postgres) (rt : Runtime) (w : World) :
    Stored rt req.deviceId report w (w.handle pg (processPosture rt report)) ↔
      ∃ r ∈ w.endpoints.rows, r.agentId=some req.deviceId ∧
        pg.macaddr req.deviceId=some r.macAddress := by
  have hreport : report.deviceId=req.deviceId := by
    unfold reportStatus at h
    split at h
    · cases h
    · split at h
      · cases h
        rfl
      · cases h
  constructor
  · intro hstored
    obtain ⟨r,hr,hagent,hsaved,_⟩ := hstored
    refine ⟨r,hr,hagent,?_⟩
    cases hfound : (pg.macaddr report.deviceId).bind w.endpoints.findByMac with
    | none =>
      rw [processPosture_unknown hfound] at hsaved
      simp at hsaved
    | some row =>
      rw [processPosture_saved hfound] at hsaved
      have hid : row.id=r.id := by simpa using hsaved
      obtain ⟨mac,hmac,hrow⟩ := Option.bind_eq_some_iff.mp hfound
      obtain ⟨hself,hown⟩ := EndpointTable.findByMac_eq_some.mp hrow
      have hsame := List.inj_on_of_nodup_map w.endpoints.ids
        (EndpointTable.findById_eq_some.mp hself).1 hr hid
      rw [← hreport,hmac,← hown,hsame]
  · intro hrow
    obtain ⟨r,hr,hagent,hmac⟩ := hrow
    have hself := EndpointTable.findById_eq_some.mpr ⟨hr,rfl⟩
    have hfound : (pg.macaddr report.deviceId).bind w.endpoints.findByMac=some r := by
      rw [hreport,hmac]
      exact EndpointTable.findByMac_eq_some.mpr ⟨hself,rfl⟩
    exact ⟨r,hr,hagent,processPosture_saved hfound,processPosture_posture hfound⟩

/-- An agent as the installer sets it up, with a fresh UUID as its device id. -/
def uuidAgent : RegisterRequest :=
  ⟨"3f2b8a9e-5c41-4d7a-9f00-1b2c3d4e5f60","pc-7","Linux","1.0","aa:bb:cc:dd:ee:01"⟩

def cleanReport (deviceId : String) : StatusReport := ⟨deviceId,[],[],false,false,false,"Linux","6.1"⟩

def registered (req : RegisterRequest) : World :=
  (runs (Platform.step Postgres.plain Runtime.ascii) (Platform.initial [])
    [.register (some "10.0.0.7") req]).world

/-- A device id that is the MAC itself, as older agents had it. -/
theorem report_stored_run :
    Stored Runtime.ascii "aabbccddee01" (postureReport (cleanReport "aabbccddee01") 0)
      (registered { uuidAgent with deviceId := "aabbccddee01" })
      ((registered { uuidAgent with deviceId := "aabbccddee01" }).handle Postgres.plain
        (processPosture Runtime.ascii (postureReport (cleanReport "aabbccddee01") 0))) := by
  have hrows : (registered { uuidAgent with deviceId := "aabbccddee01" }).endpoints.rows.map
      (fun r => (r.agentId,r.macAddress))=
        [(some "aabbccddee01",⟨0xaa,0xbb,0xcc,0xdd,0xee,0x01⟩)] := by decide +kernel
  have hack : reportStatus (fun _ => true) (some "Bearer t") (cleanReport "aabbccddee01") 0
      EndpointTable.empty=.ok (postureReport (cleanReport "aabbccddee01") 0,"Allow") := by
    decide +kernel
  refine (report_stored_iff hack Postgres.plain Runtime.ascii _).mpr ?_
  have hmem : (some "aabbccddee01",(⟨0xaa,0xbb,0xcc,0xdd,0xee,0x01⟩ : MacAddr)) ∈
      (registered { uuidAgent with deviceId := "aabbccddee01" }).endpoints.rows.map
        (fun r => (r.agentId,r.macAddress)) := by
    rw [hrows]
    exact List.mem_singleton.mpr rfl
  obtain ⟨r,hr,hkeys⟩ := List.mem_map.mp hmem
  obtain ⟨hagent,hmac⟩ := Prod.mk.inj hkeys
  refine ⟨r,hr,hagent,?_⟩
  rw [hmac]
  decide +kernel

/-- The report of the agent is nowhere stored, although its row is there. -/
theorem uuid_report_lost :
    (registered uuidAgent).endpoints.rows.map (fun r => (r.agentId,r.macAddress.text))=
        [(some uuidAgent.deviceId,"aa:bb:cc:dd:ee:01")] ∧
      ¬ Stored Runtime.ascii uuidAgent.deviceId (postureReport (cleanReport uuidAgent.deviceId) 0)
        (registered uuidAgent)
        ((registered uuidAgent).handle Postgres.plain (processPosture Runtime.ascii
          (postureReport (cleanReport uuidAgent.deviceId) 0))) := by
  refine ⟨by decide +kernel,?_⟩
  intro h
  obtain ⟨r,_,_,hsaved,_⟩ := h
  have hnone : ((registered uuidAgent).handle Postgres.plain (processPosture Runtime.ascii
      (postureReport (cleanReport uuidAgent.deviceId) 0))).postureReports.length=0 := by
    decide +kernel
  rw [hsaved,List.length_append,List.length_singleton] at hnone
  omega

end AgentService

end NacPlatform
