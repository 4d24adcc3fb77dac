import NacPlatform.PolicyManager.Faults
import NacPlatform.PolicyManager.Redetection

namespace NacPlatform

/-! An `endpoint.detected` event that comes again, as the ARP stream repeats it. -/

section Faulty

variable {pg : Postgres} {fails : Call → Bool} {w w' : World}

/-- A handler that succeeds with a call behind it has had its answer. -/
theorem run_query_ok {β : Type} {c : Call} (hdb : c.onDatabase=true) {f : c.Result → Handler β}
    {b : β} (h : (query c >>= f).run (Call.execFaulty pg fails) w=(.ok b,w')) :
    ∃ a, (c.exec pg w).1=.ok a ∧
      (f a).run (Call.execFaulty pg fails) (c.exec pg w).2=(.ok b,w') := by
  rw [World.run_query_bind] at h
  by_cases hf : fails c=true
  · simp [Call.execFaulty,hf,hdb] at h
  · have he : c.execFaulty pg fails w=c.exec pg w := by simp [Call.execFaulty,hf]
    rw [he] at h
    cases hexec : c.exec pg w with
    | mk r w₁ =>
      rw [hexec] at h
      cases r with
      | error e => cases h
      | ok a => exact ⟨a,rfl,h⟩

theorem run_faulty_policies {α : Type} {p : Handler α} {r : Except DbError α}
    (h : p.run (Call.execFaulty pg fails) w=(r,w')) : w'.policies=w.policies := by
  have hend : (w.handleFaulty pg fails p).policies=w.policies := by
    refine Proc.run_invariant (fun w' : World => w'.policies=w.policies) ?_ p rfl
    intro c w' h
    unfold Call.execFaulty
    split
    · exact h
    · exact (c.exec_policies pg w').trans h
  rwa [World.handleFaulty,h] at hend

end Faulty

namespace Consumer

variable {pg : Postgres} {rt : Runtime} {fails : Call → Bool} {w w' : World}
  {event : EndpointDetectedEvent} {row : EndpointRow}

/-- All that the event says is in the row: to merge it once more only shows a later time. -/
def Told (pg : Postgres) (event : EndpointDetectedEvent) (row : EndpointRow) : Prop :=
  ∃ ip, EndpointTable.cast pg (upsertOf event)=.ok (row.macAddress,ip) ∧
    ∀ now, EndpointTable.mergedRow ip (upsertOf event) now row={ row with lastSeen := now }

theorem Told.setStatus (h : Told pg event row) (status : Status) :
    Told pg event { row with status := status } := by
  obtain ⟨ip,hcast,hmerged⟩ := h
  exact ⟨ip,hcast,fun now =>
    congrArg (fun r : EndpointRow => { r with status := status }) (hmerged now)⟩

/-- The upsert tells the row everything. -/
theorem told_of_upsert {now : Timestamp} {t t' : EndpointTable}
    (h : t.upsert pg (upsertOf event) now=.ok (row,t')) : Told pg event row := by
  obtain ⟨mac,ip,hcast,_,hrow⟩ := EndpointTable.upsert_ok h
  rcases hrow with ⟨r,hr,rfl⟩ | ⟨_,rfl⟩
  · have hmac : r.macAddress=mac := (EndpointTable.findByMac_eq_some.mp hr).2
    refine ⟨ip,hmac ▸ hcast,fun now => ?_⟩
    simp only [EndpointTable.mergedRow,← Option.or_assoc,Option.or_self]
  · refine ⟨ip,hcast,fun now => ?_⟩
    simp only [EndpointTable.mergedRow,EndpointTable.insertedRow,Option.or_self]

/-- Nothing that the policies can make of the row is another status. -/
def Stands (pg : Postgres) (rt : Runtime) (w : World) (row : EndpointRow) : Prop :=
  ∀ status, Verdict pg rt w row status → status=row.status

theorem publish_keeps {mac : String} {ip : Option String} {status : Status}
    {decision : PolicyDecision} {r : Except DbError Unit}
    (h : (publishEnforcementCommand mac ip status decision).run (Call.execFaulty pg fails) w=
      (r,w')) : w'.endpoints=w.endpoints ∧ w'.sessions=w.sessions := by
  unfold publishEnforcementCommand at h
  cases haction : status.action with
  | none =>
    rw [haction,Proc.run_pure] at h
    cases h
    exact ⟨rfl,rfl⟩
  | some action =>
    simp only [haction] at h
    rw [World.run_probe_bind,Proc.run_pure,handleFaulty_publish] at h
    cases h
    exact ⟨rfl,rfl⟩

theorem changeStatus_sets {newIp : Option String} {decision : PolicyDecision}
    (h : (changeStatus row newIp decision).run (Call.execFaulty pg fails) w=(.ok (),w')) :
    w'.endpoints=w.endpoints.setStatus row.id (decisionToStatus decision) := by
  have hset : (Call.exec pg (.setStatus row.id (decisionToStatus decision).text) w).2.endpoints=
      w.endpoints.setStatus row.id (decisionToStatus decision) := by
    simp [Call.exec,Status.parse_text]
  unfold changeStatus at h
  obtain ⟨_,_,h⟩ := run_query_ok rfl h
  obtain ⟨_,_,h⟩ := run_query_ok rfl h
  rw [← hset]
  obtain ⟨action,haction⟩ := announcedBy_decision decision
  have hpub : Announces pg fails (publishEnforcementCommand row.macAddress.text newIp
      (decisionToStatus decision) decision) _ := announces_publish haction
  by_cases hq : decisionToStatus decision=.quarantined
  · have hrest := announces_createSession (captivePortalSession row decision) hpub
    simp only [hq,beq_self_eq_true,if_true] at h hrest
    exact (congrArg (fun r => r.2.endpoints) h).symm.trans (hrest _).1
  · have hb : (decisionToStatus decision==.quarantined)=false := by simpa using hq
    simp only [hb,Bool.false_eq_true,if_false] at h
    exact (congrArg (fun r => r.2.endpoints) h).symm.trans (hpub _).1

theorem loggedIn_of_active (h : hasActiveSession pg fails w row=true) :
    loggedIn pg w row=true := by
  unfold hasActiveSession at h
  simp only [Bool.and_eq_true] at h
  obtain ⟨⟨⟨hallowed,huser⟩,_⟩,hactive⟩ := h
  simp only [loggedIn,hallowed,huser,hactive,Bool.and_self]

/-- After an evaluation that succeeds, whatever failed on its way, the status stands. -/
theorem evaluateRow_stands {newIp : Option String} {moved : Bool}
    (hrow : w.endpoints.findById row.id=some row)
    (h : (evaluateRow rt row newIp moved).run (Call.execFaulty pg fails) w=(.ok (),w')) :
    ∃ status, w'.endpoints.findById row.id=some { row with status := status } ∧
      Stands pg rt w' { row with status := status } := by
  have hrules : w'.rules pg=w.rules pg := rules_congr (run_faulty_policies h)
  unfold evaluateRow at h
  rw [run_loadRules_bind] at h
  by_cases hload : fails .enabledPolicies=true
  · rw [if_pos hload] at h
    cases h
  rw [if_neg hload] at h
  cases hloaded : w.rules pg with
  | error e =>
    rw [hloaded] at h
    cases h
  | ok rules =>
    rw [hloaded] at h hrules
    simp only [] at h
    by_cases hempty : rules.isEmpty=true
    · rw [if_pos hempty] at h
      cases h
      refine ⟨row.status,hrow,fun status hverdict => hverdict.of_confirmed ?_⟩
      intro rules' hrules' hsome
      rw [hrules] at hrules'
      cases hrules'
      exact absurd (List.isEmpty_iff.mp hempty) hsome
    rw [if_neg hempty,run_alreadyAuthenticated_bind] at h
    by_cases hchange : (!hasActiveSession pg fails w row &&
        row.status != decisionToStatus (evaluate rt rules (context row)))=true
    · rw [if_pos hchange] at h
      refine ⟨decisionToStatus (evaluate rt rules (context row)),?_,
        fun status hverdict => hverdict.of_confirmed ?_⟩
      · rw [changeStatus_sets h,EndpointTable.findById_setStatus,hrow]
        simp only [Option.map_some,beq_self_eq_true,if_true]
      · intro rules' hrules' _
        rw [hrules] at hrules'
        cases hrules'
        rfl
    · rw [if_neg hchange] at h
      have hkeeps : w'.endpoints=w.endpoints ∧ w'.sessions=w.sessions := by
        by_cases hmoved : (moved && row.status.enforced)=true
        · rw [if_pos hmoved] at h
          exact publish_keeps h
        · rw [if_neg hmoved] at h
          cases h
          exact ⟨rfl,rfl⟩
      refine ⟨row.status,by rw [hkeeps.1]; exact hrow,fun status hverdict => ?_⟩
      by_cases hactive : hasActiveSession pg fails w row=true
      · apply hverdict.of_loggedIn
        rw [loggedIn_congr hkeeps.2]
        exact loggedIn_of_active hactive
      · apply hverdict.of_confirmed
        intro rules' hrules' _
        rw [hrules] at hrules'
        cases hrules'
        have hsame : row.status=decisionToStatus (evaluate rt rules (context row)) := by
          by_contra hne
          exact hchange (by simp [Bool.eq_false_iff.mpr hactive,hne])
        exact hsame.symm

/-- An event that succeeds leaves its device with all that it says, and with a status that stands,
whatever calls failed on the way. -/
theorem processEvent_settles
    (h : (processEvent rt event).run (Call.execFaulty pg fails) w=(.ok (),w')) :
    ∃ r, w'.endpoints.findById r.id=some r ∧ Told pg event r ∧ Stands pg rt w' r := by
  unfold processEvent at h
  rw [World.run_probe_bind,(findByMac_faulty event w).1] at h
  obtain ⟨row,hrow,h⟩ := run_query_ok rfl h
  cases hput : w.endpoints.upsert pg (upsertOf event) w.clock with
  | error e =>
    simp only [Call.exec,hput] at hrow
    cases hrow
  | ok res =>
    obtain ⟨row',t⟩ := res
    simp only [Call.exec,hput] at hrow h
    cases hrow
    have hstored : t.findById row.id=some row := (EndpointTable.upsert_put hput).self
    have htold : Told pg event row := told_of_upsert hput
    unfold recordDetection at h
    obtain ⟨_,_,h⟩ := run_query_ok rfl h
    have hend : ∃ status, w'.endpoints.findById row.id=some { row with status := status } ∧
        Stands pg rt w' { row with status := status } := by
      split at h
      · obtain ⟨_,_,h⟩ := run_query_ok rfl h
        exact evaluateRow_stands hstored h
      · exact evaluateRow_stands hstored h
    obtain ⟨status,hfind,hstands⟩ := hend
    exact ⟨{ row with status := status },hfind,htold.setStatus status,hstands⟩

/-- What enforcement and the portal look at in a row. -/
def standing (r : EndpointRow) : Status × Option String × Option String :=
  (r.status,r.username,r.ipAddress)

/-- An event that says nothing new of a device whose status stands only shows it once more. -/
theorem processEvent_quiet {r : EndpointRow} (hr : w.endpoints.findById r.id=some r)
    (htold : Told pg event r) (hstands : Stands pg rt w r) :
    (w.handle pg (processEvent rt event)).commands=w.commands ∧
      (w.handle pg (processEvent rt event)).sessions=w.sessions ∧
      (w.handle pg (processEvent rt event)).endpoints.column standing=
        w.endpoints.column standing := by
  obtain ⟨ip,hcast,hmerged⟩ := htold
  have hfind : w.endpoints.findByMac r.macAddress=some r :=
    EndpointTable.findByMac_eq_some.mpr ⟨hr,rfl⟩
  rcases processEvent_outcome pg rt event w with ⟨_,hsame⟩ | ⟨row,t,w₁,hput,hout,heffect⟩
  · rw [hsame]
    exact ⟨rfl,rfl,rfl⟩
  have hrow : row={ r with lastSeen := w.clock } := by
    obtain ⟨mac,ip',hcast',_,hwritten⟩ := EndpointTable.upsert_ok hput
    rw [hcast] at hcast'
    cases hcast'
    rcases hwritten with ⟨r',hr',rfl⟩ | ⟨hnone,_⟩
    · rw [hfind] at hr'
      cases hr'
      exact hmerged w.clock
    · rw [hfind] at hnone
      cases hnone
  have hcols : t.column standing=w.endpoints.column standing := by
    funext id
    have hid : row.id=r.id := by rw [hrow]
    by_cases he : id=row.id
    · rw [EndpointTable.column,EndpointTable.column,he,(EndpointTable.upsert_put hput).self,hid,hr,
        hrow]
      rfl
    · rw [EndpointTable.column,(EndpointTable.upsert_put hput).other he,EndpointTable.column]
  have hmoved : ipChanged (storedIp pg event w) row=false := by
    have hmac : pg.macaddr event.macAddress=some r.macAddress := (EndpointTable.cast_ok hcast).1
    have hold : storedIp pg event w=row.ipAddress.map stripCidr := by
      rw [storedIp,hmac,hrow,Option.bind_some,hfind,Option.bind_some]
    simp [ipChanged,hold]
  have keeps {sent : List EnforcementCommand} (hsent : sent=[])
      (heff : Effect w₁ (w.handle pg (processEvent rt event)) w₁.endpoints w₁.sessions sent) :
      (w.handle pg (processEvent rt event)).commands=w.commands ∧
        (w.handle pg (processEvent rt event)).sessions=w.sessions ∧
        (w.handle pg (processEvent rt event)).endpoints.column standing=
          w.endpoints.column standing := by
    refine ⟨?_,heff.sessions.trans heffect.sessions,?_⟩
    · rw [heff.commands,heffect.commands,hsent,List.append_nil,List.append_nil]
    · rw [heff.endpoints,heffect.endpoints,hcols]
  cases hout with
  | unevaluated _ heff => exact keeps rfl heff
  | kept _ _ _ heff => exact keeps (by rw [hmoved]; rfl) heff
  | @changed rules hloaded hsome hopen hdiffers heff =>
    -- the verdict on the row of the first time
    have hverdict : Verdict pg rt w r (decisionToStatus (evaluate rt rules (context r))) := by
      refine .changed ?_ hsome ?_ ?_
      · rw [← rules_congr heffect.policies]
        exact hloaded
      · rw [loggedIn_congr heffect.sessions,hrow] at hopen
        exact hopen
      · rw [hrow] at hdiffers
        exact hdiffers
    rw [hrow] at hdiffers
    exact absurd (hstands _ hverdict).symm hdiffers

end Consumer

/-- An event that has been handled with success, whatever calls failed on the way and were
passed over, is quiet when it comes again: no command, no session, and the standing of every device
as it was. -/
theorem repeated_event_quiet {pg : Postgres} {rt : Runtime} {fails : Call → Bool}
    {event : EndpointDetectedEvent} {w w₁ : World}
    (h : (Consumer.processEvent rt event).run (Call.execFaulty pg fails) w=(.ok (),w₁)) :
    (w₁.handle pg (Consumer.processEvent rt event)).commands=w₁.commands ∧
      (w₁.handle pg (Consumer.processEvent rt event)).sessions=w₁.sessions ∧
      (w₁.handle pg (Consumer.processEvent rt event)).endpoints.column Consumer.standing=
        w₁.endpoints.column Consumer.standing := by
  obtain ⟨r,hr,htold,hstands⟩ := Consumer.processEvent_settles h
  exact Consumer.processEvent_quiet hr htold hstands

/-- A new device that is quarantined by one command is not quarantined by another. -/
theorem repeated_event_quiet_sighting :
    let w₁ := (World.initial [catchAll .quarantine]).handleFaulty Postgres.plain (fun _ => false)
      (Consumer.processEvent Runtime.ascii firstSighting)
    let w₂ := w₁.handle Postgres.plain (Consumer.processEvent Runtime.ascii firstSighting)
    w₁.commands.length=1 ∧ w₂.commands=w₁.commands ∧ w₂.sessions=w₁.sessions ∧
      w₂.endpoints.column Consumer.standing=w₁.endpoints.column Consumer.standing := by
  have hok : ((Consumer.processEvent Runtime.ascii firstSighting).run
      (Call.execFaulty Postgres.plain fun _ => false) (World.initial [catchAll .quarantine])).1=
        .ok () := by decide +kernel
  exact ⟨by decide +kernel,repeated_event_quiet (Prod.ext hok rfl)⟩

end NacPlatform
