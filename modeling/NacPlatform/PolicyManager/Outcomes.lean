import NacPlatform.PolicyManager.Run
import NacPlatform.Store.Lookup

namespace NacPlatform

/-! What each handler can do to the tables and the bus, once for every handler. -/

section Handling

variable {pg : Postgres} {w w' : World} {α β : Type}

theorem World.handle_bind_ok {p : Handler α} {f : α → Handler β} {a : α}
    (h : p.run (Call.exec pg) w=(.ok a,w')) : w.handle pg (p >>= f)=w'.handle pg (f a) := by
  rw [World.handle,Proc.run_bind,h,World.handle]

theorem World.handle_bind_error {p : Handler α} {f : α → Handler β} {e : DbError}
    (h : p.run (Call.exec pg) w=(.error e,w')) : w.handle pg (p >>= f)=w' := by
  rw [World.handle,Proc.run_bind,h]

theorem run_query (c : Call) (w : World) : (query c).run (Call.exec pg) w=c.exec pg w := by
  rw [query,Proc.run_performOrFail]
  rfl

theorem run_probe (c : Call) (w : World) :
    (probe c).run (Call.exec pg) w=(.ok (c.exec pg w).1,(c.exec pg w).2) := rfl

theorem World.handle_query_ok {c : Call} {f : c.Result → Handler β} {a : c.Result}
    (h : c.exec pg w=(.ok a,w')) : w.handle pg (query c >>= f)=w'.handle pg (f a) :=
  handle_bind_ok ((run_query c w).trans h)

theorem World.handle_query_error {c : Call} {f : c.Result → Handler β} {e : DbError}
    (h : c.exec pg w=(.error e,w')) : w.handle pg (query c >>= f)=w' :=
  handle_bind_error ((run_query c w).trans h)

theorem World.handle_probe (c : Call) (f : c.Reply → Handler β) (w : World) :
    w.handle pg (probe c >>= f)=(c.exec pg w).2.handle pg (f (c.exec pg w).1) :=
  handle_bind_ok (run_probe c w)

theorem run_loadRules (w : World) :
    loadRules.run (Call.exec pg) w=(w.rules pg,w) := by
  rw [loadRules,World.run_query_bind]
  simp only [Call.exec,World.rules]
  cases hr : (enabledPolicies pg w.policies).mapM toPolicyRule <;> simp [pure]

/-- The policies do not convert, or none is enabled: nothing is evaluated. -/
def NoRules (pg : Postgres) (w : World) : Prop := ∀ rules, w.rules pg=.ok rules → rules=[]

theorem handle_loadRules_none {f : List PolicyRule → Handler β} (h : NoRules pg w)
    (hnil : w.handle pg (f [])=w) : w.handle pg (loadRules >>= f)=w := by
  cases hr : w.rules pg with
  | error e => exact World.handle_bind_error ((run_loadRules w).trans (by rw [hr]))
  | ok rules =>
    rw [World.handle_bind_ok ((run_loadRules w).trans (by rw [hr])),h rules hr,hnil]

theorem handle_loadRules_some {f : List PolicyRule → Handler β} {rules : List PolicyRule}
    (h : w.rules pg=.ok rules) : w.handle pg (loadRules >>= f)=w.handle pg (f rules) :=
  World.handle_bind_ok ((run_loadRules w).trans (by rw [h]))

theorem rules_cases (pg : Postgres) (w : World) :
    NoRules pg w ∨ ∃ rules, w.rules pg=.ok rules ∧ rules≠[] := by
  by_cases h : NoRules pg w
  · exact .inl h
  · unfold NoRules at h
    push Not at h
    exact .inr h

theorem rules_congr (h : w'.policies=w.policies) : w'.rules pg=w.rules pg := by
  rw [World.rules,h,World.rules]

theorem NoRules.congr (h : w'.policies=w.policies) : NoRules pg w' ↔ NoRules pg w := by
  unfold NoRules
  rw [rules_congr h]

end Handling

/-- The tables and the log of commands after a handler, the policies being as they were. -/
structure Effect (w w' : World) (endpoints : EndpointTable) (sessions : SessionTable)
    (sent : List EnforcementCommand) : Prop where
  endpoints : w'.endpoints=endpoints
  sessions : w'.sessions=sessions
  commands : w'.commands=w.commands++sent
  policies : w'.policies=w.policies

theorem Effect.none (w : World) : Effect w w w.endpoints w.sessions [] := ⟨rfl,rfl,by simp,rfl⟩

namespace Consumer

variable {pg : Postgres} {rt : Runtime}

/-- An event with an address has it stored. -/
theorem upsertOf_address {event : EndpointDetectedEvent} {ip : Ipv4Addr}
    (h : event.ipAddress=ip.text) : (upsertOf event).ipAddress=some ip.text := by
  have hne : event.ipAddress.isEmpty=false := by
    rw [h]
    simpa using ip.text_ne_empty
  change (if event.ipAddress.isEmpty then none else some event.ipAddress)=some ip.text
  rw [hne,h]
  rfl

/-- `already_authenticated`. -/
def loggedIn (pg : Postgres) (w : World) (row : EndpointRow) : Bool :=
  row.status==.allowed && row.username.isSome &&
    ((w.sessions.findActiveByEndpoint pg row.id).map fun s => s.state==.active).getD false

def commandFor (row : EndpointRow) (status : Status) (decision : PolicyDecision) :
    List EnforcementCommand :=
  (status.action.map fun action => enforcementCommand row.macAddress.text
    (((row.ipAddress.map stripCidr).map stripCidr).getD "") action decision.vlanId).toList

theorem mem_commandFor {row : EndpointRow} {status : Status} {decision : PolicyDecision}
    {cmd : EnforcementCommand} (h : cmd ∈ commandFor row status decision) :
    cmd.macAddress=row.macAddress.text ∧ status.action=some cmd.action ∧
      cmd.ipAddress=((row.ipAddress.map stripCidr).map stripCidr).getD "" := by
  unfold commandFor at h
  obtain ⟨action,haction,rfl⟩ := Option.map_eq_some_iff.mp (Option.mem_toList.mp h)
  exact ⟨rfl,haction,rfl⟩

/-- The address the device had before the event. -/
def storedIp (pg : Postgres) (event : EndpointDetectedEvent) (w : World) : Option String :=
  (((pg.macaddr event.macAddress).bind w.endpoints.findByMac).bind (·.ipAddress)).map stripCidr

theorem handle_publish (row : EndpointRow) (status : Status) (decision : PolicyDecision)
    (w : World) :
    w.handle pg (publishEnforcementCommand row.macAddress.text (row.ipAddress.map stripCidr) status
        decision)=
      { w with commands := w.commands++commandFor row status decision } := by
  unfold publishEnforcementCommand commandFor
  cases status.action with
  | none => simp [World.handle,pure]
  | some action =>
    rw [World.handle_probe]
    rfl

theorem run_alreadyAuthenticated (w : World) (row : EndpointRow) :
    (alreadyAuthenticated row).run (Call.exec pg) w=(.ok (loggedIn pg w row),w) := by
  unfold alreadyAuthenticated loggedIn
  by_cases hrow : (row.status==.allowed && row.username.isSome)=true
  · rw [if_pos hrow,World.run_probe_bind,hrow]
    rfl
  · rw [if_neg hrow]
    simp only [hrow,Bool.false_and]
    rfl

/-- The sessions after a change to `new`: a quarantined device gets one for the portal. -/
def sessionsAfter (w : World) (row : EndpointRow) (decision : PolicyDecision) : SessionTable :=
  if decisionToStatus decision=.quarantined then
    w.sessions.create (captivePortalSession row decision) w.clock
  else w.sessions

theorem handle_changeStatus (row : EndpointRow) (decision : PolicyDecision) (w : World) :
    Effect w (w.handle pg (changeStatus row (row.ipAddress.map stripCidr) decision))
      (w.endpoints.setStatus row.id (decisionToStatus decision)) (sessionsAfter w row decision)
      (commandFor row (decisionToStatus decision) decision) := by
  have hset : Call.exec pg (.setStatus row.id (decisionToStatus decision).text) w=
      (.ok (),{ w with
        endpoints := w.endpoints.setStatus row.id (decisionToStatus decision) }) := by
    simp [Call.exec,Status.parse_text]
  unfold changeStatus
  rw [World.handle_query_ok hset,World.handle_query_ok rfl]
  by_cases hq : decisionToStatus decision=.quarantined
  · simp only [hq,beq_self_eq_true,if_true]
    rw [World.handle_probe,handle_publish]
    exact ⟨rfl,by rw [sessionsAfter,if_pos hq]; rfl,rfl,rfl⟩
  · have hb : (decisionToStatus decision==.quarantined)=false := by simpa using hq
    simp only [hb,Bool.false_eq_true,if_false]
    rw [handle_publish]
    exact ⟨rfl,by rw [sessionsAfter,if_neg hq]; rfl,rfl,rfl⟩

/-- What an event comes to, once the row is stored. -/
inductive Outcome (pg : Postgres) (rt : Runtime) (moved : Bool) (row : EndpointRow) (w : World) :
    World → Prop where
  | unevaluated {w' : World} (norules : NoRules pg w)
      (effect : Effect w w' w.endpoints w.sessions []) : Outcome pg rt moved row w w'
  | kept {w' : World} {rules : List PolicyRule} (loaded : w.rules pg=.ok rules) (some : rules≠[])
      (reason : loggedIn pg w row=true ∨
        row.status=decisionToStatus (evaluate rt rules (context row)))
      (effect : Effect w w' w.endpoints w.sessions
        (if moved && row.status.enforced then
          commandFor row row.status (evaluate rt rules (context row)) else [])) :
      Outcome pg rt moved row w w'
  | changed {w' : World} {rules : List PolicyRule} (loaded : w.rules pg=.ok rules) (some : rules≠[])
      (open_ : loggedIn pg w row=false)
      (differs : row.status≠decisionToStatus (evaluate rt rules (context row)))
      (effect : Effect w w'
        (w.endpoints.setStatus row.id (decisionToStatus (evaluate rt rules (context row))))
        (sessionsAfter w row (evaluate rt rules (context row)))
        (commandFor row (decisionToStatus (evaluate rt rules (context row)))
          (evaluate rt rules (context row)))) :
      Outcome pg rt moved row w w'

theorem evaluateRow_outcome (row : EndpointRow) (moved : Bool) (w : World) :
    Outcome pg rt moved row w
      (w.handle pg (evaluateRow rt row (row.ipAddress.map stripCidr) moved)) := by
  unfold evaluateRow
  rcases rules_cases pg w with hno | ⟨rules,hrules,hne⟩
  · rw [handle_loadRules_none hno rfl]
    exact .unevaluated hno (Effect.none w)
  · have hemp : rules.isEmpty=false := by simpa using hne
    rw [handle_loadRules_some hrules]
    simp only [hemp,Bool.false_eq_true,if_false]
    rw [World.handle_bind_ok (run_alreadyAuthenticated w row)]
    by_cases hchange : (!loggedIn pg w row &&
        row.status != decisionToStatus (evaluate rt rules (context row)))=true
    · obtain ⟨hopen,hdiffers⟩ : loggedIn pg w row=false ∧
          row.status≠decisionToStatus (evaluate rt rules (context row)) := by
        simpa using hchange
      rw [if_pos hchange]
      exact .changed hrules hne hopen hdiffers (handle_changeStatus row _ w)
    · rw [if_neg hchange]
      have hreason : loggedIn pg w row=true ∨
          row.status=decisionToStatus (evaluate rt rules (context row)) := by
        by_contra h
        push Not at h
        exact hchange (by simp [h.2,Bool.eq_false_iff.mpr h.1])
      refine .kept hrules hne hreason ?_
      by_cases hmoved : (moved && row.status.enforced)=true
      · rw [if_pos hmoved,if_pos hmoved,handle_publish]
        exact ⟨rfl,rfl,rfl,rfl⟩
      · rw [if_neg hmoved,if_neg hmoved]
        exact Effect.none w

theorem recordDetection_outcome (pg : Postgres) (rt : Runtime) (event : EndpointDetectedEvent)
    (old : Option String) (row : EndpointRow) (w : World) :
    ∃ w₁, Outcome pg rt (ipChanged old row) row w₁
        (w.handle pg (recordDetection rt event old row)) ∧
      Effect w w₁ w.endpoints w.sessions [] := by
  unfold recordDetection
  rw [World.handle_query_ok rfl]
  cases hmoved : ipChanged old row with
  | true =>
    simp only [if_true]
    rw [World.handle_query_ok rfl]
    exact ⟨_,evaluateRow_outcome row true _,rfl,rfl,by rw [List.append_nil]; rfl,rfl⟩
  | false =>
    simp only [Bool.false_eq_true,if_false]
    exact ⟨_,evaluateRow_outcome row false _,rfl,rfl,by rw [List.append_nil]; rfl,rfl⟩

/-- An event that the table refuses changes nothing; otherwise its row is stored and evaluated. -/
theorem processEvent_outcome (pg : Postgres) (rt : Runtime) (event : EndpointDetectedEvent)
    (w : World) :
    ((∃ e, w.endpoints.upsert pg (upsertOf event) w.clock=.error e) ∧
        w.handle pg (processEvent rt event)=w) ∨
      ∃ row t w₁, w.endpoints.upsert pg (upsertOf event) w.clock=.ok (row,t) ∧
        Outcome pg rt (ipChanged (storedIp pg event w) row) row w₁
          (w.handle pg (processEvent rt event)) ∧
        Effect w w₁ t w.sessions [] := by
  have hfind : (Call.exec pg (.findByMac event.macAddress) w).2=w ∧
      ((Except.toOption (Call.exec pg (.findByMac event.macAddress) w).1).join.bind
        (·.ipAddress)).map stripCidr=storedIp pg event w := by
    simp only [Call.exec,storedIp]
    cases pg.macaddr event.macAddress <;> simp [Except.toOption]
  unfold processEvent
  rw [World.handle_probe,hfind.1]
  simp only [hfind.2]
  cases hput : w.endpoints.upsert pg (upsertOf event) w.clock with
  | error e =>
    have hexec : Call.exec pg (.upsert (upsertOf event)) w=(.error e,w) := by
      simp [Call.exec,hput]
    exact .inl ⟨⟨e,rfl⟩,World.handle_query_error hexec⟩
  | ok r =>
    obtain ⟨row,t⟩ := r
    have hexec : Call.exec pg (.upsert (upsertOf event)) w=
        (.ok row,{ w with endpoints := t, clock := w.clock+1 }) := by simp [Call.exec,hput]
    rw [World.handle_query_ok hexec]
    obtain ⟨w₁,hout,heffect⟩ := recordDetection_outcome pg rt event (storedIp pg event w) row
      { w with endpoints := t, clock := w.clock+1 }
    exact .inr ⟨row,t,w₁,rfl,hout,heffect.endpoints,heffect.sessions,heffect.commands,
      heffect.policies⟩

end Consumer

namespace PostureHandler

variable {pg : Postgres} {rt : Runtime}

def commandFor (row : EndpointRow) (status : Status) : EnforcementCommand :=
  enforcementCommand row.macAddress.text (row.ipAddress.getD "") status.text none

/-- The endpoints once the report is stored on the row. -/
def reported (w : World) (row : EndpointRow) (report : PostureReport) (isCompliant : Bool) :
    EndpointTable :=
  (w.endpoints.setCompliance row.id isCompliant w.clock).updatePostureFields row.id report.fields

/-- The row as the two posture updates leave it. -/
def reportedRow (row : EndpointRow) (report : PostureReport) (isCompliant : Bool)
    (now : Timestamp) : EndpointRow :=
  EndpointTable.withPosture report.fields
    { row with isCompliant := some isCompliant, lastPostureCheck := some now }

/-- A report is kept in columns of its own. -/
theorem column_reported {κ : Type} {cols : EndpointRow → κ} {w : World} {row : EndpointRow}
    {report : PostureReport} {b : Bool}
    (hcompliance : ∀ r, cols { r with isCompliant := some b, lastPostureCheck := some w.clock }=
      cols r)
    (hposture : ∀ r, cols (EndpointTable.withPosture report.fields r)=cols r) :
    (reported w row report b).column cols=w.endpoints.column cols := by
  rw [reported,EndpointTable.column_updatePostureFields hposture,
    EndpointTable.column_setCompliance hcompliance]

theorem find_reported {w : World} {row : EndpointRow} (hrow : w.endpoints.findById row.id=some row)
    (report : PostureReport) (b : Bool) :
    (reported w row report b).findById row.id=some (reportedRow row report b w.clock) := by
  rw [reported,EndpointTable.findById_updatePostureFields,EndpointTable.findById_setCompliance,hrow]
  simp [reportedRow]

/-- What a report comes to. `row` is the row as it was before the report. -/
inductive Outcome (pg : Postgres) (rt : Runtime) (report : PostureReport) (w : World) :
    World → Prop where
  | unknown (h : (pg.macaddr report.deviceId).bind w.endpoints.findByMac=none) :
      Outcome pg rt report w w
  | kept {w' : World} {row : EndpointRow}
      (found : (pg.macaddr report.deviceId).bind w.endpoints.findByMac=some row)
      (reason : NoRules pg w ∨ ∃ rules, w.rules pg=.ok rules ∧ rules≠[] ∧
        row.status=decisionToStatus (evaluate rt rules (context row report (verdict rt report))))
      (effect : Effect w w' (reported w row report (verdict rt report)) w.sessions []) :
      Outcome pg rt report w w'
  | changed {w' : World} {row : EndpointRow} {rules : List PolicyRule} {new : Status}
      (found : (pg.macaddr report.deviceId).bind w.endpoints.findByMac=some row)
      (loaded : w.rules pg=.ok rules) (some : rules≠[])
      (decided : new=decisionToStatus
        (evaluate rt rules (context row report (verdict rt report))))
      (differs : row.status≠new)
      (effect : Effect w w' ((reported w row report (verdict rt report)).setStatus row.id new)
        w.sessions [commandFor row new]) :
      Outcome pg rt report w w'

theorem processPosture_outcome (pg : Postgres) (rt : Runtime) (report : PostureReport) (w : World) :
    Outcome pg rt report w (w.handle pg (processPosture rt report)) := by
  unfold processPosture
  cases hmac : pg.macaddr report.deviceId with
  | none =>
    have hexec : Call.exec pg (.findByMac report.deviceId) w=(.error .invalidText,w) := by
      simp [Call.exec,hmac]
    rw [World.handle_query_error hexec]
    exact .unknown (by simp [hmac])
  | some mac =>
    have hexec : Call.exec pg (.findByMac report.deviceId) w=
        (.ok (w.endpoints.findByMac mac),w) := by simp [Call.exec,hmac]
    rw [World.handle_query_ok hexec]
    cases hrow : w.endpoints.findByMac mac with
    | none => exact .unknown (by simp [hmac,hrow])
    | some row =>
      have hfound : (pg.macaddr report.deviceId).bind w.endpoints.findByMac=some row := by
        simp [hmac,hrow]
      simp only []
      rw [World.handle_query_ok rfl,World.handle_query_ok rfl,World.handle_query_ok rfl,
        World.handle_query_ok rfl]
      unfold evaluateEndpoint
      rcases rules_cases pg w with hno | ⟨rules,hrules,hne⟩
      · rw [handle_loadRules_none ((NoRules.congr (by rfl)).mpr hno) rfl]
        exact .kept hfound (.inl hno) ⟨rfl,rfl,by rw [List.append_nil]; rfl,rfl⟩
      · have hemp : rules.isEmpty=false := by simpa using hne
        rw [handle_loadRules_some ((rules_congr (by rfl)).trans hrules)]
        simp only [hemp,Bool.false_eq_true,if_false,bne_iff_ne,ne_eq]
        by_cases hsame : row.status=decisionToStatus
            (evaluate rt rules (context row report (verdict rt report)))
        · rw [if_neg (not_not_intro hsame)]
          exact .kept hfound (.inr ⟨rules,hrules,hne,hsame⟩)
            ⟨rfl,rfl,by rw [List.append_nil]; rfl,rfl⟩
        · rw [if_pos hsame]
          unfold changeStatus
          rw [World.handle_query_ok (by simp only [Call.exec,Status.parse_text]; rfl),
            World.handle_query_ok rfl,World.handle_probe]
          exact .changed hfound hrules hne rfl hsame ⟨rfl,rfl,rfl,rfl⟩

end PostureHandler

namespace SessionHandler

variable {pg : Postgres} {rt : Runtime}

/-- The device a response is about, if it is known. -/
def lookup (pg : Postgres) (resp : AuthResponse) (w : World) :
    Except DbError (Option EndpointRow) :=
  match resp.endpointId with
  | some eid => .ok (w.endpoints.findById eid)
  | none =>
    if !resp.macAddress.isEmpty then
      (pg.macaddr resp.macAddress).elim (.error .invalidText) fun m => .ok (w.endpoints.findByMac m)
    else if !resp.ipAddress.isEmpty then .ok (w.endpoints.findByHost pg resp.ipAddress)
    else .ok none

/-- The device a response is about, and the world in which it is handled. -/
inductive Resolved (pg : Postgres) (resp : AuthResponse) (w : World) (row : EndpointRow) :
    World → Prop where
  | known (h : lookup pg resp w=.ok (some row)) : Resolved pg resp w row w
  | registered {t : EndpointTable} (unknown : lookup pg resp w=.ok none)
      (named : resp.macAddress.isEmpty=false)
      (h : w.endpoints.upsert pg (upsertOf resp) w.clock=.ok (row,t)) :
      Resolved pg resp w row { w with endpoints := t, clock := w.clock+1 }

theorem run_lookupEndpoint (resp : AuthResponse) (w : World) :
    (lookupEndpoint resp).run (Call.exec pg) w=(lookup pg resp w,w) := by
  unfold lookupEndpoint lookup
  cases resp.endpointId with
  | some eid => exact run_query _ w
  | none =>
    simp only []
    by_cases hmac : (!resp.macAddress.isEmpty)=true
    · rw [if_pos hmac,if_pos hmac,run_query]
      simp only [Call.exec]
      cases pg.macaddr resp.macAddress <;> rfl
    · rw [if_neg hmac,if_neg hmac]
      by_cases hip : (!resp.ipAddress.isEmpty)=true
      · rw [if_pos hip,if_pos hip]
        exact run_query _ w
      · rw [if_neg hip,if_neg hip]
        rfl

theorem lookup_stored {resp : AuthResponse} {w : World} {row : EndpointRow}
    (h : lookup pg resp w=.ok (some row)) : w.endpoints.findById row.id=some row := by
  unfold lookup at h
  cases he : resp.endpointId with
  | some eid =>
    simp only [he,Except.ok.injEq] at h
    rw [EndpointTable.findById_id h]
    exact h
  | none =>
    simp only [he] at h
    by_cases hmac : (!resp.macAddress.isEmpty)=true
    · rw [if_pos hmac] at h
      cases hm : pg.macaddr resp.macAddress with
      | none => simp [hm] at h
      | some m =>
        simp only [hm,Option.elim_some,Except.ok.injEq] at h
        exact (EndpointTable.findByMac_eq_some.mp h).1
    · rw [if_neg hmac] at h
      by_cases hip : (!resp.ipAddress.isEmpty)=true
      · rw [if_pos hip] at h
        have hmem := List.mem_of_find?_eq_some (Except.ok.inj h)
        exact EndpointTable.findById_eq_some.mpr ⟨(pg.scan_perm _).mem_iff.mp hmem,rfl⟩
      · rw [if_neg hip] at h
        cases Except.ok.inj h

/-- What is resolved is stored, and nothing else has changed. -/
theorem Resolved.stored {resp : AuthResponse} {w w₁ : World} {row : EndpointRow}
    (h : Resolved pg resp w row w₁) : w₁.endpoints.findById row.id=some row := by
  cases h with
  | known h => exact lookup_stored h
  | registered _ _ h => exact (EndpointTable.upsert_put h).self

theorem Resolved.same {resp : AuthResponse} {w w₁ : World} {row : EndpointRow}
    (h : Resolved pg resp w row w₁) :
    w₁.sessions=w.sessions ∧ w₁.commands=w.commands ∧ w₁.policies=w.policies := by
  cases h <;> exact ⟨rfl,rfl,rfl⟩

theorem Resolved.unique {resp : AuthResponse} {w w₁ w₂ : World} {row row' : EndpointRow}
    (h : Resolved pg resp w row w₁) (h' : Resolved pg resp w row' w₂) : row=row' ∧ w₁=w₂ := by
  cases h with
  | known h =>
    cases h' with
    | known h' =>
      rw [h] at h'
      cases h'
      exact ⟨rfl,rfl⟩
    | registered hno _ _ =>
      rw [h] at hno
      cases hno
  | registered hno _ h =>
    cases h' with
    | known h' =>
      rw [hno] at h'
      cases h'
    | registered _ _ h' =>
      rw [h] at h'
      cases h'
      exact ⟨rfl,rfl⟩

theorem resolveEndpoint_cases (pg : Postgres) (resp : AuthResponse) (w : World) :
    (∃ row w₁, Resolved pg resp w row w₁ ∧
        (resolveEndpoint resp).run (Call.exec pg) w=(.ok (some row),w₁)) ∨
      (∀ row w₁, ¬Resolved pg resp w row w₁) ∧
        ((resolveEndpoint resp).run (Call.exec pg) w=(.ok none,w) ∨
          ∃ e, (resolveEndpoint resp).run (Call.exec pg) w=(.error e,w)) := by
  unfold resolveEndpoint
  rw [Proc.run_bind,run_lookupEndpoint]
  cases hl : lookup pg resp w with
  | error e =>
    refine .inr ⟨?_,.inr ⟨e,rfl⟩⟩
    rintro row w₁ (h | ⟨h,_,_⟩) <;> simp [hl] at h
  | ok found =>
    cases found with
    | some row => exact .inl ⟨row,w,.known hl,rfl⟩
    | none =>
      by_cases hmac : resp.macAddress.isEmpty=true
      · simp only [hmac,if_true]
        refine .inr ⟨?_,.inl rfl⟩
        intro row w₁ given
        rcases given with h | ⟨_,h,_⟩
        · simp [hl] at h
        · simp [hmac] at h
      · simp only [hmac]
        rw [if_neg (by simp),Proc.run_bind,run_query]
        simp only [Call.exec]
        cases hput : w.endpoints.upsert pg (upsertOf resp) w.clock with
        | error e =>
          refine .inr ⟨?_,.inr ⟨e,rfl⟩⟩
          intro row w₁ given
          rcases given with h | ⟨_,_,h⟩
          · simp [hl] at h
          · simp [hput] at h
        | ok r =>
          obtain ⟨row,t⟩ := r
          exact .inl ⟨row,_,.registered hl (by simpa using hmac) hput,rfl⟩

/-- The session a response is about. -/
def sessionOf (pg : Postgres) (resp : AuthResponse) (w : World) (row : EndpointRow) :
    Option SessionRow :=
  match resp.sessionId with
  | some sid => w.sessions.findById sid
  | none => w.sessions.findActiveByEndpoint pg row.id

theorem run_resolveSession (resp : AuthResponse) (row : EndpointRow) (w : World) :
    (resolveSession resp row).run (Call.exec pg) w=(.ok (sessionOf pg resp w row),w) := by
  unfold resolveSession sessionOf
  cases resp.sessionId <;> exact run_query _ w

/-- The endpoints once the user of a login is noted. -/
def named (w : World) (row : EndpointRow) (username : String) : EndpointTable :=
  if username.isEmpty then w.endpoints else w.endpoints.setUsername row.id username

/-- The sessions once the one a login is about, if any, is active. -/
def activated (w : World) (session : Option SessionRow) (username : String) : SessionTable :=
  match session with
  | some sess => w.sessions.transition sess.id .active (some username) w.clock
  | none => w.sessions

theorem handle_activate (pg : Postgres) {β : Type} (row : EndpointRow) (session : Option SessionRow)
    (username : String) (f : Unit → Handler β) (w : World) :
    ∃ w', w.handle pg (activate row session username >>= f)=w'.handle pg (f ()) ∧
      Effect w w' (named w row username) (activated w session username) [] := by
  have hactive {w : World} {sess : SessionRow} :
      Call.exec pg (.transition sess.id "active" (some username)) w=(.ok (),{ w with
        sessions := w.sessions.transition sess.id .active (some username) w.clock
        clock := w.clock+1 }) := by
    have hparse : SessionState.parse "active"=some .active := by decide
    simp [Call.exec,hparse]
  unfold activate
  by_cases hname : username.isEmpty=true
  · simp only [named,hname,if_true]
    cases session with
    | none => exact ⟨w,rfl,Effect.none w⟩
    | some sess =>
      refine ⟨_,World.handle_bind_ok ((run_query _ w).trans hactive),rfl,rfl,?_,rfl⟩
      rw [List.append_nil]
  · have hif : (!username.isEmpty)=true := by simpa using hname
    simp only [if_pos hif,named,if_neg hname]
    cases session with
    | none =>
      refine ⟨{ w with endpoints := w.endpoints.setUsername row.id username },
        World.handle_bind_ok ?_,rfl,rfl,by rw [List.append_nil],rfl⟩
      rw [Proc.run_bind,run_query]
      rfl
    | some sess =>
      refine ⟨{ w with
        endpoints := w.endpoints.setUsername row.id username
        sessions := w.sessions.transition sess.id .active (some username) w.clock
        clock := w.clock+1 },World.handle_bind_ok ?_,rfl,rfl,by rw [List.append_nil],rfl⟩
      rw [Proc.run_bind,run_query]
      simp only [Call.exec]
      exact (run_query _ _).trans hactive

/-- What a response comes to. `w₁` is the world once its device is resolved. -/
inductive Outcome (pg : Postgres) (rt : Runtime) (resp : AuthResponse) (w : World) :
    World → Prop where
  | unresolved (h : ∀ row w₁, ¬Resolved pg resp w row w₁) : Outcome pg rt resp w w
  | failed {w₁ w' : World} {row : EndpointRow} (resolved : Resolved pg resp w row w₁)
      (failure : resp.success=false) (endpoints : w'.endpoints=w₁.endpoints)
      (commands : w'.commands=w₁.commands) (policies : w'.policies=w₁.policies) :
      Outcome pg rt resp w w'
  | unevaluated {w₁ w' : World} {row : EndpointRow} (resolved : Resolved pg resp w row w₁)
      (success : resp.success=true) (norules : NoRules pg w)
      (effect : Effect w₁ w' (named w₁ row (resp.username.getD ""))
        (activated w₁ (sessionOf pg resp w₁ row) (resp.username.getD "")) []) :
      Outcome pg rt resp w w'
  | decided {w₁ w' : World} {row : EndpointRow} {rules : List PolicyRule}
      (resolved : Resolved pg resp w row w₁) (success : resp.success=true)
      (loaded : w.rules pg=.ok rules) (some : rules≠[])
      (effect : Effect w₁ w'
        ((named w₁ row (resp.username.getD "")).setStatus row.id (decisionToStatus
          (evaluate rt rules (context row (resp.username.getD "") resp.groups))))
        (activated w₁ (sessionOf pg resp w₁ row) (resp.username.getD ""))
        [commandFor row.macAddress.text row.ipAddress
          (decisionToStatus (evaluate rt rules (context row (resp.username.getD "") resp.groups)))
          (evaluate rt rules (context row (resp.username.getD "") resp.groups))]) :
      Outcome pg rt resp w w'

/-- What policies decide is one of the statuses that have an action. -/
theorem commandFor_announces (row : EndpointRow) (d : PolicyDecision) :
    (commandFor row.macAddress.text row.ipAddress (decisionToStatus d) d).macAddress=
        row.macAddress.text ∧
      (decisionToStatus d).announcedBy
        (commandFor row.macAddress.text row.ipAddress (decisionToStatus d) d) := by
  refine ⟨rfl,.inr ?_⟩
  cases d <;> rfl

theorem column_named {κ : Type} {cols : EndpointRow → κ} {w : World} {row : EndpointRow}
    {username : String} (hcols : ∀ r, cols { r with username := some username }=cols r) :
    (named w row username).column cols=w.endpoints.column cols := by
  unfold named
  split
  · rfl
  · exact EndpointTable.column_setUsername hcols

theorem named_find {w : World} {row : EndpointRow} (username : String)
    (h : w.endpoints.findById row.id=some row) :
    ∃ r, (named w row username).findById row.id=some r ∧ r.status=row.status := by
  unfold named
  split
  · exact ⟨row,h,rfl⟩
  · rw [EndpointTable.findById_setUsername,h]
    exact ⟨_,rfl,by simp⟩

theorem processAuthResponse_outcome (pg : Postgres) (rt : Runtime) (resp : AuthResponse) (w : World) :
    Outcome pg rt resp w (w.handle pg (processAuthResponse rt resp)) := by
  unfold processAuthResponse
  rcases resolveEndpoint_cases pg resp w with
    ⟨row,w₁,hres,hrun⟩ | ⟨hno,hrun | ⟨e,hrun⟩⟩
  · rw [World.handle_bind_ok hrun]
    simp only []
    rw [World.handle_bind_ok (run_resolveSession resp row w₁)]
    cases hs : resp.success with
    | false =>
      simp only [Bool.not_false,if_true]
      unfold authFailed
      cases sessionOf pg resp w₁ row with
      | none => exact .failed hres hs rfl rfl rfl
      | some sess =>
        simp only []
        rw [World.handle_query_ok rfl]
        exact .failed hres hs rfl rfl rfl
    | true =>
      simp only [Bool.not_true,Bool.false_eq_true,if_false]
      obtain ⟨w₂,hgo,heff⟩ := handle_activate pg row (sessionOf pg resp w₁ row)
        (resp.username.getD "") (fun _ => reevaluate rt row (resp.username.getD "") resp.groups) w₁
      have hpol : w₂.policies=w.policies := heff.policies.trans hres.same.2.2
      rw [hgo]
      unfold reevaluate
      rcases rules_cases pg w with hno | ⟨rules,hrules,hne⟩
      · rw [handle_loadRules_none ((NoRules.congr hpol).mpr hno) rfl]
        exact .unevaluated hres hs hno heff
      · have hemp : rules.isEmpty=false := by simpa using hne
        rw [handle_loadRules_some ((rules_congr hpol).trans hrules)]
        simp only [hemp,Bool.false_eq_true,if_false,bne_iff_ne,ne_eq]
        have hsent {cmd : EnforcementCommand} : w₂.commands++[cmd]=w₁.commands++[cmd] := by
          rw [heff.commands,List.append_nil]
        refine .decided hres hs hrules hne ?_
        by_cases hsame : row.status=decisionToStatus
            (evaluate rt rules (context row (resp.username.getD "") resp.groups))
        · obtain ⟨r,hr,hrs⟩ := named_find (resp.username.getD "") hres.stored
          rw [if_neg (not_not_intro hsame),World.handle_probe]
          refine ⟨?_,heff.sessions,hsent,heff.policies⟩
          rw [← hsame,← hrs,EndpointTable.setStatus_self hr]
          exact heff.endpoints
        · rw [if_pos hsame,World.handle_query_ok (by simp only [Call.exec,Status.parse_text]; rfl),
            World.handle_probe]
          exact ⟨congrArg (EndpointTable.setStatus row.id _) heff.endpoints,heff.sessions,hsent,
            heff.policies⟩
  · rw [World.handle_bind_ok hrun]
    exact .unresolved hno
  · rw [World.handle_bind_error hrun]
    exact .unresolved hno

end SessionHandler

namespace Endpoints

variable {pg : Postgres}

def commandFor (row : EndpointRow) (status : Status) : EnforcementCommand :=
  enforcementCommand row.macAddress.text (stripCidr (row.ipAddress.getD "")) status.text none

theorem handle_answer (id : Uuid) (w : World) : w.handle pg (answer id)=w := by
  unfold answer
  rw [World.handle_query_ok (c := .findById id) rfl]
  cases w.endpoints.findById id <;> rfl

/-- The API answers 404 for an unknown device; otherwise status and command go together. -/
theorem updateEndpointStatus_outcome (id : Uuid) (new : Status) (eventType : String) (w : World) :
    (w.endpoints.findById id=none ∧
        w.handle pg (updateEndpointStatus id new.text eventType)=w) ∨
      ∃ row, w.endpoints.findById id=some row ∧
        Effect w (w.handle pg (updateEndpointStatus id new.text eventType))
          (w.endpoints.setStatus id new) w.sessions [commandFor row new] := by
  unfold updateEndpointStatus
  rw [World.handle_query_ok (c := .findById id) rfl]
  cases hrow : w.endpoints.findById id with
  | none => exact .inl ⟨rfl,rfl⟩
  | some row =>
    have hset : Call.exec pg (.setStatus id new.text) w=
        (.ok (),{ w with endpoints := w.endpoints.setStatus id new }) := by
      simp [Call.exec,Status.parse_text]
    simp only []
    rw [World.handle_query_ok hset,World.handle_query_ok rfl,World.handle_probe,handle_answer]
    exact .inr ⟨row,rfl,rfl,rfl,rfl,rfl⟩

theorem assignPolicy_outcome (pg : Postgres) (id : Uuid) (policyId : Option Uuid) (w : World) :
    w.handle pg (assignPolicy id policyId)=w ∨
      Effect w (w.handle pg (assignPolicy id policyId)) (w.endpoints.setPolicy id policyId)
        w.sessions [] := by
  unfold assignPolicy
  rw [World.handle_query_ok (c := .findById id) rfl]
  cases w.endpoints.findById id with
  | none => exact .inl rfl
  | some row =>
    simp only []
    rw [World.handle_query_ok rfl,World.handle_query_ok rfl,handle_answer]
    exact .inr ⟨rfl,rfl,by rw [List.append_nil]; rfl,rfl⟩

theorem setExempt_outcome (pg : Postgres) (id : Uuid) (exempt : Bool) (w : World) :
    w.handle pg (setExempt id exempt)=w ∨
      Effect w (w.handle pg (setExempt id exempt)) (w.endpoints.setExempt id exempt)
        w.sessions [] := by
  unfold setExempt
  rw [World.handle_query_ok (c := .findById id) rfl]
  cases w.endpoints.findById id with
  | none => exact .inl rfl
  | some row =>
    simp only []
    rw [World.handle_query_ok rfl,World.handle_query_ok rfl,handle_answer]
    exact .inr ⟨rfl,rfl,by rw [List.append_nil]; rfl,rfl⟩

end Endpoints

def AdminAction.status : AdminAction → Status
  | allow => .allowed
  | block => .denied
  | quarantine => .quarantined

theorem AdminAction.handler_outcome (pg : Postgres) (id : Uuid) (action : AdminAction)
    (w : World) :
    (w.endpoints.findById id=none ∧ w.handle pg (action.handler id)=w) ∨
      ∃ row, w.endpoints.findById id=some row ∧
        Effect w (w.handle pg (action.handler id)) (w.endpoints.setStatus id action.status)
          w.sessions [Endpoints.commandFor row action.status] := by
  cases action with
  | allow => exact Endpoints.updateEndpointStatus_outcome id .allowed "endpoint_allowed" w
  | block => exact Endpoints.updateEndpointStatus_outcome id .denied "endpoint_blocked" w
  | quarantine =>
    exact Endpoints.updateEndpointStatus_outcome id .quarantined "endpoint_quarantined" w

namespace Evaluate

variable {pg : Postgres} {rt : Runtime}

def commandFor (row : EndpointRow) (status : Status) : EnforcementCommand :=
  enforcementCommand row.macAddress.text (row.ipAddress.getD "") status.text none

/-- The world after the batch run has given a device a new status. -/
def applied (w : World) (ep : EndpointRow) (new : Status) : World :=
  { w with
    endpoints := w.endpoints.setStatus ep.id new
    commands := w.commands++[commandFor ep new] }

theorem run_policyStatus (pg : Postgres) (rt : Runtime) (rules : List (Uuid × PolicyRule))
    (ep : EndpointRow) (w : World) :
    ∃ st, (policyStatus rt rules ep).run (Call.exec pg) w=(.ok st,w) := by
  have hfind (pid : Uuid) : ∃ r, (findRuleById pid).run (Call.exec pg) w=(r,w) := by
    unfold findRuleById
    rw [Proc.run_bind,run_query]
    simp only [Call.exec]
    cases w.policies.find? (·.id==pid) with
    | none => exact ⟨_,rfl⟩
    | some row => cases h : toPolicyRule row <;> simp [h,pure]
  unfold policyStatus
  cases ep.assignedPolicyId with
  | none => exact ⟨_,rfl⟩
  | some pid =>
    simp only []
    cases rules.find? (·.1==pid) with
    | some r => exact ⟨_,rfl⟩
    | none =>
      obtain ⟨r,hr⟩ := hfind pid
      rw [Proc.run_bind,Proc.run_attempt,hr]
      exact ⟨_,rfl⟩

theorem handle_applyStatus (pg : Postgres) {β : Type} {ep : EndpointRow} {w : World}
    (h : w.endpoints.findById ep.id=some ep) (status : String) (f : Unit → Handler β) :
    (∃ new, Status.parse status=some new ∧
        w.handle pg (applyStatus ep status >>= f)=(applied w ep new).handle pg (f ())) ∨
      w.handle pg (applyStatus ep status >>= f)=w := by
  unfold applyStatus
  cases hparse : Status.parse status with
  | none =>
    have hexec : Call.exec pg (.setStatus ep.id status) w=(.error .checkViolation,w) := by
      simp [Call.exec,hparse,h]
    refine .inr (World.handle_bind_error (e := .checkViolation) ?_)
    rw [Proc.run_bind,run_query,hexec]
  | some new =>
    have hset : Call.exec pg (.setStatus ep.id status) w=
        (.ok (),{ w with endpoints := w.endpoints.setStatus ep.id new }) := by
      simp [Call.exec,hparse]
    refine .inl ⟨new,rfl,World.handle_bind_ok ?_⟩
    rw [Proc.run_bind,run_query,hset]
    simp only []
    rw [World.run_probe_bind,applied,commandFor,Status.text_of_parse hparse]
    rfl

/-- What the loop comes to for a device: the status by the policies, else the default. -/
def Decides (pg : Postgres) (rt : Runtime) (rules : List (Uuid × PolicyRule))
    (defaultAction : Option String) (w : World) (ep : EndpointRow) (new : Status) : Prop :=
  ∃ st, (policyStatus rt rules ep).run (Call.exec pg) w=(.ok st,w) ∧
    (st.map Status.text).or defaultAction=some new.text

/-- What each single change of the batch run keeps, the loop keeps: it comes to each device once,
with the row that the table still holds. -/
theorem evaluateEach_preserves (I : World → Prop) (rules : List (Uuid × PolicyRule))
    (defaultAction : Option String) (eps : List EndpointRow)
    (hI : ∀ w ep new, ep ∈ eps → I w → w.endpoints.findById ep.id=some ep →
      ep.policyExempt=false → ep.status≠new → Decides pg rt rules defaultAction w ep new →
      I (applied w ep new))
    (acc : EvaluateResult) (w : World) (hn : (eps.map (·.id)).Nodup)
    (heps : ∀ ep ∈ eps, w.endpoints.findById ep.id=some ep) (hw : I w) :
    I (w.handle pg (evaluateEach rt rules defaultAction eps acc)) := by
  induction eps generalizing acc w with
  | nil => exact hw
  | cons ep eps ih =>
    obtain ⟨hep,hrest⟩ := List.forall_mem_cons.mp heps
    obtain ⟨hnew,hn⟩ := List.nodup_cons.mp hn
    have ih := ih fun w ep new hep => hI w ep new (List.mem_cons_of_mem _ hep)
    unfold evaluateEach
    by_cases hexempt : ep.policyExempt=true
    · rw [if_pos hexempt]
      exact ih _ w hn hrest hw
    rw [if_neg hexempt]
    obtain ⟨st,hst⟩ := run_policyStatus pg rt rules ep w
    rw [World.handle_bind_ok hst]
    cases hor : (st.map Status.text).or defaultAction with
    | none => exact ih _ w hn hrest hw
    | some status =>
      simp only [bne_iff_ne,ne_eq]
      by_cases hsame : ep.status.text=status
      · rw [if_neg (not_not_intro hsame)]
        exact ih _ w hn hrest hw
      · rw [if_pos hsame]
        rcases handle_applyStatus pg hep status (fun _ => evaluateEach rt rules
          defaultAction eps { acc with changed := acc.changed+1 }) with ⟨new,hparse,hgo⟩ | hgo
        · rw [hgo]
          have htext : new.text=status := Status.text_of_parse hparse
          have hne : ep.status≠new := by
            intro e
            exact hsame (e ▸ htext)
          have hdecides : Decides pg rt rules defaultAction w ep new :=
            ⟨st,hst,by rw [hor,htext]⟩
          refine ih _ _ hn ?_
            (hI w ep new List.mem_cons_self hw hep (by simpa using hexempt) hne hdecides)
          intro ep' hep'
          have hid : ep'.id≠ep.id := fun e => hnew (List.mem_map.mpr ⟨ep',hep',e⟩)
          change (w.endpoints.setStatus ep.id new).findById ep'.id=some ep'
          rw [EndpointTable.findById_setStatus,hrest ep' hep']
          simp [hid]
        · rw [hgo]
          exact hw

theorem run_loadRulesWithId (pg : Postgres) (w : World) :
    ∃ r, loadRulesWithId.run (Call.exec pg) w=(r,w) := by
  rw [loadRulesWithId,World.run_query_bind]
  simp only [Call.exec]
  cases (enabledPolicies pg w.policies).mapM fun r =>
    (toPolicyRule r).map fun rule => (r.id,rule) with
  | error e => exact ⟨.error e,rfl⟩
  | ok rules => exact ⟨.ok rules,rfl⟩

theorem evaluatePolicies_preserves (pg : Postgres) (rt : Runtime) (I : World → Prop)
    (defaultAction : Option String) (w : World)
    (hI : ∀ rules, loadRulesWithId.run (Call.exec pg) w=(.ok rules,w) → ∀ w₁ ep new,
      ep ∈ w.endpoints.list pg 10000 0 → I w₁ → w₁.endpoints.findById ep.id=some ep →
      ep.policyExempt=false → ep.status≠new → Decides pg rt rules defaultAction w₁ ep new →
      I (applied w₁ ep new)) (hw : I w) :
    I (w.handle pg (evaluatePolicies rt defaultAction)) := by
  unfold evaluatePolicies
  obtain ⟨r,hr⟩ := run_loadRulesWithId pg w
  cases r with
  | error e =>
    rw [World.handle_bind_error hr]
    exact hw
  | ok rules =>
    rw [World.handle_bind_ok hr,World.handle_query_ok (c := .listEndpoints 10000 0) rfl]
    exact evaluateEach_preserves I _ _ _ (hI rules hr) _ w (EndpointTable.list_ids 10000 0)
      (fun ep hep => EndpointTable.findById_of_list hep) hw

theorem evaluatePolicies_invariant (I : World → Prop)
    (hI : ∀ w ep new, I w → w.endpoints.findById ep.id=some ep → ep.policyExempt=false →
      ep.status≠new → I (applied w ep new))
    (defaultAction : Option String) (w : World) (hw : I w) :
    I (w.handle pg (evaluatePolicies rt defaultAction)) :=
  evaluatePolicies_preserves pg rt I defaultAction w
    (fun _ _ w₁ ep new _ h hep hexempt hne _ => hI w₁ ep new h hep hexempt hne) hw

end Evaluate

namespace Background

variable {pg : Postgres} {rt : Runtime}

/-- The command for an enforced device that has been found at a new address. -/
def commandsFor (row : EndpointRow) (ip : Ipv4Addr) : List EnforcementCommand :=
  match row.status with
  | .denied => [enforcementCommand row.macAddress.text ip.text "block" none]
  | .quarantined => [enforcementCommand row.macAddress.text ip.text "quarantine" none]
  | _ => []

theorem mem_commandsFor {row : EndpointRow} {ip : Ipv4Addr} {cmd : EnforcementCommand}
    (h : cmd ∈ commandsFor row ip) : cmd.macAddress=row.macAddress.text ∧
      row.status.announcedBy cmd ∧ cmd.ipAddress=ip.text := by
  unfold commandsFor at h
  cases hs : row.status with
  | denied =>
    simp only [hs,List.mem_singleton] at h
    exact ⟨h ▸ rfl,h ▸ .inr rfl,h ▸ rfl⟩
  | quarantined =>
    simp only [hs,List.mem_singleton] at h
    exact ⟨h ▸ rfl,h ▸ .inr rfl,h ▸ rfl⟩
  | allowed => simp [hs] at h
  | pending => simp [hs] at h

theorem commandsFor_enforced {row : EndpointRow} (ip : Ipv4Addr)
    (h : row.status.enforced=true) : ∃ cmd, commandsFor row ip=[cmd] := by
  unfold commandsFor
  cases hs : row.status with
  | denied => exact ⟨_,rfl⟩
  | quarantined => exact ⟨_,rfl⟩
  | allowed => simp [hs,Status.enforced] at h
  | pending => simp [hs,Status.enforced] at h

/-- The world after a confirmed change of the address. -/
def moved (w : World) (row : EndpointRow) (ip : Ipv4Addr) : World :=
  { w with
    endpoints := w.endpoints.updateIp row.macAddress (ip.text++"/32") w.clock
    commands := w.commands++commandsFor row ip
    clock := w.clock+1 }

theorem run_confirmIp {w : World} {row : EndpointRow}
    (h : w.endpoints.findByMac row.macAddress=some row) (ip : Ipv4Addr) :
    (confirmIp row.macAddress.text ip.text).run (Call.exec pg) w=(.ok (),moved w row ip) := by
  have hupdate : Call.exec pg (.updateIp row.macAddress.text ip.text) w=
      (.ok (),{ w with
        endpoints := w.endpoints.updateIp row.macAddress (ip.text++"/32") w.clock
        clock := w.clock+1 }) := by
    simp [Call.exec,pg.macaddr_text,pg.inet_text]
  have hfind : (w.endpoints.updateIp row.macAddress (ip.text++"/32") w.clock).findByMac
      row.macAddress=some { row with ipAddress := some (ip.text++"/32"), lastSeen := w.clock } := by
    have hid := (EndpointTable.findByMac_eq_some.mp h).1
    rw [EndpointTable.findByMac_eq_some]
    refine ⟨?_,rfl⟩
    rw [EndpointTable.findById_updateIp]
    simp [hid]
  unfold confirmIp
  rw [World.run_probe_bind,hupdate,World.run_probe_bind]
  simp only [Call.exec,pg.macaddr_text,hfind,Except.toOption]
  unfold moved commandsFor publishEnforcement
  cases row.status with
  | denied => rfl
  | quarantined => rfl
  | allowed => simp [pure]
  | pending => simp [pure]

/-- The devices that the sync has read are in the table. -/
def Known (w : World) (existing : List (String × Option String)) : Prop :=
  ∀ mac stored, existing.lookup mac=some stored →
    ∃ row, w.endpoints.findByMac row.macAddress=some row ∧ row.macAddress.text=mac

theorem Known.moved {w : World} {existing : List (String × Option String)}
    (h : Known w existing) (row : EndpointRow) (ip : Ipv4Addr) :
    Known (moved w row ip) existing := by
  intro mac stored hl
  obtain ⟨r,hr,rfl⟩ := h mac stored hl
  have hid := (EndpointTable.findByMac_eq_some.mp hr).1
  have hfind : (Background.moved w row ip).endpoints.findById r.id=some
      (if r.macAddress==row.macAddress then
        { r with ipAddress := some (ip.text++"/32"), lastSeen := w.clock } else r) := by
    change (w.endpoints.updateIp row.macAddress (ip.text++"/32") w.clock).findById r.id=_
    rw [EndpointTable.findById_updateIp,hid]
    rfl
  by_cases hm : (r.macAddress==row.macAddress)=true
  · rw [if_pos hm] at hfind
    exact ⟨{ r with ipAddress := some (ip.text++"/32"), lastSeen := w.clock },
      EndpointTable.findByMac_eq_some.mpr ⟨hfind,rfl⟩,rfl⟩
  · rw [if_neg hm] at hfind
    exact ⟨_,EndpointTable.findByMac_eq_some.mpr ⟨hfind,rfl⟩,rfl⟩

/-- One entry of the ARP table: nothing, a detection published, or an address confirmed. -/
theorem run_arpSyncEntry (pg : Postgres) {w : World} {existing : List (String × Option String)}
    (hknown : Known w existing) (gatewayIps : List String) (now : Int) (pending : PendingIp)
    (mac : String) (ip : Ipv4Addr) :
    ∃ pending' w', (arpSyncEntry gatewayIps existing now pending (mac,ip.text)).run
        (Call.exec pg) w=(.ok pending',w') ∧
      (w'=w ∨ ip.text ∉ gatewayIps ∧
        (w'={ w with detections := w.detections++[arpSyncEvent mac ip.text now] } ∨
          ∃ row, w.endpoints.findByMac row.macAddress=some row ∧ w'=moved w row ip)) := by
  unfold arpSyncEntry
  simp only []
  by_cases hgw : gatewayIps.contains ip.text=true
  · rw [if_pos hgw]
    exact ⟨_,w,rfl,.inl rfl⟩
  rw [if_neg hgw]
  have hout : ip.text ∉ gatewayIps := by simpa using hgw
  cases hl : existing.lookup mac with
  | none =>
    simp only []
    rw [World.run_probe_bind]
    exact ⟨_,_,rfl,.inr ⟨hout,.inl rfl⟩⟩
  | some stored =>
    simp only []
    by_cases hchange : (stored.map stripCidr != some ip.text)=true
    · rw [if_pos hchange]
      by_cases hpend : (pending mac==some ip.text)=true
      · obtain ⟨row,hrow,rfl⟩ := hknown mac stored hl
        rw [if_pos hpend,Proc.run_bind,run_confirmIp hrow]
        exact ⟨_,_,rfl,.inr ⟨hout,.inr ⟨row,hrow,rfl⟩⟩⟩
      · rw [if_neg hpend]
        exact ⟨_,w,rfl,.inl rfl⟩
    · rw [if_neg hchange]
      exact ⟨_,w,rfl,.inl rfl⟩

/-- What a published detection and a confirmed address keep, a whole cycle keeps: both are of an
address that is no gateway's. -/
theorem arpSync_invariant (I : World → Prop) (arpMap : List (String × Ipv4Addr))
    (gatewayIps : List String) (now : Int) (pending : PendingIp) (w : World)
    (hdetected : ∀ w mac (ip : Ipv4Addr), ip.text ∉ gatewayIps → I w →
      I { w with detections := w.detections++[arpSyncEvent mac ip.text now] })
    (hmoved : ∀ w row (ip : Ipv4Addr), ip.text ∉ gatewayIps → I w →
      w.endpoints.findByMac row.macAddress=some row → I (moved w row ip))
    (hw : I w) :
    I ((arpSync rt (arpMap.map fun e => (e.1,e.2.text)) gatewayIps now pending).run
      (Call.exec pg) w).2 := by
  have hlower (m : MacAddr) : rt.toLowercase m.text=m.text := rt.toLowercase_text m
  have loop (existing : List (String × Option String)) (arpMap : List (String × Ipv4Addr)) :
      ∀ (pending : PendingIp) (w : World), Known w existing → I w →
        I (((arpMap.map fun e => (e.1,e.2.text)).foldlM
          (arpSyncEntry gatewayIps existing now) pending).run (Call.exec pg) w).2 := by
    induction arpMap with
    | nil =>
      intro pending w _ hw
      exact hw
    | cons e es ih =>
      intro pending w hknown hw
      obtain ⟨pending',w',hrun,hw'⟩ := run_arpSyncEntry pg hknown gatewayIps now pending
        e.1 e.2
      rw [List.map_cons,List.foldlM_cons,Proc.run_bind,hrun]
      rcases hw' with rfl | ⟨hout,rfl | ⟨row,hrow,rfl⟩⟩
      · exact ih pending' _ hknown hw
      · exact ih pending' _ hknown (hdetected w e.1 e.2 hout hw)
      · exact ih pending' _ (hknown.moved row e.2) (hmoved w row e.2 hout hw hrow)
  unfold arpSync
  rw [World.run_query_bind]
  simp only [Call.exec]
  refine loop _ arpMap _ w ?_ hw
  intro mac stored hl
  obtain ⟨l₁,l₂,hsplit,_⟩ := List.lookup_eq_some_iff.mp hl
  have hmem : (mac,stored) ∈ ((pg.scan w.endpoints.rows).map fun r =>
      (r.macAddress,r.ipAddress)).map fun r => (rt.toLowercase r.1.text,r.2) := by
    rw [hsplit]
    simp
  simp only [List.map_map,List.mem_map,Function.comp,hlower,Prod.mk.injEq] at hmem
  obtain ⟨row,hrow,rfl,_⟩ := hmem
  have hid := EndpointTable.findById_eq_some.mpr ⟨(pg.scan_perm _).mem_iff.mp hrow,rfl⟩
  exact ⟨row,EndpointTable.findByMac_eq_some.mpr ⟨hid,rfl⟩,rfl⟩

end Background

namespace AgentService

variable {pg : Postgres}

/-- What a registration comes to: the device with the agent id moves to the reported addresses, or
the upsert by MAC, which may be refused. -/
inductive Outcome (pg : Postgres) (remoteIp : Option String) (req : RegisterRequest) (w : World) :
    World → Prop where
  | refused (w' : World) (effect : Effect w w' w.endpoints w.sessions []) :
      Outcome pg remoteIp req w w'
  | moved {w' : World} {t : EndpointTable} {row : EndpointRow}
      (h : w.endpoints.upsertByAgentId pg (upsertOf remoteIp req) w.clock=.ok (some row,t))
      (effect : Effect w w' t w.sessions []) : Outcome pg remoteIp req w w'
  | upserted {w' : World} {t : EndpointTable} {row : EndpointRow} {now : Timestamp}
      (unmoved : ∀ row t,
        w.endpoints.upsertByAgentId pg (upsertOf remoteIp req) w.clock≠.ok (some row,t))
      (h : w.endpoints.upsert pg (upsertOf remoteIp req) now=.ok (row,t))
      (effect : Effect w w' t w.sessions []) : Outcome pg remoteIp req w w'

theorem register_outcome (pg : Postgres) (remoteIp : Option String) (req : RegisterRequest)
    (w : World) :
    Outcome pg remoteIp req w (w.handle pg (register remoteIp req)) := by
  have upsert {w₁ : World} (h : Effect w w₁ w.endpoints w.sessions [])
      (unmoved : ∀ row t,
        w.endpoints.upsertByAgentId pg (upsertOf remoteIp req) w.clock≠.ok (some row,t)) :
      Outcome pg remoteIp req w (w₁.handle pg (query (.upsert (upsertOf remoteIp req)))) := by
    unfold World.handle
    rw [run_query]
    simp only [Call.exec,h.endpoints]
    cases hput : w.endpoints.upsert pg (upsertOf remoteIp req) w₁.clock with
    | error e => exact .refused _ h
    | ok r => exact .upserted unmoved hput ⟨rfl,h.sessions,h.commands,h.policies⟩
  unfold register
  rw [World.handle_probe]
  simp only [Call.exec]
  cases hmove : w.endpoints.upsertByAgentId pg (upsertOf remoteIp req) w.clock with
  | error e => exact upsert (Effect.none w) (by simp [hmove])
  | ok r =>
    obtain ⟨row,t⟩ := r
    cases row with
    | none =>
      rcases EndpointTable.upsertByAgentId_ok hmove with ⟨_,rfl⟩ | ⟨_,_,_,_,_,_,_,_,hrow,_⟩
      · exact upsert ⟨rfl,rfl,by rw [List.append_nil],rfl⟩ (by simp [hmove])
      · cases hrow
    | some row => exact .moved hmove ⟨rfl,rfl,by rw [List.append_nil]; rfl,rfl⟩

end AgentService

end NacPlatform
