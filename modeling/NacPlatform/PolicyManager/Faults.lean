import NacPlatform.PolicyManager.Outcomes

namespace NacPlatform

/-- For every device the stored status is what it was, or a command for the new one went out. -/
def Followed (w w' : World) : Prop :=
  ∀ id, w'.endpoints.statusOf id=w.endpoints.statusOf id ∨
    ∃ row cmd sent, w'.endpoints.findById id=some row ∧ w'.commands=w.commands++sent ∧
      cmd ∈ sent ∧ cmd.macAddress=row.macAddress.text ∧ row.status.announcedBy cmd

/-- Nothing has been sent and no status has changed. -/
def Quiet (w w' : World) : Prop :=
  w'.commands=w.commands ∧ w'.endpoints.statusOf=w.endpoints.statusOf

/-- Neither a status write nor a publication of a command. -/
def Call.quiet : Call → Bool
  | setStatus .. => false
  | publishCommand _ => false
  | _ => true

section Quietness

variable {pg : Postgres} {fails : Call → Bool}

theorem Quiet.refl (w : World) : Quiet w w := ⟨rfl,rfl⟩

theorem Quiet.followed {w w' : World} (h : Quiet w w') : Followed w w' :=
  fun id => .inl (congrFun h.2 id)

/-- Whether a handler keeps its word does not depend on what it did quietly before. -/
theorem Quiet.followed_iff {w w₁ w₂ : World} (h : Quiet w w₁) :
    Followed w w₂ ↔ Followed w₁ w₂ := by
  unfold Followed
  rw [h.1,h.2]

theorem quiet_exec {c : Call} (hc : c.quiet=true) (w : World) : Quiet w (c.exec pg w).2 := by
  cases c with
  | upsert ep =>
    rw [Call.exec]
    cases h : w.endpoints.upsert pg ep w.clock with
    | error e => exact Quiet.refl w
    | ok r =>
      obtain ⟨row,t⟩ := r
      have hput := EndpointTable.upsert_put h
      exact ⟨rfl,EndpointTable.statusOf_put hput (EndpointTable.upsert_status h)⟩
  | upsertByAgentId ep =>
    rw [Call.exec]
    cases h : w.endpoints.upsertByAgentId pg ep w.clock with
    | error e => exact Quiet.refl w
    | ok r =>
      obtain ⟨row,t⟩ := r
      rcases EndpointTable.upsertByAgentId_ok h with ⟨_,rfl⟩ | ⟨_,mac,ip,r,_,_,hr,_,_,hput⟩
      · exact ⟨rfl,rfl⟩
      · have hfind := EndpointTable.findById_eq_some.mpr ⟨hr,rfl⟩
        exact ⟨rfl,EndpointTable.statusOf_put hput (EndpointTable.statusOf_of_find hfind).symm⟩
  | setStatus id status => cases hc
  | publishCommand cmd => cases hc
  | setPolicy id policyId =>
    exact ⟨rfl,EndpointTable.statusOf_congr (EndpointTable.column_setPolicy fun _ => rfl)⟩
  | setExempt id exempt =>
    exact ⟨rfl,EndpointTable.statusOf_congr (EndpointTable.column_setExempt fun _ => rfl)⟩
  | setUsername id username =>
    exact ⟨rfl,EndpointTable.statusOf_congr (EndpointTable.column_setUsername fun _ => rfl)⟩
  | setCompliance id isCompliant =>
    exact ⟨rfl,EndpointTable.statusOf_congr (EndpointTable.column_setCompliance fun _ => rfl)⟩
  | updatePostureFields id f =>
    exact ⟨rfl,EndpointTable.statusOf_congr (EndpointTable.column_updatePostureFields fun _ => rfl)⟩
  | updateIp mac ip =>
    simp only [Call.exec]
    split
    · exact ⟨rfl,EndpointTable.statusOf_congr (EndpointTable.column_updateIp fun _ => rfl)⟩
    · exact Quiet.refl w
  | findByMac mac =>
    simp only [Call.exec]
    split <;> exact Quiet.refl w
  | transition id state username =>
    simp only [Call.exec]
    split
    · exact ⟨rfl,rfl⟩
    · split <;> exact Quiet.refl w
  | _ => exact ⟨rfl,rfl⟩

theorem quiet_execFaulty {c : Call} (hc : c.quiet=true) (w : World) :
    Quiet w (c.execFaulty pg fails w).2 := by
  unfold Call.execFaulty
  split
  · exact Quiet.refl w
  · exact quiet_exec hc w

/-- A call before the rest of a handler: the handler ends there, or goes on with the answer. -/
theorem run_query_cases (pg : Postgres) (fails : Call → Bool) {β : Type} {c : Call}
    (hdb : c.onDatabase=true) (f : c.Result → Handler β) (w : World) :
    (fails c=true ∨ ∃ e, (c.exec pg w).1=.error e) ∧
        ((query c >>= f).run (Call.execFaulty pg fails) w).2=(c.execFaulty pg fails w).2 ∨
      fails c=false ∧ ∃ a, (c.exec pg w).1=.ok a ∧
        (query c >>= f).run (Call.execFaulty pg fails) w=
          (f a).run (Call.execFaulty pg fails) (c.exec pg w).2 := by
  rw [World.run_query_bind]
  by_cases hf : fails c=true
  · simp [Call.execFaulty,hf,hdb]
  · have he : c.execFaulty pg fails w=c.exec pg w := by simp [Call.execFaulty,hf]
    rw [he]
    rcases c.exec pg w with ⟨r,w'⟩
    cases r with
    | error e => exact .inl ⟨.inr ⟨e,rfl⟩,rfl⟩
    | ok a => exact .inr ⟨by simpa using hf,a,rfl,rfl⟩

/-- A quiet call that fails ends the handler with nothing sent and no status changed. -/
theorem followed_query_iff {β : Type} {c : Call} (hc : c.quiet=true) (hdb : c.onDatabase=true)
    (f : c.Result → Handler β) (w : World) :
    Followed w (w.handleFaulty pg fails (query c >>= f)) ↔
      (fails c=false → ∀ a, (c.exec pg w).1=.ok a →
        Followed (c.exec pg w).2 ((c.exec pg w).2.handleFaulty pg fails (f a))) := by
  unfold World.handleFaulty
  rcases run_query_cases pg fails hdb f w with
    ⟨hfail,hend⟩ | ⟨hok,a,ha,hgo⟩
  · rw [hend]
    refine ⟨fun _ hf a ha => ?_,fun _ => (quiet_execFaulty hc w).followed⟩
    rcases hfail with h | ⟨e,h⟩
    · simp [hf] at h
    · simp [ha] at h
  · rw [hgo,(quiet_exec hc w).followed_iff]
    constructor
    · intro h _ a' ha'
      rw [ha] at ha'
      exact Except.ok.inj ha' ▸ h
    · intro h
      exact h hok a ha

theorem followed_query_ok {β : Type} {c : Call} (hc : c.quiet=true) (hdb : c.onDatabase=true)
    (f : c.Result → Handler β) {w w' : World} {a : c.Result}
    (h : c.exec pg w=(.ok a,w')) :
    Followed w (w.handleFaulty pg fails (query c >>= f)) ↔
      (fails c=false → Followed w' (w'.handleFaulty pg fails (f a))) := by
  rw [followed_query_iff hc hdb,h]
  constructor
  · intro h hf
    exact h hf a rfl
  · intro h hf a' ha'
    exact Except.ok.inj ha' ▸ h hf

theorem followed_audit_iff {β : Type} (eventType actor : String) (id : Option Uuid)
    (f : Unit → Handler β) (w : World) :
    Followed w (w.handleFaulty pg fails (query (.logAudit eventType id actor) >>= f)) ↔
      (fails (.logAudit eventType id actor)=false →
        Followed (w.logged eventType id actor)
          ((w.logged eventType id actor).handleFaulty pg fails (f ()))) :=
  followed_query_ok (c := .logAudit eventType id actor) rfl rfl f rfl

theorem followed_loadRules_iff {β : Type} (f : List PolicyRule → Handler β) (w : World) :
    Followed w (w.handleFaulty pg fails (loadRules >>= f)) ↔
      (fails .enabledPolicies=false → ∀ rules, w.rules pg=.ok rules →
        Followed w (w.handleFaulty pg fails (f rules))) := by
  unfold World.handleFaulty
  rw [run_loadRules_bind]
  by_cases hload : fails .enabledPolicies=true
  · simp [hload,(Quiet.refl w).followed]
  · rw [if_neg hload]
    cases hrules : w.rules pg with
    | error e => simp [(Quiet.refl w).followed]
    | ok rules => simp [hload]

/-- The rest of a handler publishes a command, whatever fails, and leaves the endpoints alone. -/
def Announces (pg : Postgres) (fails : Call → Bool) {α : Type} (rest : Handler α)
    (cmd : EnforcementCommand) : Prop :=
  ∀ w : World, (w.handleFaulty pg fails rest).endpoints=w.endpoints ∧
    (w.handleFaulty pg fails rest).commands=w.commands++[cmd]

/-- A status write, an audit insert whose error ends the handler, and only then the command: the
command goes out exactly when the insert does not fail after the write went through. -/
theorem followed_write_iff (pg : Postgres) (fails : Call → Bool) {w : World} {row : EndpointRow}
    {new : Status} {α : Type} {rest : Handler α} {cmd : EnforcementCommand} (eventType actor : String)
    (hrow : w.endpoints.findById row.id=some row) (hne : row.status≠new)
    (hrest : Announces pg fails rest cmd) (hmac : cmd.macAddress=row.macAddress.text)
    (hann : new.announcedBy cmd) :
    Followed w (w.handleFaulty pg fails do
        query (.setStatus row.id new.text)
        query (.logAudit eventType (some row.id) actor)
        rest) ↔
      (fails (.setStatus row.id new.text)=false →
        fails (.logAudit eventType (some row.id) actor)=false) := by
  have hset : (Call.exec pg (.setStatus row.id new.text) w)=
      (.ok (),{ w with endpoints := w.endpoints.setStatus row.id new }) := by
    simp [Call.exec,Status.parse_text]
  have hfind : (w.endpoints.setStatus row.id new).findById row.id=
      some { row with status := new } := by
    simp [EndpointTable.findById_setStatus,hrow]
  have hother {id : Uuid} (hid : id≠row.id) :
      (w.endpoints.setStatus row.id new).statusOf id=w.endpoints.statusOf id := by
    rw [EndpointTable.statusOf_setStatus hrow,if_neg hid]
  unfold World.handleFaulty
  rcases run_query_cases pg fails (c := .setStatus row.id new.text) rfl
    (fun _ => query (.logAudit eventType (some row.id) actor) >>= fun _ => rest) w with
    ⟨hfail,hend⟩ | ⟨hok,a,_,hgo⟩
  · -- the write fails: nothing has changed
    have hf : fails (.setStatus row.id new.text)=true := by
      rcases hfail with h | ⟨e,h⟩
      · exact h
      · simp [hset] at h
    rw [hend]
    simp only [hf,Bool.true_eq_false,false_implies,iff_true]
    exact Quiet.followed (by simp [Call.execFaulty,hf,Call.onDatabase,Quiet.refl])
  · rw [hgo,hset]
    simp only [hok,forall_const]
    rcases run_query_cases pg fails
      (c := .logAudit eventType (some row.id) actor) rfl (fun _ => rest)
      { w with endpoints := w.endpoints.setStatus row.id new } with
      ⟨hfail,hend⟩ | ⟨hok',a',_,hgo'⟩
    · -- the insert fails: the status stands and nothing has been sent
      have hf : fails (.logAudit eventType (some row.id) actor)=true := by
        rcases hfail with h | ⟨e,h⟩
        · exact h
        · simp [Call.exec] at h
      rw [hend]
      simp only [hf,Bool.true_eq_false,iff_false]
      intro h
      rcases h row.id with h | ⟨r,c,sent,_,hsent,hc,_⟩
      · simp only [Call.execFaulty,hf,Call.onDatabase,Bool.and_self,if_true,
          EndpointTable.statusOf_of_find hfind,EndpointTable.statusOf_of_find hrow] at h
        exact hne h.symm
      · simp only [Call.execFaulty,hf,Call.onDatabase,Bool.and_self,if_true,
          List.self_eq_append_right] at hsent
        rw [hsent] at hc
        cases hc
    · rw [hgo']
      simp only [hok',iff_true]
      obtain ⟨hendpoints,hcommands⟩ := hrest
        (Call.exec pg (.logAudit eventType (some row.id) actor)
          { w with endpoints := w.endpoints.setStatus row.id new }).2
      unfold World.handleFaulty at hendpoints hcommands
      intro id
      rw [hendpoints]
      by_cases hid : id=row.id
      · exact .inr ⟨{ row with status := new },cmd,[cmd],hid ▸ hfind,hcommands,by simp,hmac,hann⟩
      · exact .inl (hother hid)

end Quietness

section Publishing

variable {pg : Postgres} {fails : Call → Bool}

theorem handleFaulty_publish (cmd : EnforcementCommand) (w : World) :
    (Call.execFaulty pg fails (.publishCommand cmd) w).2=
      { w with commands := w.commands++[cmd] } := by
  simp [Call.execFaulty,Call.onDatabase,Call.exec]

theorem announces_publish {mac : String} {ip : Option String} {status : Status}
    {decision : PolicyDecision} {action : String} (h : status.action=some action) :
    Announces pg fails (Consumer.publishEnforcementCommand mac ip status decision)
      (enforcementCommand mac ((ip.map stripCidr).getD "") action decision.vlanId) := by
  intro w
  unfold World.handleFaulty Consumer.publishEnforcementCommand
  simp only [h]
  rw [World.run_probe_bind,Proc.run_pure,handleFaulty_publish]
  exact ⟨rfl,rfl⟩

/-- Opening a session, also when it fails, comes between nothing and its command. -/
theorem announces_createSession {α : Type} {rest : Handler α} {cmd : EnforcementCommand}
    (s : CreateSession) (h : Announces pg fails rest cmd) :
    Announces pg fails (probe (.createSession s) >>= fun _ => rest) cmd := by
  intro w
  have hs : (Call.execFaulty pg fails (.createSession s) w).2.endpoints=w.endpoints ∧
      (Call.execFaulty pg fails (.createSession s) w).2.commands=w.commands := by
    unfold Call.execFaulty
    split <;> exact ⟨rfl,rfl⟩
  obtain ⟨he,hc⟩ := h (Call.execFaulty pg fails (.createSession s) w).2
  unfold World.handleFaulty at he hc ⊢
  rw [World.run_probe_bind,he,hc,hs.1,hs.2]
  exact ⟨rfl,rfl⟩

theorem announcedBy_decision (d : PolicyDecision) :
    ∃ action, (decisionToStatus d).action=some action := by
  cases d <;> exact ⟨_,rfl⟩

end Publishing

section Handlers

variable (pg : Postgres) (rt : Runtime) (fails : Call → Bool)

namespace Consumer

/-- The address the device had before the event, if the lookup does not fail. -/
def oldIp (event : EndpointDetectedEvent) (w : World) : Option String :=
  if fails (.findByMac event.macAddress) then none
  else (((pg.macaddr event.macAddress).bind w.endpoints.findByMac).bind (·.ipAddress)).map stripCidr

def hasActiveSession (w : World) (row : EndpointRow) : Bool :=
  row.status==.allowed && row.username.isSome && !fails (.findActiveByEndpoint row.id) &&
    ((w.sessions.findActiveByEndpoint pg row.id).map fun s => s.state==.active).getD false

/-- The policies make a new status of the row, and nothing exempts it from that. -/
structure Decides (w : World) (row : EndpointRow) (new : Status) : Prop where
  loaded : fails .enabledPolicies=false
  rules : ∃ rules, w.rules pg=.ok rules ∧ rules≠[] ∧
    new=decisionToStatus (evaluate rt rules (context row))
  changes : row.status≠new
  unauthenticated : hasActiveSession pg fails w row=false

/-- `process_event` comes to its status write, and the write goes through. -/
structure Writes (event : EndpointDetectedEvent) (w : World) (row : EndpointRow) (new : Status) :
    Prop where
  upsert : fails (.upsert (upsertOf event))=false
  upserted : ∃ t, w.endpoints.upsert pg (upsertOf event) w.clock=.ok (row,t)
  detected : fails (.logAudit "endpoint_detected" (some row.id) ("sensor/"++event.source))=false
  moved : ipChanged (oldIp pg fails event w) row=true →
    fails (.logAudit "endpoint_ip_changed" (some row.id) "sensor")=false
  decides : Decides pg rt fails w row new
  write : fails (.setStatus row.id new.text)=false

variable {pg rt fails}

theorem followed_changeStatus {w : World} {row : EndpointRow} {decision : PolicyDecision}
    (newIp : Option String) (hrow : w.endpoints.findById row.id=some row)
    (hne : row.status≠decisionToStatus decision) :
    Followed w (w.handleFaulty pg fails (changeStatus row newIp decision)) ↔
      (fails (.setStatus row.id (decisionToStatus decision).text)=false →
        fails (.logAudit "policy_decision" (some row.id) "policy-manager")=false) := by
  obtain ⟨action,haction⟩ := announcedBy_decision decision
  have hpub : Announces pg fails (publishEnforcementCommand row.macAddress.text newIp
      (decisionToStatus decision) decision) _ := announces_publish haction
  have hann : (decisionToStatus decision).announcedBy (enforcementCommand row.macAddress.text
      ((newIp.map stripCidr).getD "") action decision.vlanId) := .inr haction
  refine followed_write_iff pg fails "policy_decision" "policy-manager" hrow hne ?_ rfl hann
  by_cases hq : decisionToStatus decision=.quarantined
  · simpa only [hq,beq_self_eq_true,if_true] using
      announces_createSession (captivePortalSession row decision) hpub
  · have hb : (decisionToStatus decision==.quarantined)=false := by simpa using hq
    simpa only [hb,Bool.false_eq_true,if_false] using hpub

theorem run_alreadyAuthenticated_bind {β : Type} {w : World} {row : EndpointRow}
    (f : Bool → Handler β) :
    (alreadyAuthenticated row >>= f).run (Call.execFaulty pg fails) w=
      (f (hasActiveSession pg fails w row)).run (Call.execFaulty pg fails) w := by
  rw [Proc.run_bind]
  unfold alreadyAuthenticated hasActiveSession
  by_cases hrow : (row.status==.allowed && row.username.isSome)=true
  · rw [if_pos hrow,World.run_probe_bind,Proc.run_pure,hrow]
    by_cases hf : fails (.findActiveByEndpoint row.id)=true
    · simp [Call.execFaulty,Call.onDatabase,hf,Except.toOption]
    · simp only [Call.execFaulty,Call.exec,hf,Except.toOption,Bool.and_false]
      rfl
  · rw [if_neg hrow,Proc.run_pure]
    simp only [hrow,Bool.false_and]

/-- From the policies on: the command follows exactly when, if the policies decide a new status
and the write goes through, the audit insert does not fail. -/
theorem followed_evaluateRow {w : World} {row : EndpointRow} (newIp : Option String)
    (ipChanged : Bool) (hrow : w.endpoints.findById row.id=some row) :
    Followed w (w.handleFaulty pg fails (evaluateRow rt row newIp ipChanged)) ↔
      ∀ new, Decides pg rt fails w row new → fails (.setStatus row.id new.text)=false →
        fails (.logAudit "policy_decision" (some row.id) "policy-manager")=false := by
  have same {w' : World} (h : w'.endpoints=w.endpoints) : Followed w w' := fun id => .inl (by rw [h])
  unfold evaluateRow
  rw [followed_loadRules_iff]
  constructor
  · intro h new hd hwrite
    obtain ⟨rules,hrules,hne,rfl⟩ := hd.rules
    have hgo := h hd.loaded rules hrules
    have hemp : rules.isEmpty=false := by simpa using hne
    have hchange : (!hasActiveSession pg fails w row &&
        row.status != decisionToStatus (evaluate rt rules (context row)))=true := by
      simp [hd.unauthenticated,hd.changes]
    simp only [hemp,Bool.false_eq_true,if_false,World.handleFaulty] at hgo
    rw [run_alreadyAuthenticated_bind,if_pos hchange] at hgo
    exact (followed_changeStatus newIp hrow hd.changes).mp hgo hwrite
  · intro h hload rules hrules
    by_cases hempty : rules=[]
    · subst hempty
      exact same rfl
    have hemp : rules.isEmpty=false := by simpa using hempty
    simp only [hemp,Bool.false_eq_true,if_false,World.handleFaulty]
    rw [run_alreadyAuthenticated_bind]
    by_cases hchange : (!hasActiveSession pg fails w row &&
        row.status != decisionToStatus (evaluate rt rules (context row)))=true
    · obtain ⟨hauth,hstatus⟩ : hasActiveSession pg fails w row=false ∧
          row.status≠decisionToStatus (evaluate rt rules (context row)) := by
        simpa using hchange
      rw [if_pos hchange]
      exact (followed_changeStatus newIp hrow hstatus).mpr
        (h _ ⟨hload,⟨rules,hrules,hempty,rfl⟩,hstatus,hauth⟩)
    · rw [if_neg hchange]
      by_cases hip : (ipChanged && row.status.enforced)=true
      · rw [if_pos hip]
        cases haction : row.status.action with
        | none => exact same (by simp only [publishEnforcementCommand,haction]; rfl)
        | some action => exact same (announces_publish haction w).1
      · rw [if_neg hip]
        exact same rfl

theorem Decides.congr {w w' : World} (hp : w'.policies=w.policies)
    (hs : w'.sessions=w.sessions) {row : EndpointRow} {new : Status} :
    Decides pg rt fails w' row new ↔ Decides pg rt fails w row new := by
  have hrules : w'.rules pg=w.rules pg := by rw [World.rules,hp,World.rules]
  have hactive : hasActiveSession pg fails w' row=hasActiveSession pg fails w row := by
    rw [hasActiveSession,hs,hasActiveSession]
  constructor
  · intro h
    exact ⟨h.loaded,hrules ▸ h.rules,h.changes,hactive ▸ h.unauthenticated⟩
  · intro h
    exact ⟨h.loaded,hrules ▸ h.rules,h.changes,hactive ▸ h.unauthenticated⟩

theorem findByMac_faulty (event : EndpointDetectedEvent) (w : World) :
    (Call.execFaulty pg fails (.findByMac event.macAddress) w).2=w ∧
      ((Except.toOption (Call.execFaulty pg fails (.findByMac event.macAddress) w).1).join.bind
        (·.ipAddress)).map stripCidr=oldIp pg fails event w := by
  unfold Call.execFaulty oldIp
  by_cases hf : fails (.findByMac event.macAddress)=true
  · simp [hf,Call.onDatabase,Except.toOption]
  · simp only [hf,Call.onDatabase,Bool.and_false,Bool.false_eq_true,if_false,Call.exec]
    cases pg.macaddr event.macAddress <;> simp [Except.toOption]

theorem followed_recordDetection {w : World} {row : EndpointRow} (event : EndpointDetectedEvent)
    (old : Option String) (hrow : w.endpoints.findById row.id=some row) :
    Followed w (w.handleFaulty pg fails (recordDetection rt event old row)) ↔
      (fails (.logAudit "endpoint_detected" (some row.id) ("sensor/"++event.source))=false →
        (ipChanged old row=true →
          fails (.logAudit "endpoint_ip_changed" (some row.id) "sensor")=false) →
        ∀ new, Decides pg rt fails w row new → fails (.setStatus row.id new.text)=false →
          fails (.logAudit "policy_decision" (some row.id) "policy-manager")=false) := by
  unfold recordDetection
  rw [followed_audit_iff]
  refine imp_congr_right fun _ => ?_
  by_cases hmoved : ipChanged old row=true
  · simp only [hmoved,if_true,forall_const]
    rw [followed_audit_iff]
    refine imp_congr_right fun _ => ?_
    refine (followed_evaluateRow _ _ (by exact hrow)).trans ?_
    exact forall_congr' fun new => imp_congr_left (Decides.congr (by rfl) (by rfl))
  · simp only [hmoved,Bool.false_eq_true,if_false,false_implies,true_implies]
    refine (followed_evaluateRow _ _ (by exact hrow)).trans ?_
    exact forall_congr' fun new => imp_congr_left (Decides.congr (by rfl) (by rfl))

theorem exec_upsert {ep : UpsertEndpoint} {w : World} {row : EndpointRow} :
    (Call.exec pg (.upsert ep) w).1=.ok row ↔
      ∃ t, w.endpoints.upsert pg ep w.clock=.ok (row,t) ∧
        (Call.exec pg (.upsert ep) w).2={ w with endpoints := t, clock := w.clock+1 } := by
  simp only [Call.exec]
  cases h : w.endpoints.upsert pg ep w.clock with
  | error e => simp
  | ok r => simp [Prod.ext_iff]

/-- `process_event` leaves no new status without its command exactly when, wherever its status
write goes through, the audit insert after it does not fail. -/
theorem followed_processEvent (event : EndpointDetectedEvent) (w : World) :
    Followed w (w.handleFaulty pg fails (processEvent rt event)) ↔
      ∀ row new, Writes pg rt fails event w row new →
        fails (.logAudit "policy_decision" (some row.id) "policy-manager")=false := by
  obtain ⟨hw,hold⟩ := findByMac_faulty event w
  have hstart : w.handleFaulty pg fails (processEvent rt event)=
      w.handleFaulty pg fails (query (.upsert (upsertOf event)) >>= fun row =>
        recordDetection rt event (oldIp pg fails event w) row) := by
    unfold World.handleFaulty processEvent
    rw [World.run_probe_bind,hw,hold]
  rw [hstart,followed_query_iff rfl rfl]
  constructor
  · intro h row new hd
    obtain ⟨t,ht⟩ := hd.upserted
    have hexec : Call.exec pg (.upsert (upsertOf event)) w=
        (.ok row,{ w with endpoints := t, clock := w.clock+1 }) := by simp [Call.exec,ht]
    have hfind := (EndpointTable.upsert_put ht).self
    have hgo := h hd.upsert row (by rw [hexec])
    rw [hexec] at hgo
    exact (followed_recordDetection event _ hfind).mp hgo hd.detected hd.moved new
      ((Decides.congr (by rfl) (by rfl)).mpr hd.decides) hd.write
  · intro h hupsert row hrow
    obtain ⟨t,ht,hw₁⟩ := exec_upsert.mp hrow
    have hfind := (EndpointTable.upsert_put ht).self
    rw [hw₁]
    refine (followed_recordDetection event _ hfind).mpr fun hdetected hmoved new hd hwrite => ?_
    exact h row new ⟨hupsert,⟨t,ht⟩,hdetected,hmoved,(Decides.congr (by rfl) (by rfl)).mp hd,hwrite⟩

end Consumer

namespace PostureHandler

/-- `process_posture` comes to its status write, and the write goes through. -/
structure Writes (report : PostureReport) (w : World) (row : EndpointRow) (new : Status) :
    Prop where
  lookup : fails (.findByMac report.deviceId)=false
  found : (pg.macaddr report.deviceId).bind w.endpoints.findByMac=some row
  save : fails (.savePosture row.id report (verdict rt report))=false
  compliance : fails (.setCompliance row.id (verdict rt report))=false
  fields : fails (.updatePostureFields row.id report.fields)=false
  reported : fails (.logAudit "posture_report" (some row.id) "agent-gateway")=false
  loaded : fails .enabledPolicies=false
  rules : ∃ rules, w.rules pg=.ok rules ∧ rules≠[] ∧
    new=decisionToStatus (evaluate rt rules (context row report (verdict rt report)))
  changes : row.status≠new
  write : fails (.setStatus row.id new.text)=false

variable {pg rt fails}

theorem announces_command (cmd : EnforcementCommand) :
    Announces pg fails (do let _ ← probe (.publishCommand cmd)) cmd := by
  intro w
  unfold World.handleFaulty
  rw [World.run_probe_bind,Proc.run_pure,handleFaulty_publish]
  exact ⟨rfl,rfl⟩

/-- The world once the report is stored. -/
def stored (w : World) (row : EndpointRow) (report : PostureReport) (isCompliant : Bool) : World :=
  World.logged { w with
    postureReports := w.postureReports++[⟨row.id,report,isCompliant⟩]
    endpoints := (w.endpoints.setCompliance row.id isCompliant w.clock).updatePostureFields row.id
      report.fields
    clock := w.clock+1 } "posture_report" (some row.id) "agent-gateway"

theorem find_stored {w : World} {row : EndpointRow} (report : PostureReport) (b : Bool)
    (hrow : w.endpoints.findById row.id=some row) :
    (stored w row report b).endpoints.findById row.id=some (reportedRow row report b w.clock) :=
  find_reported hrow report b

theorem followed_report (report : PostureReport) (w : World) (row : EndpointRow)
    (rest : Handler Unit) :
    Followed w (w.handleFaulty pg fails do
        query (.savePosture row.id report (verdict rt report))
        query (.setCompliance row.id (verdict rt report))
        query (.updatePostureFields row.id report.fields)
        query (.logAudit "posture_report" (some row.id) "agent-gateway")
        rest) ↔
      (fails (.savePosture row.id report (verdict rt report))=false →
        fails (.setCompliance row.id (verdict rt report))=false →
        fails (.updatePostureFields row.id report.fields)=false →
        fails (.logAudit "posture_report" (some row.id) "agent-gateway")=false →
        Followed (stored w row report (verdict rt report))
          ((stored w row report (verdict rt report)).handleFaulty pg fails rest)) := by
  rw [followed_query_ok rfl rfl _ rfl]
  refine imp_congr_right fun _ => ?_
  rw [followed_query_ok rfl rfl _ rfl]
  refine imp_congr_right fun _ => ?_
  rw [followed_query_ok rfl rfl _ rfl]
  refine imp_congr_right fun _ => ?_
  rw [followed_query_ok rfl rfl _ rfl]
  rfl

theorem followed_evaluateEndpoint {w : World} {row row' : EndpointRow} {report : PostureReport}
    {b : Bool} (hrow : w.endpoints.findById row.id=some row') (hstatus : row'.status=row.status)
    (hmac : row'.macAddress=row.macAddress) :
    Followed w (w.handleFaulty pg fails (evaluateEndpoint rt row report b)) ↔
      ∀ rules, fails .enabledPolicies=false → w.rules pg=.ok rules → rules≠[] →
        row.status≠decisionToStatus (evaluate rt rules (context row report b)) →
        fails (.setStatus row.id
          (decisionToStatus (evaluate rt rules (context row report b))).text)=false →
        fails (.logAudit "posture_status_change" (some row.id) "policy-manager")=false := by
  have hid : row'.id=row.id := EndpointTable.findById_id hrow
  have changed (d : PolicyDecision) (hne : row.status≠decisionToStatus d) :
      Followed w (w.handleFaulty pg fails (changeStatus row (decisionToStatus d))) ↔
        (fails (.setStatus row.id (decisionToStatus d).text)=false →
          fails (.logAudit "posture_status_change" (some row.id) "policy-manager")=false) := by
    have hann : (decisionToStatus d).announcedBy (enforcementCommand row.macAddress.text
        (row.ipAddress.getD "") (decisionToStatus d).text none) := .inl rfl
    have hrow' : w.endpoints.findById row'.id=some row' := hid ▸ hrow
    have h := followed_write_iff pg fails "posture_status_change" "policy-manager" hrow'
      (hstatus ▸ hne) (announces_command _) (by rw [hmac]; rfl) hann
    rw [hid] at h
    exact h
  unfold evaluateEndpoint
  rw [followed_loadRules_iff]
  constructor
  · intro h rules hload hrules hne hchange
    have hgo := h hload rules hrules
    have hemp : rules.isEmpty=false := by simpa using hne
    simp only [hemp,Bool.false_eq_true,if_false,bne_iff_ne,ne_eq,hchange,not_false_eq_true,
      if_true] at hgo
    exact (changed _ hchange).mp hgo
  · intro h hload rules hrules
    by_cases hempty : rules=[]
    · subst hempty
      exact (Quiet.refl w).followed
    have hemp : rules.isEmpty=false := by simpa using hempty
    simp only [hemp,Bool.false_eq_true,if_false,bne_iff_ne,ne_eq]
    by_cases hchange : row.status=decisionToStatus (evaluate rt rules (context row report b))
    · simp only [hchange,not_true_eq_false,if_false]
      exact (Quiet.refl w).followed
    · simp only [hchange,not_false_eq_true,if_true]
      exact (changed _ hchange).mpr (h rules hload hrules hempty hchange)

/-- `process_posture` leaves no new status without its command exactly when, wherever its status
write goes through, the audit insert after it does not fail. -/
theorem followed_processPosture (report : PostureReport) (w : World) :
    Followed w (w.handleFaulty pg fails (processPosture rt report)) ↔
      ∀ row new, Writes pg rt fails report w row new →
        fails (.logAudit "posture_status_change" (some row.id) "policy-manager")=false := by
  have hfindByMac : (pg.macaddr report.deviceId=none ∧
        (Call.exec pg (.findByMac report.deviceId) w)=(.error .invalidText,w)) ∨
      ∃ mac, pg.macaddr report.deviceId=some mac ∧
        (Call.exec pg (.findByMac report.deviceId) w)=(.ok (w.endpoints.findByMac mac),w) := by
    simp only [Call.exec]
    cases pg.macaddr report.deviceId with
    | none => exact .inl ⟨rfl,rfl⟩
    | some mac => exact .inr ⟨mac,rfl,rfl⟩
  unfold processPosture
  rw [followed_query_iff rfl rfl]
  rcases hfindByMac with ⟨hmac,hexec⟩ | ⟨mac,hmac,hexec⟩
  · rw [hexec]
    refine ⟨fun _ row new hd => ?_,fun _ _ a ha => by cases ha⟩
    have hfound := hd.found
    simp [hmac] at hfound
  · rw [hexec]
    constructor
    · intro h row new hd
      obtain ⟨rules,hrules,hne,hnew⟩ := hd.rules
      have hfound : w.endpoints.findByMac mac=some row := by simpa [hmac] using hd.found
      have hrow := (EndpointTable.findByMac_eq_some.mp hfound).1
      have hgo := h hd.lookup _ rfl
      simp only [hfound] at hgo
      have hend := (followed_report report w row _).mp hgo hd.save hd.compliance hd.fields
        hd.reported
      subst hnew
      exact (followed_evaluateEndpoint (find_stored report _ hrow) rfl rfl).mp hend rules hd.loaded
        hrules hne hd.changes hd.write
    · intro h hlookup found hfound
      rw [← Except.ok.inj hfound]
      cases hrow : w.endpoints.findByMac mac with
      | none => exact (Quiet.refl w).followed
      | some row =>
        have hid := (EndpointTable.findByMac_eq_some.mp hrow).1
        refine (followed_report report w row _).mpr fun hsave hcompliance hfields hreported => ?_
        refine (followed_evaluateEndpoint (find_stored report _ hid) rfl rfl).mpr ?_
        intro rules hload hrules hne hchange hwrite
        exact h row _ ⟨hlookup,by simpa [hmac] using hrow,hsave,hcompliance,hfields,hreported,
          hload,⟨rules,hrules,hne,rfl⟩,hchange,hwrite⟩

end PostureHandler

namespace Endpoints

/-- `update_endpoint_status` comes to its status write, and the write goes through. -/
structure Writes (id : Uuid) (status : String) (w : World) (row : EndpointRow) (new : Status) :
    Prop where
  lookup : fails (.findById id)=false
  found : w.endpoints.findById id=some row
  valid : Status.parse status=some new
  changes : row.status≠new
  write : fails (.setStatus id status)=false

variable {pg fails}

/-- What comes after the audit insert: the command, and the row for the answer. -/
theorem announces_answer (cmd : EnforcementCommand) (id : Uuid) :
    Announces pg fails (do
        let _ ← probe (.publishCommand cmd)
        answer id) cmd := by
  have still (w : World) : w.handleFaulty pg fails (answer id)=w := by
    unfold World.handleFaulty answer
    rcases run_query_cases pg fails (c := .findById id) rfl _ w with
      ⟨_,hend⟩ | ⟨_,found,_,hgo⟩
    · rw [hend]
      unfold Call.execFaulty
      split <;> rfl
    · rw [hgo]
      cases found <;> rfl
  intro w
  unfold World.handleFaulty
  rw [World.run_probe_bind,handleFaulty_publish]
  have h := still { w with commands := w.commands++[cmd] }
  unfold World.handleFaulty at h
  rw [h]
  exact ⟨rfl,rfl⟩

/-- A status that is not one of the four is refused before anything is sent. -/
theorem followed_invalid {α : Type} {w : World} {row : EndpointRow} {status : String}
    (hrow : w.endpoints.findById row.id=some row) (h : Status.parse status=none)
    (f : Unit → Handler α) :
    Followed w (w.handleFaulty pg fails (query (.setStatus row.id status) >>= f)) := by
  have hexec : Call.exec pg (.setStatus row.id status) w=(.error .checkViolation,w) := by
    simp [Call.exec,h,hrow]
  have hw : (Call.execFaulty pg fails (.setStatus row.id status) w).2=w := by
    unfold Call.execFaulty
    split
    · rfl
    · rw [hexec]
  unfold World.handleFaulty
  rcases run_query_cases pg fails (c := .setStatus row.id status) rfl f w with
    ⟨_,hend⟩ | ⟨_,a,ha,_⟩
  · rw [hend,hw]
    exact (Quiet.refl w).followed
  · rw [hexec] at ha
    cases ha

/-- To write the status that a device has already is to change none. -/
theorem followed_same {α : Type} {w : World} {row : EndpointRow} {rest : Handler α}
    {cmd : EnforcementCommand} (eventType actor : String)
    (hrow : w.endpoints.findById row.id=some row) (hrest : Announces pg fails rest cmd) :
    Followed w (w.handleFaulty pg fails do
      query (.setStatus row.id row.status.text)
      query (.logAudit eventType (some row.id) actor)
      rest) := by
  have hset : Call.exec pg (.setStatus row.id row.status.text) w=
      (.ok (),{ w with endpoints := w.endpoints.setStatus row.id row.status }) := by
    simp [Call.exec,Status.parse_text]
  have same {w' : World} (h : w'.endpoints=w.endpoints.setStatus row.id row.status) :
      Followed w w' := by
    intro id
    rw [h,EndpointTable.setStatus_self hrow]
    exact .inl rfl
  unfold World.handleFaulty
  rcases run_query_cases pg fails (c := .setStatus row.id row.status.text) rfl
    (fun _ => query (.logAudit eventType (some row.id) actor) >>= fun _ => rest) w with
    ⟨hfail,hend⟩ | ⟨_,a,_,hgo⟩
  · have hf : fails (.setStatus row.id row.status.text)=true := by
      rcases hfail with h | ⟨e,h⟩
      · exact h
      · simp [hset] at h
    rw [hend]
    exact Quiet.followed (by simp [Call.execFaulty,hf,Call.onDatabase,Quiet.refl])
  · rw [hgo,hset]
    rcases run_query_cases pg fails
      (c := .logAudit eventType (some row.id) actor) rfl (fun _ => rest)
      { w with endpoints := w.endpoints.setStatus row.id row.status } with
      ⟨_,hend⟩ | ⟨_,a',_,hgo'⟩
    · rw [hend]
      apply same
      unfold Call.execFaulty
      split <;> rfl
    · rw [hgo']
      exact same (hrest _).1

/-- `update_endpoint_status` leaves no new status without its command exactly when, wherever its
status write goes through and changes the status, the audit insert after it does not fail. -/
theorem followed_updateEndpointStatus (id : Uuid) (status eventType : String) (w : World) :
    Followed w (w.handleFaulty pg fails (updateEndpointStatus id status eventType)) ↔
      ∀ row new, Writes fails id status w row new →
        fails (.logAudit eventType (some id) "api")=false := by
  unfold updateEndpointStatus
  rw [followed_query_ok (c := .findById id) rfl rfl _ rfl]
  cases hrow : w.endpoints.findById id with
  | none =>
    refine ⟨fun _ row new hd => ?_,fun _ _ => (Quiet.refl w).followed⟩
    have hfound := hd.found
    simp [hrow] at hfound
  | some row =>
    have hid := EndpointTable.findById_id hrow
    subst hid
    cases hparse : Status.parse status with
    | none =>
      refine ⟨fun _ row' new hd => ?_,fun _ _ => followed_invalid hrow hparse _⟩
      have hvalid := hd.valid
      simp [hparse] at hvalid
    | some new =>
      have hstatus := Status.text_of_parse hparse
      subst hstatus
      by_cases hsame : row.status=new
      · subst hsame
        refine ⟨fun _ row' new hd => ?_,fun _ _ =>
          followed_same eventType "api" hrow (announces_answer _ row.id)⟩
        have hfound : row=row' := by simpa [hrow] using hd.found
        have hnew : row.status=new := by simpa [hparse] using hd.valid
        exact absurd (hfound ▸ hnew) hd.changes
      · have hann : new.announcedBy (enforcementCommand row.macAddress.text
            (stripCidr (row.ipAddress.getD "")) new.text none) := .inl rfl
        have hwrite := followed_write_iff pg fails eventType "api" hrow hsame
          (announces_answer _ row.id) rfl hann
        refine (imp_congr_right fun _ => hwrite).trans ?_
        constructor
        · intro h row' new' hd
          have hnew : new=new' := by simpa [hparse] using hd.valid
          subst hnew
          exact h hd.lookup hd.write
        · intro h hlookup hset
          exact h row new ⟨hlookup,hrow,hparse,hsame,hset⟩

end Endpoints

/-- Whichever database calls fail, each of the three handlers leaves every device with its old
status, or with its command published, exactly when the audit insert between its status write and
the publication does not fail. -/
theorem command_follows_status_iff (w : World) :
    (∀ event, Followed w (w.handleFaulty pg fails (Consumer.processEvent rt event)) ↔
      ∀ row new, Consumer.Writes pg rt fails event w row new →
        fails (.logAudit "policy_decision" (some row.id) "policy-manager")=false) ∧
    (∀ report, Followed w (w.handleFaulty pg fails (PostureHandler.processPosture rt report)) ↔
      ∀ row new, PostureHandler.Writes pg rt fails report w row new →
        fails (.logAudit "posture_status_change" (some row.id) "policy-manager")=false) ∧
    ∀ id status eventType,
      Followed w (w.handleFaulty pg fails (Endpoints.updateEndpointStatus id status eventType)) ↔
        ∀ row new, Endpoints.Writes fails id status w row new →
          fails (.logAudit eventType (some id) "api")=false :=
  ⟨fun event => Consumer.followed_processEvent event w,
    fun report => PostureHandler.followed_processPosture report w,
    fun id status eventType => Endpoints.followed_updateEndpointStatus id status eventType w⟩

end Handlers

def policyAuditFails : Call → Bool
  | .logAudit "policy_decision" _ _ => true
  | _ => false

/-- A new device is quarantined in the database, and the enforcement service never hears of it. -/
theorem command_lost :
    ¬Followed (World.initial [catchAll .quarantine])
      ((World.initial [catchAll .quarantine]).handleFaulty Postgres.plain policyAuditFails
        (Consumer.processEvent Runtime.ascii firstSighting)) := by
  have hbefore : (World.initial [catchAll .quarantine]).endpoints.statusOf 1=.pending := by
    decide +kernel
  have hafter : ((World.initial [catchAll .quarantine]).handleFaulty Postgres.plain
      policyAuditFails (Consumer.processEvent Runtime.ascii firstSighting)).endpoints.statusOf 1=
      .quarantined := by decide +kernel
  have hsent : ((World.initial [catchAll .quarantine]).handleFaulty Postgres.plain
      policyAuditFails (Consumer.processEvent Runtime.ascii firstSighting)).commands=[] := by
    decide +kernel
  intro h
  rcases h 1 with h | ⟨row,cmd,sent,_,hcommands,hcmd,_⟩
  · rw [hbefore,hafter] at h
    cases h
  · rw [hsent] at hcommands
    have hnil : sent=[] := (List.append_eq_nil_iff.mp hcommands.symm).2
    rw [hnil] at hcmd
    cases hcmd

end NacPlatform
