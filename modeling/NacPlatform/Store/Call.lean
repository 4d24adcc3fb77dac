import NacPlatform.Framework.Proc
import NacPlatform.Platform.Bus
import NacPlatform.Store.Policy
import NacPlatform.Store.Posture
import NacPlatform.Store.Session

namespace NacPlatform

structure AuditRow where
  eventType : String
  endpointId : Option Uuid
  actor : String
  deriving DecidableEq, Repr

/-- A row of `posture_reports`. -/
structure PostureRow where
  endpointId : Uuid
  report : PostureReport
  isCompliant : Bool
  deriving DecidableEq, Repr

/-- The tables, and what has been published on the two subjects. -/
structure World where
  endpoints : EndpointTable
  sessions : SessionTable
  policies : List PolicyRow
  postureReports : List PostureRow
  audit : List AuditRow
  commands : List EnforcementCommand
  detections : List EndpointDetectedEvent
  clock : Timestamp

/-- No device is known and nothing has been published. -/
def World.initial (policies : List PolicyRow) : World where
  endpoints := .empty
  sessions := .empty
  policies := policies
  postureReports := []
  audit := []
  commands := []
  detections := []
  clock := 0

def World.logged (w : World) (eventType : String) (id : Option Uuid) (actor : String) : World :=
  { w with audit := w.audit++[⟨eventType,id,actor⟩] }

/-- A database statement or a publication: what a handler waits for. -/
inductive Call where
  | upsert (ep : UpsertEndpoint)
  | upsertByAgentId (ep : UpsertEndpoint)
  | listEndpoints (limit offset : Nat)
  | listAddresses
  | findByMac (mac : String)
  | findById (id : Uuid)
  | findByHost (ip : String)
  | setStatus (id : Uuid) (status : String)
  | setPolicy (id : Uuid) (policyId : Option Uuid)
  | setExempt (id : Uuid) (exempt : Bool)
  | setUsername (id : Uuid) (username : String)
  | setCompliance (id : Uuid) (isCompliant : Bool)
  | updatePostureFields (id : Uuid) (f : PostureFields)
  | updateIp (mac ip : String)
  | createSession (s : CreateSession)
  | findActiveByEndpoint (endpointId : Uuid)
  | findSession (id : Uuid)
  | transition (id : Uuid) (state : String) (username : Option String)
  | terminate (id : Uuid)
  | enabledPolicies
  | findPolicy (id : Uuid)
  | savePosture (endpointId : Uuid) (report : PostureReport) (isCompliant : Bool)
  | logAudit (eventType : String) (endpointId : Option Uuid) (actor : String)
  | publishCommand (cmd : EnforcementCommand)
  | publishDetected (event : EndpointDetectedEvent)

namespace Call

abbrev Result : Call → Type
  | upsert _ => EndpointRow
  | upsertByAgentId _ => Option EndpointRow
  | listEndpoints .. => List EndpointRow
  | listAddresses => List (MacAddr × Option String)
  | findByMac _ => Option EndpointRow
  | findById _ => Option EndpointRow
  | findByHost _ => Option EndpointRow
  | createSession _ => SessionRow
  | findActiveByEndpoint _ => Option SessionRow
  | findSession _ => Option SessionRow
  | enabledPolicies => List PolicyRow
  | findPolicy _ => Option PolicyRow
  | _ => Unit

abbrev Reply (c : Call) : Type := Except DbError c.Result

/-- The call goes to the database. -/
def onDatabase : Call → Bool
  | publishCommand _ => false
  | publishDetected _ => false
  | _ => true

section Exec

variable (pg : Postgres)

def exec : (c : Call) → World → c.Reply × World
  | upsert ep,w =>
    match w.endpoints.upsert pg ep w.clock with
    | .ok (row,t) => (.ok row,{ w with endpoints := t, clock := w.clock+1 })
    | .error e => (.error e,w)
  | upsertByAgentId ep,w =>
    match w.endpoints.upsertByAgentId pg ep w.clock with
    | .ok (row,t) => (.ok row,{ w with endpoints := t, clock := w.clock+1 })
    | .error e => (.error e,w)
  | listEndpoints limit offset,w => (.ok (w.endpoints.list pg limit offset),w)
  | listAddresses,w => (.ok ((pg.scan w.endpoints.rows).map fun r => (r.macAddress,r.ipAddress)),w)
  | findByMac mac,w =>
    match pg.macaddr mac with
    | some m => (.ok (w.endpoints.findByMac m),w)
    | none => (.error .invalidText,w)
  | findById id,w => (.ok (w.endpoints.findById id),w)
  | findByHost ip,w => (.ok (w.endpoints.findByHost pg ip),w)
  | setStatus id status,w =>
    match Status.parse status with
    | some st => (.ok (),{ w with endpoints := w.endpoints.setStatus id st })
    | none => if (w.endpoints.findById id).isSome then (.error .checkViolation,w) else (.ok (),w)
  | setPolicy id policyId,w => (.ok (),{ w with endpoints := w.endpoints.setPolicy id policyId })
  | setExempt id exempt,w => (.ok (),{ w with endpoints := w.endpoints.setExempt id exempt })
  | setUsername id username,w =>
    (.ok (),{ w with endpoints := w.endpoints.setUsername id username })
  | setCompliance id isCompliant,w =>
    (.ok (),{ w with
      endpoints := w.endpoints.setCompliance id isCompliant w.clock, clock := w.clock+1 })
  | updatePostureFields id f,w =>
    (.ok (),{ w with endpoints := w.endpoints.updatePostureFields id f })
  | updateIp mac ip,w =>
    match pg.macaddr mac,pg.inet ip with
    | some m,some shown =>
      (.ok (),{ w with endpoints := w.endpoints.updateIp m shown w.clock, clock := w.clock+1 })
    | _,_ => (.error .invalidText,w)
  | createSession s,w =>
    (.ok (SessionTable.created w.sessions.freshId s w.clock),
      { w with sessions := w.sessions.create s w.clock, clock := w.clock+1 })
  | findActiveByEndpoint id,w => (.ok (w.sessions.findActiveByEndpoint pg id),w)
  | findSession id,w => (.ok (w.sessions.findById id),w)
  | transition id state username,w =>
    match SessionState.parse state with
    | some st =>
      (.ok (),{ w with
        sessions := w.sessions.transition id st username w.clock, clock := w.clock+1 })
    | none => if (w.sessions.findById id).isSome then (.error .checkViolation,w) else (.ok (),w)
  | terminate id,w =>
    (.ok (),{ w with sessions := w.sessions.terminate id w.clock, clock := w.clock+1 })
  | enabledPolicies,w => (.ok (NacPlatform.enabledPolicies pg w.policies),w)
  | findPolicy id,w => (.ok (w.policies.find? (·.id==id)),w)
  | savePosture id report isCompliant,w =>
    (.ok (),{ w with postureReports := w.postureReports++[⟨id,report,isCompliant⟩] })
  | logAudit eventType id actor,w => (.ok (),w.logged eventType id actor)
  | publishCommand cmd,w => (.ok (),{ w with commands := w.commands++[cmd] })
  | publishDetected event,w => (.ok (),{ w with detections := w.detections++[event] })

/-- The same, but for database calls that fail without effect. -/
def execFaulty (fails : Call → Bool) (c : Call) (w : World) : c.Reply × World :=
  if c.onDatabase && fails c then (.error .unavailable,w) else c.exec pg w

/-- No call of the handlers writes a policy. -/
theorem exec_policies (c : Call) (w : World) : (c.exec pg w).2.policies=w.policies := by
  cases c <;> simp only [exec] <;> (try split) <;> (try split) <;> rfl

end Exec

end Call

abbrev Handler := Proc Call Call.Reply DbError

/-- A call whose error ends the handler, as `.await?` does. -/
def query (c : Call) : Handler c.Result := .performOrFail c id

/-- A call whose error the handler looks at or ignores. -/
def probe (c : Call) : Handler c.Reply := .perform c

namespace World

variable (pg : Postgres)

/-- The handler runs to its end while nothing else touches the tables. -/
def handle {α : Type} (p : Handler α) (w : World) : World := (p.run (Call.exec pg) w).2

theorem handle_policies {α : Type} (p : Handler α) (w : World) :
    (w.handle pg p).policies=w.policies :=
  Proc.run_invariant (fun w' => w'.policies=w.policies)
    (fun c w' h => (c.exec_policies pg w').trans h) p rfl

/-- The same where some database calls fail. -/
def handleFaulty {α : Type} (fails : Call → Bool) (p : Handler α) (w : World) : World :=
  (p.run (Call.execFaulty pg fails) w).2

/-- The enabled policies as rules. -/
def rules (w : World) : Except DbError (List PolicyRule) :=
  (enabledPolicies pg w.policies).mapM toPolicyRule

theorem run_query_bind {β : Type} (exec : (c : Call) → World → c.Reply × World) (c : Call)
    (f : c.Result → Handler β) (w : World) :
    (query c >>= f).run exec w=
      match exec c w with
      | (.ok a,w') => (f a).run exec w'
      | (.error e,w') => (.error e,w') := by
  rw [query,Proc.run_bind,Proc.run_performOrFail]
  rcases exec c w with ⟨r,w'⟩
  cases r <;> rfl

theorem performed_query_bind {β : Type} (exec : (c : Call) → World → c.Reply × World) (c : Call)
    (f : c.Result → Handler β) (w : World) :
    (query c >>= f).performed exec w=
      c::match exec c w with
        | (.ok a,w') => (f a).performed exec w'
        | (.error _,_) => [] := by
  change c::_=c::_
  rcases exec c w with ⟨r,w'⟩
  cases r <;> rfl

theorem run_probe_bind {β : Type} (exec : (c : Call) → World → c.Reply × World) (c : Call)
    (f : c.Reply → Handler β) (w : World) :
    (probe c >>= f).run exec w=(f (exec c w).1).run exec (exec c w).2 := by
  rw [probe,Proc.run_bind,Proc.run_perform]

end World

/-- `load_rules`: one policy that does not convert is an error for all. -/
def loadRules : Handler (List PolicyRule) := do
  let rows ← query .enabledPolicies
  match rows.mapM toPolicyRule with
  | .ok rules => return rules
  | .error e => .fail e

theorem run_loadRules_bind {β : Type} {pg : Postgres} {fails : Call → Bool}
    (f : List PolicyRule → Handler β) (w : World) :
    (loadRules >>= f).run (Call.execFaulty pg fails) w=
      if fails .enabledPolicies then (.error .unavailable,w)
      else
        match w.rules pg with
        | .ok rules => (f rules).run (Call.execFaulty pg fails) w
        | .error e => (.error e,w) := by
  rw [Proc.run_bind,loadRules,World.run_query_bind,Call.execFaulty]
  by_cases h : fails .enabledPolicies=true
  · simp [h,Call.onDatabase]
  · simp only [h,Call.onDatabase,Call.exec,World.rules]
    cases hr : (enabledPolicies pg w.policies).mapM toPolicyRule <;> simp [hr,pure]

def loadRulesWithId : Handler (List (Uuid × PolicyRule)) := do
  let rows ← query .enabledPolicies
  match rows.mapM fun r => (toPolicyRule r).map fun rule => (r.id,rule) with
  | .ok rules => return rules
  | .error e => .fail e

def findRuleById (id : Uuid) : Handler (Option PolicyRule) := do
  let row ← query (.findPolicy id)
  match row with
  | none => return none
  | some row =>
    match toPolicyRule row with
    | .ok rule => return some rule
    | .error e => .fail e

end NacPlatform
