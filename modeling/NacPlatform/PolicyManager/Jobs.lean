import NacPlatform.Framework.Pool
import NacPlatform.PolicyManager.ArpSync
import NacPlatform.PolicyManager.Reconcile
import NacPlatform.PolicyManager.Run

namespace NacPlatform

/-- What the services take up besides the responses of the portal. -/
inductive Job where
  | detected (event : EndpointDetectedEvent)
  | posture (report : PostureReport)
  | admin (id : Uuid) (action : AdminAction)
  | assignPolicy (id : Uuid) (policyId : Option Uuid)
  | setExempt (id : Uuid) (exempt : Bool)
  | evaluate (defaultAction : Option String)
  | arpSync (arpMap : List (String × String)) (gatewayIps : List String) (now : Int)
      (pending : Background.PendingIp)
  | register (remoteIp : Option String) (req : AgentService.RegisterRequest)
  | reconcile

/-- A handler among the calls of all services; its answer is of no interest here. -/
def detached {α : Type} (p : Handler α) : Background.ReconcileHandler Unit :=
  (p >>= fun _ => pure ()).embed ReconcileCall.call fun _ r => r

def Job.handler (rt : Runtime) : Job → Background.ReconcileHandler Unit
  | detected event => detached (Consumer.processEvent rt event)
  | posture report => detached (PostureHandler.processPosture rt report)
  | admin id action => detached (action.handler id)
  | assignPolicy id policyId => detached (Endpoints.assignPolicy id policyId)
  | setExempt id exempt => detached (Endpoints.setExempt id exempt)
  | evaluate defaultAction => detached (Evaluate.evaluatePolicies rt defaultAction)
  | arpSync arpMap gatewayIps now pending =>
    detached (Background.arpSync rt arpMap gatewayIps now pending)
  | register remoteIp req => detached (AgentService.register remoteIp req)
  | reconcile => Background.reconcile

namespace ReconcileCall

/-- A call where some calls fail. -/
def execFaulty (pg : Postgres) (ipRules : List IpRuleRow) (fails : ReconcileCall → Bool)
    (c : ReconcileCall) (w : World) : c.Reply × World :=
  if fails c then (.error .unavailable,w) else c.exec pg ipRules w

end ReconcileCall

/-! Which calls a handler may come to make. -/

/-- A call that any handler may make: it leaves alone what only one kind of handler writes, the
agent of a device, its policy, its exemption, its user and what was reported of it. -/
def Call.Plain : Call → Prop
  | upsert ep => ep.agentId=none
  | upsertByAgentId _ => False
  | setPolicy .. => False
  | setExempt .. => False
  | setUsername .. => False
  | setCompliance .. => False
  | updatePostureFields .. => False
  | savePosture .. => False
  | transition _ _ username => username=none
  | _ => True

/-- The calls that only such a job makes; a report is stored for a device that its id names. -/
def Job.Writes (rt : Runtime) (named : String → Uuid → Prop) : Job → Call → Prop
  | posture report,.savePosture id r b =>
    named report.deviceId id ∧ r=report ∧ b=PostureHandler.verdict rt report
  | posture report,.setCompliance id b =>
    named report.deviceId id ∧ b=PostureHandler.verdict rt report
  | posture report,.updatePostureFields id f => named report.deviceId id ∧ f=report.fields
  | assignPolicy id policyId,.setPolicy id' policyId' => id'=id ∧ policyId'=policyId
  | setExempt id exempt,.setExempt id' exempt' => id'=id ∧ exempt'=exempt
  | register remoteIp req,.upsertByAgentId ep => ep=AgentService.upsertOf remoteIp req
  | register remoteIp req,.upsert ep => ep=AgentService.upsertOf remoteIp req
  | _,_ => False

/-- The calls that only a response makes which lets its user in. -/
def AuthResponse.Writes (resp : AuthResponse) (c : Call) : Prop :=
  resp.success=true ∧
    match c with
    | .setUsername _ u => u=resp.username.getD ""
    | .transition _ _ username => username=some (resp.username.getD "")
    | _ => False

/-- A device is found by its MAC only where the text names it. -/
def Call.Finds (named : String → Uuid → Prop) : (c : Call) → c.Reply → Prop
  | .findByMac mac,r => ∀ ep, r=.ok (some ep) → named mac ep.id
  | _,_ => True

section Handlers

variable (rt : Runtime) {named : String → Uuid → Prop} {may : Call → Prop}

/-- Every call of the handler is one that it may make. -/
abbrev Handler.Keeps (named : String → Uuid → Prop) (may : Call → Prop) {α : Type}
    (p : Handler α) : Prop := Proc.Only (Call.Finds named) may p

theorem keeps_query_bind {β : Type} {c : Call} {f : c.Result → Handler β} (hc : may c)
    (hf : ∀ a, Handler.Keeps named may (f a)) : Handler.Keeps named may (query c >>= f) :=
  .bind (Proc.only_performOrFail.mpr hc) hf

theorem keeps_probe_bind {β : Type} {c : Call} {f : c.Reply → Handler β} (hc : may c)
    (hf : ∀ a, Handler.Keeps named may (f a)) : Handler.Keeps named may (probe c >>= f) :=
  .bind (Proc.only_perform.mpr hc) hf

theorem keeps_query {c : Call} (hc : may c) : Handler.Keeps named may (query c) :=
  Proc.only_performOrFail.mpr hc

/-- What is found is what the text names. -/
theorem keeps_findByMac_bind {β : Type} {mac : String} {f : Option EndpointRow → Handler β}
    (hc : may (.findByMac mac)) (hnone : Handler.Keeps named may (f none))
    (hf : ∀ ep, named mac ep.id → Handler.Keeps named may (f (some ep))) :
    Handler.Keeps named may (query (.findByMac mac) >>= f) := by
  refine ⟨hc,?_⟩
  intro r hr
  cases r with
  | error e => trivial
  | ok found =>
    cases found with
    | none => exact hnone
    | some ep => exact hf ep (hr ep rfl)

variable (plain : ∀ c, c.Plain → may c)
include plain

theorem keeps_loadRules : Handler.Keeps named may loadRules := by
  refine keeps_query_bind (plain _ trivial) ?_
  intro rows
  cases rows.mapM toPolicyRule <;> trivial

theorem keeps_publish (mac : String) (ip : Option String) (status : Status)
    (decision : PolicyDecision) :
    Handler.Keeps named may (Consumer.publishEnforcementCommand mac ip status decision) := by
  unfold Consumer.publishEnforcementCommand
  cases status.action with
  | none => trivial
  | some action => exact keeps_probe_bind (plain _ trivial) fun _ => trivial

theorem keeps_changeStatus (row : EndpointRow) (newIp : Option String)
    (decision : PolicyDecision) :
    Handler.Keeps named may (Consumer.changeStatus row newIp decision) := by
  refine keeps_query_bind (plain _ trivial) ?_
  intro _
  refine keeps_query_bind (plain _ trivial) ?_
  intro _
  split
  · exact keeps_probe_bind (plain _ trivial) fun _ => keeps_publish plain _ _ _ _
  · exact keeps_publish plain _ _ _ _

theorem keeps_evaluateRow (row : EndpointRow) (newIp : Option String) (ipChanged : Bool) :
    Handler.Keeps named may (Consumer.evaluateRow rt row newIp ipChanged) := by
  apply Proc.Only.bind (keeps_loadRules plain)
  intro rules
  split
  · trivial
  · refine Proc.Only.bind ?_ ?_
    · unfold Consumer.alreadyAuthenticated
      split
      · exact keeps_probe_bind (plain _ trivial) fun _ => trivial
      · trivial
    · intro authenticated
      dsimp only
      split
      · exact keeps_changeStatus plain row newIp _
      · split
        · exact keeps_publish plain _ _ _ _
        · trivial

theorem keeps_processEvent (event : EndpointDetectedEvent) :
    Handler.Keeps named may (Consumer.processEvent rt event) := by
  refine keeps_probe_bind (plain _ trivial) ?_
  intro old
  refine keeps_query_bind (plain _ rfl) ?_
  intro row
  refine keeps_query_bind (plain _ trivial) ?_
  intro _
  split
  · exact keeps_query_bind (plain _ trivial) fun _ => keeps_evaluateRow rt plain row _ _
  · exact keeps_evaluateRow rt plain row _ _

theorem keeps_evaluateEndpoint (endpoint : EndpointRow) (report : PostureReport)
    (isCompliant : Bool) :
    Handler.Keeps named may
      (PostureHandler.evaluateEndpoint rt endpoint report isCompliant) := by
  apply Proc.Only.bind (keeps_loadRules plain)
  intro rules
  split
  · trivial
  · dsimp only
    split
    · refine keeps_query_bind (plain _ trivial) ?_
      intro _
      refine keeps_query_bind (plain _ trivial) ?_
      intro _
      exact keeps_probe_bind (plain _ trivial) fun _ => trivial
    · trivial

theorem keeps_processPosture (report : PostureReport)
    (writes : ∀ c, (Job.posture report).Writes rt named c → may c) :
    Handler.Keeps named may (PostureHandler.processPosture rt report) := by
  apply keeps_findByMac_bind (plain _ trivial)
  · trivial
  · intro endpoint hnamed
    refine keeps_query_bind (writes _ ⟨hnamed,rfl,rfl⟩) ?_
    intro _
    refine keeps_query_bind (writes _ ⟨hnamed,rfl⟩) ?_
    intro _
    refine keeps_query_bind (writes _ ⟨hnamed,rfl⟩) ?_
    intro _
    refine keeps_query_bind (plain _ trivial) ?_
    intro _
    exact keeps_evaluateEndpoint rt plain endpoint report _

theorem keeps_answer (id : Uuid) : Handler.Keeps named may (Endpoints.answer id) := by
  refine keeps_query_bind (plain _ trivial) ?_
  intro updated
  cases updated <;> trivial

theorem keeps_updateStatus (id : Uuid) (status eventType : String) :
    Handler.Keeps named may (Endpoints.updateEndpointStatus id status eventType) := by
  refine keeps_query_bind (plain _ trivial) ?_
  intro found
  cases found with
  | none => trivial
  | some ep =>
    refine keeps_query_bind (plain _ trivial) ?_
    intro _
    refine keeps_query_bind (plain _ trivial) ?_
    intro _
    exact keeps_probe_bind (plain _ trivial) fun _ => keeps_answer plain id

theorem keeps_assignPolicy (id : Uuid) (policyId : Option Uuid)
    (writes : may (.setPolicy id policyId)) :
    Handler.Keeps named may (Endpoints.assignPolicy id policyId) := by
  refine keeps_query_bind (plain _ trivial) ?_
  intro found
  cases found with
  | none => trivial
  | some ep =>
    refine keeps_query_bind writes ?_
    intro _
    exact keeps_query_bind (plain _ trivial) fun _ => keeps_answer plain id

theorem keeps_setExempt (id : Uuid) (exempt : Bool) (writes : may (.setExempt id exempt)) :
    Handler.Keeps named may (Endpoints.setExempt id exempt) := by
  refine keeps_query_bind (plain _ trivial) ?_
  intro found
  cases found with
  | none => trivial
  | some ep =>
    refine keeps_query_bind writes ?_
    intro _
    exact keeps_query_bind (plain _ trivial) fun _ => keeps_answer plain id

theorem keeps_policyStatus (rules : List (Uuid × PolicyRule)) (ep : EndpointRow) :
    Handler.Keeps named may (Evaluate.policyStatus rt rules ep) := by
  unfold Evaluate.policyStatus
  cases ep.assignedPolicyId with
  | none => trivial
  | some pid =>
    dsimp only
    cases rules.find? (·.1==pid) with
    | some entry =>
      obtain ⟨_,rule⟩ := entry
      trivial
    | none =>
      refine Proc.Only.bind (Proc.Only.attempt ?_) ?_
      · refine keeps_query_bind (plain _ trivial) ?_
        intro row
        cases row with
        | none => trivial
        | some row =>
          dsimp only
          cases toPolicyRule row <;> trivial
      · intro found
        trivial

/-- One device after another. -/
theorem keeps_evaluateEach (rules : List (Uuid × PolicyRule)) (defaultAction : Option String)
    (eps : List EndpointRow) (acc : Evaluate.EvaluateResult) :
    Handler.Keeps named may (Evaluate.evaluateEach rt rules defaultAction eps acc) := by
  induction eps generalizing acc with
  | nil => trivial
  | cons ep eps ih =>
    unfold Evaluate.evaluateEach
    split
    · exact ih _
    · apply Proc.Only.bind (keeps_policyStatus rt plain rules ep)
      intro newStatus
      split
      · exact ih _
      · split
        · refine Proc.Only.bind ?_ fun _ => ih _
          refine keeps_query_bind (plain _ trivial) ?_
          intro _
          exact keeps_probe_bind (plain _ trivial) fun _ => trivial
        · exact ih _

theorem keeps_evaluatePolicies (defaultAction : Option String) :
    Handler.Keeps named may (Evaluate.evaluatePolicies rt defaultAction) := by
  refine Proc.Only.bind ?_ ?_
  · refine keeps_query_bind (plain _ trivial) ?_
    intro rows
    split <;> trivial
  · intro rules
    refine keeps_query_bind (plain _ trivial) ?_
    intro endpoints
    exact keeps_evaluateEach rt plain rules defaultAction endpoints _

theorem keeps_arpSync (arpMap : List (String × String)) (gatewayIps : List String) (now : Int)
    (pending : Background.PendingIp) :
    Handler.Keeps named may (Background.arpSync rt arpMap gatewayIps now pending) := by
  refine keeps_query_bind (plain _ trivial) ?_
  intro rows
  apply ((Background.loop_calls gatewayIps _ now arpMap _).mono _).of_anyReply
  intro c given
  obtain ⟨before,entry,rest,-,hcall⟩ := given
  apply plain
  cases c with
  | upsert ep => exact False.elim hcall
  | upsertByAgentId ep => exact False.elim hcall
  | setPolicy id policyId => exact False.elim hcall
  | setExempt id exempt => exact False.elim hcall
  | setUsername id u => exact False.elim hcall
  | setCompliance id b => exact False.elim hcall
  | updatePostureFields id f => exact False.elim hcall
  | savePosture id report b => exact False.elim hcall
  | transition id state u => exact False.elim hcall
  | _ => trivial

omit plain in
theorem keeps_register (remoteIp : Option String) (req : AgentService.RegisterRequest)
    (writes : ∀ c, (Job.register remoteIp req).Writes rt named c → may c) :
    Handler.Keeps named may (AgentService.register remoteIp req) := by
  refine keeps_probe_bind (writes _ rfl) ?_
  intro updated
  split
  · trivial
  · exact keeps_query (writes _ rfl)

omit plain in
theorem keeps_activate (endpoint : EndpointRow) (session : Option SessionRow) (username : String)
    (hname : may (.setUsername endpoint.id username))
    (hsession : ∀ sess : SessionRow, may (.transition sess.id "active" (some username))) :
    Handler.Keeps named may (SessionHandler.activate endpoint session username) := by
  unfold SessionHandler.activate
  cases session with
  | none =>
    dsimp only
    split
    · exact keeps_query_bind hname fun _ => trivial
    · trivial
  | some sess =>
    dsimp only
    split
    · exact keeps_query_bind hname fun _ => keeps_query (hsession sess)
    · exact keeps_query (hsession sess)

theorem keeps_processAuthResponse (resp : AuthResponse)
    (writes : ∀ c, resp.Writes c → may c) :
    Handler.Keeps named may (SessionHandler.processAuthResponse rt resp) := by
  refine Proc.Only.bind ?_ ?_
  · refine Proc.Only.bind ?_ ?_
    · unfold SessionHandler.lookupEndpoint
      split
      · exact keeps_query (plain _ trivial)
      · split
        · exact keeps_query (plain _ trivial)
        · split
          · exact keeps_query (plain _ trivial)
          · trivial
    · intro found
      cases found with
      | some endpoint => trivial
      | none =>
        dsimp only
        split
        · trivial
        · exact keeps_query_bind (plain _ rfl) fun _ => trivial
  · intro resolved
    cases resolved with
    | none => trivial
    | some endpoint =>
      refine Proc.Only.bind ?_ ?_
      · unfold SessionHandler.resolveSession
        split <;> exact keeps_query (plain _ trivial)
      · intro session
        cases hs : resp.success with
        | false =>
          rw [if_pos (by rfl)]
          unfold SessionHandler.authFailed
          cases session with
          | some sess =>
            exact keeps_query_bind (plain _ trivial) fun _ => keeps_query (plain _ trivial)
          | none => exact keeps_query (plain _ trivial)
        | true =>
          rw [if_neg (by decide)]
          refine Proc.Only.bind (keeps_activate endpoint session _
            (writes _ ⟨hs,rfl⟩) fun _ => writes _ ⟨hs,rfl⟩) ?_
          intro _
          refine Proc.Only.bind (keeps_loadRules plain) ?_
          intro rules
          split
          · trivial
          · dsimp only
            split
            · refine keeps_query_bind (plain _ trivial) ?_
              intro _
              exact keeps_probe_bind (plain _ trivial) fun _ => keeps_query (plain _ trivial)
            · exact keeps_probe_bind (plain _ trivial) fun _ => keeps_query (plain _ trivial)

end Handlers

/-! The same among the calls of all services. -/

section Detached

variable {named : String → Uuid → Prop}

/-- The calls on one row, with those on a whole table. -/
def ReconcileCall.May (may : Call → Prop) : ReconcileCall → Prop
  | call c => may c
  | _ => True

def ReconcileCall.Finds (named : String → Uuid → Prop) : (c : ReconcileCall) → c.Reply → Prop
  | call c,r => c.Finds named r
  | _,_ => True

theorem ReconcileCall.May.mono {may may' : Call → Prop} (h : ∀ c, may c → may' c)
    {c : ReconcileCall} (hc : c.May may) : c.May may' := by
  cases c with
  | call c => exact h c hc
  | _ => trivial

/-- The task makes no calls on rows but these. -/
abbrev Task.Keeps (named : String → Uuid → Prop) (may : Call → Prop)
    (p : Background.ReconcileHandler Unit) : Prop :=
  Proc.Only (ReconcileCall.Finds named) (ReconcileCall.May may) p

theorem keeps_detached {may : Call → Prop} {α : Type} {p : Handler α}
    (h : Handler.Keeps named may p) : Task.Keeps named may (detached p) := by
  have hall : Handler.Keeps named may (p >>= fun _ => (pure () : Handler Unit)) :=
    Proc.Only.bind h fun _ => trivial
  have hcalls (c : Call) (hc : may c) : ReconcileCall.May may (.call c) := hc
  have hreplies (c : Call) (r : c.Reply) (hr : ReconcileCall.Finds named (.call c) r) :
      c.Finds named r := hr
  exact Proc.Only.embed hcalls hreplies hall

theorem keeps_forM {may : Call → Prop} {β : Type} {f : β → Background.ReconcileHandler Unit}
    (h : ∀ b, Task.Keeps named may (f b)) (bs : List β) : Task.Keeps named may (bs.forM f) := by
  induction bs with
  | nil => trivial
  | cons b bs ih => exact Proc.Only.bind (h b) fun _ => ih

theorem keeps_reconcile {may : Call → Prop} (plain : ∀ c, c.Plain → may c) :
    Task.Keeps named may Background.reconcile := by
  have hsend (mac ip action : String) : Task.Keeps named may
      (Background.sendEnforcement mac ip action) := ⟨plain _ trivial,fun _ _ => trivial⟩
  refine Proc.Only.bind (Proc.only_perform.mpr trivial) ?_
  intro _
  refine Proc.Only.bind (Proc.only_performOrFail.mpr trivial) ?_
  intro reauth
  refine Proc.Only.bind (keeps_forM ?_ reauth) ?_
  · intro ep
    exact Proc.Only.bind (Proc.only_perform.mpr (plain _ trivial)) fun _ => hsend _ _ _
  · intro _
    refine Proc.Only.bind (Proc.only_performOrFail.mpr trivial) ?_
    intro rows
    refine Proc.Only.bind (keeps_forM (fun ep => hsend _ _ _) rows) ?_
    intro _
    refine Proc.Only.bind (Proc.only_performOrFail.mpr trivial) ?_
    intro ipRules
    exact keeps_forM (fun rule => hsend _ _ _) ipRules

/-- Besides plain calls, a job makes its own only. -/
theorem Job.handler_keeps (rt : Runtime) (job : Job) :
    Task.Keeps named (fun c => c.Plain ∨ job.Writes rt named c) (job.handler rt) := by
  have plain (c : Call) (hc : c.Plain) : c.Plain ∨ job.Writes rt named c := .inl hc
  cases job with
  | detected event => exact keeps_detached (keeps_processEvent rt plain event)
  | posture report =>
    exact keeps_detached (keeps_processPosture rt plain report fun _ hc => .inr hc)
  | admin id action =>
    apply keeps_detached
    cases action <;> exact keeps_updateStatus plain id _ _
  | assignPolicy id policyId =>
    exact keeps_detached (keeps_assignPolicy plain id policyId (.inr ⟨rfl,rfl⟩))
  | setExempt id exempt =>
    exact keeps_detached (keeps_setExempt plain id exempt (.inr ⟨rfl,rfl⟩))
  | evaluate defaultAction => exact keeps_detached (keeps_evaluatePolicies rt plain defaultAction)
  | arpSync arpMap gatewayIps now pending =>
    exact keeps_detached (keeps_arpSync rt plain arpMap gatewayIps now pending)
  | register remoteIp req =>
    exact keeps_detached (keeps_register rt remoteIp req fun _ hc => .inr hc)
  | reconcile => exact keeps_reconcile plain

theorem handler_keeps_response (rt : Runtime) (resp : AuthResponse) :
    Task.Keeps named (fun c => c.Plain ∨ resp.Writes c)
      (detached (SessionHandler.processAuthResponse rt resp)) :=
  keeps_detached
    (keeps_processAuthResponse rt (fun _ hc => .inl hc) resp fun _ hc => .inr hc)

end Detached

end NacPlatform
