import NacPlatform.Framework.Watch
import NacPlatform.PolicyManager.Announced

namespace NacPlatform

/-- The two consumers of policy-manager, each with an event about the same device. -/
inductive Party where
  | detection
  | login
  deriving DecidableEq, Repr

/-- What a handler has read and done so far: the row it is about, the status it has stored and
the command it has published. -/
structure Progress where
  row : Option EndpointRow
  stored : Option Status
  sent : Option EnforcementCommand

namespace Progress

def start : Progress := ⟨none,none,none⟩

def note (g : Progress) : (c : Call) → c.Reply → Progress
  | .upsert _,.ok row => { g with row := some row }
  | .findById _,.ok row => { g with row := row }
  | .findByMac _,.ok row => { g with row := row }
  | .findByHost _,.ok row => { g with row := row }
  | .setStatus _ status,.ok _ => { g with stored := Status.parse status }
  | .publishCommand cmd,_ => { g with sent := some cmd }
  | _,_ => g

/-- The status of the device as the handler has stored it, or else as it has read it. -/
def status (g : Progress) : Option Status := g.row.map fun row => g.stored.getD row.status

/-- A call of the detection that would undo what the login has come to. -/
def undoneBy (login : Progress) : Call → Bool
  | .setStatus _ status => status != "allowed" && login.status==some .allowed
  | .publishCommand cmd => cmd.action != "allow" && login.sent.isSome
  | _ => false

/-- What both handlers keep to: they look the device up first, store a status at most once after
that, and publish at most one command, each about the device they have looked up. -/
def Ordered (g : Progress) : Call → Prop
  | .findById _ | .findByMac _ | .findByHost _ | .upsert _ => g.stored=none ∧ g.sent=none
  | .setStatus id status => g.stored=none ∧ g.sent=none ∧
      ∃ row st, g.row=some row ∧ id=row.id ∧ status=Status.text st
  | .publishCommand cmd => g.sent=none ∧ ∃ row, g.row=some row ∧ cmd.macAddress=row.macAddress.text
  | .findSession _ | .findActiveByEndpoint _ | .createSession _ | .setUsername ..
  | .transition .. | .enabledPolicies | .logAudit .. => True
  | _ => False

end Progress

abbrev Race := Watched Party World Call Call.Reply DbError Progress

namespace Race

/-- A detection and an authentication response are taken up. -/
def start (rt : Runtime) (event : EndpointDetectedEvent) (resp : AuthResponse) (w : World) : Race where
  shared := w
  tasks
    | .detection => Consumer.processEvent rt event
    | .login => SessionHandler.processAuthResponse rt resp
  marks _ := .start

/-- One of the two performs its next database call or publication. -/
def step (pg : Postgres) : Race → Party → Race := Watched.advance (Call.exec pg) Progress.note

/-- It is not the detection's turn to undo the login. -/
def inOrder (s : Race) (i : Party) : Bool :=
  match i,s.tasks i with
  | .detection,.call c _ => !(s.marks .login).undoneBy c
  | _,_ => true

end Race

def Call.LooksUp : Call → Prop
  | .findById _ | .findByMac _ | .findByHost _ | .upsert _ => True
  | _ => False

/-- The status that the call stores for the device. -/
def Call.storedFor (id : Uuid) : Call → Option Status
  | .setStatus i status => if i=id then Status.parse status else none
  | _ => none

def Call.published : Call → List EnforcementCommand
  | .publishCommand cmd => [cmd]
  | _ => []

/-- Whose row it is, and what is decided about it. -/
def standing (r : EndpointRow) : MacAddr × Status := (r.macAddress,r.status)

namespace Progress

/-- What a call of a handler does to its progress. -/
inductive Turn (g : Progress) (c : Call) (g' : Progress) (w' : World) : Prop where
  | quiet (same : g'=g) (stores : ∀ id, c.storedFor id=none) (sends : c.published=[])
  | found (row : Option EndpointRow) (looks : c.LooksUp) (stored : g.stored=none)
      (sent : g.sent=none) (next : g'={ g with row := row })
      (known : ∀ r, row=some r → w'.endpoints.column standing r.id=some (standing r))
      (stores : ∀ id, c.storedFor id=none) (sends : c.published=[])
  | stores (row : EndpointRow) (status : Status) (call : c=.setStatus row.id status.text)
      (found : g.row=some row) (stored : g.stored=none) (sent : g.sent=none)
      (next : g'={ g with stored := some status })
  | sends (row : EndpointRow) (cmd : EnforcementCommand) (call : c=.publishCommand cmd)
      (found : g.row=some row) (names : cmd.macAddress=row.macAddress.text) (sent : g.sent=none)
      (next : g'={ g with sent := some cmd })

variable {g : Progress} {c : Call} {w : World}

theorem Ordered.turn (pg : Postgres) (hc : g.Ordered c) (w : World) :
    Turn g c (g.note c (c.exec pg w).1) (c.exec pg w).2 := by
  cases c with
  | upsert ep =>
    cases hput : w.endpoints.upsert pg ep w.clock with
    | error e => simp only [Call.exec,hput]; exact .quiet rfl (fun _ => rfl) rfl
    | ok result =>
      obtain ⟨row,t⟩ := result
      simp only [Call.exec,hput]
      refine .found (some row) trivial hc.1 hc.2 rfl ?_ (fun _ => rfl) rfl
      intro _ given
      obtain ⟨⟩ := given
      exact EndpointTable.column_eq_some.mpr ⟨row,(EndpointTable.upsert_put hput).self,rfl⟩
  | findByMac mac =>
    simp only [Call.exec]
    split
    · refine .found _ trivial hc.1 hc.2 rfl ?_ (fun _ => rfl) rfl
      intro r hr
      exact EndpointTable.column_eq_some.mpr ⟨r,(EndpointTable.findByMac_eq_some.mp hr).1,rfl⟩
    · exact .quiet rfl (fun _ => rfl) rfl
  | findById id =>
    refine .found _ trivial hc.1 hc.2 rfl ?_ (fun _ => rfl) rfl
    intro r hr
    obtain rfl := EndpointTable.findById_id hr
    exact EndpointTable.column_eq_some.mpr ⟨r,hr,rfl⟩
  | findByHost ip =>
    refine .found _ trivial hc.1 hc.2 rfl ?_ (fun _ => rfl) rfl
    intro r hr
    have hmem := (pg.scan_perm _).mem_iff.mp (List.mem_of_find?_eq_some hr)
    exact EndpointTable.column_eq_some.mpr ⟨r,EndpointTable.findById_eq_some.mpr ⟨hmem,rfl⟩,rfl⟩
  | setStatus id status =>
    obtain ⟨hstored,hsent,row,st,hrow,rfl,rfl⟩ := hc
    refine .stores row st rfl hrow hstored hsent ?_
    simp only [Call.exec,Status.parse_text,note]
  | publishCommand cmd =>
    obtain ⟨hsent,row,hrow,hmac⟩ := hc
    exact .sends row cmd rfl hrow hmac hsent rfl
  | findSession | findActiveByEndpoint | createSession | setUsername | transition
  | enabledPolicies | logAudit => exact .quiet rfl (fun _ => rfl) rfl
  | _ => exact absurd hc id

/-- A device that is stored keeps its hardware address, and its status but for what is stored. -/
theorem Ordered.keeps (pg : Postgres) (hc : g.Ordered c) {id : Uuid} {mac : MacAddr} {st : Status}
    (h : w.endpoints.column standing id=some (mac,st)) :
    (c.exec pg w).2.endpoints.column standing id=
      some (mac,(c.storedFor id).getD st) := by
  cases c with
  | upsert ep =>
    cases hput : w.endpoints.upsert pg ep w.clock with
    | error e =>
      simp only [Call.exec,hput]
      exact h
    | ok result =>
      simp only [Call.exec,hput]
      exact EndpointTable.column_upsert hput (fun _ _ _ _ => rfl) h
  | setStatus i status =>
    obtain ⟨_,_,row,new,_,rfl,rfl⟩ := hc
    obtain ⟨r,hr,hst⟩ := EndpointTable.column_eq_some.mp h
    obtain ⟨rfl,rfl⟩ := Prod.mk.inj hst
    obtain rfl := EndpointTable.findById_id hr
    simp only [Call.exec,Status.parse_text,EndpointTable.column,EndpointTable.findById_setStatus,hr,
      Call.storedFor]
    by_cases hid : r.id=row.id
    · simp [hid,standing]
    · have hid' : ¬row.id=r.id := fun e => hid e.symm
      simp [hid,hid',standing]
  | setUsername i username =>
    exact (congrFun (EndpointTable.column_setUsername fun _ => rfl) id).trans h
  | findByMac mac =>
    simp only [Call.exec]
    split <;> exact h
  | transition i state username =>
    simp only [Call.exec]
    split
    · exact h
    · split <;> exact h
  | findById | findByHost | findSession | findActiveByEndpoint | createSession | enabledPolicies
  | logAudit | publishCommand => exact h
  | _ => cases hc

end Progress

namespace Call

variable {pg : Postgres}

theorem exec_commands (c : Call) (w : World) :
    (c.exec pg w).2.commands=w.commands++c.published := by
  cases c <;> simp only [exec,published,List.append_nil] <;> (try split) <;> (try split) <;> rfl

/-- The answers of a database that holds these policies. -/
def Answers (pg : Postgres) (policies : List PolicyRow) (c : Call) (r : c.Reply) : Prop :=
  ∃ w, w.policies=policies ∧ (c.exec pg w).1=r

end Call

namespace Race

/-- What the detection keeps to: the device it is about has the hardware address. -/
def DetectionRule (mac : MacAddr) (g : Progress) (c : Call) : Prop :=
  g.Ordered c ∧ ∀ row, g.row=some row → row.macAddress=mac

/-- What the login keeps to, where `verdict` is its decision on the device as it has read it. -/
def LoginRule (verdict : EndpointRow → Status) (g : Progress) (c : Call) : Prop :=
  g.Ordered c ∧
  match c with
  | .findById _ | .findByMac _ | .findByHost _ | .upsert _ => g.row=none
  | .setStatus _ status =>
    ∀ row, g.row=some row → row.status≠verdict row ∧ status=(verdict row).text
  | .publishCommand cmd =>
    ∀ row, g.row=some row → (verdict row).action=some cmd.action ∧
      g.stored.getD row.status=verdict row
  | _ => True

/-- A login that has found its device ends with its decision stored and published. -/
def Concluded (verdict : EndpointRow → Status) (g : Progress) : Prop :=
  ∀ row, g.row=some row → g.stored.getD row.status=verdict row ∧
    ∃ cmd, g.sent=some cmd ∧ cmd.macAddress=row.macAddress.text ∧
      (verdict row).action=some cmd.action

def may (mac : MacAddr) (verdict : EndpointRow → Status) : Party → Progress → Call → Prop
  | .detection => DetectionRule mac
  | .login => LoginRule verdict

def post (verdict : EndpointRow → Status) : Party → Progress → Prop
  | .detection,_ => True
  | .login,g => Concluded verdict g

section Discipline

variable {pg : Postgres} {rt : Runtime} {policies : List PolicyRow} {α β : Type}
  {may : Progress → Call → Prop} {post : Progress → Except DbError β → Prop} {g : Progress}

abbrev Follows (pg : Postgres) (policies : List PolicyRow) (may : Progress → Call → Prop)
    (post : Progress → Except DbError α → Prop) (g : Progress) (p : Handler α) : Prop :=
  p.Follows (Call.Answers pg policies) Progress.note may post g

theorem follows_query_bind {c : Call} {f : c.Result → Handler β} (hc : may g c)
    (hok : ∀ a, Call.Answers pg policies c (.ok a) →
      Follows pg policies may post (g.note c (.ok a)) (f a))
    (herror : ∀ e, Call.Answers pg policies c (.error e) →
      post (g.note c (.error e)) (.error e)) :
    Follows pg policies may post g (query c >>= f) := by
  refine Proc.follows_performOrFail_bind hc fun r hr => ?_
  cases r with
  | ok a => exact hok a hr
  | error e => exact herror e hr

theorem follows_query {c : Call} {post : Progress → Except DbError c.Result → Prop}
    (hc : may g c) (hpost : ∀ r, Call.Answers pg policies c r → post (g.note c r) r) :
    Follows pg policies may post g (query c) := by
  refine ⟨hc,fun r hr => ?_⟩
  cases r with
  | ok a => exact hpost _ hr
  | error e => exact hpost _ hr

/-- A call that always succeeds and is not noted. -/
theorem follows_quiet_bind {c : Call} {f : c.Result → Handler β} (hc : may g c)
    (hsucceeds : ∀ w, ∃ a, (c.exec pg w).1=.ok a) (hnote : ∀ r, g.note c r=g)
    (hnext : ∀ a, Follows pg policies may post g (f a)) :
    Follows pg policies may post g (query c >>= f) := by
  refine follows_query_bind hc (fun a _ => ?_) fun e he => ?_
  · rw [hnote]
    exact hnext a
  · obtain ⟨w,_,hw⟩ := he
    obtain ⟨a,ha⟩ := hsucceeds w
    rw [ha] at hw
    cases hw

theorem follows_logAudit_bind {eventType actor : String} {id : Option Uuid}
    {f : Unit → Handler β} (hc : may g (.logAudit eventType id actor))
    (hnext : Follows pg policies may post g (f ())) :
    Follows pg policies may post g (query (.logAudit eventType id actor) >>= f) := by
  refine follows_quiet_bind hc (fun w => ⟨(),rfl⟩) (fun r => ?_) fun _ => hnext
  cases r <;> rfl

theorem follows_loadRules_bind {f : List PolicyRule → Handler β} {w : World}
    (hc : may g .enabledPolicies)
    (hok : ∀ rules, w.rules pg=.ok rules → Follows pg w.policies may post g (f rules))
    (herror : ∀ e, w.rules pg=.error e → post g (.error e)) :
    Follows pg w.policies may post g (loadRules >>= f) := by
  refine .bind (follows_query_bind hc (fun rows hrows => ?_) fun e he => ?_)
  · obtain ⟨w',hw',hrows⟩ := hrows
    obtain rfl : enabledPolicies pg w'.policies=rows := Except.ok.inj hrows
    rw [hw']
    cases hrules : (enabledPolicies pg w.policies).mapM toPolicyRule with
    | ok rules => exact hok rules hrules
    | error e => exact herror e hrules
  · obtain ⟨w',_,hw⟩ := he
    cases hw

end Discipline

section Login

variable {pg : Postgres} {rt : Runtime} {resp : AuthResponse} {policies : List PolicyRow}
  {verdict : EndpointRow → Status}

/-- The device has been looked up, and nothing is done yet. -/
def LookedUp (g : Progress) : Except DbError (Option EndpointRow) → Prop
  | .ok found => g=⟨found,none,none⟩
  | .error _ => g=.start

theorem lookupEndpoint_follows : Follows pg policies (LoginRule verdict) LookedUp .start
    (SessionHandler.lookupEndpoint resp) := by
  have noted (c : Call) (hc : LoginRule verdict .start c)
      (post : Progress → Except DbError c.Result → Prop)
      (hpost : ∀ r, post (Progress.start.note c r) r) :
      Follows pg policies (LoginRule verdict) post .start (query c) :=
    follows_query hc fun r _ => hpost r
  unfold SessionHandler.lookupEndpoint
  split
  · refine noted (.findById _) ⟨⟨rfl,rfl⟩,rfl⟩ _ fun r => ?_
    cases r <;> rfl
  · split
    · refine noted (.findByMac _) ⟨⟨rfl,rfl⟩,rfl⟩ _ fun r => ?_
      cases r <;> rfl
    · split
      · refine noted (.findByHost _) ⟨⟨rfl,rfl⟩,rfl⟩ _ fun r => ?_
        cases r <;> rfl
      · exact rfl

theorem resolveEndpoint_follows : Follows pg policies (LoginRule verdict) LookedUp .start
    (SessionHandler.resolveEndpoint resp) := by
  refine .bind (lookupEndpoint_follows.mono fun g r hg => ?_)
  cases r with
  | error e => exact hg
  | ok found =>
    obtain rfl : g=⟨found,none,none⟩ := hg
    cases found with
    | some endpoint => exact rfl
    | none =>
      change Follows pg policies _ _ _ (ite _ _ _)
      split
      · exact rfl
      · refine follows_query_bind ⟨⟨rfl,rfl⟩,rfl⟩ (fun row _ => ?_) fun e _ => ?_
        · exact rfl
        · exact rfl

/-- The end of a login, from where its decision is stored. -/
theorem announce_follows {g : Progress} {endpoint : EndpointRow} {decision : PolicyDecision}
    (hrow : g.row=some endpoint) (hsent : g.sent=none)
    (hverdict : verdict endpoint=decisionToStatus decision)
    (hstored : g.stored.getD endpoint.status=verdict endpoint) :
    Follows pg policies (LoginRule verdict) (fun g _ => Concluded verdict g) g (do
      let _ ← probe (.publishCommand (SessionHandler.commandFor endpoint.macAddress.text
        endpoint.ipAddress (verdict endpoint) decision))
      query (.logAudit "auth_success" (some endpoint.id) "aaa/captive_portal")) := by
  have hcmd : (verdict endpoint).action=some (SessionHandler.commandFor endpoint.macAddress.text
      endpoint.ipAddress (verdict endpoint) decision).action := by
    rw [hverdict]
    cases decision <;> rfl
  have hrule : LoginRule verdict g (.publishCommand (SessionHandler.commandFor
      endpoint.macAddress.text endpoint.ipAddress (verdict endpoint) decision)) := by
    refine ⟨⟨hsent,endpoint,hrow,rfl⟩,fun row hrow' => ?_⟩
    obtain rfl := Option.some.inj (hrow.symm.trans hrow')
    exact ⟨hcmd,hstored⟩
  refine Proc.follows_perform_bind hrule fun _ _ => follows_query ⟨trivial,trivial⟩ fun _ _ => ?_
  intro row hrow'
  obtain rfl := Option.some.inj (hrow.symm.trans hrow')
  exact ⟨hstored,_,rfl,rfl,hcmd⟩

theorem reevaluate_follows {w : World} {rules : List PolicyRule} {endpoint : EndpointRow}
    {username : String} {groups : List String} (hrules : w.rules pg=.ok rules) (hne : rules≠[])
    (hverdict : verdict endpoint=decisionToStatus (evaluate rt rules
      (SessionHandler.context endpoint username groups))) :
    Follows pg w.policies (LoginRule verdict) (fun g _ => Concluded verdict g)
      ⟨some endpoint,none,none⟩ (SessionHandler.reevaluate rt endpoint username groups) := by
  have hfilled : rules.isEmpty=false := by simpa using hne
  refine follows_loadRules_bind ⟨trivial,trivial⟩ (fun rules' hrules' => ?_) fun e he => ?_
  · rw [hrules] at hrules'
    obtain rfl := Except.ok.inj hrules'
    simp only [hfilled,Bool.false_eq_true,if_false]
    rw [← hverdict]
    by_cases hchanged : endpoint.status=verdict endpoint
    · simp only [hchanged,bne_self_eq_false,Bool.false_eq_true,if_false]
      exact announce_follows rfl rfl hverdict hchanged
    · have hne' : (endpoint.status != verdict endpoint)=true := by simpa using hchanged
      simp only [hne',if_true]
      have hrule : LoginRule verdict ⟨some endpoint,none,none⟩
          (.setStatus endpoint.id (verdict endpoint).text) := by
        refine ⟨⟨rfl,rfl,endpoint,_,rfl,rfl,rfl⟩,fun row hrow => ?_⟩
        obtain rfl := Option.some.inj hrow
        exact ⟨hchanged,rfl⟩
      refine follows_query_bind hrule (fun _ _ => ?_) fun e he => ?_
      · refine announce_follows rfl rfl hverdict ?_
        simp [Progress.note,Status.parse_text]
      · obtain ⟨w',_,hw⟩ := he
        simp [Call.exec,Status.parse_text] at hw
  · rw [hrules] at he
    cases he

theorem activate_follows {g : Progress} {post : Progress → Except DbError Unit → Prop}
    {endpoint : EndpointRow} {session : Option SessionRow} {username : String}
    (hpost : post g (.ok ())) : Follows pg policies (LoginRule verdict) post g
      (SessionHandler.activate endpoint session username) := by
  have parsed : SessionState.parse "active"=some .active := by decide
  have named {f : Unit → Handler Unit}
      (hnext : Follows pg policies (LoginRule verdict) post g (f ())) :
      Follows pg policies (LoginRule verdict) post g
        (query (.setUsername endpoint.id username) >>= f) := by
    refine follows_quiet_bind ⟨trivial,trivial⟩ (fun w => ⟨(),rfl⟩) (fun r => ?_) fun _ => hnext
    cases r <;> rfl
  cases session with
  | none =>
    change Follows pg policies _ _ _ (ite _ _ _)
    split
    · exact named hpost
    · exact hpost
  | some sess =>
    have activated : Follows pg policies (LoginRule verdict) post g
        (query (.transition sess.id "active" (some username))) := by
      refine follows_query ⟨trivial,trivial⟩ fun r hr => ?_
      obtain ⟨w,_,rfl⟩ := hr
      simp only [Call.exec,parsed]
      exact hpost
    change Follows pg policies _ _ _ (ite _ _ _)
    split
    · exact named activated
    · exact activated

theorem processAuthResponse_follows {w : World} {rules : List PolicyRule}
    (hsuccess : resp.success=true) (hrules : w.rules pg=.ok rules) (hne : rules≠[])
    (hverdict : ∀ row, verdict row=decisionToStatus (evaluate rt rules
      (SessionHandler.context row (resp.username.getD "") resp.groups))) :
    Follows pg w.policies (LoginRule verdict) (fun g _ => Concluded verdict g) .start
      (SessionHandler.processAuthResponse rt resp) := by
  have unfound : Concluded verdict .start := by
    intro row hrow
    cases hrow
  refine .bind (resolveEndpoint_follows.mono fun g r hg => ?_)
  cases r with
  | error e =>
    obtain rfl : g=.start := hg
    exact unfound
  | ok found =>
    obtain rfl : g=⟨found,none,none⟩ := hg
    cases found with
    | none => exact unfound
    | some endpoint =>
      have hrest (session : Option SessionRow) : Follows pg w.policies (LoginRule verdict)
          (fun g _ => Concluded verdict g) ⟨some endpoint,none,none⟩
          (SessionHandler.activate endpoint session (resp.username.getD "") >>= fun _ =>
            SessionHandler.reevaluate rt endpoint (resp.username.getD "") resp.groups) :=
        .bind (activate_follows (reevaluate_follows hrules hne (hverdict endpoint)))
      change Follows pg w.policies _ _ _
        (SessionHandler.resolveSession resp endpoint >>= fun session => _)
      simp only [hsuccess,Bool.not_true,Bool.false_eq_true,if_false]
      unfold SessionHandler.resolveSession
      split
      · refine follows_quiet_bind ⟨trivial,trivial⟩ (fun w => ⟨_,rfl⟩) (fun r => ?_) hrest
        cases r <;> rfl
      · refine follows_quiet_bind ⟨trivial,trivial⟩ (fun w => ⟨_,rfl⟩) (fun r => ?_) hrest
        cases r <;> rfl

end Login

section Detection

variable {pg : Postgres} {rt : Runtime} {event : EndpointDetectedEvent} {mac : MacAddr}
  {policies : List PolicyRow} {row : EndpointRow} {g : Progress}

theorem detectionRule {c : Call} (hc : g.Ordered c) (hrow : g.row=some row)
    (hmac : row.macAddress=mac) : DetectionRule mac g c := by
  refine ⟨hc,fun r hr => ?_⟩
  obtain rfl := Option.some.inj (hrow.symm.trans hr)
  exact hmac

theorem publishEnforcementCommand_follows {ip : Option String} {status : Status}
    {decision : PolicyDecision} (hrow : g.row=some row) (hmac : row.macAddress=mac)
    (hsent : g.sent=none) : Follows pg policies (DetectionRule mac) (fun _ _ => True) g
      (Consumer.publishEnforcementCommand row.macAddress.text ip status decision) := by
  unfold Consumer.publishEnforcementCommand
  split
  · trivial
  · exact Proc.follows_perform_bind (detectionRule ⟨hsent,row,hrow,rfl⟩ hrow hmac)
      fun _ _ => trivial

theorem changeStatus_follows {ip : Option String} {decision : PolicyDecision}
    (hmac : row.macAddress=mac) : Follows pg policies (DetectionRule mac) (fun _ _ => True)
      ⟨some row,none,none⟩ (Consumer.changeStatus row ip decision) := by
  have stores : DetectionRule mac ⟨some row,none,none⟩
      (.setStatus row.id (decisionToStatus decision).text) :=
    detectionRule ⟨rfl,rfl,row,_,rfl,rfl,rfl⟩ rfl hmac
  refine follows_query_bind stores (fun _ _ => ?_) fun _ _ => trivial
  refine follows_logAudit_bind (detectionRule trivial rfl hmac) ?_
  change Follows pg policies _ _ _ (ite _ _ _)
  split
  · refine Proc.follows_perform_bind (detectionRule trivial rfl hmac) fun r hr => ?_
    obtain ⟨w,_,rfl⟩ := hr
    exact publishEnforcementCommand_follows rfl hmac rfl
  · exact publishEnforcementCommand_follows rfl hmac rfl

theorem evaluateRow_follows {w : World} {ip : Option String} {moved : Bool}
    (hmac : row.macAddress=mac) : Follows pg w.policies (DetectionRule mac) (fun _ _ => True)
      ⟨some row,none,none⟩ (Consumer.evaluateRow rt row ip moved) := by
  refine follows_loadRules_bind (detectionRule trivial rfl hmac) (fun rules _ => ?_)
    fun _ _ => trivial
  have decided (authenticated : Bool) : Follows pg w.policies (DetectionRule mac) (fun _ _ => True)
      ⟨some row,none,none⟩
      (if !authenticated && row.status != decisionToStatus (evaluate rt rules (Consumer.context row))
        then Consumer.changeStatus row ip (evaluate rt rules (Consumer.context row))
        else if moved && row.status.enforced then
          Consumer.publishEnforcementCommand row.macAddress.text ip row.status
            (evaluate rt rules (Consumer.context row))
        else pure ()) := by
    split
    · exact changeStatus_follows hmac
    · split
      · exact publishEnforcementCommand_follows rfl hmac rfl
      · trivial
  change Follows pg w.policies _ _ _ (ite _ _ _)
  split
  · trivial
  · unfold Consumer.alreadyAuthenticated
    split
    · refine Proc.follows_perform_bind (detectionRule trivial rfl hmac) fun r hr => ?_
      cases r <;> exact decided _
    · exact decided false

theorem recordDetection_follows {w : World} {oldIp : Option String} (hmac : row.macAddress=mac) :
    Follows pg w.policies (DetectionRule mac) (fun _ _ => True) ⟨some row,none,none⟩
      (Consumer.recordDetection rt event oldIp row) := by
  refine follows_logAudit_bind (detectionRule trivial rfl hmac) ?_
  change Follows pg w.policies _ _ _ (ite _ _ _)
  split
  · exact follows_logAudit_bind (detectionRule trivial rfl hmac) (evaluateRow_follows hmac)
  · exact evaluateRow_follows hmac

theorem processEvent_follows {w : World} (hmac : pg.macaddr event.macAddress=some mac) :
    Follows pg w.policies (DetectionRule mac) (fun _ _ => True) .start
      (Consumer.processEvent rt event) := by
  refine Proc.follows_perform_bind ⟨⟨rfl,rfl⟩,fun r hr => by cases hr⟩ fun old hold => ?_
  have hnoted : ∃ found, Progress.start.note (.findByMac event.macAddress) old=⟨found,none,none⟩ ∧
      ∀ r, found=some r → r.macAddress=mac := by
    obtain ⟨w',_,rfl⟩ := hold
    simp only [Call.exec,hmac]
    exact ⟨_,rfl,fun r hr => (EndpointTable.findByMac_eq_some.mp hr).2⟩
  obtain ⟨found,hnote,hfound⟩ := hnoted
  rw [hnote]
  refine follows_query_bind ⟨⟨rfl,rfl⟩,hfound⟩ (fun row hrow => ?_) fun _ _ => trivial
  refine recordDetection_follows ?_
  obtain ⟨w',_,hexec⟩ := hrow
  simp only [Call.exec] at hexec
  cases hput : w'.endpoints.upsert pg (Consumer.upsertOf event) w'.clock with
  | error e =>
    rw [hput] at hexec
    cases hexec
  | ok result =>
    obtain ⟨row',t⟩ := result
    rw [hput] at hexec
    obtain rfl := Except.ok.inj hexec
    have hnamed : pg.macaddr event.macAddress=some row'.macAddress :=
      EndpointTable.upsert_mac hput
    rw [hmac] at hnamed
    exact (Option.some.inj hnamed).symm

end Detection

end Race

end NacPlatform
