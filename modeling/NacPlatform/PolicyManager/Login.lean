import NacPlatform.PolicyManager.Standing

namespace NacPlatform

/-- A context that detections can make of another one: they report any name, system, type and
address, and take none back. -/
structure Redetected (pg : Postgres) (ctx ctx' : PolicyContext) : Prop where
  macAddress : ctx'.macAddress=ctx.macAddress
  ipAddress : ctx'.ipAddress=ctx.ipAddress ∨
    ∃ s shown, s.isEmpty=false ∧ pg.inet s=some shown ∧ ctx'.ipAddress=some shown
  hostname : ctx'.hostname=ctx.hostname ∨ ctx'.hostname.isSome=true
  osFamily : ctx'.osFamily=ctx.osFamily ∨ ctx'.osFamily.isSome=true
  deviceType : ctx'.deviceType=ctx.deviceType ∨ ctx'.deviceType.isSome=true
  username : ctx'.username=ctx.username
  groups : ctx'.groups=ctx.groups
  isCompliant : ctx'.isCompliant=ctx.isCompliant
  switchPort : ctx'.switchPort=ctx.switchPort

section Login

variable {pg : Postgres} {rt : Runtime} {w : World}

theorem or_redetected {α : Type} {a b c : Option α} (h : b=c ∨ b.isSome=true) :
    a.or b=c ∨ (a.or b).isSome=true := by
  cases a with
  | none => exact h
  | some x => exact .inr rfl

theorem Redetected.merged {ctx : PolicyContext} {event : EndpointDetectedEvent} {r : EndpointRow}
    {mac : MacAddr} {ip : Option String} (h : Redetected pg ctx (Consumer.context r))
    (hcast : EndpointTable.cast pg (Consumer.upsertOf event)=.ok (mac,ip)) (now : Timestamp) :
    Redetected pg ctx
      (Consumer.context (EndpointTable.mergedRow ip (Consumer.upsertOf event) now r)) where
  macAddress := h.macAddress
  ipAddress := by
    change ip.or r.ipAddress=_ ∨ ∃ s shown, _ ∧ _ ∧ ip.or r.ipAddress=some shown
    rcases (EndpointTable.cast_ok hcast).2 with ⟨_,rfl⟩ | ⟨s,shown,hs,hshown,rfl⟩
    · exact h.ipAddress
    · obtain ⟨hne,rfl⟩ : event.ipAddress.isEmpty=false ∧ event.ipAddress=s := by
        simpa [Consumer.upsertOf] using hs
      exact .inr ⟨_,shown,hne,hshown,rfl⟩
  hostname := or_redetected h.hostname
  osFamily := or_redetected h.osFamily
  deviceType := or_redetected h.deviceType
  username := h.username
  groups := h.groups
  isCompliant := h.isCompliant
  switchPort := h.switchPort

/-- The event that reports what the context says. -/
def reporting (mac : MacAddr) (ip : String) (ctx : PolicyContext) : EndpointDetectedEvent :=
  ⟨mac.text,ip,"","dhcp",0,ctx.hostname,ctx.osFamily,none,ctx.deviceType,none⟩

/-- Each such context is what one event makes of the row. -/
theorem Redetected.event {r : EndpointRow} {ctx : PolicyContext}
    (hr : w.endpoints.findById r.id=some r) (h : Redetected pg (Consumer.context r) ctx) :
    ∃ event row t, w.endpoints.upsert pg (Consumer.upsertOf event) w.clock=.ok (row,t) ∧
      row.id=r.id ∧ Consumer.context row=ctx := by
  have or_same {a b : Option String} (hab : a=b ∨ a.isSome=true) : a.or b=a := by
    rcases hab with rfl | hsome
    · cases a <;> rfl
    · cases a with
      | none => cases hsome
      | some x => rfl
  obtain ⟨ip,shown,hcast,hip⟩ : ∃ ip shown, EndpointTable.cast pg
      (Consumer.upsertOf (reporting r.macAddress ip ctx))=.ok (r.macAddress,shown) ∧
        shown.or r.ipAddress=ctx.ipAddress := by
    unfold EndpointTable.cast
    rcases h.ipAddress with hsame | ⟨s,shown,hne,hshown,hnew⟩
    · refine ⟨"",none,?_,hsame.symm⟩
      simp [Consumer.upsertOf,reporting,pg.macaddr_text,bind,Except.bind,pure,Except.pure]
    · refine ⟨s,some shown,?_,hnew.symm⟩
      simp [Consumer.upsertOf,reporting,pg.macaddr_text,hne,hshown,bind,Except.bind,pure,
        Except.pure]
  obtain ⟨t,hput⟩ := EndpointTable.upsert_known w.clock hr hcast rfl
  refine ⟨_,_,t,hput,rfl,?_⟩
  have hctx : ctx=⟨r.macAddress.text,ctx.ipAddress,ctx.hostname,ctx.osFamily,ctx.deviceType,
      r.username,[],none,r.switchPort⟩ := by
    rw [PolicyContext.mk.injEq]
    exact ⟨h.macAddress,rfl,rfl,rfl,rfl,h.username,h.groups,h.isCompliant,h.switchPort⟩
  rw [hctx]
  have hhostname : ctx.hostname.or r.hostname=ctx.hostname := or_same h.hostname
  have hosFamily : ctx.osFamily.or r.osFamily=ctx.osFamily := or_same h.osFamily
  have hdeviceType : ctx.deviceType.or r.deviceType=ctx.deviceType := or_same h.deviceType
  simp only [Consumer.context,EndpointTable.mergedRow,Consumer.upsertOf,reporting,hip,hhostname,
    hosFamily,hdeviceType]

namespace SessionHandler

/-- A successful response for a device it finds, under policies. -/
theorem processAuthResponse_decided (rt : Runtime) {resp : AuthResponse} {row : EndpointRow}
    {w₁ : World} {rules : List PolicyRule} (hres : Resolved pg resp w row w₁) (hsuccess : resp.success=true)
    (hloaded : w.rules pg=.ok rules) (hne : rules≠[]) :
    Effect w₁ (w.handle pg (processAuthResponse rt resp))
      ((named w₁ row (resp.username.getD "")).setStatus row.id (decisionToStatus
        (evaluate rt rules (context row (resp.username.getD "") resp.groups))))
      (activated w₁ (sessionOf pg resp w₁ row) (resp.username.getD ""))
      [commandFor row.macAddress.text row.ipAddress
        (decisionToStatus (evaluate rt rules (context row (resp.username.getD "") resp.groups)))
        (evaluate rt rules (context row (resp.username.getD "") resp.groups))] := by
  have hout := processAuthResponse_outcome pg rt resp w
  generalize w.handle pg (processAuthResponse rt resp)=w' at hout ⊢
  cases hout with
  | unresolved hno => exact absurd hres (hno row w₁)
  | failed _ hfail _ _ _ =>
    rw [hsuccess] at hfail
    cases hfail
  | unevaluated _ _ hno _ => exact absurd (hno rules hloaded) hne
  | decided hres' _ hloaded' _ heff =>
    obtain ⟨rfl,rfl⟩ := hres.unique hres'
    rw [hloaded] at hloaded'
    obtain rfl := Except.ok.inj hloaded'
    exact heff

/-- The latest open session once the one a login is about is active. -/
theorem findActive_activated {session : Option SessionRow} {username : String} {e : Uuid}
    {w : World} (hn : w.sessions.Distinct) :
    ((activated w session username).findActiveByEndpoint pg e).map (fun s => s.state==.active)=
      (w.sessions.findActiveByEndpoint pg e).map fun s =>
        s.state==.active || (session.map (·.id))==some s.id := by
  cases session with
  | none => simp [activated]
  | some sess =>
    change ((w.sessions.transition sess.id .active (some username) w.clock).findActiveByEndpoint
      pg e).map _=_
    rw [SessionTable.findActiveByEndpoint_transition hn,Option.map_map]
    congr 1
    funext s
    by_cases hid : s.id=sess.id
    · simp [hid]
    · have hid' : ¬sess.id=s.id := fun e => hid e.symm
      simp [hid,hid']

end SessionHandler

/-- In a reachable state, a login that the policies allow stands against every sequence of events
exactly when an open session is active afterwards, or the policies allow the device of that user
in every guise. -/
theorem login_persists_iff {policies : List PolicyRow} {steps : List Step} {resp : AuthResponse}
    {row : EndpointRow} {w₁ : World} {rules : List PolicyRule}
    (hw : w=(runs (Platform.step pg rt) (Platform.initial policies) steps).world)
    (hres : SessionHandler.Resolved pg resp w row w₁) (hsuccess : resp.success=true)
    (huser : (resp.username.getD "").isEmpty=false) (hloaded : w.rules pg=.ok rules)
    (hne : rules≠[])
    (hallowed : decisionToStatus (evaluate rt rules (SessionHandler.context row
      (resp.username.getD "") resp.groups))=.allowed) :
    (∀ events, (runs (redetect pg rt) (w.handle pg (SessionHandler.processAuthResponse rt resp))
        events).endpoints.statusOf row.id=.allowed) ↔
      (∃ s, w.sessions.findActiveByEndpoint pg row.id=some s ∧
        (s.state=.active ∨ ∃ s', SessionHandler.sessionOf pg resp w₁ row=some s' ∧ s'.id=s.id)) ∨
      ∀ ctx, Redetected pg
          (Consumer.context { row with username := some (resp.username.getD "") }) ctx →
        decisionToStatus (evaluate rt rules ctx)=.allowed := by
  have hw₁ := hres.same
  have htimed : w.Timed := by
    rw [hw]
    exact Platform.reachable_timed policies steps
  have htimed' : (w.handle pg (SessionHandler.processAuthResponse rt resp)).Timed := htimed.run _
  have heff := SessionHandler.processAuthResponse_decided rt hres hsuccess hloaded hne
  have hpolicies := World.handle_policies pg (SessionHandler.processAuthResponse rt resp) w
  have hrow : (w.handle pg (SessionHandler.processAuthResponse rt resp)).endpoints.findById row.id=
      some { row with username := some (resp.username.getD ""), status := .allowed } := by
    rw [heff.endpoints,hallowed,EndpointTable.findById_setStatus,SessionHandler.named,huser]
    simp [EndpointTable.findById_setUsername,hres.stored]
  have hsession : ((w.handle pg (SessionHandler.processAuthResponse rt resp)).sessions
      |>.findActiveByEndpoint pg row.id).map (fun s => s.state==.active)=
      (w.sessions.findActiveByEndpoint pg row.id).map fun s => s.state==.active ||
        ((SessionHandler.sessionOf pg resp w₁ row).map (·.id))==some s.id := by
    rw [heff.sessions,← hw₁.1]
    exact SessionHandler.findActive_activated (hw₁.1 ▸ htimed.distinct)
  generalize w.handle pg (SessionHandler.processAuthResponse rt resp)=w' at *
  let r : EndpointRow :=
    { row with username := some (resp.username.getD ""), status := .allowed }
  have hactive : ((w'.sessions.findActiveByEndpoint pg row.id).map fun s => s.state==.active).getD
      false=true ↔ ∃ s, w.sessions.findActiveByEndpoint pg row.id=some s ∧ (s.state=.active ∨
        ∃ s', SessionHandler.sessionOf pg resp w₁ row=some s' ∧ s'.id=s.id) := by
    rw [hsession]
    cases w.sessions.findActiveByEndpoint pg row.id with
    | none => simp
    | some s => simp
  rw [← hactive]
  constructor
  · intro h
    by_cases hin : ((w'.sessions.findActiveByEndpoint pg row.id).map fun s =>
        s.state==.active).getD false=true
    · exact .inl hin
    refine .inr fun ctx hctx => ?_
    have hr : w'.endpoints.findById r.id=some r := hrow
    have hguise : Redetected pg (Consumer.context r) ctx := hctx
    obtain ⟨event,row',t,hput,hid,hctx'⟩ := hguise.event hr
    have hopen : Consumer.loggedIn pg w' row'=false := by
      rw [Consumer.loggedIn,hid,Bool.eq_false_iff.mpr hin,Bool.and_false]
    have hst := redetect_refuted rt hput ((rules_congr hpolicies).trans hloaded) hne hopen
    have hkept := h [event]
    rw [runs_cons,runs_nil,← hid,hst,hctx'] at hkept
    exact hkept
  · intro hreason events
    have hstart : Stands pg row.id (Redetected pg (Consumer.context r)) .allowed
        (w'.sessions.findActiveByEndpoint pg row.id) w.policies w' :=
      ⟨⟨r,hrow,⟨rfl,.inl rfl,.inl rfl,.inl rfl,.inl rfl,rfl,rfl,rfl,rfl⟩,rfl⟩,rfl,hpolicies,htimed'⟩
    have hany : Guarded (redetect pg rt) (fun _ _ => True) w' events :=
      guarded_of_forall fun _ _ => trivial
    refine hstart.run ?_ ?_ hany
    · intro w'' event _ r' ip _ hctx hcast
      exact hctx.merged hcast _
    · intro w'' hw''
      rcases hreason with hin | hallows
      · refine .inl ⟨rfl,?_,?_⟩
        · intro ctx hctx
          rw [hctx.username]
          rfl
        · cases hs : w'.sessions.findActiveByEndpoint pg row.id with
          | none => simp [hs] at hin
          | some s => exact ⟨s,rfl,by simpa [hs] using hin⟩
      · refine .inr fun rules' hloaded' _ ctx hctx => ?_
        rw [rules_congr hw'',hloaded] at hloaded'
        obtain rfl := Except.ok.inj hloaded'
        exact hallows ctx hctx

end Login

/-- The users of a group are allowed. -/
def staffPolicy : PolicyRow where
  id := 2
  name := "staff"
  priority := 10
  conditions := .array [.object [("type",.string "user_group"),
    ("groups",.array [.string "staff"])]]
  action := .allow
  vlanId := none
  enabled := true

def staffLogin : AuthResponse :=
  ⟨none,none,"aa:bb:cc:dd:ee:01","10.0.0.7",true,some "alice",["staff"],none⟩

/-- A device that its detection quarantined has an open session when its user logs in. -/
theorem login_persists_run :
    let s := runs (Platform.step Postgres.plain Runtime.ascii)
      (Platform.initial [staffPolicy,catchAll .quarantine]) [.detected firstSighting]
    let w := s.world.handle Postgres.plain
      (SessionHandler.processAuthResponse Runtime.ascii staffLogin)
    ∀ events, (runs (redetect Postgres.plain Runtime.ascii) w events).endpoints.statusOf 1=
      .allowed := by
  intro s w
  have hid : ((Postgres.plain.macaddr staffLogin.macAddress).bind
      s.world.endpoints.findByMac).map (·.id)=some 1 := by decide +kernel
  obtain ⟨row,hfound,hrow⟩ := Option.map_eq_some_iff.mp hid
  have hres : SessionHandler.Resolved Postgres.plain staffLogin s.world row s.world := by
    refine .known ?_
    have hmac : Postgres.plain.macaddr staffLogin.macAddress=
        some ⟨0xaa,0xbb,0xcc,0xdd,0xee,0x01⟩ := by decide +kernel
    rw [hmac,Option.bind_some] at hfound
    have hnone : staffLogin.endpointId=none := rfl
    have hgiven : (!staffLogin.macAddress.isEmpty)=true := by decide
    simp only [SessionHandler.lookup,hnone,hgiven,if_true,hmac,Option.elim_some,hfound]
  have hrules : s.world.rules Postgres.plain=.ok [⟨"staff",10,.userGroup ["staff"],.allow⟩,
      ⟨"catch-all",100,.and [],.quarantine 99 "policy: catch-all"⟩] :=
    (rules_congr (World.handle_policies _ _ _)).trans rfl
  have hopen : (s.world.sessions.findActiveByEndpoint Postgres.plain 1).isSome=true := by
    decide +kernel
  obtain ⟨sess,hsess⟩ := Option.isSome_iff_exists.mp hopen
  have hsess' : SessionHandler.sessionOf Postgres.plain staffLogin s.world row=some sess := by
    change s.world.sessions.findActiveByEndpoint Postgres.plain row.id=some sess
    rw [hrow]
    exact hsess
  have hpersists := (@login_persists_iff Postgres.plain Runtime.ascii _ _ [.detected firstSighting]
    staffLogin row _ _ rfl hres rfl (by decide) hrules (by simp) rfl).mpr
  rw [hrow] at hpersists
  exact hpersists (.inl ⟨sess,hsess,.inr ⟨sess,hsess',rfl⟩⟩)

/-- The same login from a device that has not been detected yet: there is no session to activate,
and the detection quarantines the device. -/
theorem fresh_login_requarantined :
    let step := Platform.step Postgres.plain Runtime.ascii
    let s := runs step (Platform.initial [staffPolicy,catchAll .quarantine]) [.auth staffLogin]
    s.world.endpoints.column (fun r => (r.status,r.username)) 1=some (.allowed,some "alice") ∧
      (step s (.detected firstSighting)).world.endpoints.column (fun r => (r.status,r.username)) 1=
        some (.quarantined,some "alice") := by
  decide +kernel

end NacPlatform
