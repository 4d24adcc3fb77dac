import NacPlatform.PolicyManager.Outcomes

namespace NacPlatform

/-- The policies, where there are any, decide on `status`. -/
def Confirms (pg : Postgres) (rt : Runtime) (w : World) (status : Status) (ctx : PolicyContext) :
    Prop :=
  ∀ rules, w.rules pg=.ok rules → rules≠[] → status=decisionToStatus (evaluate rt rules ctx)

/-- The steps in which the policies are evaluated and no administrator decides. -/
def Step.automatic : Step → Bool
  | .detected _ => true
  | .posture _ => true
  | .evaluate _ => true
  | .auth resp => resp.success
  | _ => false

/-- Where the step evaluates the device `id`, the policies confirm the status it has. -/
def Spares (pg : Postgres) (rt : Runtime) (id : Uuid) (s : Platform) : Step → Prop
  | .detected event => ∀ row t,
      s.world.endpoints.upsert pg (Consumer.upsertOf event) s.world.clock=.ok (row,t) →
      row.id=id → Consumer.loggedIn pg s.world row=true ∨
        Confirms pg rt s.world row.status (Consumer.context row)
  | .posture report => ∀ row,
      (pg.macaddr report.deviceId).bind s.world.endpoints.findByMac=some row → row.id=id →
      Confirms pg rt s.world row.status
        (PostureHandler.context row report (PostureHandler.verdict rt report))
  | .auth resp => ∀ row w, SessionHandler.Resolved pg resp s.world row w → row.id=id →
      Confirms pg rt s.world row.status
        (SessionHandler.context row (resp.username.getD "") resp.groups)
  | _ => True

/-- What the exemption is to protect. -/
def treatment (r : EndpointRow) : MacAddr × Status × Bool := (r.macAddress,r.status,r.policyExempt)

/-- The device is exempt and has its MAC and status, and what has been sent to it since `base`
announces no other status. -/
structure Untouched (base : List EnforcementCommand) (id : Uuid) (mac : MacAddr) (status : Status)
    (w : World) : Prop where
  stored : w.endpoints.column treatment id=some (mac,status,true)
  sent : ∃ sent, w.commands=base++sent ∧
    ∀ cmd ∈ sent, cmd.macAddress=mac.text → status.announcedBy cmd

namespace Untouched

variable {pg : Postgres} {rt : Runtime} {base : List EnforcementCommand} {id : Uuid}
  {mac : MacAddr} {status : Status} {w w₁ w' : World} {t' : EndpointTable}
  {sessions : SessionTable} {sent : List EnforcementCommand}

theorem effect (h : Untouched base id mac status w) (hw : w₁.commands=w.commands)
    (heffect : Effect w₁ w' t' sessions sent)
    (hstored : t'.column treatment id=some (mac,status,true))
    (hsent : ∀ cmd ∈ sent, cmd.macAddress=mac.text → status.announcedBy cmd) :
    Untouched base id mac status w' := by
  obtain ⟨before,hbefore,hold⟩ := h.sent
  refine ⟨by rw [heffect.endpoints]; exact hstored,before++sent,?_,?_⟩
  · rw [heffect.commands,hw,hbefore,List.append_assoc]
  · intro cmd hcmd
    rcases List.mem_append.mp hcmd with hcmd | hcmd
    · exact hold cmd hcmd
    · exact hsent cmd hcmd

/-- Another device has another hardware address. -/
theorem other_mac {t : EndpointTable} {row : EndpointRow}
    (h : t.column treatment id=some (mac,status,true))
    (hrow : t.column treatment row.id=some (treatment row)) (hid : row.id≠id) :
    row.macAddress.text≠mac.text := by
  intro he
  obtain ⟨r,hr,hc⟩ := EndpointTable.column_eq_some.mp h
  obtain ⟨r',hr',hc'⟩ := EndpointTable.column_eq_some.mp hrow
  have hmac : r.macAddress=mac := congrArg Prod.fst hc
  have hmac' : r'.macAddress=row.macAddress := congrArg Prod.fst hc'
  exact hid (EndpointTable.mac_unique hr' hr
    (hmac'.trans ((MacAddr.text_injective he).trans hmac.symm)))

/-- An evaluation that confirms the device, or decides on another one. -/
theorem evaluated {t : EndpointTable} {row : EndpointRow} {new : Status}
    (h : t.column treatment id=some (mac,status,true))
    (hrow : t.column treatment row.id=some (treatment row)) (hnew : row.id=id → row.status=new)
    (hsent : ∀ cmd ∈ sent, cmd.macAddress=row.macAddress.text ∧ new.announcedBy cmd) :
    (t.setStatus row.id new).column treatment id=some (mac,status,true) ∧
      ∀ cmd ∈ sent, cmd.macAddress=mac.text → status.announcedBy cmd := by
  by_cases hid : row.id=id
  · subst hid
    obtain ⟨r,hr,hc⟩ := EndpointTable.column_eq_some.mp hrow
    have hstatus : row.status=status := by
      rw [hrow] at h
      simp only [treatment,Option.some.injEq,Prod.mk.injEq] at h
      exact h.2.1
    have hrs : r.status=new := by
      simp only [treatment,Prod.mk.injEq] at hc
      exact hc.2.1.trans (hnew rfl)
    rw [← hrs,EndpointTable.setStatus_self hr]
    refine ⟨h,?_⟩
    intro cmd hcmd _
    rw [← hstatus,hnew rfl]
    exact (hsent cmd hcmd).2
  · refine ⟨by rw [EndpointTable.column_setStatus (Ne.symm hid)]; exact h,?_⟩
    intro cmd hcmd hmac
    exact absurd ((hsent cmd hcmd).1.symm.trans hmac) (other_mac h hrow hid)

theorem detected (h : Untouched base id mac status w) (event : EndpointDetectedEvent)
    (hspares : ∀ row t, w.endpoints.upsert pg (Consumer.upsertOf event) w.clock=.ok (row,t) →
      row.id=id → Consumer.loggedIn pg w row=true ∨
        Confirms pg rt w row.status (Consumer.context row)) :
    Untouched base id mac status (w.handle pg (Consumer.processEvent rt event)) := by
  rcases Consumer.processEvent_outcome pg rt event w with
    ⟨_,hsame⟩ | ⟨row,t,w₁,hput,hout,heffect⟩
  · rw [hsame]
    exact h
  have hrow : t.findById row.id=some row :=
    (EndpointTable.upsert_put hput).self
  have hcol : w₁.endpoints.column treatment row.id=some (treatment row) := by
    rw [heffect.endpoints]
    exact EndpointTable.column_eq_some.mpr ⟨row,hrow,rfl⟩
  have hstored : w₁.endpoints.column treatment id=some (mac,status,true) := by
    rw [heffect.endpoints]
    exact EndpointTable.column_upsert hput (fun _ _ _ _ => rfl) h.stored
  have hw₁ : w₁.commands=w.commands := by rw [heffect.commands,List.append_nil]
  have hrules : w₁.rules pg=w.rules pg := rules_congr heffect.policies
  have announced (status : Status) (d : PolicyDecision) :
      ∀ cmd ∈ Consumer.commandFor row status d,
        cmd.macAddress=row.macAddress.text ∧ status.announcedBy cmd := by
    intro cmd hcmd
    obtain ⟨hmac,haction,_⟩ := Consumer.mem_commandFor hcmd
    exact ⟨hmac,.inr haction⟩
  cases hout with
  | unevaluated _ heff => exact h.effect hw₁ heff hstored (by simp)
  | kept _ _ _ heff =>
    have hself : w₁.endpoints.setStatus row.id row.status=w₁.endpoints := by
      rw [heffect.endpoints,EndpointTable.setStatus_self hrow]
    refine h.effect hw₁ heff hstored ?_
    split
    · exact (evaluated hstored hcol (fun _ => rfl) (announced row.status _)).2
    · simp
  | @changed rules hloaded hsome hopen hdiffers heff =>
    have hnew : row.id=id →
        row.status=decisionToStatus (evaluate rt rules (Consumer.context row)) := by
      intro hid
      rcases hspares row t hput hid with hin | hconfirms
      · have hsame : Consumer.loggedIn pg w₁ row=Consumer.loggedIn pg w row := by
          unfold Consumer.loggedIn
          rw [heffect.sessions]
        rw [hsame,hin] at hopen
        cases hopen
      · exact hconfirms _ (hrules ▸ hloaded) hsome
    obtain ⟨hs,hc⟩ := evaluated hstored hcol hnew (announced _ _)
    exact h.effect hw₁ heff hs hc

theorem reported {report : PostureReport} (h : Untouched base id mac status w)
    (hout : PostureHandler.Outcome pg rt report w w')
    (hspares : ∀ row, (pg.macaddr report.deviceId).bind w.endpoints.findByMac=some row →
      row.id=id → Confirms pg rt w row.status
        (PostureHandler.context row report (PostureHandler.verdict rt report))) :
    Untouched base id mac status w' := by
  have kept (row : EndpointRow) :
      (PostureHandler.reported w row report (PostureHandler.verdict rt report)).column treatment=
        w.endpoints.column treatment :=
    PostureHandler.column_reported (fun _ => rfl) fun _ => rfl
  cases hout with
  | unknown _ => exact h
  | kept _ _ heff =>
    refine h.effect rfl heff ?_ (by simp)
    rw [kept]
    exact h.stored
  | @changed _ row rules new hfound hloaded hsome hdecided hdiffers heff =>
    have hrow : w.endpoints.findById row.id=some row := by
      obtain ⟨m,_,hm⟩ := Option.bind_eq_some_iff.mp hfound
      exact (EndpointTable.findByMac_eq_some.mp hm).1
    have hcol : w.endpoints.column treatment row.id=some (treatment row) :=
      EndpointTable.column_eq_some.mpr ⟨row,hrow,rfl⟩
    have hnew : row.id=id → row.status=new := by
      intro hid
      rw [hdecided]
      exact hspares row hfound hid _ hloaded hsome
    have hsent : ∀ cmd ∈ [PostureHandler.commandFor row new],
        cmd.macAddress=row.macAddress.text ∧ new.announcedBy cmd :=
      List.forall_mem_singleton.mpr ⟨rfl,.inl rfl⟩
    obtain ⟨hs,hc⟩ := evaluated (kept row ▸ h.stored) (kept row ▸ hcol) hnew hsent
    exact h.effect rfl heff hs hc

theorem resolved {resp : AuthResponse} {row : EndpointRow} (h : Untouched base id mac status w)
    (hres : SessionHandler.Resolved pg resp w row w₁) :
    w₁.endpoints.column treatment id=some (mac,status,true) := by
  cases hres with
  | known _ => exact h.stored
  | registered _ _ hput => exact EndpointTable.column_upsert hput (fun _ _ _ _ => rfl) h.stored

theorem authenticated {resp : AuthResponse} (h : Untouched base id mac status w)
    (hout : SessionHandler.Outcome pg rt resp w w')
    (hspares : ∀ row w₁, SessionHandler.Resolved pg resp w row w₁ → row.id=id →
      Confirms pg rt w row.status
        (SessionHandler.context row (resp.username.getD "") resp.groups)) :
    Untouched base id mac status w' := by
  have named (w₁ : World) (row : EndpointRow) :
      (SessionHandler.named w₁ row (resp.username.getD "")).column treatment=
        w₁.endpoints.column treatment := SessionHandler.column_named fun _ => rfl
  cases hout with
  | unresolved _ => exact h
  | failed hres _ hendpoints hcommands _ =>
    obtain ⟨sent,hsent,hold⟩ := h.sent
    exact ⟨hendpoints ▸ h.resolved hres,sent,hcommands.trans (hres.same.2.1.trans hsent),hold⟩
  | unevaluated hres _ _ heff =>
    refine h.effect hres.same.2.1 heff ?_ (by simp)
    rw [named]
    exact h.resolved hres
  | @decided w₁ _ row rules hres _ hloaded hsome heff =>
    have hcol : w₁.endpoints.column treatment row.id=some (treatment row) :=
      EndpointTable.column_eq_some.mpr ⟨row,hres.stored,rfl⟩
    have hsent := SessionHandler.commandFor_announces row
      (evaluate rt rules (SessionHandler.context row (resp.username.getD "") resp.groups))
    obtain ⟨hs,hc⟩ := evaluated (named w₁ row ▸ h.resolved hres) (named w₁ row ▸ hcol)
      (fun hid => hspares row w₁ hres hid rules hloaded hsome)
      (List.forall_mem_singleton.mpr hsent)
    exact h.effect hres.same.2.1 heff hs hc

/-- The batch run leaves an exempt device out. -/
theorem applied {ep : EndpointRow} {new : Status} (h : Untouched base id mac status w)
    (hep : w.endpoints.findById ep.id=some ep) (hexempt : ep.policyExempt=false) :
    Untouched base id mac status (Evaluate.applied w ep new) := by
  have hcol : w.endpoints.column treatment ep.id=some (treatment ep) :=
    EndpointTable.column_eq_some.mpr ⟨ep,hep,rfl⟩
  have hid : ep.id≠id := by
    intro same
    subst same
    have h' := h.stored
    rw [hcol] at h'
    simp [treatment,hexempt] at h'
  have hsent : ∀ cmd ∈ [Evaluate.commandFor ep new],
      cmd.macAddress=ep.macAddress.text ∧ new.announcedBy cmd :=
    List.forall_mem_singleton.mpr ⟨rfl,.inl rfl⟩
  obtain ⟨hs,hc⟩ := evaluated h.stored hcol (fun e => absurd e hid) hsent
  exact h.effect rfl ⟨rfl,rfl,rfl,rfl⟩ hs hc

theorem step {s : Platform} {a : Step} (h : Untouched base id mac status s.world)
    (hauto : a.automatic=true) (hspares : Spares pg rt id s a) :
    Untouched base id mac status (s.step pg rt a).world := by
  cases a with
  | detected event => exact h.detected event hspares
  | posture report =>
    exact h.reported (PostureHandler.processPosture_outcome pg rt report s.world) hspares
  | auth resp =>
    exact h.authenticated (SessionHandler.processAuthResponse_outcome pg rt resp s.world) hspares
  | evaluate defaultAction =>
    exact Evaluate.evaluatePolicies_invariant (Untouched base id mac status)
      (fun w ep new h hep hexempt _ => h.applied hep hexempt) defaultAction s.world h
  | admin => cases hauto
  | assignPolicy => cases hauto
  | setExempt => cases hauto
  | arpSync => cases hauto
  | register => cases hauto

end Untouched

/-- In every run of automatic steps that the policies take as `Spares` says, an exempt device keeps
its status and every command for it announces that status. -/
theorem exempt_untouched {pg : Postgres} {rt : Runtime} {s : Platform} {steps : List Step}
    {row : EndpointRow} (hauto : ∀ a ∈ steps, a.automatic=true)
    (hspares : Guarded (Platform.step pg rt) (Spares pg rt row.id) s steps)
    (hrow : s.world.endpoints.findById row.id=some row) (hexempt : row.policyExempt=true) :
    ∃ row' sent, (runs (Platform.step pg rt) s steps).world.endpoints.findById row.id=some row' ∧
      row'.status=row.status ∧
      (runs (Platform.step pg rt) s steps).world.commands=s.world.commands++sent ∧
      ∀ cmd ∈ sent, cmd.macAddress=row.macAddress.text → row.status.announcedBy cmd := by
  have hstart : Untouched s.world.commands row.id row.macAddress row.status s.world := by
    refine ⟨EndpointTable.column_eq_some.mpr ⟨row,hrow,?_⟩,[],by simp,by simp⟩
    rw [treatment,hexempt]
  have hend := (hspares.and (guarded_of_forall hauto)).invariant
    (fun s => Untouched _ row.id row.macAddress row.status s.world)
    (fun _ _ h hok => h.step hok.2 hok.1) hstart
  obtain ⟨row',hrow',hc⟩ := EndpointTable.column_eq_some.mp hend.stored
  obtain ⟨sent,hsent,hannounced⟩ := hend.sent
  simp only [treatment,Prod.mk.injEq] at hc
  exact ⟨row',sent,hrow',hc.2.1,hsent,hannounced⟩

/-- A device that an administrator has allowed and exempted. -/
def exemptDevice : EndpointRow :=
  { EndpointTable.insertedRow 1 ⟨0xaa,0xbb,0xcc,0xdd,0xee,0x01⟩ (some "10.0.0.7/32")
      (Consumer.upsertOf firstSighting) 0 with status := .allowed, policyExempt := true }

def withExemptDevice (policies : List PolicyRow) : Platform :=
  let table : EndpointTable := ⟨[exemptDevice],by simp,by simp,by simp [exemptDevice,
    Consumer.upsertOf,EndpointTable.insertedRow]⟩
  ⟨{ World.initial policies with endpoints := table },fun _ => none⟩

/-- Under a policy that allows every device, detected again and passed over by the batch run. -/
theorem exempt_untouched_run :
    let s := withExemptDevice [catchAll .allow]
    let steps := [Step.detected firstSighting,.evaluate (some "denied")]
    ∃ row' sent, (runs (Platform.step Postgres.plain Runtime.ascii) s steps).world.endpoints.findById
        1=some row' ∧ row'.status=.allowed ∧
      (runs (Platform.step Postgres.plain Runtime.ascii) s steps).world.commands=[]++sent ∧
      ∀ cmd ∈ sent, cmd.macAddress=exemptDevice.macAddress.text → Status.allowed.announcedBy cmd := by
  intro s steps
  have hrules : s.world.rules Postgres.plain=.ok [⟨"catch-all",100,.and [],.allow⟩] := rfl
  have hspares : Spares Postgres.plain Runtime.ascii 1 s (.detected firstSighting) := by
    intro row t hput hid
    refine .inr fun rules hr _ => ?_
    rw [hrules] at hr
    obtain rfl := Except.ok.inj hr
    rw [EndpointTable.upsert_status hput,hid]
    rfl
  exact @exempt_untouched Postgres.plain Runtime.ascii s steps exemptDevice (by decide)
    ⟨hspares,trivial,trivial⟩ rfl rfl

/-- Quarantined by the policies, allowed and exempted by an administrator, the device is
quarantined again as soon as it is detected again. -/
theorem exempt_requarantined :
    let step := Platform.step Postgres.plain Runtime.ascii
    let s := runs step (Platform.initial [catchAll .quarantine])
      [.detected firstSighting,.admin 1 .allow,.setExempt 1 true]
    let s' := step s (.detected firstSighting)
    s.world.endpoints.column (fun r => (r.status,r.policyExempt)) 1=some (.allowed,true) ∧
      s'.world.endpoints.column (fun r => (r.status,r.policyExempt)) 1=some (.quarantined,true) ∧
      (s'.world.commands.drop s.world.commands.length).map (fun cmd => (cmd.macAddress,cmd.action))=
        [("aa:bb:cc:dd:ee:01","quarantine")] := by
  decide +kernel

end NacPlatform
