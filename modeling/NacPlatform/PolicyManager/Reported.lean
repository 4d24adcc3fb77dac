import NacPlatform.AgentGateway.Reporting
import NacPlatform.PolicyManager.Jobs

namespace NacPlatform

open PostureHandler (posture reportedPosture verdict)

/-- The columns of a device that nothing was reported of. -/
def unreported : Option Bool × Option Json × Int32 × Option Bool × Option Bool × Option Bool ×
    Option String :=
  (none,none,0,none,none,none,none)

/-- The columns hold nothing but what was said of the device: the verdict on one report, and the
fields of one. -/
def SaidOf (rt : Runtime) (said : PostureReport → Prop) (columns : Option Bool × Option Json ×
    Int32 × Option Bool × Option Bool × Option Bool × Option String) : Prop :=
  (∀ b, columns.1=some b → ∃ report, said report ∧ verdict rt report=b) ∧
    (columns.2=unreported.2 ∨ ∃ report, said report ∧ columns.2=(reportedPosture rt report).2)

/-- What the tables show of reports was said of the device. -/
structure World.Reported (rt : Runtime) (said : Uuid → PostureReport → Prop) (w : World) :
    Prop where
  shown : ∀ id columns, w.endpoints.column posture id=some columns → SaidOf rt (said id) columns
  saved : ∀ p ∈ w.postureReports, said p.endpointId p.report ∧ p.isCompliant=verdict rt p.report

/-- A call that stores of reports only what was said. -/
def Call.Says (rt : Runtime) (said : Uuid → PostureReport → Prop) : Call → Prop
  | savePosture id report b => said id report ∧ b=verdict rt report
  | setCompliance id b => ∃ report, said id report ∧ b=verdict rt report
  | updatePostureFields id f => ∃ report, said id report ∧ f=report.fields
  | _ => True

namespace World

variable {pg : Postgres} {rt : Runtime} {said : Uuid → PostureReport → Prop} {w : World}

/-- Device rows whose columns were there before, or are those of a new device. -/
theorem Reported.rows (hw : w.Reported rt said) {t : EndpointTable} {clock : Timestamp}
    (h : ∀ id, t.column posture id=w.endpoints.column posture id ∨
      t.column posture id=some unreported) :
    ({w with endpoints := t, clock := clock} : World).Reported rt said where
  shown id columns hcolumns := by
    change t.column posture id=some columns at hcolumns
    rcases h id with hsame|hnew
    · exact hw.shown id columns (hsame ▸ hcolumns)
    · rw [hnew] at hcolumns
      cases hcolumns
      exact ⟨nofun,.inl rfl⟩
  saved := hw.saved

theorem Reported.column (hw : w.Reported rt said) {t : EndpointTable} {clock : Timestamp}
    (h : t.column posture=w.endpoints.column posture) :
    ({w with endpoints := t, clock := clock} : World).Reported rt said :=
  hw.rows fun id => .inl (congrFun h id)

theorem posture_put {t t' : EndpointTable} {row : EndpointRow} (hput : EndpointTable.Put t t' row)
    (id : Uuid) : t'.column posture id=if id=row.id then some (posture row) else
      t.column posture id := by
  unfold EndpointTable.column
  rw [hput id]
  split <;> rfl

/-- A row put in place of one with the same columns, or the row of a new device. -/
theorem Reported.put (hw : w.Reported rt said) {t : EndpointTable} {row : EndpointRow}
    (hput : EndpointTable.Put w.endpoints t row) (hrow : posture row=unreported ∨
      w.endpoints.column posture row.id=some (posture row)) {clock : Timestamp} :
    ({w with endpoints := t, clock := clock} : World).Reported rt said := by
  apply hw.rows
  intro id
  rw [posture_put hput]
  split_ifs with hid
  · rcases hrow with hnew|hsame
    · exact .inr (congrArg some hnew)
    · exact .inl (hid ▸ hsame.symm)
  · exact .inl rfl

/-- A row that is changed in its columns. -/
theorem Reported.change (hw : w.Reported rt said) {t : EndpointTable} {id : Uuid}
    {f : EndpointRow → EndpointRow} {clock : Timestamp}
    (ht : ∀ i, t.findById i=(w.endpoints.findById i).map fun r => if r.id==id then f r else r)
    (hf : ∀ r, SaidOf rt (said id) (posture r) → SaidOf rt (said id) (posture (f r))) :
    ({w with endpoints := t, clock := clock} : World).Reported rt said where
  shown i columns hcolumns := by
    obtain ⟨r,hr,hcolumns⟩ := EndpointTable.column_eq_some.mp hcolumns
    change t.findById i=some r at hr
    rw [ht,Option.map_eq_some_iff] at hr
    obtain ⟨r',hr',rfl⟩ := hr
    have hbefore := hw.shown i (posture r') (EndpointTable.column_eq_some.mpr ⟨r',hr',rfl⟩)
    split_ifs at hcolumns with hid
    · have hsame : i=id := by
        rw [← EndpointTable.findById_id hr']
        simpa using hid
      rw [← hcolumns,hsame]
      exact hf r' (hsame ▸ hbefore)
    · exact hcolumns ▸ hbefore
  saved := hw.saved

/-- One call: the rows that it writes keep to what was said. -/
theorem Reported.exec {c : Call} (hc : c.Says rt said) (hw : w.Reported rt said) :
    (c.exec pg w).2.Reported rt said := by
  cases c with
  | upsert ep =>
    simp only [Call.exec]
    cases h : w.endpoints.upsert pg ep w.clock with
    | error e => exact hw
    | ok result =>
      obtain ⟨row,t⟩ := result
      obtain ⟨mac,ip,-,hput,hrow⟩ := EndpointTable.upsert_ok h
      apply hw.put hput
      rcases hrow with ⟨r,hr,rfl⟩|⟨-,rfl⟩
      · exact .inr (EndpointTable.column_eq_some.mpr
          ⟨r,(EndpointTable.findByMac_eq_some.mp hr).1,rfl⟩)
      · exact .inl rfl
  | upsertByAgentId ep =>
    simp only [Call.exec]
    cases h : w.endpoints.upsertByAgentId pg ep w.clock with
    | error e => exact hw
    | ok result =>
      obtain ⟨row,t⟩ := result
      rcases EndpointTable.upsertByAgentId_ok h with ⟨-,rfl⟩|⟨_,mac,ip,r,-,-,hr,-,-,hput⟩
      · exact hw.column rfl
      · apply hw.put hput
        exact .inr (EndpointTable.column_eq_some.mpr
          ⟨r,EndpointTable.findById_eq_some.mpr ⟨hr,rfl⟩,rfl⟩)
  | setStatus id status =>
    simp only [Call.exec]
    split
    · exact hw.column (EndpointTable.column_modify _ fun _ => rfl)
    · split <;> exact hw
  | setPolicy id policyId => exact hw.column (EndpointTable.column_setPolicy fun _ => rfl)
  | setExempt id exempt => exact hw.column (EndpointTable.column_setExempt fun _ => rfl)
  | setUsername id username => exact hw.column (EndpointTable.column_setUsername fun _ => rfl)
  | setCompliance id isCompliant =>
    obtain ⟨report,hsaid,rfl⟩ := hc
    apply hw.change fun i => EndpointTable.findById_setCompliance _ _ _ i
    intro r hr
    refine ⟨?_,hr.2⟩
    intro b hb
    cases hb
    exact ⟨report,hsaid,rfl⟩
  | updatePostureFields id f =>
    obtain ⟨report,hsaid,rfl⟩ := hc
    apply hw.change fun i => EndpointTable.findById_updatePostureFields _ _ i
    intro r hr
    exact ⟨hr.1,.inr ⟨report,hsaid,rfl⟩⟩
  | updateIp mac ip =>
    simp only [Call.exec]
    split
    · exact hw.column (EndpointTable.column_updateIp fun _ => rfl)
    · exact hw
  | findByMac mac =>
    simp only [Call.exec]
    split <;> exact hw
  | transition id state username =>
    simp only [Call.exec]
    split
    · exact ⟨hw.shown,hw.saved⟩
    · split <;> exact hw
  | savePosture id report isCompliant =>
    refine ⟨hw.shown,?_⟩
    intro p hp
    rcases List.mem_append.mp hp with hold|hnew
    · exact hw.saved p hold
    · rw [List.mem_singleton.mp hnew]
      exact hc
  | _ => exact ⟨hw.shown,hw.saved⟩

/-- A statement over a whole table stores nothing of reports. -/
theorem Reported.execFaulty (ipRules : List IpRuleRow) (fails : ReconcileCall → Bool)
    {c : ReconcileCall} (hc : c.May (Call.Says rt said)) (hw : w.Reported rt said) :
    (c.execFaulty pg ipRules fails w).2.Reported rt said := by
  unfold ReconcileCall.execFaulty
  split
  · exact hw
  · cases c with
    | call c => exact hw.exec hc
    | terminateOpen => exact ⟨hw.shown,hw.saved⟩
    | requarantine => exact hw.column (EndpointTable.column_modify _ fun _ => rfl)
    | listEnforced => exact hw
    | enabledIpRules => exact hw

/-- The text names a device: read as a hardware address, it is that of the device. -/
def Names (pg : Postgres) (w : World) (text : String) (id : Uuid) : Prop :=
  ∃ mac, pg.macaddr text=some mac ∧ w.endpoints.column (·.macAddress) id=some mac

/-- What is found by a text is named by it. -/
theorem finds_execFaulty (ipRules : List IpRuleRow) (fails : ReconcileCall → Bool)
    {named : String → Uuid → Prop} (h : ∀ text id, w.Names pg text id → named text id)
    (c : ReconcileCall) : c.Finds named (c.execFaulty pg ipRules fails w).1 := by
  cases c with
  | call c =>
    cases c with
    | findByMac text =>
      intro ep hep
      unfold ReconcileCall.execFaulty at hep
      split at hep
      · cases hep
      · simp only [ReconcileCall.exec,Call.exec] at hep
        split at hep
        · next mac hmac =>
          have hfound : w.endpoints.findByMac mac=some ep := Except.ok.inj hep
          obtain ⟨hfind,hown⟩ := EndpointTable.findByMac_eq_some.mp hfound
          exact h text ep.id ⟨mac,hmac,EndpointTable.column_eq_some.mpr ⟨ep,hfind,hown⟩⟩
        · cases hep
    | _ => trivial
  | _ => trivial

end World

/-- The tables, and the handlers at work on them. -/
abbrev Office := Pool Nat World ReconcileCall ReconcileCall.Reply DbError

/-- What happens next: a task takes up a job or a response of the portal, or makes its next call,
which may fail. -/
inductive Work where
  | job (task : Nat) (job : Job)
  | response (task : Nat) (resp : AuthResponse)
  | call (task : Nat) (ipRules : List IpRuleRow) (fails : ReconcileCall → Bool)

namespace Office

variable (pg : Postgres) (rt : Runtime)

def initial (policies : List PolicyRow) : Office := ⟨World.initial policies,fun _ => pure ()⟩

def step (s : Office) : Work → Office
  | .job task job => s.start task (job.handler rt)
  | .response task resp => s.start task (detached (SessionHandler.processAuthResponse rt resp))
  | .call task ipRules fails => s.advance (ReconcileCall.execFaulty pg ipRules fails) task

/-- The office after some steps. -/
def after (policies : List PolicyRow) (steps : List Work) : Office :=
  runs (step pg rt) (initial policies) steps

/-- A report is said of a device that its id names. -/
def Said (named : String → Uuid → Prop) (steps : List Work) (id : Uuid) (report : PostureReport) :
    Prop :=
  (∃ task, .job task (.posture report) ∈ steps) ∧ named report.deviceId id

/-- The tables show, and the handlers store, nothing but what was said. -/
structure Truthful (rt : Runtime) (named : String → Uuid → Prop) (steps : List Work)
    (s : Office) : Prop where
  tables : s.shared.Reported rt (Said named steps)
  tasks : ∀ i, Task.Keeps named (Call.Says rt (Said named steps)) (s.tasks i)

variable {pg rt} {named : String → Uuid → Prop} {steps : List Work} {s : Office}

theorem Truthful.start (h : s.Truthful rt named steps) (task : Nat)
    {p : Background.ReconcileHandler Unit}
    (hp : Task.Keeps named (Call.Says rt (Said named steps)) p) :
    Truthful rt named steps (s.start task p) := by
  refine ⟨?_,Pool.start_only h.tasks task hp⟩
  rw [Pool.start_shared]
  exact h.tables

theorem says_plain {said : Uuid → PostureReport → Prop} {c : Call} (h : c.Plain) :
    c.Says rt said := by
  cases c with
  | savePosture id report b => exact h.elim
  | setCompliance id b => exact h.elim
  | updatePostureFields id f => exact h.elim
  | _ => trivial

theorem says_job {task : Nat} {job : Job} (hjob : .job task job ∈ steps) {c : Call}
    (h : job.Writes rt named c) : c.Says rt (Said named steps) := by
  cases job with
  | posture report =>
    cases c with
    | savePosture id r b =>
      obtain ⟨hnamed,rfl,rfl⟩ := h
      exact ⟨⟨⟨task,hjob⟩,hnamed⟩,rfl⟩
    | setCompliance id b =>
      obtain ⟨hnamed,rfl⟩ := h
      exact ⟨report,⟨⟨task,hjob⟩,hnamed⟩,rfl⟩
    | updatePostureFields id f =>
      obtain ⟨hnamed,rfl⟩ := h
      exact ⟨report,⟨⟨task,hjob⟩,hnamed⟩,rfl⟩
    | _ => trivial
  | _ =>
    cases c with
    | savePosture id r b => exact h.elim
    | setCompliance id b => exact h.elim
    | updatePostureFields id f => exact h.elim
    | _ => trivial

theorem says_response {said : Uuid → PostureReport → Prop} {resp : AuthResponse} {c : Call}
    (h : resp.Writes c) : c.Says rt said := by
  cases c with
  | savePosture id report b => exact h.2.elim
  | setCompliance id b => exact h.2.elim
  | updatePostureFields id f => exact h.2.elim
  | _ => trivial

/-- One step, taken where texts name devices as they are said to. -/
theorem Truthful.step (h : s.Truthful rt named steps) {x : Work} (hx : x ∈ steps)
    (hnamed : ∀ text id, s.shared.Names pg text id → named text id) :
    (s.step pg rt x).Truthful rt named steps := by
  cases x with
  | job task job =>
    apply h.start task
    apply (job.handler_keeps rt).mono
    intro c hc
    apply hc.mono
    intro c given
    rcases given with hplain|hwrites
    · exact says_plain hplain
    · exact says_job hx hwrites
  | response task resp =>
    apply h.start task
    apply (handler_keeps_response rt resp).mono
    intro c hc
    apply hc.mono
    intro c given
    rcases given with hplain|hwrites
    · exact says_plain hplain
    · exact says_response hwrites
  | call task ipRules fails =>
    obtain ⟨htables,htasks⟩ := Pool.advance_answered (ReconcileCall.execFaulty pg ipRules fails)
      (fun c w hc hw => World.Reported.execFaulty ipRules fails hc hw) h.tables h.tasks
      (World.finds_execFaulty ipRules fails hnamed) task
    exact ⟨htables,htasks⟩

theorem initial_truthful (policies : List PolicyRow) :
    (initial policies).Truthful rt named steps where
  tables := by
    refine ⟨?_,?_⟩
    · intro id columns h
      cases h
    · intro p hp
      cases hp
  tasks _ := trivial

variable (pg rt) in
/-- The text has named the device at some time of the run. -/
def EverNamed (policies : List PolicyRow) (steps : List Work) (text : String) (id : Uuid) : Prop :=
  ∃ pre post, steps=pre++post ∧ (after pg rt policies pre).shared.Names pg text id

variable (pg rt) in
/-- However the handlers interleave, call by call and with calls that fail: whatever the tables show
of the posture of a device has been reported under an id that named the device at some time, the
verdict on one report and all fields of one. -/
theorem posture_shown_was_reported (policies : List PolicyRow) (steps : List Work) :
    (after pg rt policies steps).shared.Reported rt
      (Said (EverNamed pg rt policies steps) steps) := by
  have hvisited : Guarded (step pg rt) (fun s x => x ∈ steps ∧ ∃ pre post, steps=pre++post ∧
      after pg rt policies pre=s) (initial policies) steps := by
    apply guarded_iff.mpr
    intro pre x post hsteps
    exact ⟨by simp [hsteps],pre,x::post,hsteps,rfl⟩
  have hend := hvisited.invariant (Truthful rt (EverNamed pg rt policies steps) steps) (by
    intro s x h given
    obtain ⟨hx,pre,post,hsteps,rfl⟩ := given
    apply h.step hx
    intro text id hnames
    exact ⟨pre,post,hsteps,hnames⟩) (initial_truthful policies)
  exact hend.tables

end Office

end NacPlatform
