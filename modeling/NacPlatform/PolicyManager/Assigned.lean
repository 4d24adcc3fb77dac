import NacPlatform.PolicyManager.EvaluateAll
import NacPlatform.PolicyManager.Exempt

namespace NacPlatform

variable {pg : Postgres} {rt : Runtime}

/-- The steps that may change the status of a device by the policies without a login. -/
def Step.evaluates : Step → Bool
  | .detected _ => true
  | .posture _ => true
  | .evaluate _ => true
  | _ => false

/-- The status of the device, if it changes, becomes the one that the policy decides on. -/
def Honours (p : PolicyRow) (id : Uuid) (w w' : World) : Prop :=
  w'.endpoints.statusOf id≠w.endpoints.statusOf id →
    w'.endpoints.statusOf id=decisionToStatus p.decision

/-- An event or a report leads to the status that the device has or `p` decides on, though the
policies are matched by priority; in the batch run the policy can be read, or the default does. -/
def Concurs (pg : Postgres) (rt : Runtime) (p : PolicyRow) (id : Uuid) (w : World) : Step → Prop
  | .detected event => ∀ row t,
      w.endpoints.upsert pg (Consumer.upsertOf event) w.clock=.ok (row,t) → row.id=id →
      Consumer.loggedIn pg w row=true ∨ Confirms pg rt w row.status (Consumer.context row) ∨
        Confirms pg rt w (decisionToStatus p.decision) (Consumer.context row)
  | .posture report => ∀ row,
      (pg.macaddr report.deviceId).bind w.endpoints.findByMac=some row → row.id=id →
      let ctx := PostureHandler.context row report (PostureHandler.verdict rt report)
      Confirms pg rt w row.status ctx ∨ Confirms pg rt w (decisionToStatus p.decision) ctx
  | .evaluate defaultAction => ∀ row ∈ w.endpoints.list pg 10000 0, row.id=id →
      (∃ rules, Evaluate.loadedRules pg w.policies=.ok rules) →
      p.enabled=false → ¬Convertible p → ∀ st, defaultAction=some st.text →
        st=row.status ∨ st=decisionToStatus p.decision
  | _ => True

/-- What a new status is taken from: an event or a report takes it from the match by priority,
whatever is assigned, and the batch run from the assigned policy or, past it, from the default. -/
def TakenFrom (pg : Postgres) (rt : Runtime) (p : PolicyRow) (id : Uuid) (w : World)
    (new : Status) : Step → Prop
  | .detected event => ∃ row t rules,
      w.endpoints.upsert pg (Consumer.upsertOf event) w.clock=.ok (row,t) ∧ row.id=id ∧
      w.rules pg=.ok rules ∧ new=decisionToStatus (evaluate rt rules (Consumer.context row))
  | .posture report => ∃ row rules,
      (pg.macaddr report.deviceId).bind w.endpoints.findByMac=some row ∧ row.id=id ∧
      w.rules pg=.ok rules ∧ new=decisionToStatus (evaluate rt rules
        (PostureHandler.context row report (PostureHandler.verdict rt report)))
  | .evaluate defaultAction => new=decisionToStatus p.decision ∨
      p.enabled=false ∧ ¬Convertible p ∧ defaultAction=some new.text
  | _ => True

theorem confirms_iff {w : World} {rules : List PolicyRule} {status : Status} {ctx : PolicyContext}
    (hload : w.rules pg=.ok rules) (hne : rules≠[]) :
    Confirms pg rt w status ctx ↔ status=decisionToStatus (evaluate rt rules ctx) := by
  constructor
  · intro h
    exact h rules hload hne
  · intro h rules' hload' _
    obtain rfl : rules=rules' := Except.ok.inj (hload.symm.trans hload')
    exact h

theorem NoRules.confirms {w : World} (h : NoRules pg w) (status : Status) (ctx : PolicyContext) :
    Confirms pg rt w status ctx := fun rules hload hne => absurd (h rules hload) hne

namespace Honours

variable {p : PolicyRow} {id : Uuid} {w w' : World}

theorem of_same (h : w'.endpoints.statusOf id=w.endpoints.statusOf id) : Honours p id w w' :=
  fun hne => absurd h hne

/-- The device has got another status, that the rules decide on. -/
theorem iff_confirms {row : EndpointRow} {rules : List PolicyRule} {ctx : PolicyContext}
    (hload : w.rules pg=.ok rules) (hne : rules≠[])
    (hbefore : w.endpoints.statusOf id=row.status)
    (hdiffers : row.status≠decisionToStatus (evaluate rt rules ctx))
    (hafter : w'.endpoints.statusOf id=decisionToStatus (evaluate rt rules ctx)) :
    Honours p id w w' ↔ Confirms pg rt w row.status ctx ∨
      Confirms pg rt w (decisionToStatus p.decision) ctx := by
  rw [confirms_iff hload hne,confirms_iff hload hne,Honours,hbefore,hafter]
  constructor
  · intro h
    exact .inr (h hdiffers.symm).symm
  · intro given _
    rcases given with h | h
    · exact absurd h hdiffers
    · exact h.symm

end Honours

section Cases

variable {p : PolicyRow} {id : Uuid} {w : World}

/-- An event leaves the status of a device, or gives it the one that the rules decide on. -/
theorem detected_cases (p : PolicyRow) (id : Uuid) (event : EndpointDetectedEvent) (w : World) :
    ((w.handle pg (Consumer.processEvent rt event)).endpoints.statusOf id=w.endpoints.statusOf id ∧
        Concurs pg rt p id w (.detected event)) ∨
      ∃ row t rules, w.endpoints.upsert pg (Consumer.upsertOf event) w.clock=.ok (row,t) ∧
        row.id=id ∧ w.rules pg=.ok rules ∧ rules≠[] ∧ Consumer.loggedIn pg w row=false ∧
        row.status≠decisionToStatus (evaluate rt rules (Consumer.context row)) ∧
        (w.handle pg (Consumer.processEvent rt event)).endpoints.statusOf id=
          decisionToStatus (evaluate rt rules (Consumer.context row)) := by
  rcases Consumer.processEvent_outcome pg rt event w with
    ⟨⟨e,he⟩,hsame⟩ | ⟨row,t,w₁,hput,hout,heffect⟩
  · refine .inl ⟨by rw [hsame],?_⟩
    intro row t hput
    rw [he] at hput
    cases hput
  have hstored : w₁.endpoints.findById row.id=some row := by
    rw [heffect.endpoints]
    exact (EndpointTable.upsert_put hput).self
  have hkept : w₁.endpoints.statusOf=w.endpoints.statusOf := by
    rw [heffect.endpoints]
    exact EndpointTable.statusOf_put (EndpointTable.upsert_put hput)
      (EndpointTable.upsert_status hput)
  have hrules : w₁.rules pg=w.rules pg := rules_congr heffect.policies
  have hopen : Consumer.loggedIn pg w₁ row=Consumer.loggedIn pg w row := by
    rw [Consumer.loggedIn,heffect.sessions,Consumer.loggedIn]
  have hconcurs (h : row.id=id → Consumer.loggedIn pg w row=true ∨
      Confirms pg rt w row.status (Consumer.context row)) :
      Concurs pg rt p id w (.detected event) := by
    intro row' t' hput' hid
    rw [hput] at hput'
    cases hput'
    exact (h hid).imp_right .inl
  cases hout with
  | unevaluated hno heff =>
    refine .inl ⟨by rw [heff.endpoints,hkept],hconcurs fun _ => .inr ?_⟩
    exact ((NoRules.congr heffect.policies).mp hno).confirms _ _
  | kept hload hne hreason heff =>
    refine .inl ⟨by rw [heff.endpoints,hkept],hconcurs fun _ => ?_⟩
    rw [hopen] at hreason
    rw [hrules] at hload
    exact hreason.imp_right (confirms_iff hload hne).mpr
  | @changed rules hload hne hclosed hdiffers heff =>
    rw [hopen] at hclosed
    rw [hrules] at hload
    by_cases hid : row.id=id
    · refine .inr ⟨row,t,rules,hput,hid,hload,hne,hclosed,hdiffers,?_⟩
      rw [heff.endpoints,EndpointTable.statusOf_setStatus hstored,if_pos hid.symm]
    · refine .inl ⟨?_,hconcurs fun h => absurd h hid⟩
      rw [heff.endpoints,EndpointTable.statusOf_setStatus hstored,if_neg (Ne.symm hid),hkept]

/-- The same for a report. -/
theorem posture_cases (p : PolicyRow) (id : Uuid) (report : PostureReport) (w : World) :
    ((w.handle pg (PostureHandler.processPosture rt report)).endpoints.statusOf id=
        w.endpoints.statusOf id ∧ Concurs pg rt p id w (.posture report)) ∨
      ∃ row rules, (pg.macaddr report.deviceId).bind w.endpoints.findByMac=some row ∧ row.id=id ∧
        w.endpoints.findById row.id=some row ∧ w.rules pg=.ok rules ∧ rules≠[] ∧
        let new := decisionToStatus (evaluate rt rules
          (PostureHandler.context row report (PostureHandler.verdict rt report)))
        row.status≠new ∧
          (w.handle pg (PostureHandler.processPosture rt report)).endpoints.statusOf id=new := by
  have hreported (row : EndpointRow) (b : Bool) :
      (PostureHandler.reported w row report b).statusOf=w.endpoints.statusOf :=
    EndpointTable.statusOf_congr
      (PostureHandler.column_reported (fun _ => rfl) fun _ => rfl)
  have hconcurs {row : EndpointRow}
      (hfound : (pg.macaddr report.deviceId).bind w.endpoints.findByMac=some row)
      (h : row.id=id → Confirms pg rt w row.status
        (PostureHandler.context row report (PostureHandler.verdict rt report))) :
      Concurs pg rt p id w (.posture report) := by
    intro row' hfound' hid
    rw [hfound] at hfound'
    cases hfound'
    exact .inl (h hid)
  generalize hw' : w.handle pg (PostureHandler.processPosture rt report)=w'
  have hout := PostureHandler.processPosture_outcome pg rt report w
  rw [hw'] at hout
  cases hout with
  | unknown hnone =>
    refine .inl ⟨rfl,fun row hfound => ?_⟩
    rw [hnone] at hfound
    cases hfound
  | @kept _ row hfound hreason heff =>
    refine .inl ⟨by rw [heff.endpoints,hreported],hconcurs hfound fun _ => ?_⟩
    rcases hreason with hno | ⟨rules,hload,hne,hsame⟩
    · exact hno.confirms _ _
    · exact (confirms_iff hload hne).mpr hsame
  | @changed _ row rules new hfound hload hne hdecided hdiffers heff =>
    subst hdecided
    obtain ⟨mac,-,hmac⟩ := Option.bind_eq_some_iff.mp hfound
    have hstored := (EndpointTable.findByMac_eq_some.mp hmac).1
    have hrow := PostureHandler.find_reported hstored report (PostureHandler.verdict rt report)
    by_cases hid : row.id=id
    · refine .inr ⟨row,rules,hfound,hid,hstored,hload,hne,hdiffers,?_⟩
      rw [heff.endpoints,EndpointTable.statusOf_setStatus hrow,if_pos hid.symm]
    · refine .inl ⟨?_,hconcurs hfound fun h => absurd h hid⟩
      rw [heff.endpoints,EndpointTable.statusOf_setStatus hrow,if_neg (Ne.symm hid),hreported]

end Cases

namespace Evaluate

variable {rules : List (Uuid × PolicyRule)} {defaultAction : Option String} {w w' : World}

/-- Where no call fails and the default is a status, the loop ends without an error. -/
theorem evaluateEach_ok (pg : Postgres) (rt : Runtime) (rules : List (Uuid × PolicyRule))
    (defaultAction : Option Status) (eps : List EndpointRow) (acc : EvaluateResult) (w : World) :
    ∃ res w', (evaluateEach rt rules (defaultAction.map Status.text) eps acc).run (Call.exec pg) w=
      (.ok res,w') := by
  induction eps generalizing acc w with
  | nil => exact ⟨_,_,rfl⟩
  | cons ep eps ih =>
    unfold evaluateEach
    by_cases hexempt : ep.policyExempt=true
    · rw [if_pos hexempt]
      exact ih _ w
    rw [if_neg hexempt]
    obtain ⟨st,hst⟩ := run_policyStatus pg rt rules ep w
    rw [Proc.run_bind,hst]
    have hmap : (st.map Status.text).or (defaultAction.map Status.text)=
        (st.or defaultAction).map Status.text := by
      cases st <;> rfl
    dsimp only
    rw [hmap]
    cases st.or defaultAction with
    | none => exact ih _ w
    | some new =>
      simp only [Option.map_some,bne_iff_ne,ne_eq]
      by_cases hsame : ep.status.text=new.text
      · rw [if_neg (not_not_intro hsame)]
        exact ih _ w
      · rw [if_pos hsame,Proc.run_bind,applyStatus,World.run_query_bind]
        simp only [Call.exec,Status.parse_text]
        rw [World.run_probe_bind]
        exact ih _ _

theorem run_loadRulesWithId_ok (h : loadRulesWithId.run (Call.exec pg) w=(.ok rules,w')) :
    loadedRules pg w.policies=.ok rules := by
  rw [loadRulesWithId,World.run_query_bind] at h
  simp only [Call.exec] at h
  unfold loadedRules
  cases hr : (enabledPolicies pg w.policies).mapM fun r =>
      (toPolicyRule r).map fun rule => (r.id,rule) with
  | error e =>
    rw [hr] at h
    cases h
  | ok rules' =>
    rw [hr] at h
    cases h
    rfl

theorem run_policyStatus_exec (ep : EndpointRow) (w : World) :
    (policyStatus rt rules ep).run (Call.exec pg) w=
      (.ok (newStatus rt (fun _ => false) w.policies rules ep),w) :=
  run_policyStatus_eq pg rt (fun _ => false) w.policies rules ep rfl

/-- The world after the batch run, where the policies load and the default is a status. -/
theorem handle_swept (rt : Runtime) (hload : loadedRules pg w.policies=.ok rules)
    (d : Option Status) :
    ∃ res, Swept rt (fun _ => false) w.policies rules d (w.endpoints.list pg 10000 0)
      ⟨(w.endpoints.list pg 10000 0).length,0,0⟩ res w
      (w.handle pg (evaluatePolicies rt (d.map Status.text))) := by
  obtain ⟨res,w',hrun⟩ := evaluateEach_ok pg rt rules d
    (w.endpoints.list pg 10000 0) ⟨(w.endpoints.list pg 10000 0).length,0,0⟩ w
  have hwhole : (evaluatePolicies rt (d.map Status.text)).run
      (Call.execFailing pg fun _ => false) w=(.ok res,w') := by
    rw [run_evaluatePolicies,if_neg Bool.false_ne_true,hload]
    dsimp only
    rw [if_neg Bool.false_ne_true]
    exact hrun
  obtain ⟨rules',hload',swept⟩ := evaluatePolicies_swept hwhole
  rw [hload,Except.ok.injEq] at hload'
  subst hload'
  have hhandle : w.handle pg (evaluatePolicies rt (d.map Status.text))=w' :=
    congrArg Prod.snd hwhole
  rw [hhandle]
  exact ⟨res,swept⟩

end Evaluate

/-- What a step that evaluates does to the status of a device with an assigned policy: the step
keeps to the assignment exactly when what it decides on concurs, and what a new status is taken
from. -/
structure Assignment (pg : Postgres) (rt : Runtime) (p : PolicyRow) (id : Uuid) (w w' : World)
    (a : Step) : Prop where
  honours : Honours p id w w' ↔ Concurs pg rt p id w a
  taken : w'.endpoints.statusOf id≠w.endpoints.statusOf id →
    TakenFrom pg rt p id w (w'.endpoints.statusOf id) a

namespace Assignment

variable {p : PolicyRow} {id : Uuid} {ep : EndpointRow} {w w' : World}

theorem of_same {a : Step} (h : w'.endpoints.statusOf id=w.endpoints.statusOf id)
    (hconcurs : Concurs pg rt p id w a) : Assignment pg rt p id w w' a :=
  ⟨iff_of_true (Honours.of_same h) hconcurs,fun hne => absurd h hne⟩

theorem detected (event : EndpointDetectedEvent) :
    Assignment pg rt p id w (w.handle pg (Consumer.processEvent rt event)) (.detected event) := by
  rcases detected_cases p id event w with
    ⟨hsame,hconcurs⟩ | ⟨row,t,rules,hput,hid,hload,hne,hclosed,hdiffers,hafter⟩
  · exact of_same hsame hconcurs
  refine ⟨?_,fun _ => ⟨row,t,rules,hput,hid,hload,hafter⟩⟩
  have hbefore : w.endpoints.statusOf id=row.status :=
    hid ▸ (EndpointTable.upsert_status hput).symm
  rw [Honours.iff_confirms hload hne hbefore hdiffers hafter]
  constructor
  · intro h row' t' hput' _
    rw [hput] at hput'
    cases hput'
    exact .inr h
  · intro h
    simpa [hclosed] using h row t hput hid

theorem posture (report : PostureReport) :
    Assignment pg rt p id w (w.handle pg (PostureHandler.processPosture rt report))
      (.posture report) := by
  rcases posture_cases p id report w with
    ⟨hsame,hconcurs⟩ | ⟨row,rules,hfound,hid,hstored,hload,hne,hdiffers,hafter⟩
  · exact of_same hsame hconcurs
  refine ⟨?_,fun _ => ⟨row,rules,hfound,hid,hload,hafter⟩⟩
  have hbefore : w.endpoints.statusOf id=row.status := hid ▸ EndpointTable.statusOf_of_find hstored
  rw [Honours.iff_confirms hload hne hbefore hdiffers hafter]
  constructor
  · intro h row' hfound' _
    rw [hfound] at hfound'
    cases hfound'
    exact h
  · intro h
    exact h row hfound hid

section Batch

variable (keys : PolicyKeys w) (hp : p ∈ w.policies) (hep : ep ∈ w.endpoints.rows)
  (hassigned : ep.assignedPolicyId=some p.id) (hexempt : ep.policyExempt=false)
  (defaultAction : Option String)

include hep in
theorem eq_of_listed {row : EndpointRow} (hrow : row ∈ w.endpoints.list pg 10000 0)
    (hid : row.id=ep.id) : row=ep :=
  List.inj_on_of_nodup_map w.endpoints.ids (EndpointTable.mem_of_list hrow) hep hid

include keys hp hep hassigned in
/-- The batch run changes the status to that of the policy, or to the default where the device is
listed and the policy cannot be read. -/
theorem evaluate_status (pg : Postgres) (rt : Runtime) :
    let new := (w.handle pg (Evaluate.evaluatePolicies rt defaultAction)).endpoints.statusOf ep.id
    new=ep.status ∨ new=decisionToStatus p.decision ∨
      ep ∈ w.endpoints.list pg 10000 0 ∧ (∃ rules, Evaluate.loadedRules pg w.policies=.ok rules) ∧
        p.enabled=false ∧ ¬Convertible p ∧ defaultAction=some new.text := by
  have hfind : w.endpoints.findById ep.id=some ep := EndpointTable.findById_eq_some.mpr ⟨hep,rfl⟩
  refine (Evaluate.evaluatePolicies_preserves pg rt (fun w₁ =>
    w₁.policies=w.policies ∧ (w₁.endpoints.statusOf ep.id=ep.status ∨
      w₁.endpoints.statusOf ep.id=decisionToStatus p.decision ∨
        ep ∈ w.endpoints.list pg 10000 0 ∧ (∃ rules, Evaluate.loadedRules pg w.policies=.ok rules) ∧
        p.enabled=false ∧ ¬Convertible p ∧
          defaultAction=some (w₁.endpoints.statusOf ep.id).text)) defaultAction w ?_
    ⟨rfl,.inl (EndpointTable.statusOf_of_find hfind)⟩).2
  intro rules hrun w₁ row new hrow hinv hstored _ _ hdecides
  obtain ⟨hpolicies,hstatus⟩ := hinv
  obtain ⟨st,hst,htext⟩ := hdecides
  refine ⟨hpolicies,?_⟩
  have hafter : (Evaluate.applied w₁ row new).endpoints.statusOf ep.id=
      if ep.id=row.id then new else w₁.endpoints.statusOf ep.id :=
    EndpointTable.statusOf_setStatus hstored new ep.id
  rw [hafter]
  by_cases hid : row.id=ep.id
  · obtain rfl := eq_of_listed hep hrow hid
    rw [if_pos rfl]
    have hload := Evaluate.run_loadRulesWithId_ok hrun
    rw [Evaluate.run_policyStatus_exec,hpolicies] at hst
    simp only [Prod.mk.injEq,Except.ok.injEq,and_true] at hst
    obtain ⟨hno,hyes⟩ := Evaluate.newStatus_assigned rt (fun _ => false) keys
      hload hp hassigned
    by_cases hu : Evaluate.Unreadable (fun _ => false) p
    · rw [← hst,hno hu] at htext
      have hconv : ¬Convertible p := hu.2.resolve_left (by simp)
      exact .inr (.inr ⟨hrow,⟨rules,hload⟩,hu.1,hconv,htext⟩)
    · rw [← hst,hyes hu] at htext
      have hsame := congrArg Status.parse (Option.some.inj htext)
      rw [Status.parse_text,Status.parse_text,Option.some.injEq] at hsame
      exact .inr (.inl hsame.symm)
  · rw [if_neg (Ne.symm hid)]
    exact hstatus

include keys hp hep hassigned hexempt in
/-- Where the policy cannot be read, a default that is a status is what the batch run gives. -/
theorem evaluate_default (rt : Runtime) (hlisted : ep ∈ w.endpoints.list pg 10000 0)
    (hload : ∃ rules, Evaluate.loadedRules pg w.policies=.ok rules) (hdisabled : p.enabled=false)
    (hconv : ¬Convertible p) (st : Status) :
    (w.handle pg (Evaluate.evaluatePolicies rt (some st.text))).endpoints.statusOf ep.id=st := by
  obtain ⟨rules,hload⟩ := hload
  obtain ⟨res,swept⟩ := Evaluate.handle_swept rt hload (some st)
  have hturn : (w.endpoints.list pg 10000 0).find? (·.id==ep.id)=some ep := by
    cases hf : (w.endpoints.list pg 10000 0).find? (·.id==ep.id) with
    | none => exact absurd (List.find?_eq_none.mp hf ep hlisted) (by simp)
    | some row =>
      have hid : row.id=ep.id := by simpa using List.find?_some hf
      rw [eq_of_listed hep (List.mem_of_find?_eq_some hf) hid]
  have hnone := (Evaluate.newStatus_assigned rt (fun _ => false) keys hload hp
    hassigned).1 ⟨hdisabled,.inr hconv⟩
  have hrow := swept.rows ep.id
  rw [hturn] at hrow
  have hafter := EndpointTable.statusOf_of_find hrow
  simp only [Evaluate.target,hexempt,Bool.false_eq_true,if_false,hnone,Option.none_or,
    Option.getD_some] at hafter
  exact hafter

include keys hp hep hassigned hexempt in
theorem evaluate :
    Assignment pg rt p ep.id w (w.handle pg (Evaluate.evaluatePolicies rt defaultAction))
      (.evaluate defaultAction) := by
  have hbefore : w.endpoints.statusOf ep.id=ep.status :=
    EndpointTable.statusOf_of_find (EndpointTable.findById_eq_some.mpr ⟨hep,rfl⟩)
  have hstatus := evaluate_status keys hp hep hassigned defaultAction pg rt
  dsimp only at hstatus
  refine ⟨⟨?_,?_⟩,?_⟩
  · intro h row hrow hid hload hdisabled hconv st same
    subst same
    obtain rfl := eq_of_listed hep hrow hid
    have hafter := evaluate_default keys hp hep hassigned hexempt rt hrow hload hdisabled
      hconv st
    by_cases hst : st=row.status
    · exact .inl hst
    · refine .inr (hafter.symm.trans (h ?_))
      rw [hbefore,hafter]
      exact hst
  · intro h hne
    rw [hbefore] at hne
    rcases hstatus with hsame | hpolicy | ⟨hlisted,hload,hdisabled,hconv,htext⟩
    · exact absurd hsame hne
    · exact hpolicy
    · exact (h ep hlisted rfl hload hdisabled hconv _ htext).resolve_left hne
  · intro hne
    rw [hbefore] at hne
    exact (hstatus.resolve_left hne).imp_right fun h => h.2.2

end Batch

end Assignment

/-- For a device with an assigned policy that is not exempt, an evaluation keeps to the assignment
exactly when what it decides on concurs. -/
theorem assignment_honoured_iff {s : Platform} {a : Step} {p : PolicyRow} {ep : EndpointRow}
    (keys : PolicyKeys s.world) (hp : p ∈ s.world.policies) (hep : ep ∈ s.world.endpoints.rows)
    (hassigned : ep.assignedPolicyId=some p.id) (hexempt : ep.policyExempt=false)
    (ha : a.evaluates=true) : Assignment pg rt p ep.id s.world (s.step pg rt a).world a := by
  cases a with
  | detected event => exact .detected event
  | posture report => exact .posture report
  | evaluate defaultAction => exact .evaluate keys hp hep hassigned hexempt defaultAction
  | _ => cases ha

/-- A policy behind the one that allows every device. -/
def denyAll : PolicyRow := { catchAll .deny with id := 2, priority := 200 }

/-- A device that is allowed when it is detected, and is then assigned `denyAll`. -/
def assignedRun : Platform :=
  runs (Platform.step Postgres.plain Runtime.ascii) (Platform.initial [catchAll .allow,denyAll])
    [.detected firstSighting,.assignPolicy 1 (some 2)]

theorem assignedRun_policies : assignedRun.world.policies=[catchAll .allow,denyAll] := rfl

theorem assignedRun_row : ∃ ep, assignedRun.world.endpoints.rows=[ep] ∧ ep.id=1 ∧
    ep.assignedPolicyId=some denyAll.id ∧ ep.policyExempt=false := ⟨_,rfl,rfl,rfl,rfl⟩

/-- The batch run denies the device. -/
theorem assignment_honoured_by_batch :
    Assignment .plain .ascii denyAll 1 assignedRun.world
      (assignedRun.step .plain .ascii (.evaluate none)).world (.evaluate none) := by
  obtain ⟨ep,hrows,hid,hassigned,hexempt⟩ := assignedRun_row
  have hp : denyAll ∈ assignedRun.world.policies := by
    rw [assignedRun_policies]
    exact .tail _ (.head _)
  have hep : ep ∈ assignedRun.world.endpoints.rows := by
    rw [hrows]
    exact .head _
  have keys : PolicyKeys assignedRun.world := by
    refine ⟨by decide,fun ep' hep' pid h => ?_⟩
    rw [hrows] at hep'
    obtain rfl := List.mem_singleton.mp hep'
    rw [hassigned,Option.some.injEq] at h
    exact ⟨denyAll,hp,h⟩
  exact hid ▸ assignment_honoured_iff keys hp hep hassigned hexempt rfl

/-- Denied by the batch run, the device is allowed again when it is detected again. -/
theorem assignment_overridden :
    let step := Platform.step Postgres.plain Runtime.ascii
    let s := step assignedRun (.evaluate none)
    s.world.policies=[catchAll .allow,denyAll] ∧
      s.world.endpoints.column (fun r => (r.status,r.assignedPolicyId,r.policyExempt)) 1=
        some (.denied,some denyAll.id,false) ∧
      ¬Honours denyAll 1 s.world (step s (.detected firstSighting)).world := by
  refine ⟨rfl,by decide +kernel,?_⟩
  unfold Honours
  decide +kernel

end NacPlatform
