import NacPlatform.PolicyManager.Outcomes
import NacPlatform.PolicyManager.Policies

namespace NacPlatform

/-- The same where a call of any kind fails without effect, a publication too. -/
def Call.execFailing (pg : Postgres) (fails : Call → Bool) (c : Call) (w : World) :
    c.Reply × World :=
  if fails c then (.error .unavailable,w) else c.exec pg w

/-- The keys of the schema: the ids of the policies, and the policies that devices refer to. -/
structure PolicyKeys (w : World) : Prop where
  ids : (w.policies.map (·.id)).Nodup
  assigned : ∀ ep ∈ w.endpoints.rows, ∀ pid, ep.assignedPolicyId=some pid →
    ∃ p ∈ w.policies, p.id=pid

namespace Evaluate

section Loop

variable (pg : Postgres) (rt : Runtime) (fails : Call → Bool) (policies : List PolicyRow)
  (rules : List (Uuid × PolicyRule)) (defaultAction : Option Status)

/-- The status of the policy as the loop reads it: a lookup that fails, of a policy that does not
convert too, is as if there were none. -/
def readStatus (pid : Uuid) : Option Status :=
  if fails (.findPolicy pid) then none
  else (policies.find? (·.id==pid)).bind fun p =>
    (toPolicyRule p).toOption.map fun rule => decisionToStatus rule.decision

/-- `new_status`. -/
def newStatus (ep : EndpointRow) : Option Status :=
  match ep.assignedPolicyId with
  | some pid =>
    match rules.find? (·.1==pid) with
    | some (_,rule) => some (decisionToStatus rule.decision)
    | none => readStatus fails policies pid
  | none => (automaticMatch rt rules ep).map fun rule => decisionToStatus rule.decision

/-- The status that a device has after its turn. -/
def target (ep : EndpointRow) : Status :=
  if ep.policyExempt then ep.status
  else ((newStatus rt fails policies rules ep).or defaultAction).getD ep.status

def changes (ep : EndpointRow) : Bool :=
  target rt fails policies rules defaultAction ep != ep.status

/-- What the loop has done to its counters, the table and the bus after the rows `eps`. -/
structure Swept (eps : List EndpointRow) (acc res : EvaluateResult) (w w' : World) : Prop where
  evaluated : res.evaluated=acc.evaluated
  skipped : res.skipped=acc.skipped+(eps.filter (·.policyExempt)).length
  changed : res.changed=acc.changed+
    (eps.filter (changes rt fails policies rules defaultAction)).length
  rows : ∀ id, w'.endpoints.findById id=
    match eps.find? (·.id==id) with
    | some ep => some { ep with status := target rt fails policies rules defaultAction ep }
    | none => w.endpoints.findById id
  commands : w'.commands=w.commands++
    (((eps.filter (changes rt fails policies rules defaultAction)).map fun ep =>
      commandFor ep (target rt fails policies rules defaultAction ep)).filter
        fun cmd => !fails (.publishCommand cmd))
  sessions : w'.sessions=w.sessions

theorem run_policyStatus_eq (ep : EndpointRow) {w : World} (hw : w.policies=policies) :
    (policyStatus rt rules ep).run (Call.execFailing pg fails) w=
      (.ok (newStatus rt fails policies rules ep),w) := by
  unfold policyStatus newStatus
  cases ep.assignedPolicyId with
  | none => rfl
  | some pid =>
    dsimp only
    cases rules.find? (·.1==pid) with
    | some r => rfl
    | none =>
      dsimp only
      rw [Proc.run_bind,Proc.run_attempt,findRuleById,World.run_query_bind,Call.execFailing,
        readStatus]
      by_cases hf : fails (.findPolicy pid)=true
      · rw [if_pos hf,if_pos hf]
        rfl
      · rw [if_neg hf,if_neg hf]
        simp only [Call.exec,hw]
        cases policies.find? (·.id==pid) with
        | none => rfl
        | some p =>
          dsimp only [Option.bind_some]
          cases toPolicyRule p with
          | error e => rfl
          | ok rule => rfl

/-- A status that differs is stored and then published. -/
theorem run_applyStatus_ok {ep : EndpointRow} {st : Status} {w w' : World} {u : Unit}
    (h : (applyStatus ep st.text).run (Call.execFailing pg fails) w=(.ok u,w')) :
    w'.endpoints=w.endpoints.setStatus ep.id st ∧ w'.sessions=w.sessions ∧
      w'.policies=w.policies ∧
      w'.commands=w.commands++
        [commandFor ep st].filter fun cmd => !fails (.publishCommand cmd) := by
  rw [applyStatus,World.run_query_bind,Call.execFailing] at h
  by_cases hset : fails (.setStatus ep.id st.text)=true
  · rw [if_pos hset] at h
    cases h
  · rw [if_neg hset] at h
    simp only [Call.exec,Status.parse_text] at h
    rw [World.run_probe_bind,Call.execFailing] at h
    have hcmd : enforcementCommand ep.macAddress.text (ep.ipAddress.getD "") st.text none=
      commandFor ep st := rfl
    rw [hcmd] at h
    by_cases hsend : fails (.publishCommand (commandFor ep st))=true
    · rw [if_pos hsend] at h
      cases h
      exact ⟨rfl,rfl,rfl,by simp [hsend]⟩
    · rw [if_neg hsend] at h
      cases h
      exact ⟨rfl,rfl,rfl,by simp [hsend,Call.exec]⟩

variable {rt fails policies rules defaultAction}

theorem Swept.nil (acc : EvaluateResult) (w : World) :
    Swept rt fails policies rules defaultAction [] acc acc w w :=
  ⟨rfl,rfl,rfl,fun _ => rfl,by simp,rfl⟩

/-- Two parts of the loop, over different devices, one after the other. -/
theorem Swept.append {eps eps' : List EndpointRow} {acc acc₁ res : EvaluateResult}
    {w w₁ w' : World} (hn : ((eps++eps').map (·.id)).Nodup)
    (h : Swept rt fails policies rules defaultAction eps acc acc₁ w w₁)
    (h' : Swept rt fails policies rules defaultAction eps' acc₁ res w₁ w') :
    Swept rt fails policies rules defaultAction (eps++eps') acc res w w' where
  evaluated := h'.evaluated.trans h.evaluated
  skipped := by
    rw [h'.skipped,h.skipped,List.filter_append,List.length_append,Nat.add_assoc]
  changed := by
    rw [h'.changed,h.changed,List.filter_append,List.length_append,Nat.add_assoc]
  rows id := by
    rw [h'.rows id,List.find?_append]
    cases hf : eps.find? (·.id==id) with
    | none =>
      rw [Option.none_or,h.rows id,hf]
    | some ep =>
      have hnone : eps'.find? (·.id==id)=none := by
        rw [List.find?_eq_none]
        intro ep' hep' he
        have hid : ep.id=id := by simpa using List.find?_some hf
        have hid' : ep'.id=id := by simpa using he
        rw [List.map_append,List.nodup_append] at hn
        exact hn.2.2 ep.id (List.mem_map_of_mem (List.mem_of_find?_eq_some hf)) ep'.id
          (List.mem_map_of_mem hep') (hid.trans hid'.symm)
      rw [hnone,Option.some_or,h.rows id,hf]
  commands := by
    rw [h'.commands,h.commands,List.filter_append,List.map_append,List.filter_append,
      List.append_assoc]
  sessions := h'.sessions.trans h.sessions

/-- A turn that leaves the device as it is. -/
theorem Swept.keep {ep : EndpointRow} {acc acc' : EvaluateResult} {w : World}
    (hep : w.endpoints.findById ep.id=some ep)
    (hsame : target rt fails policies rules defaultAction ep=ep.status)
    (hevaluated : acc'.evaluated=acc.evaluated) (hchanged : acc'.changed=acc.changed)
    (hskipped : acc'.skipped=acc.skipped+([ep].filter (·.policyExempt)).length) :
    Swept rt fails policies rules defaultAction [ep] acc acc' w w := by
  have hchanges : changes rt fails policies rules defaultAction ep=false := by
    simp [changes,hsame]
  refine ⟨hevaluated,hskipped,?_,?_,?_,rfl⟩
  · rw [hchanged,List.filter_cons_of_neg (by simp [hchanges])]
    rfl
  · intro id
    by_cases hid : ep.id=id
    · subst hid
      rw [hep,List.find?_cons_of_pos (by simp)]
      dsimp only
      rw [hsame]
    · rw [List.find?_cons_of_neg (by simpa using hid)]
      rfl
  · rw [List.filter_cons_of_neg (by simp [hchanges])]
    simp

/-- A turn that changes the status of the device. -/
theorem Swept.change {ep : EndpointRow} {acc acc' : EvaluateResult} {w w' : World} {st : Status}
    (hep : w.endpoints.findById ep.id=some ep) (hexempt : ep.policyExempt=false)
    (htarget : target rt fails policies rules defaultAction ep=st) (hne : ep.status≠st)
    (hacc : acc'={ acc with changed := acc.changed+1 })
    (hendpoints : w'.endpoints=w.endpoints.setStatus ep.id st) (hsessions : w'.sessions=w.sessions)
    (hcommands : w'.commands=w.commands++
      [commandFor ep st].filter fun cmd => !fails (.publishCommand cmd)) :
    Swept rt fails policies rules defaultAction [ep] acc acc' w w' := by
  have hchanges : changes rt fails policies rules defaultAction ep=true := by
    simpa [changes,htarget] using fun e : st=ep.status => hne e.symm
  subst hacc
  refine ⟨rfl,?_,?_,?_,?_,hsessions⟩
  · simp [hexempt]
  · rw [List.filter_cons_of_pos hchanges]
    rfl
  · intro id
    rw [hendpoints,EndpointTable.findById_setStatus]
    by_cases hid : ep.id=id
    · subst hid
      rw [hep,List.find?_cons_of_pos (by simp)]
      dsimp only
      rw [htarget]
      simp
    · rw [List.find?_cons_of_neg (by simpa using hid),
        EndpointTable.map_findById_other fun e => hid e.symm]
      rfl
  · rw [List.filter_cons_of_pos hchanges,hcommands,List.map_cons,htarget]
    rfl

/-- The loop, when it ends without an error: the induction is on the rows that are left, each of
which the table still holds as it was read. -/
theorem evaluateEach_swept {eps : List EndpointRow} {acc res : EvaluateResult} {w w' : World}
    (hpolicies : w.policies=policies) (hn : (eps.map (·.id)).Nodup)
    (heps : ∀ ep ∈ eps, w.endpoints.findById ep.id=some ep)
    (h : (evaluateEach rt rules (defaultAction.map Status.text) eps acc).run
      (Call.execFailing pg fails) w=(.ok res,w')) :
    Swept rt fails policies rules defaultAction eps acc res w w' := by
  induction eps generalizing acc w with
  | nil =>
    cases h
    exact Swept.nil _ _
  | cons ep eps ih =>
    obtain ⟨hep,hrest⟩ := List.forall_mem_cons.mp heps
    have hn' := (List.nodup_cons.mp hn).2
    unfold evaluateEach at h
    by_cases hexempt : ep.policyExempt=true
    · rw [if_pos hexempt] at h
      have hturn : Swept rt fails policies rules defaultAction [ep] acc
          { acc with skipped := acc.skipped+1 } w w :=
        .keep hep (if_pos hexempt) rfl rfl (by simp [hexempt])
      exact hturn.append hn (ih hpolicies hn' hrest h)
    rw [if_neg hexempt,Proc.run_bind,
      run_policyStatus_eq pg rt fails policies rules ep hpolicies] at h
    have hfalse : ep.policyExempt=false := by simpa using hexempt
    have htarget : target rt fails policies rules defaultAction ep=
        ((newStatus rt fails policies rules ep).or defaultAction).getD ep.status := if_neg hexempt
    have hmap : ((newStatus rt fails policies rules ep).map Status.text).or
        (defaultAction.map Status.text)=
          ((newStatus rt fails policies rules ep).or defaultAction).map Status.text := by
      cases newStatus rt fails policies rules ep <;> rfl
    dsimp only at h
    rw [hmap] at h
    cases hst : (newStatus rt fails policies rules ep).or defaultAction with
    | none =>
      rw [hst] at h htarget
      have hturn : Swept rt fails policies rules defaultAction [ep] acc acc w w :=
        .keep hep htarget rfl rfl (by simp [hfalse])
      exact hturn.append hn (ih hpolicies hn' hrest h)
    | some st =>
      rw [hst] at h htarget
      simp only [Option.map_some,bne_iff_ne,ne_eq] at h
      by_cases hsame : ep.status.text=st.text
      · rw [if_neg (not_not_intro hsame)] at h
        have hstatus : ep.status=st := by
          have hparse := congrArg Status.parse hsame
          rwa [Status.parse_text,Status.parse_text,Option.some.injEq] at hparse
        have hturn : Swept rt fails policies rules defaultAction [ep] acc acc w w :=
          .keep hep (htarget.trans hstatus.symm) rfl rfl (by simp [hfalse])
        exact hturn.append hn (ih hpolicies hn' hrest h)
      · rw [if_pos hsame,Proc.run_bind] at h
        have hne : ep.status≠st := fun e => hsame (congrArg Status.text e)
        rcases happly : (applyStatus ep st.text).run (Call.execFailing pg fails) w with ⟨_|u,w₁⟩
        · rw [happly] at h
          cases h
        · rw [happly] at h
          obtain ⟨hendpoints,hsessions,hpolicies₁,hcommands⟩ := run_applyStatus_ok pg fails happly
          have hturn : Swept rt fails policies rules defaultAction [ep] acc
              { acc with changed := acc.changed+1 } w w₁ :=
            .change hep hfalse htarget hne rfl hendpoints hsessions hcommands
          refine hturn.append hn (ih (hpolicies₁.trans hpolicies) hn' ?_ h)
          intro ep' hep'
          have hid : ep'.id≠ep.id := fun e =>
            (List.nodup_cons.mp hn).1 (List.mem_map.mpr ⟨ep',hep',e⟩)
          rw [hendpoints,EndpointTable.findById_setStatus,hrest ep' hep']
          simp [hid]

end Loop

/-- `load_rules_with_id`. -/
def loadedRules (pg : Postgres) (policies : List PolicyRow) :
    Except DbError (List (Uuid × PolicyRule)) :=
  (enabledPolicies pg policies).mapM fun r => (toPolicyRule r).map fun rule => (r.id,rule)

theorem toPolicyRule_decision {p : PolicyRow} {rule : PolicyRule} (h : toPolicyRule p=.ok rule) :
    rule.decision=p.decision := by
  unfold toPolicyRule at h
  cases hc : storedConditions p.conditions with
  | error e => simp [hc,bind,Except.bind] at h
  | ok cs =>
    simp only [hc,bind,Except.bind,pure,Except.pure,Except.ok.injEq] at h
    rw [← h]

/-- The whole run: the rules are loaded, a page of devices is listed, and each has its turn. -/
theorem run_evaluatePolicies (pg : Postgres) (rt : Runtime) (fails : Call → Bool)
    (defaultAction : Option String) (w : World) :
    (evaluatePolicies rt defaultAction).run (Call.execFailing pg fails) w=
      if fails .enabledPolicies then (.error .unavailable,w)
      else
        match loadedRules pg w.policies with
        | .error e => (.error e,w)
        | .ok rules =>
          if fails (.listEndpoints 10000 0) then (.error .unavailable,w)
          else
            (evaluateEach rt rules defaultAction (w.endpoints.list pg 10000 0)
              ⟨(w.endpoints.list pg 10000 0).length,0,0⟩).run (Call.execFailing pg fails) w := by
  unfold evaluatePolicies loadedRules
  rw [Proc.run_bind,loadRulesWithId,World.run_query_bind,Call.execFailing]
  by_cases hload : fails .enabledPolicies=true
  · rw [if_pos hload,if_pos hload]
  rw [if_neg hload,if_neg hload]
  simp only [Call.exec]
  cases (enabledPolicies pg w.policies).mapM fun r =>
      (toPolicyRule r).map fun rule => (r.id,rule) with
  | error e => rfl
  | ok rules =>
    simp only [Proc.run_pure]
    rw [World.run_query_bind,Call.execFailing]
    by_cases hlisted : fails (.listEndpoints 10000 0)=true
    · rw [if_pos hlisted,if_pos hlisted]
    · rw [if_neg hlisted,if_neg hlisted]
      rfl

/-- The batch run, when it ends without an error. -/
theorem evaluatePolicies_swept {pg : Postgres} {rt : Runtime} {fails : Call → Bool}
    {defaultAction : Option Status} {res : EvaluateResult} {w w' : World}
    (h : (evaluatePolicies rt (defaultAction.map Status.text)).run (Call.execFailing pg fails) w=
      (.ok res,w')) :
    ∃ rules, loadedRules pg w.policies=.ok rules ∧
      Swept rt fails w.policies rules defaultAction (w.endpoints.list pg 10000 0)
        ⟨(w.endpoints.list pg 10000 0).length,0,0⟩ res w w' := by
  rw [run_evaluatePolicies] at h
  by_cases hload : fails .enabledPolicies=true
  · rw [if_pos hload] at h
    cases h
  rw [if_neg hload] at h
  cases hrules : loadedRules pg w.policies with
  | error e =>
    rw [hrules] at h
    cases h
  | ok rules =>
    rw [hrules] at h
    dsimp only at h
    by_cases hlisted : fails (.listEndpoints 10000 0)=true
    · rw [if_pos hlisted] at h
      cases h
    · rw [if_neg hlisted] at h
      exact ⟨rules,rfl,evaluateEach_swept pg rfl (EndpointTable.list_ids 10000 0)
        (fun ep hep => EndpointTable.findById_of_list hep) h⟩

theorem find_loaded {rows : List PolicyRow} {rules : List (Uuid × PolicyRule)}
    (h : List.Forall₂ (fun (r : PolicyRow) rule =>
      (toPolicyRule r).map (fun rule => (r.id,rule))=.ok rule) rows rules) (pid : Uuid) :
    (rules.find? (·.1==pid)).map (fun rule => rule.2.decision)=
      (rows.find? (·.id==pid)).map (·.decision) := by
  induction h with
  | nil => rfl
  | @cons r rule rows rules hr _ ih =>
    cases hrule : toPolicyRule r with
    | error e =>
      rw [hrule] at hr
      cases hr
    | ok rule' =>
      rw [hrule] at hr
      cases hr
      by_cases hid : r.id=pid
      · rw [List.find?_cons_of_pos (by simpa using hid),List.find?_cons_of_pos (by simpa using hid)]
        exact congrArg some (toPolicyRule_decision hrule)
      · rw [List.find?_cons_of_neg (by simpa using hid),List.find?_cons_of_neg (by simpa using hid)]
        exact ih

/-- The policy is disabled, so that it is looked up by itself, and that fails or finds a row that
does not convert. -/
def Unreadable (fails : Call → Bool) (p : PolicyRow) : Prop :=
  p.enabled=false ∧ (fails (.findPolicy p.id)=true ∨ ¬Convertible p)

section Assigned

variable {pg : Postgres} {rt : Runtime} {fails : Call → Bool} {rules : List (Uuid × PolicyRule)}
  {defaultAction : Option Status} {w : World} {ep : EndpointRow} {p : PolicyRow}

theorem find_policy (keys : PolicyKeys w) (hp : p ∈ w.policies) :
    w.policies.find? (·.id==p.id)=some p :=
  find?_unique keys.ids hp (by simp) fun r _ hr => by simpa using hr

theorem find_assigned (keys : PolicyKeys w) (hload : loadedRules pg w.policies=.ok rules)
    (hp : p ∈ w.policies) :
    (rules.find? (·.1==p.id)).map (fun rule => rule.2.decision)=
      if p.enabled then some p.decision else none := by
  rw [find_loaded (mapM_eq_ok_iff.mp hload) p.id]
  by_cases henabled : p.enabled=true
  · rw [if_pos henabled]
    have hfind : (enabledPolicies pg w.policies).find? (·.id==p.id)=some p := by
      cases hf : (enabledPolicies pg w.policies).find? (·.id==p.id) with
      | none =>
        exact absurd (List.find?_eq_none.mp hf p (mem_enabledPolicies.mpr ⟨hp,henabled⟩)) (by simp)
      | some q =>
        have hq := (mem_enabledPolicies.mp (List.mem_of_find?_eq_some hf)).1
        have hid : q.id=p.id := by simpa using List.find?_some hf
        rw [List.inj_on_of_nodup_map keys.ids hq hp hid]
    rw [hfind]
    rfl
  · rw [if_neg henabled]
    have hfind : (enabledPolicies pg w.policies).find? (·.id==p.id)=none := by
      rw [List.find?_eq_none]
      intro q hq he
      obtain ⟨hq,hqe⟩ := mem_enabledPolicies.mp hq
      have hid : q.id=p.id := by simpa using he
      rw [List.inj_on_of_nodup_map keys.ids hq hp hid] at hqe
      exact henabled hqe
    rw [hfind]
    rfl

/-- The status of the assigned policy, enabled or not, unless it cannot be read. -/
theorem newStatus_assigned (rt : Runtime) (fails : Call → Bool) (keys : PolicyKeys w)
    (hload : loadedRules pg w.policies=.ok rules) (hp : p ∈ w.policies)
    (ha : ep.assignedPolicyId=some p.id) :
    (Unreadable fails p → newStatus rt fails w.policies rules ep=none) ∧
    (¬Unreadable fails p →
      newStatus rt fails w.policies rules ep=some (decisionToStatus p.decision)) := by
  have hfind := find_assigned keys hload hp
  unfold newStatus
  rw [ha]
  dsimp only
  cases hr : rules.find? (·.1==p.id) with
  | some rule =>
    rw [hr] at hfind
    by_cases henabled : p.enabled=true
    · rw [if_pos henabled,Option.map_some,Option.some.injEq] at hfind
      refine ⟨fun h => ?_,fun _ => by rw [← hfind]⟩
      rw [h.1] at henabled
      cases henabled
    · rw [if_neg henabled] at hfind
      cases hfind
  | none =>
    rw [hr] at hfind
    have hdisabled : p.enabled=false := by
      cases he : p.enabled with
      | false => rfl
      | true =>
        rw [he] at hfind
        cases hfind
    unfold readStatus
    rw [find_policy keys hp]
    dsimp only [Option.bind_some]
    by_cases hf : fails (.findPolicy p.id)=true
    · rw [if_pos hf]
      exact ⟨fun _ => rfl,fun h => absurd ⟨hdisabled,.inl hf⟩ h⟩
    · rw [if_neg hf]
      cases hrule : toPolicyRule p with
      | error e =>
        have hconv : ¬Convertible p := by
          intro given
          obtain ⟨rule,h⟩ := given
          rw [hrule] at h
          cases h
        exact ⟨fun _ => rfl,fun h => absurd ⟨hdisabled,.inr hconv⟩ h⟩
      | ok rule =>
        refine ⟨?_,fun _ => congrArg (some ∘ decisionToStatus) (toPolicyRule_decision hrule)⟩
        intro given
        obtain ⟨-,h|h⟩ := given
        · exact absurd h hf
        · exact absurd ⟨rule,hrule⟩ h

/-- What the batch run is for: the assigned policy, else the first rule that matches, else the
default, else what it was. -/
def expectedStatus (rt : Runtime) (policies : List PolicyRow) (rules : List (Uuid × PolicyRule))
    (defaultAction : Option Status) (ep : EndpointRow) : Status :=
  if ep.policyExempt then ep.status
  else
    match ep.assignedPolicyId.bind fun pid => policies.find? (·.id==pid) with
    | some p => decisionToStatus p.decision
    | none =>
      (((automaticMatch rt rules ep).map fun rule => decisionToStatus rule.decision).or
        defaultAction).getD ep.status

theorem target_eq_expected_iff (keys : PolicyKeys w) (hload : loadedRules pg w.policies=.ok rules)
    (hep : ep ∈ w.endpoints.rows) :
    target rt fails w.policies rules defaultAction ep=
        expectedStatus rt w.policies rules defaultAction ep ↔
      (ep.policyExempt=false → ∀ p ∈ w.policies, ep.assignedPolicyId=some p.id →
        Unreadable fails p → defaultAction.getD ep.status=decisionToStatus p.decision) := by
  unfold target expectedStatus
  by_cases hexempt : ep.policyExempt=true
  · rw [if_pos hexempt,if_pos hexempt]
    exact ⟨fun _ h => absurd h (by simp [hexempt]),fun _ => rfl⟩
  rw [if_neg hexempt,if_neg hexempt]
  have hfalse : ep.policyExempt=false := by simpa using hexempt
  cases ha : ep.assignedPolicyId with
  | none =>
    unfold newStatus
    rw [ha]
    exact ⟨fun _ _ _ _ h => (nomatch h),fun _ => rfl⟩
  | some pid =>
    obtain ⟨p,hp,rfl⟩ := keys.assigned ep hep pid ha
    obtain ⟨hno,hyes⟩ := newStatus_assigned rt fails keys hload hp ha
    rw [Option.bind_some,find_policy keys hp]
    dsimp only
    have hsame : ∀ q ∈ w.policies, some p.id=some q.id → q=p := by
      intro q hq he
      exact List.inj_on_of_nodup_map keys.ids hq hp (Option.some.inj he).symm
    by_cases hu : Unreadable fails p
    · rw [hno hu,Option.none_or]
      constructor
      · intro h _ q hq he _
        rw [hsame q hq he]
        exact h
      · intro h
        exact h hfalse p hp rfl hu
    · rw [hyes hu,Option.some_or]
      refine ⟨fun _ _ q hq he hq' => absurd (hsame q hq he ▸ hq') hu,fun _ => rfl⟩

end Assigned

/-- What a request that succeeds is to have done: every device has its status and is otherwise as
it was, the counters are right, and each change has been published. -/
structure Evaluated (rt : Runtime) (rules : List (Uuid × PolicyRule))
    (defaultAction : Option Status) (w w' : World) (res : EvaluateResult) : Prop where
  rows : ∀ ep ∈ w.endpoints.rows, w'.endpoints.findById ep.id=
    some { ep with status := expectedStatus rt w.policies rules defaultAction ep }
  evaluated : res.evaluated=w.endpoints.rows.length
  skipped : res.skipped=(w.endpoints.rows.filter (·.policyExempt)).length
  changed : res.changed=(w.endpoints.rows.filter fun ep =>
    (w'.endpoints.findById ep.id).map (·.status) != some ep.status).length
  published : ∃ sent, w'.commands=w.commands++sent ∧ sent.length=res.changed

theorem length_list (pg : Postgres) (t : EndpointTable) (limit : Nat) :
    (t.list pg limit 0).length=min limit t.rows.length := by
  rw [EndpointTable.list,List.drop_zero,List.length_take,List.length_insertionSort,
    (pg.scan_perm t.rows).length_eq]

theorem list_perm (pg : Postgres) {t : EndpointTable} {limit : Nat} (h : t.rows.length ≤ limit) :
    (t.list pg limit 0).Perm t.rows := by
  rw [EndpointTable.list,List.drop_zero,List.take_of_length_le]
  · exact (List.perm_insertionSort _ _).trans (pg.scan_perm t.rows)
  · rw [List.length_insertionSort,(pg.scan_perm t.rows).length_eq]
    exact h

section Whole

variable {pg : Postgres} {rt : Runtime} {fails : Call → Bool} {rules : List (Uuid × PolicyRule)}
  {defaultAction : Option Status} {acc res : EvaluateResult} {w w' : World}

/-- Where every row is listed, every row has had its turn. -/
theorem Swept.all (hlength : w.endpoints.rows.length ≤ 10000)
    (swept : Swept rt fails w.policies rules defaultAction (w.endpoints.list pg 10000 0) acc res w
      w') {ep : EndpointRow} (hep : ep ∈ w.endpoints.rows) :
    w'.endpoints.findById ep.id=
      some { ep with status := target rt fails w.policies rules defaultAction ep } := by
  have hperm := list_perm pg hlength
  have hfind : (w.endpoints.list pg 10000 0).find? (·.id==ep.id)=some ep :=
    find?_unique ((hperm.map (·.id)).nodup_iff.mpr w.endpoints.ids) (hperm.mem_iff.mpr hep)
      (by simp) fun r _ hr => by simpa using hr
  rw [swept.rows ep.id,hfind]

/-- The number of changes that are counted is that of the rows with another status. -/
theorem Swept.counted (hlength : w.endpoints.rows.length ≤ 10000)
    (swept : Swept rt fails w.policies rules defaultAction (w.endpoints.list pg 10000 0) acc res w
      w') :
    (w.endpoints.rows.filter fun ep =>
      (w'.endpoints.findById ep.id).map (·.status) != some ep.status).length=
        ((w.endpoints.list pg 10000 0).filter
          (changes rt fails w.policies rules defaultAction)).length := by
  have hperm := list_perm pg hlength
  rw [((hperm.filter _).length_eq)]
  congr 1
  apply List.filter_congr
  intro ep hep
  rw [swept.all hlength hep]
  rfl

/-- A batch run that succeeds does what it is for exactly when the table has no more than ten
thousand rows, a device whose assigned policy could not be read would have got that status anyway,
and no publication of a change fails. -/
theorem evaluatePolicies_correct_iff (keys : PolicyKeys w)
    (h : (evaluatePolicies rt (defaultAction.map Status.text)).run (Call.execFailing pg fails) w=
      (.ok res,w')) :
    ∃ rules, loadedRules pg w.policies=.ok rules ∧
      (Evaluated rt rules defaultAction w w' res ↔
        w.endpoints.rows.length ≤ 10000 ∧
        (∀ ep ∈ w.endpoints.rows, ep.policyExempt=false → ∀ p ∈ w.policies,
          ep.assignedPolicyId=some p.id → Unreadable fails p →
            defaultAction.getD ep.status=decisionToStatus p.decision) ∧
        ∀ ep ∈ w.endpoints.rows,
          expectedStatus rt w.policies rules defaultAction ep≠ep.status →
            fails (.publishCommand
              (commandFor ep (expectedStatus rt w.policies rules defaultAction ep)))=false) := by
  obtain ⟨rules,hload,swept⟩ := evaluatePolicies_swept h
  refine ⟨rules,hload,?_⟩
  constructor
  · intro he
    have hlength : w.endpoints.rows.length ≤ 10000 := by
      have hcount : min 10000 w.endpoints.rows.length=w.endpoints.rows.length := by
        rw [← length_list pg,← he.evaluated]
        exact swept.evaluated.symm
      omega
    have htarget : ∀ ep ∈ w.endpoints.rows,
        target rt fails w.policies rules defaultAction ep=
          expectedStatus rt w.policies rules defaultAction ep := by
      intro ep hep
      have hrow := (swept.all hlength hep).symm.trans (he.rows ep hep)
      exact congrArg EndpointRow.status (Option.some.inj hrow)
    refine ⟨hlength,fun ep hep => (target_eq_expected_iff keys hload hep).mp (htarget ep hep),?_⟩
    intro ep hep hne
    obtain ⟨sent,hcommands,hsent⟩ := he.published
    have hlog := List.append_cancel_left (swept.commands.symm.trans hcommands)
    rw [swept.changed,Nat.zero_add,← hlog,← List.length_map (f := fun ep => commandFor ep
      (target rt fails w.policies rules defaultAction ep)),
      List.length_filter_eq_length_iff] at hsent
    have hchanges : changes rt fails w.policies rules defaultAction ep=true := by
      simpa [changes,htarget ep hep] using hne
    have hcmd := hsent _ (List.mem_map_of_mem (List.mem_filter.mpr
      ⟨(list_perm pg hlength).mem_iff.mpr hep,hchanges⟩))
    rw [htarget ep hep] at hcmd
    simpa using hcmd
  · intro given
    obtain ⟨hlength,hreadable,hsent⟩ := given
    have htarget : ∀ ep ∈ w.endpoints.rows,
        target rt fails w.policies rules defaultAction ep=
          expectedStatus rt w.policies rules defaultAction ep := fun ep hep =>
      (target_eq_expected_iff keys hload hep).mpr (hreadable ep hep)
    have hperm := list_perm pg hlength
    refine ⟨?_,?_,?_,?_,_,swept.commands,?_⟩
    · intro ep hep
      rw [swept.all hlength hep,htarget ep hep]
    · rw [swept.evaluated,hperm.length_eq]
    · rw [swept.skipped,Nat.zero_add,(hperm.filter _).length_eq]
    · rw [swept.changed,Nat.zero_add,swept.counted hlength]
    · rw [swept.changed,Nat.zero_add,← List.length_map (f := fun ep => commandFor ep
        (target rt fails w.policies rules defaultAction ep)),List.length_filter_eq_length_iff]
      intro cmd hcmd
      obtain ⟨ep,hep,rfl⟩ := List.mem_map.mp hcmd
      obtain ⟨hep,hchanges⟩ := List.mem_filter.mp hep
      have hrow := hperm.mem_iff.mp hep
      rw [htarget ep hrow]
      have hne : expectedStatus rt w.policies rules defaultAction ep≠ep.status := by
        simpa [changes,htarget ep hrow] using hchanges
      simpa using hsent ep hrow hne

end Whole

/-- Nothing is done about devices that are exempt. -/
theorem run_evaluateEach_exempt (exec : (c : Call) → World → c.Reply × World) (rt : Runtime)
    (rules : List (Uuid × PolicyRule)) (defaultAction : Option String) {eps : List EndpointRow}
    (h : ∀ ep ∈ eps, ep.policyExempt=true) (acc : EvaluateResult) (w : World) :
    (evaluateEach rt rules defaultAction eps acc).run exec w=
      (.ok { acc with skipped := acc.skipped+eps.length },w) := by
  induction eps generalizing acc with
  | nil => rfl
  | cons ep eps ih =>
    rw [List.forall_mem_cons] at h
    unfold evaluateEach
    have hsum : acc.skipped+1+eps.length=acc.skipped+(eps.length+1) := by omega
    rw [if_pos h.1,ih h.2,List.length_cons,← hsum]

/-- A device that nothing is known of but its address. -/
def sampleRow (n : Nat) (exempt : Bool) : EndpointRow :=
  { EndpointTable.insertedRow n ⟨2,0,0,0,.ofNat (n/256),.ofNat n⟩ none
      ⟨"",none,none,none,none,none,none,none,none⟩ 0 with policyExempt := exempt }

section Sample

variable (n : Nat) (exempt : Bool)

theorem sampleRows_ids : (((List.range n).map (sampleRow · exempt)).map (·.id)).Nodup := by
  rw [List.map_map]
  exact (List.map_id (List.range n)).symm ▸ List.nodup_range

theorem sampleRows_macs (h : n ≤ 65536) :
    (((List.range n).map (sampleRow · exempt)).map (·.macAddress)).Nodup := by
  rw [List.map_map]
  refine List.Nodup.map_on ?_ List.nodup_range
  intro i hi j hj he
  rw [List.mem_range] at hi hj
  have h4 := congrArg (fun m => m.b4.toNat) he
  have h5 := congrArg (fun m => m.b5.toNat) he
  simp only [Function.comp_apply,sampleRow,EndpointTable.insertedRow,UInt8.toNat_ofNat'] at h4 h5
  omega

theorem sampleRows_agents :
    (((List.range n).map (sampleRow · exempt)).filterMap (·.agentId)).Nodup := by
  rw [List.filterMap_map]
  have hnone : (fun r => r.agentId) ∘ (sampleRow · exempt)=fun _ => none := rfl
  rw [hnone,List.filterMap_none]
  exact List.nodup_nil

end Sample

def sampleTable (n : Nat) (exempt : Bool) (h : n ≤ 65536) : EndpointTable :=
  ⟨(List.range n).map (sampleRow · exempt),sampleRows_ids n exempt,sampleRows_macs n exempt h,
    sampleRows_agents n exempt⟩

def sampleWorld (n : Nat) (exempt : Bool) (h : n ≤ 65536) : World :=
  { World.initial [catchAll .deny] with endpoints := sampleTable n exempt h }

theorem evaluatePolicies_one_device :
    ∃ rules, loadedRules .plain [catchAll .deny]=.ok rules ∧
      Evaluated .ascii rules none (sampleWorld 1 false (by decide))
        ((evaluatePolicies .ascii none).run (Call.execFailing .plain fun _ => false)
          (sampleWorld 1 false (by decide))).2 ⟨1,1,0⟩ := by
  have keys : PolicyKeys (sampleWorld 1 false (by decide)) :=
    ⟨by decide,fun ep hep pid h => by
      cases List.mem_singleton.mp hep
      cases h⟩
  have hrun : (evaluatePolicies .ascii ((none : Option Status).map Status.text)).run
      (Call.execFailing .plain fun _ => false) (sampleWorld 1 false (by decide))=
        (.ok ⟨1,1,0⟩,_) := rfl
  obtain ⟨rules,hload,hiff⟩ := evaluatePolicies_correct_iff keys hrun
  refine ⟨rules,hload,hiff.mpr ⟨by decide,?_,fun _ _ _ => rfl⟩⟩
  intro ep hep _ p hp _ given
  obtain ⟨hdisabled,-⟩ := given
  cases List.mem_singleton.mp hp
  cases hdisabled

/-- A request about devices that are all exempt succeeds. -/
theorem run_evaluatePolicies_exempt {pg : Postgres} (rt : Runtime) {w : World}
    {rules : List (Uuid × PolicyRule)} (hload : loadedRules pg w.policies=.ok rules)
    (h : ∀ ep ∈ w.endpoints.rows, ep.policyExempt=true) :
    (evaluatePolicies rt none).run (Call.execFailing pg fun _ => false) w=
      (.ok ⟨(w.endpoints.list pg 10000 0).length,0,0+(w.endpoints.list pg 10000 0).length⟩,w) := by
  rw [run_evaluatePolicies,if_neg Bool.false_ne_true,hload]
  dsimp only
  rw [if_neg Bool.false_ne_true]
  exact run_evaluateEach_exempt _ rt rules none
    (fun ep hep => h ep (EndpointTable.mem_of_list hep)) _ w

theorem sampleWorld_length (n : Nat) (exempt : Bool) (h : n ≤ 65536) :
    (sampleWorld n exempt h).endpoints.rows.length=n := by
  unfold sampleWorld sampleTable
  rw [List.length_map,List.length_range]

theorem sampleWorld_exempt (n : Nat) (h : n ≤ 65536) :
    ∀ ep ∈ (sampleWorld n true h).endpoints.rows, ep.policyExempt=true := by
  intro ep hep
  obtain ⟨i,-,rfl⟩ := List.mem_map.mp hep
  rfl

/-- Where the table holds more devices than the run lists, the rest is left out. -/
theorem evaluatePolicies_leaves (n : Nat) (h : n ≤ 65536) (hn : 10000 < n) :
    ∃ res w', (evaluatePolicies .ascii none).run (Call.execFailing .plain fun _ => false)
        (sampleWorld n true h)=(.ok res,w') ∧
      ∀ rules, ¬Evaluated .ascii rules none (sampleWorld n true h) w' res := by
  obtain ⟨rules,hload⟩ :
      ∃ rules, loadedRules .plain (sampleWorld n true h).policies=.ok rules := ⟨_,rfl⟩
  refine ⟨_,_,run_evaluatePolicies_exempt .ascii hload (sampleWorld_exempt n h),?_⟩
  intro rules he
  have hcount := he.evaluated
  dsimp only at hcount
  rw [length_list,sampleWorld_length] at hcount
  omega

/-- One device more than the batch run lists. -/
theorem evaluatePolicies_leaves_one :
    ∃ res w', (evaluatePolicies .ascii none).run (Call.execFailing .plain fun _ => false)
        (sampleWorld 10001 true (by omega))=(.ok res,w') ∧
      ∀ rules, ¬Evaluated .ascii rules none (sampleWorld 10001 true (by omega)) w' res :=
  evaluatePolicies_leaves 10001 (by omega) (by omega)

end Evaluate

end NacPlatform
