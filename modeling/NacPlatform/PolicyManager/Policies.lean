import NacPlatform.Framework.Run
import NacPlatform.Framework.Traverse
import NacPlatform.Store.PolicyTable

namespace NacPlatform

/-- The requests of the policy API that write. -/
inductive PolicyRequest where
  | create (body : CreatePolicy)
  | update (id : Uuid) (body : UpdatePolicy)
  | delete (id : Uuid)

namespace PolicyRequest

def handler : PolicyRequest → Policies.Handler Unit
  | create body => do
    let _ ← Policies.createPolicy body
    return ()
  | update id body => do
    let _ ← Policies.updatePolicy id body
    return ()
  | delete id => Policies.deletePolicy id

variable (refuses : PolicyCall → Bool)

def accepted (t : PolicyTable) (r : PolicyRequest) : Bool :=
  (r.handler.run (PolicyCall.exec refuses) t).1.toBool

def step (t : PolicyTable) (r : PolicyRequest) : PolicyTable :=
  (r.handler.run (PolicyCall.exec refuses) t).2

/-- The server refuses no statement of the request, the row that it is about is there, and what it
writes keeps the constraints of the table. -/
def passes (t : PolicyTable) : PolicyRequest → Bool
  | create body =>
    let c : PolicyColumns := ⟨body.name,body.description,body.priority,
      body.conditions.getD (.array []),body.action,body.vlanId,true⟩
    !refuses (.insert c) && t.takes c
  | update id body =>
    !refuses (.findById id) && (t.findById id).any fun existing =>
      let c := Policies.merged body existing.columns
      !refuses (.update id c) && t.takesFor id c
  | delete id => !refuses (.delete id) && (t.findById id).isSome

/-- What an accepted request does to the rows. -/
inductive Effect (t t' : PolicyTable) : PolicyRequest → Prop where
  | created {body : CreatePolicy} (row : PolicyRecord)
      (conditions : row.conditions=body.conditions.getD (.array []))
      (rows : t'.rows=t.rows++[row]) : Effect t t' (.create body)
  | updated {id : Uuid} {body : UpdatePolicy} (old row : PolicyRecord)
      (found : t.findById id=some old)
      (conditions : row.conditions=body.conditions.getD old.conditions)
      (rows : t'.rows=updateRows (·.id==id) (fun _ => row) t.rows) : Effect t t' (.update id body)
  | deleted {id : Uuid} (rows : t'.rows=t.rows.filter fun r => !(r.id==id)) :
      Effect t t' (.delete id)

/-- What an answer says of the table: the effect of the request, or nothing changed. -/
def Answered (t : PolicyTable) (r : PolicyRequest) :
    Except Policies.AppError Unit × PolicyTable → Prop
  | (.ok _,t') => Effect t t' r
  | (.error _,t') => t'=t

theorem create_answered (body : CreatePolicy) (t : PolicyTable) :
    Answered t (.create body) ((handler (.create body)).run (PolicyCall.exec refuses) t) := by
  simp only [handler,Policies.createPolicy,Policies.create]
  rw [Policies.run_query_bind,PolicyCall.exec]
  split_ifs with hr
  · exact rfl
  · cases h : t.insert ⟨body.name,body.description,body.priority,
        body.conditions.getD (.array []),body.action,body.vlanId,true⟩ with
    | error e => exact rfl
    | ok result =>
      obtain ⟨row,t'⟩ := result
      obtain ⟨hrow,hrows⟩ := PolicyTable.insert_ok h
      exact .created row (congrArg PolicyColumns.conditions hrow) hrows

/-- A row that an update answers with has replaced the one that was there; any other end of it
has changed nothing. -/
theorem run_update (id : Uuid) (body : UpdatePolicy) (t : PolicyTable) :
    (∃ old row t', (Policies.update id body).run (PolicyCall.exec refuses) t=(.ok (some row),t') ∧
      t.findById id=some old ∧ row.columns=Policies.merged body old.columns ∧
      t'.rows=updateRows (·.id==id) (fun _ => row) t.rows) ∨
    (Policies.update id body).run (PolicyCall.exec refuses) t=(.ok none,t) ∨
    ∃ e, (Policies.update id body).run (PolicyCall.exec refuses) t=(.error e,t) := by
  rw [Policies.update,Policies.run_query_bind,PolicyCall.exec]
  split_ifs with hr
  · exact .inr (.inr ⟨_,rfl⟩)
  · cases hfind : t.findById id with
    | none => exact .inr (.inl rfl)
    | some old =>
      dsimp only
      rw [Policies.query,Proc.run_performOrFail,PolicyCall.exec]
      split_ifs with hr'
      · exact .inr (.inr ⟨_,rfl⟩)
      · cases h : t.update id (Policies.merged body old.columns) with
        | error e => exact .inr (.inr ⟨_,rfl⟩)
        | ok result =>
          obtain ⟨row,t'⟩ := result
          cases row with
          | none =>
            obtain ⟨hnone,-⟩ := PolicyTable.update_none h
            rw [hfind] at hnone
            cases hnone
          | some row =>
            obtain ⟨old',hfind',hcolumns,-,-,hrows⟩ := PolicyTable.update_ok h
            rw [hfind] at hfind'
            cases hfind'
            exact .inl ⟨old,row,t',rfl,rfl,hcolumns,hrows⟩

theorem update_answered (id : Uuid) (body : UpdatePolicy) (t : PolicyTable) :
    Answered t (.update id body) ((handler (.update id body)).run (PolicyCall.exec refuses) t) := by
  rw [handler,Proc.run_bind,Policies.updatePolicy,Proc.run_bind]
  rcases run_update refuses id body t with ⟨old,row,t',h,hfind,hcolumns,hrows⟩|h|⟨e,h⟩
  · rw [h]
    exact .updated old row hfind (congrArg PolicyColumns.conditions hcolumns) hrows
  · rw [h]
    exact rfl
  · rw [h]
    exact rfl

theorem delete_answered (id : Uuid) (t : PolicyTable) :
    Answered t (.delete id) ((handler (.delete id)).run (PolicyCall.exec refuses) t) := by
  simp only [handler,Policies.deletePolicy]
  rw [Policies.run_query_bind,PolicyCall.exec]
  split_ifs with hr
  · exact rfl
  · cases h : t.findById id with
    | none => exact PolicyTable.delete_of_notFound h
    | some r => exact .deleted rfl

theorem answered (t : PolicyTable) (r : PolicyRequest) :
    Answered t r (r.handler.run (PolicyCall.exec refuses) t) := by
  cases r with
  | create body => exact create_answered refuses body t
  | update id body => exact update_answered refuses id body t
  | delete id => exact delete_answered refuses id t

theorem effect_of_accepted {t : PolicyTable} {r : PolicyRequest} (h : accepted refuses t r=true) :
    Effect t (step refuses t r) r := by
  have ha := answered refuses t r
  unfold accepted at h
  unfold step
  rcases hrun : r.handler.run (PolicyCall.exec refuses) t with ⟨_|_,t'⟩
  · rw [hrun] at h
    cases h
  · rw [hrun] at ha
    exact ha

/-- A request that is answered with an error has changed nothing. -/
theorem step_of_refused {t : PolicyTable} {r : PolicyRequest} (h : accepted refuses t r=false) :
    step refuses t r=t := by
  have ha := answered refuses t r
  unfold accepted at h
  unfold step
  rcases hrun : r.handler.run (PolicyCall.exec refuses) t with ⟨_|_,t'⟩
  · rw [hrun] at ha
    exact ha
  · rw [hrun] at h
    cases h

theorem accepted_create (body : CreatePolicy) (t : PolicyTable) :
    accepted refuses t (.create body)=passes refuses t (.create body) := by
  simp only [accepted,handler,Policies.createPolicy,Policies.create,passes]
  rw [Policies.run_query_bind,PolicyCall.exec]
  split_ifs with hr
  · rw [hr]
    rfl
  · rw [Bool.not_eq_true] at hr
    rw [hr,Bool.not_false,Bool.true_and]
    cases h : t.insert ⟨body.name,body.description,body.priority,
        body.conditions.getD (.array []),body.action,body.vlanId,true⟩ with
    | error e =>
      refine (Bool.eq_false_iff.mpr fun htakes => ?_).symm
      obtain ⟨result,hok⟩ := PolicyTable.insert_iff.mpr htakes
      rw [h] at hok
      cases hok
    | ok result => exact (PolicyTable.insert_iff.mp ⟨result,h⟩).symm

theorem accepted_update (id : Uuid) (body : UpdatePolicy) (t : PolicyTable) :
    accepted refuses t (.update id body)=passes refuses t (.update id body) := by
  simp only [accepted,handler,Policies.updatePolicy,Policies.update,passes]
  rw [Proc.run_bind,Proc.run_bind,Policies.run_query_bind,PolicyCall.exec]
  split_ifs with hr
  · rw [hr]
    rfl
  · rw [Bool.not_eq_true] at hr
    rw [hr,Bool.not_false,Bool.true_and]
    cases hfind : t.findById id with
    | none => rfl
    | some old =>
      dsimp only
      rw [Policies.query,Proc.run_performOrFail,PolicyCall.exec,Option.any_some]
      split_ifs with hr'
      · rw [hr']
        rfl
      · rw [Bool.not_eq_true] at hr'
        rw [hr',Bool.not_false,Bool.true_and]
        cases h : t.update id (Policies.merged body old.columns) with
        | error e =>
          refine (Bool.eq_false_iff.mpr fun htakes => ?_).symm
          obtain ⟨result,hok⟩ := (PolicyTable.update_iff hfind).mpr htakes
          rw [h] at hok
          cases hok
        | ok result =>
          obtain ⟨row,t'⟩ := result
          obtain ⟨row',t'',-,-,he⟩ := (PolicyTable.update_eq_ok hfind).mp h
          cases he
          exact ((PolicyTable.update_iff hfind).mp ⟨_,h⟩).symm

/-- A request is accepted exactly when it passes the checks of its statements. -/
theorem accepted_eq_passes (t : PolicyTable) (r : PolicyRequest) :
    accepted refuses t r=passes refuses t r := by
  cases r with
  | create body => exact accepted_create refuses body t
  | update id body => exact accepted_update refuses id body t
  | delete id =>
    simp only [accepted,handler,Policies.deletePolicy,passes]
    rw [Policies.run_query_bind,PolicyCall.exec]
    split_ifs with hr
    · rw [hr]
      rfl
    · rw [Bool.not_eq_true] at hr
      rw [hr,Bool.not_false,Bool.true_and]
      cases t.findById id <;> rfl

end PolicyRequest

/-- JSON that `to_policy_rule` takes for a list of conditions. -/
def ListsConditions : Json → Prop
  | .null => True
  | .array elems => ∀ e ∈ elems, (Condition.fromValue e).isSome=true
  | _ => False

/-- `to_policy_rule` succeeds. -/
def Convertible (row : PolicyRow) : Prop := ∃ rule, toPolicyRule row=.ok rule

theorem convertible_iff (row : PolicyRow) : Convertible row ↔ ListsConditions row.conditions := by
  have rule (conditions : Except DbError (List Condition))
      (h : storedConditions row.conditions=conditions) : toPolicyRule row=conditions.map fun cs =>
        ⟨row.name,row.priority.toInt,combine cs,row.decision⟩ := by
    rw [toPolicyRule,h]
    rfl
  have refused (h : storedConditions row.conditions=.error .conversion) : ¬Convertible row := by
    intro given
    obtain ⟨rule',h'⟩ := given
    rw [rule _ h] at h'
    cases h'
  cases hc : row.conditions with
  | null => exact iff_of_true ⟨_,rule (.ok []) (by rw [hc]; rfl)⟩ trivial
  | array elems =>
    rw [ListsConditions,← mapM_isSome_iff]
    cases hm : elems.mapM Condition.fromValue with
    | none => exact iff_of_false (refused (by rw [hc,storedConditions,hm]; rfl)) Bool.false_ne_true
    | some cs => exact iff_of_true ⟨_,rule (.ok cs) (by rw [hc,storedConditions,hm]; rfl)⟩ rfl
  | bool b => exact iff_of_false (refused (by rw [hc]; rfl)) id
  | number n => exact iff_of_false (refused (by rw [hc]; rfl)) id
  | string s => exact iff_of_false (refused (by rw [hc]; rfl)) id
  | object fields => exact iff_of_false (refused (by rw [hc]; rfl)) id

/-- The conditions that the request gives, if it gives any, are a list of conditions. -/
def PolicyRequest.GivesConditions : PolicyRequest → Prop
  | .create body => ∀ c, body.conditions=some c → ListsConditions c
  | .update _ body => ∀ c, body.conditions=some c → ListsConditions c
  | .delete _ => True

/-- Every row converts, and the two loaders succeed wherever these are the policies. -/
structure Loadable (t : PolicyTable) : Prop where
  rows : ∀ row ∈ t.rows, Convertible row.toPolicyRow
  load : ∀ (pg : Postgres) (w : World), w.policies=t.rows.map (·.toPolicyRow) →
    ∃ rules, (loadRules.run (Call.exec pg) w).1=.ok rules
  loadWithId : ∀ (pg : Postgres) (w : World), w.policies=t.rows.map (·.toPolicyRow) →
    ∃ rules, (loadRulesWithId.run (Call.exec pg) w).1=.ok rules

theorem mem_enabledPolicies {pg : Postgres} {rows : List PolicyRow} {row : PolicyRow} :
    row ∈ enabledPolicies pg rows ↔ row ∈ rows ∧ row.enabled=true := by
  rw [enabledPolicies,List.mem_insertionSort,List.mem_filter,(pg.scan_perm rows).mem_iff]

theorem loadable_iff (t : PolicyTable) :
    Loadable t ↔ ∀ row ∈ t.rows, Convertible row.toPolicyRow := by
  refine ⟨Loadable.rows,fun h => ?_⟩
  have each (pg : Postgres) (w : World) (hw : w.policies=t.rows.map (·.toPolicyRow)) :
      ∀ row ∈ enabledPolicies pg w.policies, Convertible row := by
    intro row hrow
    obtain ⟨hmem,-⟩ := mem_enabledPolicies.mp hrow
    rw [hw] at hmem
    obtain ⟨r,hr,rfl⟩ := List.mem_map.mp hmem
    exact h r hr
  refine ⟨h,?_,?_⟩
  · intro pg w hw
    obtain ⟨rules,hrules⟩ := mapM_ok_of_forall (each pg w hw)
    refine ⟨rules,?_⟩
    rw [loadRules,World.run_query_bind]
    simp only [Call.exec,hrules]
    rfl
  · intro pg w hw
    obtain ⟨rules,hrules⟩ := mapM_ok_of_forall
      (f := fun r => (toPolicyRule r).map fun rule => (r.id,rule)) fun row hrow => by
        obtain ⟨rule,hrule⟩ := each pg w hw row hrow
        exact ⟨(row.id,rule),by rw [hrule]; rfl⟩
    refine ⟨rules,?_⟩
    rw [loadRulesWithId,World.run_query_bind]
    simp only [Call.exec,hrules]
    rfl

namespace PolicyRequest

theorem Effect.loadable {t t' : PolicyTable} {r : PolicyRequest} (h : Effect t t' r)
    (hr : r.GivesConditions) (ht : Loadable t) : Loadable t' := by
  have given {conditions : Option Json} {stored : Json}
      (hc : ∀ c, conditions=some c → ListsConditions c) (hs : ListsConditions stored) :
      ListsConditions (conditions.getD stored) := by
    cases conditions with
    | none => exact hs
    | some c => exact hc c rfl
  rw [loadable_iff] at ht ⊢
  cases h with
  | created row conditions rows =>
    intro r hmem
    rw [rows,List.mem_append,List.mem_singleton] at hmem
    rcases hmem with hmem|rfl
    · exact ht r hmem
    · rw [convertible_iff,conditions]
      exact given hr fun e he => nomatch he
  | updated old row found conditions rows =>
    intro r hmem
    rw [rows,mem_updateRows] at hmem
    rcases hmem with ⟨_,-,-,rfl⟩|⟨hmem,-⟩
    · rw [convertible_iff,conditions]
      exact given hr ((convertible_iff _).mp (ht old (PolicyTable.mem_of_findById found).1))
    · exact ht r hmem
  | deleted rows =>
    intro r hmem
    rw [rows] at hmem
    exact ht r (List.mem_of_mem_filter hmem)

/-- Conditions of another form stay in the table as they were given. -/
theorem Effect.gives {t t' : PolicyTable} {r : PolicyRequest} (h : Effect t t' r)
    (ht : Loadable t') : r.GivesConditions := by
  cases h with
  | created row conditions rows =>
    intro c hc
    have hrow := (convertible_iff _).mp (ht.rows row (by rw [rows]; simp))
    rwa [conditions,hc] at hrow
  | updated old row found conditions rows =>
    intro c hc
    obtain ⟨hmem,hid⟩ := PolicyTable.mem_of_findById found
    have hrow := (convertible_iff _).mp (ht.rows row (by
      rw [rows,mem_updateRows]
      exact .inl ⟨old,hmem,by simpa using hid,rfl⟩))
    rwa [conditions,hc] at hrow
  | deleted rows => trivial

end PolicyRequest

namespace PolicyTable

def seedRow (id : Uuid) (now : Timestamp) (name description : String) (priority : Int32)
    (conditions : Json) (action : PolicyAction) (vlanId : Option Int16) (enabled : Bool) :
    PolicyRecord :=
  ⟨⟨id,name,priority,conditions,action,vlanId,enabled⟩,some description,now⟩

/-- The policies that the migrations leave. The ids are drawn by the server. -/
def seedRows (ids : Fin 4 → Uuid) (now : Timestamp) : List PolicyRecord :=
  [seedRow (ids 0) now "default-allow" "기본 허용 정책 (최저 우선순위)" 9999 (.array []) .allow none true,
   seedRow (ids 1) now "quarantine-unknown" "미등록 단말 격리" 10
    (.array [.object [("type",.string "compliant"),("required",.bool false)]]) .quarantine (some 99)
    true,
   seedRow (ids 2) now "allow-corp-devices" "기업 등록 단말 허용" 50
    (.array [.object [("type",.string "os_family"),("value",.string "Windows")]]) .allow (some 10)
    true,
   seedRow (ids 3) now "deny-blacklist" "블랙리스트 단말 차단" 1 (.array []) .deny none false]

def seeded (ids : Fin 4 ↪ Uuid) (now : Timestamp) : PolicyTable where
  rows := seedRows ids now
  clock := now+1
  ids := by simp [seedRows,seedRow]
  names := by
    simp only [seedRows,seedRow,List.map_cons,List.map_nil]
    decide

theorem seeded_loadable (ids : Fin 4 ↪ Uuid) (now : Timestamp) : Loadable (seeded ids now) := by
  rw [loadable_iff]
  intro row hrow
  rw [convertible_iff]
  simp only [seeded,seedRows,List.mem_cons,List.not_mem_nil,or_false] at hrow
  rcases hrow with rfl|rfl|rfl|rfl
  · exact fun e he => absurd he List.not_mem_nil
  · intro e he
    cases List.mem_singleton.mp he
    rfl
  · intro e he
    cases List.mem_singleton.mp he
    rfl
  · exact fun e he => absurd he List.not_mem_nil

end PolicyTable

/-- After every run of requests every policy converts and loads, exactly when each request that
passed gave a list of conditions or none. -/
theorem policies_loadable_iff (refuses : PolicyCall → Bool) (ids : Fin 4 ↪ Uuid)
    (now : Timestamp) (requests : List PolicyRequest) :
    (∀ pre post, requests=pre++post →
      Loadable (runs (PolicyRequest.step refuses) (PolicyTable.seeded ids now) pre)) ↔
    Guarded (PolicyRequest.step refuses)
      (fun t r => r.passes refuses t=true → r.GivesConditions)
      (PolicyTable.seeded ids now) requests := by
  rw [guarded_iff]
  constructor
  · intro h pre r post same hpasses
    subst same
    rw [← PolicyRequest.accepted_eq_passes] at hpasses
    have hafter := h (pre++[r]) post (by simp)
    rw [runs_append] at hafter
    exact (PolicyRequest.effect_of_accepted refuses hpasses).gives hafter
  · intro h pre post same
    subst same
    have hguarded : Guarded (PolicyRequest.step refuses)
        (fun t r => r.passes refuses t=true → r.GivesConditions)
        (PolicyTable.seeded ids now) pre := by
      rw [guarded_iff]
      intro pre' r post' same
      subst same
      exact h pre' r (post'++post) (by simp)
    refine hguarded.invariant Loadable ?_ (PolicyTable.seeded_loadable ids now)
    intro t r ht hr
    cases ha : r.accepted refuses t with
    | true =>
      have hpasses := (PolicyRequest.accepted_eq_passes refuses t r).symm.trans ha
      exact (PolicyRequest.effect_of_accepted refuses ha).loadable (hr hpasses) ht
    | false =>
      rw [PolicyRequest.step_of_refused refuses ha]
      exact ht

/-- A policy whose conditions are an empty object. -/
def emptyObject : CreatePolicy where
  name := "integration-test-policy"
  description := some "created by integration test"
  priority := 100
  conditions := some (.object [])
  action := "allow"
  vlanId := none

/-- Ids counted from one. -/
def serialIds : Fin 4 ↪ Uuid := ⟨(·.val+1),fun _ _ h => Fin.ext (Nat.succ.inj h)⟩

/-- The seeded policies with that one, which is accepted. -/
def withEmptyObject : PolicyTable :=
  runs (PolicyRequest.step fun _ => false) (PolicyTable.seeded serialIds 0) [.create emptyObject]

theorem withEmptyObject_not_loadable :
    withEmptyObject.rows.length=5 ∧ ¬Loadable withEmptyObject ∧
      (loadRules.run (Call.exec .plain)
        (World.initial (withEmptyObject.rows.map (·.toPolicyRow)))).1=.error .conversion := by
  have hload : (loadRules.run (Call.exec .plain)
      (World.initial (withEmptyObject.rows.map (·.toPolicyRow)))).1=.error .conversion := by
    rfl
  refine ⟨rfl,?_,hload⟩
  intro h
  obtain ⟨rules,hrules⟩ := h.load .plain (World.initial (withEmptyObject.rows.map (·.toPolicyRow)))
    rfl
  rw [hload] at hrules
  cases hrules

end NacPlatform
