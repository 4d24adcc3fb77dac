import NacPlatform.Framework.Pool
import NacPlatform.PolicyManager.Policies

namespace NacPlatform

/-- Two clients of the policy API. -/
inductive Client where
  | first
  | second
  deriving DecidableEq, Repr

def Client.other : Client → Client
  | first => second
  | second => first

/-- The fields of a request for an update. -/
inductive PolicyField where
  | name
  | description
  | priority
  | conditions
  | action
  | vlanId
  | enabled
  deriving DecidableEq, Repr

namespace UpdatePolicy

def present (p : UpdatePolicy) : PolicyField → Bool
  | .name => p.name.isSome
  | .description => p.description.isSome
  | .priority => p.priority.isSome
  | .conditions => p.conditions.isSome
  | .action => p.action.isSome
  | .vlanId => p.vlanId.isSome
  | .enabled => p.enabled.isSome

def Disjoint (p q : UpdatePolicy) : Prop := ∀ f, ¬(p.present f=true ∧ q.present f=true)

/-- What the request asks for is what the row has. -/
structure Holds (p : UpdatePolicy) (row : PolicyRecord) : Prop where
  name : ∀ x, p.name=some x → x=row.name
  description : ∀ x, p.description=some x → some x=row.description
  priority : ∀ x, p.priority=some x → x=row.priority
  conditions : ∀ x, p.conditions=some x → x=row.conditions
  action : ∀ x, p.action=some x → x=row.action.text
  vlanId : ∀ x, p.vlanId=some x → some x=row.vlanId
  enabled : ∀ x, p.enabled=some x → x=row.enabled

/-- Every field that one of the requests names has the requested value, every other one the value
it had. -/
structure BothApplied (p q : UpdatePolicy) (row row' : PolicyRecord) : Prop where
  id : row'.id=row.id
  createdAt : row'.createdAt=row.createdAt
  name : row'.name=(p.name.or q.name).getD row.name
  description : row'.description=(p.description.or q.description).or row.description
  priority : row'.priority=(p.priority.or q.priority).getD row.priority
  conditions : row'.conditions=(p.conditions.or q.conditions).getD row.conditions
  action : row'.action.text=(p.action.or q.action).getD row.action.text
  vlanId : row'.vlanId=(p.vlanId.or q.vlanId).or row.vlanId
  enabled : row'.enabled=(p.enabled.or q.enabled).getD row.enabled

section Merging

variable {α : Type} {x y : Option α}

theorem or_comm_of_disjoint (h : ¬(x.isSome=true ∧ y.isSome=true)) : x.or y=y.or x := by
  cases x with
  | none => simp
  | some a =>
    cases y with
    | none => rfl
    | some b => exact absurd ⟨rfl,rfl⟩ h

theorem getD_or (h : ¬(x.isSome=true ∧ y.isSome=true)) (r : α) :
    y.getD (x.getD r)=(x.or y).getD r := by
  rw [or_comm_of_disjoint h,Option.getD_or]

theorem getD_eq_iff (h : ¬(x.isSome=true ∧ y.isSome=true)) (r : α) :
    y.getD r=(x.or y).getD r ↔ ∀ a, x=some a → a=r := by
  cases x with
  | none => simp
  | some a =>
    cases y with
    | none => simpa using eq_comm
    | some b => exact absurd ⟨rfl,rfl⟩ h

theorem or_eq_iff (h : ¬(x.isSome=true ∧ y.isSome=true)) (r : Option α) :
    y.or r=(x.or y).or r ↔ ∀ a, x=some a → some a=r := by
  cases x with
  | none => simp
  | some a =>
    cases y with
    | none => simpa using eq_comm
    | some b => exact absurd ⟨rfl,rfl⟩ h

end Merging

variable {p q : UpdatePolicy} {row row' : PolicyRecord}

theorem Disjoint.symm (h : p.Disjoint q) : q.Disjoint p := fun f hf => h f hf.symm

theorem BothApplied.symm (h : p.Disjoint q) (hb : BothApplied p q row row') :
    BothApplied q p row row' where
  id := hb.id
  createdAt := hb.createdAt
  name := by rw [hb.name,or_comm_of_disjoint (h .name)]
  description := by rw [hb.description,or_comm_of_disjoint (h .description)]
  priority := by rw [hb.priority,or_comm_of_disjoint (h .priority)]
  conditions := by rw [hb.conditions,or_comm_of_disjoint (h .conditions)]
  action := by rw [hb.action,or_comm_of_disjoint (h .action)]
  vlanId := by rw [hb.vlanId,or_comm_of_disjoint (h .vlanId)]
  enabled := by rw [hb.enabled,or_comm_of_disjoint (h .enabled)]

/-- One request is merged into what the other has written. -/
theorem bothApplied_of_serial (h : p.Disjoint q) (hid : row'.id=row.id)
    (hat : row'.createdAt=row.createdAt)
    (hc : row'.columns=Policies.merged q (Policies.merged p row.columns)) :
    BothApplied p q row row' where
  id := hid
  createdAt := hat
  name := (congrArg PolicyColumns.name hc).trans (getD_or (h .name) _)
  description := (congrArg PolicyColumns.description hc).trans (by
    rw [or_comm_of_disjoint (h .description),Option.or_assoc]; rfl)
  priority := (congrArg PolicyColumns.priority hc).trans (getD_or (h .priority) _)
  conditions := (congrArg PolicyColumns.conditions hc).trans (getD_or (h .conditions) _)
  action := (congrArg PolicyColumns.action hc).trans (getD_or (h .action) _)
  vlanId := (congrArg PolicyColumns.vlanId hc).trans (by
    rw [or_comm_of_disjoint (h .vlanId),Option.or_assoc]; rfl)
  enabled := (congrArg PolicyColumns.enabled hc).trans (getD_or (h .enabled) _)

/-- The second request is merged into the row as it was before the first. -/
theorem bothApplied_iff_of_overwritten (h : p.Disjoint q) (hid : row'.id=row.id)
    (hat : row'.createdAt=row.createdAt) (hc : row'.columns=Policies.merged q row.columns) :
    BothApplied p q row row' ↔ p.Holds row := by
  have hname : row'.name=q.name.getD row.name := congrArg PolicyColumns.name hc
  have hdescription : row'.description=q.description.or row.description :=
    congrArg PolicyColumns.description hc
  have hpriority : row'.priority=q.priority.getD row.priority :=
    congrArg PolicyColumns.priority hc
  have hconditions : row'.conditions=q.conditions.getD row.conditions :=
    congrArg PolicyColumns.conditions hc
  have haction : row'.action.text=q.action.getD row.action.text :=
    congrArg PolicyColumns.action hc
  have hvlanId : row'.vlanId=q.vlanId.or row.vlanId := congrArg PolicyColumns.vlanId hc
  have henabled : row'.enabled=q.enabled.getD row.enabled := congrArg PolicyColumns.enabled hc
  constructor
  · intro hb
    exact ⟨(getD_eq_iff (h .name) _).mp (hname ▸ hb.name),
      (or_eq_iff (h .description) _).mp (hdescription ▸ hb.description),
      (getD_eq_iff (h .priority) _).mp (hpriority ▸ hb.priority),
      (getD_eq_iff (h .conditions) _).mp (hconditions ▸ hb.conditions),
      (getD_eq_iff (h .action) _).mp (haction ▸ hb.action),
      (or_eq_iff (h .vlanId) _).mp (hvlanId ▸ hb.vlanId),
      (getD_eq_iff (h .enabled) _).mp (henabled ▸ hb.enabled)⟩
  · intro hp
    exact ⟨hid,hat,hname.trans ((getD_eq_iff (h .name) _).mpr hp.name),
      hdescription.trans ((or_eq_iff (h .description) _).mpr hp.description),
      hpriority.trans ((getD_eq_iff (h .priority) _).mpr hp.priority),
      hconditions.trans ((getD_eq_iff (h .conditions) _).mpr hp.conditions),
      haction.trans ((getD_eq_iff (h .action) _).mpr hp.action),
      hvlanId.trans ((or_eq_iff (h .vlanId) _).mpr hp.vlanId),
      henabled.trans ((getD_eq_iff (h .enabled) _).mpr hp.enabled)⟩

end UpdatePolicy

abbrev PolicyRace := Pool Client PolicyTable PolicyCall PolicyCall.Reply Policies.AppError

namespace PolicyRace

/-- Both requests for the row are taken up. -/
def start (id : Uuid) (requests : Client → UpdatePolicy) (t : PolicyTable) : PolicyRace where
  shared := t
  tasks c := (PolicyRequest.update id (requests c)).handler

/-- One of the two performs its next statement. -/
def step (refuses : PolicyCall → Bool) : PolicyRace → Client → PolicyRace :=
  Pool.advance (PolicyCall.exec refuses)

/-- Each request has its `SELECT` and its `UPDATE`. -/
def Interleaving (schedule : List Client) : Prop :=
  schedule.Perm [.first,.first,.second,.second]

/-- The request that writes first, where both have read before. -/
def overwritten : List Client → Option Client
  | a::b::c::_ => if a=b then none else some c
  | _ => none

/-- What is left of a request that has read the row: it is about to write it back. -/
def writing (id : Uuid) (p : UpdatePolicy) (existing : PolicyRecord) : Policies.Handler Unit := do
  let _ ← Policies.query (.update id (Policies.merged p existing.columns)) >>= Policies.answer id
  return ()

variable {refuses : PolicyCall → Bool} {s : PolicyRace} {c : Client} {id : Uuid}
  {p : UpdatePolicy} {existing : PolicyRecord} {rest : List Client}

/-- A request that has ended stays as it ended. -/
theorem ended_stays {task : Policies.Handler Unit} (hidle : task.idle=true) (h : s.tasks c=task)
    (rest : List Client) : (runs (step refuses) s rest).tasks c=task := by
  refine runs_invariant (fun s : PolicyRace => s.tasks c=task) ?_ rest h
  intro s d hs
  by_cases hd : d=c
  · subst hd
    have hsame : step refuses s d=s := Pool.advance_of_idle (by rw [hs]; exact hidle)
    rw [hsame]
    exact hs
  · unfold step Pool.advance
    split
    · exact (Function.update_of_ne (Ne.symm hd) _ _).trans hs
    · exact hs

theorem step_select (rest : List Client) (h : s.tasks c=(PolicyRequest.update id p).handler)
    (hrow : s.shared.findById id=some existing)
    (hok : (runs (step refuses) (step refuses s c) rest).tasks c=.ret ()) :
    (step refuses s c).shared=s.shared ∧
      (step refuses s c).tasks=Function.update s.tasks c (writing id p existing) := by
  have hturn : step refuses s c=_ := Pool.advance_of_call h
  by_cases hr : refuses (.findById id)=true
  · exfalso
    have hfail : (step refuses s c).tasks c=.fail (.database .unavailable) := by
      rw [hturn,PolicyCall.exec,if_pos hr]
      exact Function.update_self ..
    rw [ended_stays rfl hfail] at hok
    cases hok
  · rw [hturn,PolicyCall.exec,if_neg hr]
    dsimp only
    rw [hrow]
    exact ⟨rfl,rfl⟩

theorem findById_written {t t' : PolicyTable} {current row : PolicyRecord}
    (hfind : t.findById id=some current) (hid : row.id=id)
    (hrows : t'.rows=updateRows (·.id==id) (fun _ => row) t.rows) : t'.findById id=some row := by
  obtain ⟨hmem,hcurrent⟩ := PolicyTable.mem_of_findById hfind
  refine find?_unique t'.ids ?_ (by simpa using hid) ?_
  · rw [hrows,mem_updateRows]
    exact .inl ⟨current,hmem,by simpa using hcurrent,rfl⟩
  · intro r _ hr
    rw [hid]
    simpa using hr

/-- How a request ends on the answer to its `UPDATE`. -/
def ended (id : Uuid) : Except DbError (Option PolicyRecord) → Policies.Handler Unit
  | .error e => .fail (.database e)
  | .ok none => .fail (.notFound id)
  | .ok (some _) => .ret ()

theorem step_writing (h : s.tasks c=writing id p existing) {t' : PolicyTable}
    {reply : Except DbError (Option PolicyRecord)}
    (hexec : PolicyCall.exec refuses (.update id (Policies.merged p existing.columns)) s.shared=
      (reply,t')) : step refuses s c=⟨t',Function.update s.tasks c (ended id reply)⟩ := by
  have hturn : step refuses s c=_ := Pool.advance_of_call h
  rw [hturn,hexec]
  rcases reply with e|_|row <;> rfl

theorem step_write (rest : List Client) (h : s.tasks c=writing id p existing)
    (hok : (runs (step refuses) (step refuses s c) rest).tasks c=.ret ()) :
    ∃ current row, s.shared.findById id=some current ∧
      (step refuses s c).shared.findById id=some row ∧
      row.columns=Policies.merged p existing.columns ∧ row.id=id ∧
      row.createdAt=current.createdAt ∧
      (step refuses s c).tasks=Function.update s.tasks c (.ret ()) := by
  obtain ⟨reply,t',hexec⟩ : ∃ reply t',
      PolicyCall.exec refuses (.update id (Policies.merged p existing.columns)) s.shared=
        (reply,t') := ⟨_,_,rfl⟩
  have hturn := step_writing h hexec
  have hended : ended id reply=.ret () := by
    have hidle : (ended id reply).idle=true := by rcases reply with e|_|row <;> rfl
    rwa [ended_stays hidle (by rw [hturn]; exact Function.update_self ..)] at hok
  rw [hturn]
  rcases reply with e|_|row
  · cases hended
  · cases hended
  · obtain ⟨current,hfind,hcolumns,hid,hat,hrows⟩ :=
      PolicyTable.update_ok (PolicyCall.exec_update_ok hexec)
    exact ⟨current,row,hfind,findById_written hfind hid hrows,hcolumns,hid,hat,rfl⟩

/-- The second statements come after both of the first, or the requests one after the other. -/
theorem Interleaving.cases {schedule : List Client} (h : Interleaving schedule) :
    ∃ a : Client, schedule=[a,a,a.other,a.other] ∨ schedule=[a,a.other,a,a.other] ∨
      schedule=[a,a.other,a.other,a] := by
  have hlength := h.length_eq
  have hcount := h.count_eq .first
  match schedule,hlength,hcount with
  | [a,b,c,d],_,hcount =>
    refine ⟨a,?_⟩
    cases a <;> cases b <;> cases c <;> cases d <;> first
      | exact absurd hcount (by decide)
      | decide

section Turns

variable {requests : Client → UpdatePolicy} {t : PolicyTable} {row : PolicyRecord} {a b : Client}

/-- What the table has in the end: the request that wrote last, merged into what it had read. -/
def Left (id : Uuid) (row : PolicyRecord) (columns : PolicyColumns) (t : PolicyTable) : Prop :=
  ∃ row', t.findById id=some row' ∧ row'.id=row.id ∧ row'.createdAt=row.createdAt ∧
    row'.columns=columns

theorem serial_left (hrow : t.findById id=some row) (hab : a≠b)
    (hok : ∀ c, (runs (step refuses) (start id requests t) [a,a,b,b]).tasks c=.ret ()) :
    Left id row (Policies.merged (requests b) (Policies.merged (requests a) row.columns))
      (runs (step refuses) (start id requests t) [a,a,b,b]).shared := by
  obtain ⟨-,hid⟩ := PolicyTable.mem_of_findById hrow
  obtain ⟨hs1,ht1⟩ := step_select [a,b,b] (c := a) (s := start id requests t) rfl hrow
    (hok a)
  obtain ⟨cur₁,row₁,hcur₁,hrow₁,hcol₁,hid₁,hat₁,ht2⟩ := step_write [b,b] (c := a)
    (s := step refuses (start id requests t) a) (by rw [ht1]; exact Function.update_self ..) (hok a)
  obtain ⟨hs3,ht3⟩ := step_select [b] (c := b)
    (s := step refuses (step refuses (start id requests t) a) a) (p := requests b)
    (by rw [ht2,ht1,Function.update_of_ne hab.symm,Function.update_of_ne hab.symm]; rfl) hrow₁
    (hok b)
  obtain ⟨cur₂,row₂,hcur₂,hrow₂,hcol₂,hid₂,hat₂,-⟩ := step_write [] (c := b)
    (s := step refuses (step refuses (step refuses (start id requests t) a) a) b)
    (by rw [ht3]; exact Function.update_self ..) (hok b)
  rw [hs1] at hcur₁
  rw [hs3] at hcur₂
  cases hcur₁.symm.trans hrow
  cases hcur₂.symm.trans hrow₁
  exact ⟨row₂,hrow₂,hid₂.trans hid.symm,hat₂.trans hat₁,hcol₂.trans (by rw [hcol₁])⟩

/-- The request that writes last has read the row before the other has written it. -/
theorem overlapping_left (hrow : t.findById id=some row) (hab : a≠b) {x y : Client}
    (hxy : x=a ∧ y=b ∨ x=b ∧ y=a)
    (hok : ∀ c, (runs (step refuses) (start id requests t) [a,b,x,y]).tasks c=.ret ()) :
    Left id row (Policies.merged (requests y) row.columns)
      (runs (step refuses) (start id requests t) [a,b,x,y]).shared := by
  obtain ⟨-,hid⟩ := PolicyTable.mem_of_findById hrow
  obtain ⟨hs1,ht1⟩ := step_select [b,x,y] (c := a) (s := start id requests t) rfl hrow
    (hok a)
  obtain ⟨hs2,ht2⟩ := step_select [x,y] (c := b)
    (s := step refuses (start id requests t) a) (p := requests b)
    (by rw [ht1,Function.update_of_ne hab.symm]; rfl) (by rw [hs1]; exact hrow) (hok b)
  have hwriting : ∀ c, (step refuses (step refuses (start id requests t) a) b).tasks c=
      writing id (requests c) row := by
    intro c
    rw [ht2,ht1]
    by_cases hb : c=b
    · subst hb
      exact Function.update_self ..
    · have ha : c=a := by
        cases a <;> cases b <;> cases c <;> simp_all
      subst ha
      rw [Function.update_of_ne hb]
      exact Function.update_self ..
  have hne : y≠x := by
    rcases hxy with ⟨rfl,rfl⟩|⟨rfl,rfl⟩
    · exact hab.symm
    · exact hab
  obtain ⟨cur₁,row₁,hcur₁,hrow₁,-,hid₁,hat₁,ht3⟩ := step_write [y] (c := x)
    (s := step refuses (step refuses (start id requests t) a) b) (hwriting x) (hok x)
  obtain ⟨cur₂,row₂,hcur₂,hrow₂,hcol₂,hid₂,hat₂,-⟩ := step_write [] (c := y)
    (s := step refuses (step refuses (step refuses (start id requests t) a) b) x)
    (by rw [ht3,Function.update_of_ne hne]; exact hwriting y) (hok y)
  rw [hs2,hs1] at hcur₁
  cases hcur₁.symm.trans hrow
  cases hcur₂.symm.trans hrow₁
  exact ⟨row₂,hrow₂,hid₂.trans hid.symm,hat₂.trans hat₁,hcol₂⟩

end Turns

theorem disjoint_other {requests : Client → UpdatePolicy}
    (hd : (requests .first).Disjoint (requests .second)) (a : Client) :
    (requests a).Disjoint (requests a.other) := by
  cases a with
  | first => exact hd
  | second => exact hd.symm

theorem bothApplied_other {requests : Client → UpdatePolicy}
    (hd : (requests .first).Disjoint (requests .second)) (a : Client) {row row' : PolicyRecord} :
    UpdatePolicy.BothApplied (requests a) (requests a.other) row row' ↔
      UpdatePolicy.BothApplied (requests .first) (requests .second) row row' := by
  cases a with
  | first => exact Iff.rfl
  | second => exact ⟨.symm hd.symm,.symm hd⟩

/-- Of two updates that are answered with success, nothing is lost exactly when one has written
before the other read, or the one that wrote first asked for nothing new. -/
theorem applied_iff_of_answered {refuses : PolicyCall → Bool} {t : PolicyTable} {id : Uuid}
    {row : PolicyRecord} {requests : Client → UpdatePolicy} {schedule : List Client}
    (hrow : t.findById id=some row) (hd : (requests .first).Disjoint (requests .second))
    (hs : Interleaving schedule)
    (hok : ∀ c, (runs (step refuses) (start id requests t) schedule).tasks c=.ret ()) :
    (∃ row', (runs (step refuses) (start id requests t) schedule).shared.findById id=some row' ∧
      UpdatePolicy.BothApplied (requests .first) (requests .second) row row') ↔
    ∀ c, overwritten schedule=some c → (requests c).Holds row := by
  obtain ⟨a,h⟩ := hs.cases
  have hne : a≠a.other := by cases a <;> decide
  have hd' := disjoint_other hd a
  rcases h with rfl|rfl|rfl
  · obtain ⟨row',hfind,hid,hat,hcolumns⟩ := serial_left hrow hne hok
    have hb := (bothApplied_other hd a).mp (UpdatePolicy.bothApplied_of_serial hd' hid hat hcolumns)
    have hnone : overwritten [a,a,a.other,a.other]=none := if_pos rfl
    rw [hnone]
    exact ⟨fun _ => nofun,fun _ => ⟨row',hfind,hb⟩⟩
  · obtain ⟨row',hfind,hid,hat,hcolumns⟩ := overlapping_left hrow hne (.inl ⟨rfl,rfl⟩) hok
    have hiff := UpdatePolicy.bothApplied_iff_of_overwritten hd' hid hat hcolumns
    have hsome : overwritten [a,a.other,a,a.other]=some a := if_neg hne
    rw [hsome,hfind]
    simp only [Option.some.injEq,exists_eq_left',← bothApplied_other hd a,hiff,forall_eq']
  · obtain ⟨row',hfind,hid,hat,hcolumns⟩ := overlapping_left hrow hne (.inr ⟨rfl,rfl⟩) hok
    have hiff := UpdatePolicy.bothApplied_iff_of_overwritten hd'.symm hid hat hcolumns
    have hsome : overwritten [a,a.other,a.other,a]=some a.other := if_neg hne
    have hboth : UpdatePolicy.BothApplied (requests .first) (requests .second) row row' ↔
        UpdatePolicy.BothApplied (requests a.other) (requests a) row row' :=
      (bothApplied_other hd a).symm.trans ⟨.symm hd',.symm hd'.symm⟩
    rw [hsome,hfind]
    simp only [Option.some.injEq,exists_eq_left',hboth,hiff,forall_eq']

/-! Which requests are answered with success, where the server refuses no statement. -/

/-- What an update may write: one of the actions, and a name that no other row has. -/
structure Admissible (id : Uuid) (t : PolicyTable) (p : UpdatePolicy) : Prop where
  action : ∀ x, p.action=some x → (PolicyAction.parse x).isSome=true
  name : ∀ x, p.name=some x → ∀ r ∈ t.rows, r.id=id ∨ r.name≠x

/-- The rows but the one with the id are the same. -/
def OtherRows (id : Uuid) (t t' : PolicyTable) : Prop :=
  ∀ r, r.id≠id → (r ∈ t'.rows ↔ r ∈ t.rows)

/-- Statements that write to no other row. -/
def OnRow (id : Uuid) : PolicyCall → Prop
  | .findById _ => True
  | .update i _ => i=id
  | _ => False

section Acceptance

variable {t t' : PolicyTable} {row row' : PolicyRecord} {requests : Client → UpdatePolicy}

theorem Admissible.of_others (h : OtherRows id t t') (hp : Admissible id t p) :
    Admissible id t' p where
  action := hp.action
  name x hx r hr := by
    by_cases hid : r.id=id
    · exact .inl hid
    · exact hp.name x hx r ((h r hid).mp hr)

theorem takesFor_of_others {columns : PolicyColumns} (h : OtherRows id t t')
    (ht : t.takesFor id columns=true) : t'.takesFor id columns=true := by
  rw [PolicyTable.takesFor,Bool.and_eq_true,List.all_eq_true] at ht ⊢
  refine ⟨ht.1,fun r hr => ?_⟩
  by_cases hid : r.id=id
  · simp [hid]
  · exact ht.2 r ((h r hid).mp hr)

/-- What the row has already stands in the way of no update. -/
theorem takesFor_merged (hfind : t.findById id=some existing) (hp : Admissible id t p) :
    t.takesFor id (Policies.merged p existing.columns)=true := by
  obtain ⟨hmem,hid⟩ := PolicyTable.mem_of_findById hfind
  rw [PolicyTable.takesFor,Bool.and_eq_true,List.all_eq_true]
  constructor
  · cases ha : p.action with
    | none => simp [Policies.merged,ha,PolicyRecord.columns,PolicyAction.parse_text]
    | some x => simpa [Policies.merged,ha] using hp.action x ha
  · intro r hr
    cases hn : p.name with
    | none =>
      have hown : r.id=id ∨ r.name≠existing.name := by
        by_contra hother
        obtain ⟨hne,hsame⟩ := not_or.mp hother
        have he := List.inj_on_of_nodup_map t.names hr hmem (not_not.mp hsame)
        exact hne (he ▸ hid)
      simpa [Policies.merged,hn,PolicyRecord.columns] using hown
    | some x => simpa [Policies.merged,hn] using hp.name x hn r hr

theorem others_of_update (hid : row.id=id)
    (hrows : t'.rows=updateRows (·.id==id) (fun _ => row) t.rows) : OtherRows id t t' := by
  intro r hr
  rw [hrows,mem_updateRows]
  constructor
  · intro given
    rcases given with ⟨_,-,-,rfl⟩|⟨hmem,-⟩
    · exact absurd hid hr
    · exact hmem
  · exact fun hmem => .inr ⟨hmem,by simpa using hr⟩

theorem exec_others {op : PolicyCall} (hop : OnRow id op) (ht : OtherRows id t t') :
    OtherRows id t (PolicyCall.exec refuses op t').2 := by
  cases op with
  | findById i =>
    rw [PolicyCall.exec]
    split_ifs
    · exact ht
    · exact ht
  | update i columns =>
    cases hop
    rw [PolicyCall.exec]
    split_ifs
    · exact ht
    · cases hw : t'.update id columns with
      | error e => exact ht
      | ok result =>
        obtain ⟨_|row,t''⟩ := result
        · exact (PolicyTable.update_none hw).2 ▸ ht
        · obtain ⟨old,-,-,hid,-,hrows⟩ := PolicyTable.update_ok hw
          exact fun r hr => (others_of_update hid hrows r hr).trans (ht r hr)
  | insert columns => exact hop.elim
  | delete i => exact hop.elim

theorem handler_onRow (id : Uuid) (p : UpdatePolicy) :
    Proc.Only (fun _ _ => True) (OnRow id) (PolicyRequest.update id p).handler := by
  refine ⟨trivial,fun found _ => ?_⟩
  rcases found with e|_|existing
  · trivial
  · trivial
  · refine ⟨rfl,fun written _ => ?_⟩
    rcases written with e|_|row <;> trivial

/-- Whatever the two requests come to, the other rows are as they were. -/
theorem runs_others (schedule : List Client) :
    OtherRows id t (runs (step refuses) (start id requests t) schedule).shared := by
  refine (runs_invariant (fun s : PolicyRace => OtherRows id t s.shared ∧
    ∀ c, Proc.Only (fun _ _ => True) (OnRow id) (s.tasks c)) ?_ schedule ?_).1
  · intro s c hs
    exact Pool.advance_keeps (PolicyCall.exec refuses) (OnRow id) (OtherRows id t)
      (fun _ _ hop ht => exec_others hop ht) hs.1 hs.2 c
  · exact ⟨fun _ _ => Iff.rfl,fun c => handler_onRow id (requests c)⟩

theorem admissible_of_applied {q : UpdatePolicy} (ht : OtherRows id t t')
    (hfind : t'.findById id=some row') (hb : UpdatePolicy.BothApplied p q row row') :
    Admissible id t p where
  action x hx := by
    have haction : row'.action.text=x := by rw [hb.action,hx]; rfl
    rw [← haction,PolicyAction.parse_text]
    rfl
  name x hx r hr := by
    obtain ⟨hmem,hid⟩ := PolicyTable.mem_of_findById hfind
    have hname : row'.name=x := by rw [hb.name,hx]; rfl
    by_contra hother
    obtain ⟨hne,hsame⟩ := not_or.mp hother
    have he := List.inj_on_of_nodup_map t'.names ((ht r hne).mpr hr) hmem
      ((not_not.mp hsame).trans hname.symm)
    exact hne (he ▸ hid)

/-- How many statements a request has left, and that it can go through with them. -/
inductive Stage (id : Uuid) (t : PolicyTable) (p : UpdatePolicy) :
    Nat → Policies.Handler Unit → Prop where
  | reading : Stage id t p 2 (PolicyRequest.update id p).handler
  | writing {existing : PolicyRecord}
      (takes : t.takesFor id (Policies.merged p existing.columns)=true) :
      Stage id t p 1 (writing id p existing)
  | answered : Stage id t p 0 (.ret ())

structure Progress (id : Uuid) (t : PolicyTable) (requests : Client → UpdatePolicy)
    (left : Client → Nat) (s : PolicyRace) : Prop where
  others : OtherRows id t s.shared
  found : ∃ current, s.shared.findById id=some current
  stage : ∀ c, Stage id t (requests c) (left c) (s.tasks c)

/-- A request that goes through performs one statement of those that it has left. -/
theorem progress_step (hadm : ∀ c, Admissible id t (requests c)) {left : Client → Nat}
    (h : Progress id t requests left s) (c : Client) :
    Progress id t requests (Function.update left c (left c-1)) (step (fun _ => false) s c) := by
  obtain ⟨current,hfind⟩ := h.found
  have others {task : Policies.Handler Unit} {n : Nat} (hstage : Stage id t (requests c) n task)
      (d : Client) : Stage id t (requests d) (Function.update left c n d)
        (Function.update s.tasks c task d) := by
    by_cases hd : d=c
    · subst hd
      rwa [Function.update_self,Function.update_self]
    · rw [Function.update_of_ne hd,Function.update_of_ne hd]
      exact h.stage d
  have hstage := h.stage c
  generalize hn : left c=n at hstage ⊢
  generalize htask : s.tasks c=task at hstage
  cases hstage with
  | reading =>
    have hturn : step (fun _ => false) s c=_ := Pool.advance_of_call htask
    rw [hturn,PolicyCall.exec,if_neg Bool.false_ne_true]
    dsimp only
    rw [hfind]
    have hadm' := (hadm c).of_others h.others
    refine ⟨h.others,⟨current,hfind⟩,others (.writing ?_)⟩
    exact takesFor_of_others (fun r hr => (h.others r hr).symm) (takesFor_merged hfind hadm')
  | writing takes =>
    obtain ⟨result,hw⟩ := (PolicyTable.update_iff hfind).mpr (takesFor_of_others h.others takes)
    obtain ⟨row,t',-,-,rfl⟩ := (PolicyTable.update_eq_ok hfind).mp hw
    obtain ⟨-,-,-,hid,-,hrows⟩ := PolicyTable.update_ok hw
    rw [step_writing htask (by rw [PolicyCall.exec,if_neg Bool.false_ne_true,hw])]
    exact ⟨fun r hr => (others_of_update hid hrows r hr).trans (h.others r hr),
      ⟨row,findById_written hfind hid hrows⟩,others .answered⟩
  | answered =>
    have hsame : step (fun _ => false) s c=s := Pool.advance_of_idle (by rw [htask]; rfl)
    rw [hsame,← hn]
    rwa [Function.update_eq_self_iff.mpr (by omega)]

theorem progress_runs (hadm : ∀ c, Admissible id t (requests c)) {left : Client → Nat}
    (h : Progress id t requests left s) (schedule : List Client) :
    Progress id t requests (fun c => left c-schedule.count c)
      (runs (step fun _ => false) s schedule) := by
  induction schedule generalizing s left with
  | nil => exact h
  | cons c rest ih =>
    have hrest := ih (progress_step hadm h c)
    have hleft : (fun d => Function.update left c (left c-1) d-rest.count d)=
        fun d => left d-(c::rest).count d := by
      funext d
      by_cases hd : d=c
      · subst hd
        rw [Function.update_self,List.count_cons_self]
        omega
      · rw [Function.update_of_ne hd,List.count_cons_of_ne (Ne.symm hd)]
    rwa [hleft] at hrest

/-- Both requests are answered with success if they ask for what they may write. -/
theorem answered_of_admissible (hrow : t.findById id=some row)
    (hadm : ∀ c, Admissible id t (requests c)) {schedule : List Client}
    (hs : Interleaving schedule) (c : Client) :
    (runs (step fun _ => false) (start id requests t) schedule).tasks c=.ret () := by
  have hstart : Progress id t requests (fun _ => 2) (start id requests t) :=
    ⟨fun _ _ => Iff.rfl,⟨row,hrow⟩,fun _ => .reading⟩
  have hcount : schedule.count c=2 := (hs.count_eq c).trans (by cases c <;> rfl)
  have hend := (progress_runs hadm hstart schedule).stage c
  rw [hcount] at hend
  generalize (runs (step fun _ => false) (start id requests t) schedule).tasks c=task at hend ⊢
  cases hend
  rfl

end Acceptance

/-- Of two updates with different fields nothing is lost, exactly when both ask for what they may
write, and one has written before the other read or the one that wrote first asked for nothing
new. Where the server refuses statements, this is so of updates that are answered with success. -/
theorem updates_applied_iff {t : PolicyTable} {id : Uuid} {row : PolicyRecord}
    {requests : Client → UpdatePolicy} {schedule : List Client} (hrow : t.findById id=some row)
    (hd : (requests .first).Disjoint (requests .second)) (hs : Interleaving schedule) :
    ((∃ row', (runs (step fun _ => false) (start id requests t) schedule).shared.findById id=
        some row' ∧ UpdatePolicy.BothApplied (requests .first) (requests .second) row row') ↔
      (∀ c, Admissible id t (requests c)) ∧
        ∀ c, overwritten schedule=some c → (requests c).Holds row) ∧
    ∀ refuses, (∀ c, (runs (step refuses) (start id requests t) schedule).tasks c=.ret ()) →
      ((∃ row', (runs (step refuses) (start id requests t) schedule).shared.findById id=
          some row' ∧ UpdatePolicy.BothApplied (requests .first) (requests .second) row row') ↔
        ∀ c, overwritten schedule=some c → (requests c).Holds row) := by
  refine ⟨⟨?_,?_⟩,fun refuses hok => applied_iff_of_answered hrow hd hs hok⟩
  · intro given
    obtain ⟨row',hfind,hb⟩ := given
    have hadm : ∀ c, Admissible id t (requests c) := by
      intro c
      cases c with
      | first => exact admissible_of_applied (runs_others schedule) hfind hb
      | second => exact admissible_of_applied (runs_others schedule) hfind (hb.symm hd)
    exact ⟨hadm,(applied_iff_of_answered hrow hd hs (answered_of_admissible hrow hadm hs)).mp
      ⟨row',hfind,hb⟩⟩
  · intro given
    obtain ⟨hadm,hover⟩ := given
    exact (applied_iff_of_answered hrow hd hs (answered_of_admissible hrow hadm hs)).mpr hover

/-- A new priority, and the policy switched off. -/
def samplePriority : UpdatePolicy := ⟨none,none,some 5,none,none,none,none⟩

def sampleDisable : UpdatePolicy := ⟨none,none,none,none,none,none,some false⟩

def sampleRequests : Client → UpdatePolicy
  | .first => samplePriority
  | .second => sampleDisable

def sampleTable : PolicyTable := PolicyTable.seeded serialIds 0

def sampleRow : PolicyRecord :=
  PolicyTable.seedRow 3 0 "allow-corp-devices" "기업 등록 단말 허용" 50
    (.array [.object [("type",.string "os_family"),("value",.string "Windows")]]) .allow (some 10)
    true

theorem sample_disjoint : (sampleRequests .first).Disjoint (sampleRequests .second) := by
  intro f
  cases f <;> decide

theorem updates_applied_in_turn :
    ∃ row', (runs (step fun _ => false) (start 3 sampleRequests sampleTable)
        [.first,.first,.second,.second]).shared.findById 3=some row' ∧
      UpdatePolicy.BothApplied samplePriority sampleDisable sampleRow row' :=
  have hrow : sampleTable.findById 3=some sampleRow := rfl
  have hadm : ∀ c, Admissible 3 sampleTable (sampleRequests c) := by
    intro c
    cases c <;> exact ⟨nofun,nofun⟩
  (updates_applied_iff hrow sample_disjoint (.refl _)).1.mpr ⟨hadm,nofun⟩

/-- Both read, then both write: the new priority is gone. -/
theorem priority_lost :
    Interleaving [.first,.second,.first,.second] ∧
    (∀ c, (runs (step fun _ => false) (start 3 sampleRequests sampleTable)
      [.first,.second,.first,.second]).tasks c=.ret ()) ∧
    ¬∃ row', (runs (step fun _ => false) (start 3 sampleRequests sampleTable)
        [.first,.second,.first,.second]).shared.findById 3=some row' ∧
      UpdatePolicy.BothApplied samplePriority sampleDisable sampleRow row' := by
  refine ⟨by unfold Interleaving; decide,by intro c; cases c <;> rfl,?_⟩
  intro given
  obtain ⟨row',hfind,hb⟩ := given
  have hpriority : row'.priority=50 := by
    cases hfind
    rfl
  exact absurd (hpriority.symm.trans hb.priority) (by decide)

end PolicyRace

end NacPlatform
