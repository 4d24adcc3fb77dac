import NacPlatform.Store.Call

namespace NacPlatform

/-- A row of `policies` with all of its columns. -/
structure PolicyRecord extends PolicyRow where
  description : Option String
  createdAt : Timestamp

structure CreatePolicy where
  name : String
  description : Option String
  priority : Int32
  conditions : Option Json
  action : String
  vlanId : Option Int16

structure UpdatePolicy where
  name : Option String
  description : Option String
  priority : Option Int32
  conditions : Option Json
  action : Option String
  vlanId : Option Int16
  enabled : Option Bool

/-- The columns that an insert or an update gives. -/
structure PolicyColumns where
  name : String
  description : Option String
  priority : Int32
  conditions : Json
  action : String
  vlanId : Option Int16
  enabled : Bool

namespace PolicyAction

def text : PolicyAction → String
  | allow => "allow"
  | quarantine => "quarantine"
  | deny => "deny"

def parse (s : String) : Option PolicyAction := [allow,quarantine,deny].find? fun a => a.text==s

theorem parse_text (a : PolicyAction) : parse a.text=some a := by cases a <;> decide

theorem text_of_parse {s : String} {a : PolicyAction} (h : parse s=some a) : a.text=s := by
  simpa using List.find?_some h

end PolicyAction

def PolicyRecord.columns (r : PolicyRecord) : PolicyColumns where
  name := r.name
  description := r.description
  priority := r.priority
  conditions := r.conditions
  action := r.action.text
  vlanId := r.vlanId
  enabled := r.enabled

/-- The row with the columns given, if the `CHECK` lets the action pass. -/
def PolicyColumns.record (id : Uuid) (createdAt : Timestamp) (c : PolicyColumns) :
    Except DbError PolicyRecord :=
  match PolicyAction.parse c.action with
  | none => .error .checkViolation
  | some action =>
    .ok ⟨⟨id,c.name,c.priority,c.conditions,action,c.vlanId,c.enabled⟩,c.description,createdAt⟩

theorem PolicyColumns.record_ok {id : Uuid} {createdAt : Timestamp} {c : PolicyColumns}
    {row : PolicyRecord} (h : c.record id createdAt=.ok row) :
    row.columns=c ∧ row.id=id ∧ row.createdAt=createdAt := by
  unfold record at h
  split at h
  · cases h
  · next action hparse =>
    cases h
    exact ⟨by rw [PolicyRecord.columns,PolicyAction.text_of_parse hparse],rfl,rfl⟩

theorem PolicyColumns.record_iff {id : Uuid} {createdAt : Timestamp} {c : PolicyColumns} :
    (∃ row, c.record id createdAt=.ok row) ↔ (PolicyAction.parse c.action).isSome=true := by
  unfold record
  cases PolicyAction.parse c.action with
  | none => exact iff_of_false nofun nofun
  | some action => exact iff_of_true ⟨_,rfl⟩ rfl

/-- The rows of `policies` under the constraints of the table, and the clock of the server. -/
structure PolicyTable where
  rows : List PolicyRecord
  clock : Timestamp
  ids : (rows.map (·.id)).Nodup
  names : (rows.map (·.name)).Nodup

namespace PolicyTable

def freshId (t : PolicyTable) : Uuid := freshKey (t.rows.map (·.id))

def findById (id : Uuid) (t : PolicyTable) : Option PolicyRecord := t.rows.find? (·.id==id)

/-- A write that would break a unique constraint is an error and leaves the table as it is. -/
def commit (rows : List PolicyRecord) (clock : Timestamp) : Except DbError PolicyTable :=
  if h : (rows.map (·.id)).Nodup ∧ (rows.map (·.name)).Nodup then .ok ⟨rows,clock,h.1,h.2⟩
  else .error .uniqueViolation

/-- `INSERT INTO policies … RETURNING`. -/
def insert (c : PolicyColumns) (t : PolicyTable) : Except DbError (PolicyRecord × PolicyTable) := do
  let row ← c.record t.freshId t.clock
  return (row,← commit (t.rows++[row]) (t.clock+1))

/-- `UPDATE policies SET … WHERE id = $8 RETURNING`. -/
def update (id : Uuid) (c : PolicyColumns) (t : PolicyTable) :
    Except DbError (Option PolicyRecord × PolicyTable) :=
  match t.findById id with
  | none => .ok (none,t)
  | some r => do
    let row ← c.record id r.createdAt
    return (some row,← commit (updateRows (·.id==id) (fun _ => row) t.rows) t.clock)

def delete (id : Uuid) (t : PolicyTable) : PolicyTable where
  rows := t.rows.filter fun r => !(r.id==id)
  clock := t.clock
  ids := t.ids.sublist (List.filter_sublist.map _)
  names := t.names.sublist (List.filter_sublist.map _)

/-- What the constraints of the table let an `INSERT` write. -/
def takes (c : PolicyColumns) (t : PolicyTable) : Bool :=
  (PolicyAction.parse c.action).isSome && t.rows.all fun r => r.name != c.name

/-- The same for an `UPDATE` of the row with the id, which may keep its name. -/
def takesFor (id : Uuid) (c : PolicyColumns) (t : PolicyTable) : Bool :=
  (PolicyAction.parse c.action).isSome && t.rows.all fun r => r.id==id || r.name != c.name

theorem commit_ok {rows : List PolicyRecord} {clock : Timestamp} {t : PolicyTable}
    (h : commit rows clock=.ok t) : t.rows=rows := by
  unfold commit at h
  split at h
  · cases h
    rfl
  · cases h

theorem commit_iff {rows : List PolicyRecord} {clock : Timestamp} :
    (∃ t, commit rows clock=.ok t) ↔ (rows.map (·.id)).Nodup ∧ (rows.map (·.name)).Nodup := by
  unfold commit
  split
  · next h => exact iff_of_true ⟨_,rfl⟩ h
  · next h => exact iff_of_false nofun h

/-- A statement that writes a row ends with success when the row passes its checks and the table
with it the unique constraints. -/
theorem bind_commit_ok {β : Type} {x : Except DbError PolicyRecord} {g : PolicyRecord → β}
    {f : PolicyRecord → Except DbError PolicyTable} {result : β × PolicyTable} :
    (do let row ← x; return (g row,← f row))=Except.ok result ↔
      ∃ row t', x=.ok row ∧ f row=.ok t' ∧ result=(g row,t') := by
  cases x with
  | error e =>
    refine iff_of_false nofun ?_
    intro given
    obtain ⟨row,t',h,-⟩ := given
    cases h
  | ok row =>
    cases hf : f row with
    | error e =>
      simp only [bind,Except.bind,hf]
      refine iff_of_false nofun ?_
      intro given
      obtain ⟨row',t',h,h',-⟩ := given
      cases h
      rw [hf] at h'
      cases h'
    | ok t' =>
      simp only [bind,Except.bind,hf,pure,Except.pure]
      constructor
      · intro h
        cases h
        exact ⟨row,t',rfl,hf,rfl⟩
      · intro given
        obtain ⟨row',t'',h,h',rfl⟩ := given
        cases h
        rw [hf] at h'
        cases h'
        rfl

theorem insert_eq_ok {c : PolicyColumns} {t : PolicyTable} {result : PolicyRecord × PolicyTable} :
    t.insert c=.ok result ↔ ∃ row t', c.record t.freshId t.clock=.ok row ∧
      commit (t.rows++[row]) (t.clock+1)=.ok t' ∧ result=(row,t') :=
  bind_commit_ok (g := id)

theorem update_eq_ok {id : Uuid} {c : PolicyColumns} {t : PolicyTable} {old : PolicyRecord}
    {result : Option PolicyRecord × PolicyTable} (hfind : t.findById id=some old) :
    t.update id c=.ok result ↔ ∃ row t', c.record id old.createdAt=.ok row ∧
      commit (updateRows (·.id==id) (fun _ => row) t.rows) t.clock=.ok t' ∧
        result=(some row,t') := by
  rw [update,hfind]
  exact bind_commit_ok

theorem insert_ok {c : PolicyColumns} {t t' : PolicyTable} {row : PolicyRecord}
    (h : t.insert c=.ok (row,t')) : row.columns=c ∧ t'.rows=t.rows++[row] := by
  obtain ⟨_,_,hrow,hcommit,he⟩ := insert_eq_ok.mp h
  cases he
  exact ⟨(PolicyColumns.record_ok hrow).1,commit_ok hcommit⟩

theorem update_ok {id : Uuid} {c : PolicyColumns} {t t' : PolicyTable} {row : PolicyRecord}
    (h : t.update id c=.ok (some row,t')) :
    ∃ old, t.findById id=some old ∧ row.columns=c ∧ row.id=id ∧ row.createdAt=old.createdAt ∧
      t'.rows=updateRows (·.id==id) (fun _ => row) t.rows := by
  cases hfind : t.findById id with
  | none => simp [update,hfind] at h
  | some old =>
    obtain ⟨_,_,hrow,hcommit,he⟩ := (update_eq_ok hfind).mp h
    cases he
    obtain ⟨hc,hid,hat⟩ := PolicyColumns.record_ok hrow
    exact ⟨old,rfl,hc,hid,hat,commit_ok hcommit⟩

theorem update_none {id : Uuid} {c : PolicyColumns} {t t' : PolicyTable}
    (h : t.update id c=.ok (none,t')) : t.findById id=none ∧ t'=t := by
  cases hfind : t.findById id with
  | none =>
    rw [update,hfind] at h
    cases h
    exact ⟨rfl,rfl⟩
  | some old =>
    obtain ⟨_,_,-,-,he⟩ := (update_eq_ok hfind).mp h
    cases he

theorem mem_of_findById {id : Uuid} {t : PolicyTable} {r : PolicyRecord}
    (h : t.findById id=some r) : r ∈ t.rows ∧ r.id=id :=
  ⟨List.mem_of_find?_eq_some h,by simpa using List.find?_some h⟩

/-- The row that an `INSERT` writes has an id of its own, and a name of its own by `takes`. -/
theorem insert_iff {c : PolicyColumns} {t : PolicyTable} :
    (∃ result, t.insert c=.ok result) ↔ t.takes c=true := by
  have key {row : PolicyRecord} (hrow : c.record t.freshId t.clock=.ok row) :
      (∃ t', commit (t.rows++[row]) (t.clock+1)=.ok t') ↔ ∀ r ∈ t.rows, r.name≠c.name := by
    obtain ⟨hc,hid,-⟩ := PolicyColumns.record_ok hrow
    have hfresh : row.id ∉ t.rows.map (·.id) := hid ▸ freshKey_notMem _
    have hname : row.name=c.name := congrArg PolicyColumns.name hc
    rw [commit_iff,List.map_append,List.map_append,List.map_singleton,List.map_singleton,
      ← List.concat_eq_append,← List.concat_eq_append,List.nodup_concat,List.nodup_concat,hname]
    simp [hfresh,t.ids,t.names]
  rw [takes,Bool.and_eq_true,List.all_eq_true]
  constructor
  · intro given
    obtain ⟨result,h⟩ := given
    obtain ⟨row,t',hrow,hcommit,-⟩ := insert_eq_ok.mp h
    exact ⟨PolicyColumns.record_iff.mp ⟨row,hrow⟩,
      fun r hr => bne_iff_ne.mpr ((key hrow).mp ⟨t',hcommit⟩ r hr)⟩
  · intro given
    obtain ⟨haction,hnames⟩ := given
    obtain ⟨row,hrow⟩ := PolicyColumns.record_iff.mpr haction
    obtain ⟨t',hcommit⟩ := (key hrow).mpr fun r hr => bne_iff_ne.mp (hnames r hr)
    exact ⟨_,insert_eq_ok.mpr ⟨row,t',hrow,hcommit,rfl⟩⟩

/-- The name of the rewritten row is checked against the other rows only. -/
theorem update_iff {id : Uuid} {c : PolicyColumns} {t : PolicyTable} {old : PolicyRecord}
    (hfind : t.findById id=some old) :
    (∃ result, t.update id c=.ok result) ↔ t.takesFor id c=true := by
  obtain ⟨hold,holdId⟩ := mem_of_findById hfind
  have key {row : PolicyRecord} (hrow : c.record id old.createdAt=.ok row) :
      (∃ t', commit (updateRows (·.id==id) (fun _ => row) t.rows) t.clock=.ok t') ↔
        ∀ r ∈ t.rows, r.id=id ∨ r.name≠c.name := by
    obtain ⟨hc,hid,-⟩ := PolicyColumns.record_ok hrow
    have hname : row.name=c.name := congrArg PolicyColumns.name hc
    rw [commit_iff]
    constructor
    · intro given r hr
      obtain ⟨-,hnames⟩ := given
      by_contra hother
      obtain ⟨hne,hsame⟩ := not_or.mp hother
      have hr' : r ∈ updateRows (·.id==id) (fun _ => row) t.rows :=
        mem_updateRows.mpr (.inr ⟨hr,by simpa using hne⟩)
      have hrow' : row ∈ updateRows (·.id==id) (fun _ => row) t.rows :=
        mem_updateRows.mpr (.inl ⟨old,hold,by simpa using holdId,rfl⟩)
      have he := List.inj_on_of_nodup_map hnames hr' hrow'
        ((not_not.mp hsame).trans hname.symm)
      exact hne (he ▸ hid)
    · intro hother
      have honly : ∀ r ∈ t.rows, (r.id==id)=true → r=old := fun r hr h =>
        List.inj_on_of_nodup_map t.ids hr hold ((by simpa using h : r.id=id).trans holdId.symm)
      refine ⟨nodup_updateRows t.ids honly ?_,nodup_updateRows t.names honly ?_⟩
      · intro r _ hr
        rw [hid]
        simpa using hr
      · intro r hr h
        rw [hname]
        exact (hother r hr).resolve_left (by simpa using h)
  rw [takesFor,Bool.and_eq_true,List.all_eq_true]
  constructor
  · intro given
    obtain ⟨result,h⟩ := given
    obtain ⟨row,t',hrow,hcommit,-⟩ := (update_eq_ok hfind).mp h
    exact ⟨PolicyColumns.record_iff.mp ⟨row,hrow⟩,
      fun r hr => by simpa using (key hrow).mp ⟨t',hcommit⟩ r hr⟩
  · intro given
    obtain ⟨haction,hnames⟩ := given
    obtain ⟨row,hrow⟩ := PolicyColumns.record_iff.mpr haction
    obtain ⟨t',hcommit⟩ := (key hrow).mpr fun r hr => by simpa using hnames r hr
    exact ⟨_,(update_eq_ok hfind).mpr ⟨row,t',hrow,hcommit,rfl⟩⟩

/-- Nothing is deleted where nothing is found. -/
theorem delete_of_notFound {id : Uuid} {t : PolicyTable} (h : t.findById id=none) :
    t.delete id=t := by
  have hrows : t.rows.filter (fun r => !(r.id==id))=t.rows := by
    rw [List.filter_eq_self]
    intro r hr
    simpa using List.find?_eq_none.mp h r hr
  unfold delete
  congr

end PolicyTable

/-- The statements of `PolicyRepo` on single rows. -/
inductive PolicyCall where
  | findById (id : Uuid)
  | insert (c : PolicyColumns)
  | update (id : Uuid) (c : PolicyColumns)
  | delete (id : Uuid)

namespace PolicyCall

abbrev Result : PolicyCall → Type
  | findById _ => Option PolicyRecord
  | insert _ => PolicyRecord
  | update .. => Option PolicyRecord
  | delete _ => Bool

abbrev Reply (c : PolicyCall) : Type := Except DbError c.Result

/-- What the server refuses beyond the constraints of the table, a text with a zero byte for
one, fails without effect. -/
def exec (refuses : PolicyCall → Bool) (c : PolicyCall) (t : PolicyTable) :
    c.Reply × PolicyTable :=
  if refuses c then (.error .unavailable,t)
  else
    match c with
    | findById id => (.ok (t.findById id),t)
    | insert c =>
      match t.insert c with
      | .ok (row,t') => (.ok row,t')
      | .error e => (.error e,t)
    | update id c =>
      match t.update id c with
      | .ok (row,t') => (.ok row,t')
      | .error e => (.error e,t)
    | delete id => (.ok (t.findById id).isSome,t.delete id)

theorem exec_update_ok {refuses : PolicyCall → Bool} {id : Uuid} {c : PolicyColumns}
    {t t' : PolicyTable} {row : Option PolicyRecord}
    (h : exec refuses (.update id c) t=(.ok row,t')) : t.update id c=.ok (row,t') := by
  rw [exec] at h
  split_ifs at h
  · cases h
  · cases hw : t.update id c with
    | error e =>
      rw [hw] at h
      cases h
    | ok result =>
      rw [hw] at h
      cases h
      rfl

end PolicyCall

namespace Policies

inductive AppError where
  | database (e : DbError)
  | notFound (id : Uuid)
  deriving DecidableEq, Repr

abbrev Handler := Proc PolicyCall PolicyCall.Reply AppError

/-- A statement whose error ends the request, as `.await?` does. -/
def query (c : PolicyCall) : Handler c.Result :=
  .performOrFail c fun r => r.mapError AppError.database

theorem run_query_bind {β : Type} (exec : (c : PolicyCall) → PolicyTable → c.Reply × PolicyTable)
    (c : PolicyCall) (f : c.Result → Handler β) (t : PolicyTable) :
    (query c >>= f).run exec t=
      match exec c t with
      | (.ok a,t') => (f a).run exec t'
      | (.error e,t') => (.error (.database e),t') := by
  rw [query,Proc.run_bind,Proc.run_performOrFail]
  rcases exec c t with ⟨r,t'⟩
  cases r <;> rfl

def create (p : CreatePolicy) : Handler PolicyRecord :=
  query (.insert ⟨p.name,p.description,p.priority,p.conditions.getD (.array []),p.action,p.vlanId,
    true⟩)

/-- What is given replaces what is stored. -/
def merged (p : UpdatePolicy) (existing : PolicyColumns) : PolicyColumns where
  name := p.name.getD existing.name
  description := p.description.or existing.description
  priority := p.priority.getD existing.priority
  conditions := p.conditions.getD existing.conditions
  action := p.action.getD existing.action
  vlanId := p.vlanId.or existing.vlanId
  enabled := p.enabled.getD existing.enabled

/-- The row is read, merged with the request, and all of its columns are written back. -/
def update (id : Uuid) (p : UpdatePolicy) : Handler (Option PolicyRecord) := do
  let found ← query (.findById id)
  match found with
  | none => return none
  | some existing => query (.update id (merged p existing.columns))

def createPolicy (body : CreatePolicy) : Handler PolicyRecord := create body

/-- The row, or 404. -/
def answer (id : Uuid) : Option PolicyRecord → Handler PolicyRecord
  | some row => return row
  | none => .fail (.notFound id)

def updatePolicy (id : Uuid) (body : UpdatePolicy) : Handler PolicyRecord := do
  let row ← update id body
  answer id row

def deletePolicy (id : Uuid) : Handler Unit := do
  let deleted ← query (.delete id)
  if deleted then return () else .fail (.notFound id)

end Policies

end NacPlatform
