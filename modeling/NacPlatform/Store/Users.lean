import NacPlatform.Framework.Keyed
import NacPlatform.Framework.Proc
import NacPlatform.Framework.StableSort
import NacPlatform.Store.Endpoint
import NacPlatform.Store.Postgres

namespace NacPlatform

/-- What the `CHECK` lets the column `role` hold. -/
inductive UserRole where
  | admin
  | user
  deriving DecidableEq, Repr

namespace UserRole

def text : UserRole → String
  | admin => "admin"
  | user => "user"

def parse (s : String) : Option UserRole := [admin,user].find? fun r => r.text==s

theorem parse_text (r : UserRole) : parse r.text=some r := by cases r <;> decide

theorem text_of_parse {s : String} {r : UserRole} (h : parse s=some r) : r.text=s := by
  simpa using List.find?_some h

end UserRole

/-- A row of `nac_users`. -/
structure UserRow where
  id : Uuid
  username : String
  passwordHash : String
  role : UserRole
  enabled : Bool
  createdAt : Timestamp
  deriving DecidableEq, Repr

/-- The table `nac_users`: the ids and the names are unique. -/
structure UserTable where
  rows : List UserRow
  ids : (rows.map (·.id)).Nodup
  names : (rows.map (·.username)).Nodup

namespace UserRow

def withHash (hash : String) (r : UserRow) : UserRow := {r with passwordHash := hash}

def withEnabled (enabled : Bool) (r : UserRow) : UserRow := {r with enabled := enabled}

theorem withHash_id (hash : String) (r : UserRow) : (r.withHash hash).id=r.id := rfl

theorem withHash_username (hash : String) (r : UserRow) :
    (r.withHash hash).username=r.username := rfl

theorem withEnabled_id (enabled : Bool) (r : UserRow) : (r.withEnabled enabled).id=r.id := rfl

theorem withEnabled_username (enabled : Bool) (r : UserRow) :
    (r.withEnabled enabled).username=r.username := rfl

end UserRow

namespace UserTable

def empty : UserTable := ⟨[],List.nodup_nil,List.nodup_nil⟩

def findById (t : UserTable) (id : Uuid) : Option UserRow := rowAt UserRow.id t.rows id

/-- `INSERT … RETURNING …`: the id and the time are drawn by the server. -/
def insert (id : Uuid) (now : Timestamp) (username hash role : String) (t : UserTable) :
    Except DbError (UserRow × UserTable) :=
  match UserRole.parse role with
  | none => .error .checkViolation
  | some role =>
    if h : id ∉ t.rows.map (·.id) ∧ username ∉ t.rows.map (·.username) then
      let row : UserRow := ⟨id,username,hash,role,true,now⟩
      .ok (row,{
        rows := t.rows++[row]
        ids := List.concat_eq_append ▸ (List.map_concat ▸ t.ids.concat h.1)
        names := List.concat_eq_append ▸ (List.map_concat ▸ t.names.concat h.2) })
    else .error .uniqueViolation

def delete (id : Uuid) (t : UserTable) : UserTable where
  rows := t.rows.filter fun r => !(r.id==id)
  ids := t.ids.sublist (List.filter_sublist.map _)
  names := t.names.sublist (List.filter_sublist.map _)

/-- An `UPDATE` of the row with the id that keeps its id and its name. -/
def modify (id : Uuid) (f : UserRow → UserRow) (hid : ∀ r, (f r).id=r.id)
    (hname : ∀ r, (f r).username=r.username) (t : UserTable) : UserTable where
  rows := updateRows (fun r => r.id==id) f t.rows
  ids := (map_updateRows hid t.rows).symm ▸ t.ids
  names := (map_updateRows hname t.rows).symm ▸ t.names

def setPasswordHash (id : Uuid) (hash : String) (t : UserTable) : UserTable :=
  t.modify id (UserRow.withHash hash) (UserRow.withHash_id hash) (UserRow.withHash_username hash)

def setEnabled (id : Uuid) (enabled : Bool) (t : UserTable) : UserTable :=
  t.modify id (UserRow.withEnabled enabled) (UserRow.withEnabled_id enabled)
    (UserRow.withEnabled_username enabled)

/-- `SELECT password_hash, role … WHERE username = $1 AND enabled = true`. -/
def credentials (username : String) (t : UserTable) : Option (String × String) :=
  (t.rows.find? fun r => r.username==username && r.enabled).map fun r => (r.passwordHash,r.role.text)

theorem findById_eq_some {t : UserTable} {id : Uuid} {r : UserRow} :
    t.findById id=some r ↔ r ∈ t.rows ∧ r.id=id := rowAt_eq_some t.ids

@[simp] theorem findById_empty (id : Uuid) : empty.findById id=none := rfl

theorem insert_ok {id : Uuid} {now : Timestamp} {username hash role : String} {t t' : UserTable}
    {row : UserRow} (h : t.insert id now username hash role=.ok (row,t')) :
    UserRole.parse role=some row.role ∧ row=⟨id,username,hash,row.role,true,now⟩ ∧
      id ∉ t.rows.map (·.id) ∧ username ∉ t.rows.map (·.username) ∧
        t'.findById=Function.update t.findById id (some row) := by
  unfold insert at h
  split at h
  · cases h
  · next r hparse =>
    split at h
    · next hnew =>
      cases h
      refine ⟨hparse,rfl,hnew.1,hnew.2,?_⟩
      show rowAt UserRow.id _=_
      exact rowAt_concat hnew.1
    · cases h

/-- A refused row has a role that the table does not take, or an id or a name that is taken. -/
theorem insert_iff {id : Uuid} {now : Timestamp} {username hash role : String} {t : UserTable} :
    (∃ result, t.insert id now username hash role=.ok result) ↔
      (UserRole.parse role).isSome=true ∧ t.findById id=none ∧
        ∀ i r, t.findById i=some r → r.username≠username := by
  have hname : username ∉ t.rows.map (·.username) ↔
      ∀ i r, t.findById i=some r → r.username≠username := by
    constructor
    · intro h i r hr e
      exact h (List.mem_map.mpr ⟨r,(findById_eq_some.mp hr).1,e⟩)
    · intro h hmem
      obtain ⟨r,hr,e⟩ := List.mem_map.mp hmem
      exact h r.id r (findById_eq_some.mpr ⟨hr,rfl⟩) e
  rw [← hname,findById,rowAt_eq_none]
  unfold insert
  cases UserRole.parse role with
  | none => exact iff_of_false nofun nofun
  | some r =>
    dsimp only
    split_ifs with h
    · exact iff_of_true ⟨_,rfl⟩ ⟨rfl,h⟩
    · exact iff_of_false nofun fun given => h given.2

theorem findById_delete (id : Uuid) (t : UserTable) :
    (t.delete id).findById=Function.update t.findById id none := rowAt_filter t.rows id

theorem findById_modify (id : Uuid) (f : UserRow → UserRow) (hid : ∀ r, (f r).id=r.id)
    (hname : ∀ r, (f r).username=r.username) (t : UserTable) :
    (t.modify id f hid hname).findById=Function.update t.findById id ((t.findById id).map f) :=
  rowAt_updateRows hid t.rows id

theorem findById_setPasswordHash (id : Uuid) (hash : String) (t : UserTable) :
    (t.setPasswordHash id hash).findById=
      Function.update t.findById id ((t.findById id).map (UserRow.withHash hash)) := by
  apply findById_modify

theorem findById_setEnabled (id : Uuid) (enabled : Bool) (t : UserTable) :
    (t.setEnabled id enabled).findById=
      Function.update t.findById id ((t.findById id).map (UserRow.withEnabled enabled)) := by
  apply findById_modify

/-- The row that a login is checked against: there is one at most. -/
theorem credentials_eq_some {username hash role : String} {t : UserTable} :
    t.credentials username=some (hash,role) ↔
      ∃ id r, t.findById id=some r ∧ r.username=username ∧ r.enabled=true ∧
        r.passwordHash=hash ∧ r.role.text=role := by
  rw [credentials,Option.map_eq_some_iff]
  constructor
  · intro given
    obtain ⟨r,hfind,same⟩ := given
    obtain ⟨hhash,hrole⟩ := Prod.mk.inj same
    have hr := List.find?_some hfind
    rw [Bool.and_eq_true,beq_iff_eq] at hr
    exact ⟨r.id,r,findById_eq_some.mpr ⟨List.mem_of_find?_eq_some hfind,rfl⟩,hr.1,hr.2,hhash,hrole⟩
  · intro given
    obtain ⟨id,r,hfind,hname,hon,hhash,hrole⟩ := given
    refine ⟨r,?_,by rw [hhash,hrole]⟩
    apply find?_unique t.names (findById_eq_some.mp hfind).1
    · rw [hname,hon,beq_self_eq_true,Bool.and_self]
    · intro r' _ h
      rw [Bool.and_eq_true,beq_iff_eq] at h
      rw [h.1,hname]

theorem credentials_eq_none {username : String} {t : UserTable} :
    t.credentials username=none ↔
      ∀ id r, t.findById id=some r → r.username=username → r.enabled=false := by
  rw [credentials,Option.map_eq_none_iff,List.find?_eq_none]
  constructor
  · intro h id r hfind hname
    have hr := h r (findById_eq_some.mp hfind).1
    simpa [hname] using hr
  · intro h r hr
    rw [Bool.and_eq_true,beq_iff_eq]
    intro given
    have hoff := h r.id r (findById_eq_some.mpr ⟨hr,rfl⟩) given.1
    rw [given.2] at hoff
    cases hoff

end UserTable

/-- The statements on `nac_users`. -/
inductive UserCall where
  | list
  | insert (username hash role : String)
  | delete (id : Uuid)
  | setPasswordHash (id : Uuid) (hash : String)
  | setEnabled (id : Uuid) (enabled : Bool)
  | credentials (username : String)
  deriving DecidableEq, Repr

/-- What the server brings to a statement: the id and the time of a new row, the order of a scan,
and what it refuses. -/
structure UserServer where
  id : Uuid
  now : Timestamp
  refuses : UserCall → Bool
  scan : List UserRow → List UserRow
  scan_perm : ∀ rows, (scan rows).Perm rows

namespace UserCall

/-- A row, the rows, or how many rows a statement has changed. -/
abbrev Result : UserCall → Type
  | list => List UserRow
  | insert .. => UserRow
  | credentials _ => Option (String × String)
  | _ => Nat

abbrev Reply (c : UserCall) : Type := Except DbError c.Result

def affected (id : Uuid) (t : UserTable) : Nat := t.rows.countP fun r => r.id==id

def exec (srv : UserServer) (c : UserCall) (t : UserTable) : c.Reply × UserTable :=
  if srv.refuses c then (.error .unavailable,t)
  else
    match c with
    | list => (.ok (sortByKey (·.createdAt) (srv.scan t.rows)),t)
    | insert username hash role =>
      match t.insert srv.id srv.now username hash role with
      | .ok (row,t') => (.ok row,t')
      | .error e => (.error e,t)
    | delete id => (.ok (affected id t),t.delete id)
    | setPasswordHash id hash => (.ok (affected id t),t.setPasswordHash id hash)
    | setEnabled id enabled => (.ok (affected id t),t.setEnabled id enabled)
    | credentials username => (.ok (t.credentials username),t)

theorem affected_eq_zero {id : Uuid} {t : UserTable} : affected id t=0 ↔ t.findById id=none := by
  rw [affected,List.countP_eq_zero,UserTable.findById,rowAt,List.find?_eq_none]

end UserCall

end NacPlatform
