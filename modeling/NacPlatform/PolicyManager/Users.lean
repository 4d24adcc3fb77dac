import NacPlatform.Framework.Run
import NacPlatform.NacAuth.LocalAuth

namespace NacPlatform.Users

open NacAuth (Argon2 hashPassword localAuthenticate LocalAuthError UserIdentity)

/-- `AppError` of the API: anything but a 404 is a 500. -/
inductive AppError where
  | db
  | notFound (message : String)
  deriving DecidableEq, Repr

/-- The status and the text of the answer. -/
def AppError.response : AppError → Nat × String
  | notFound message => (404,message)
  | db => (500,"internal server error")

def defaultRole : String := "user"

structure CreateUserRequest where
  username : String
  password : String
  role : String := defaultRole

structure ChangePasswordRequest where
  password : String

structure UserResponse where
  id : Uuid
  username : String
  role : String
  enabled : Bool
  deriving DecidableEq, Repr

def UserResponse.ofRow (r : UserRow) : UserResponse := ⟨r.id,r.username,r.role.text,r.enabled⟩

inductive Answer where
  | users (list : List UserResponse)
  | created (user : UserResponse)
  | noContent
  deriving DecidableEq, Repr

abbrev Handler := Proc UserCall UserCall.Reply AppError

/-- A statement whose error is an internal one. -/
def query (c : UserCall) : Handler c.Result := .performOrFail c fun r => r.mapError fun _ => .db

/-- The text of the error has the word `unique` in it. -/
def mentionsUnique : DbError → Bool
  | .uniqueViolation => true
  | _ => false

def listUsers : Handler Answer := do
  let rows ← query .list
  return .users (rows.map .ofRow)

/-- The name is trimmed where it is stored, not where it is reported. -/
def createUser (argon : Argon2) (salt : String) (req : CreateUserRequest) : Handler Answer :=
  if (trim req.username).isEmpty || req.password.utf8ByteSize<8 then
    .fail (.notFound "username required and password must be at least 8 characters")
  else if (UserRole.parse req.role).isNone then .fail (.notFound "role must be 'admin' or 'user'")
  else
    match hashPassword argon salt req.password with
    | .error _ => .fail .db
    | .ok hash => do
      let row ← .performOrFail (.insert (trim req.username) hash req.role) fun r =>
        r.mapError fun e =>
          if mentionsUnique e then .notFound ("username '"++req.username++"' already exists")
          else .db
      return .created (.ofRow row)

/-- No row with the id is a 404. -/
def changed (id : Uuid) (rowsAffected : Nat) : Handler Answer :=
  if rowsAffected=0 then .fail (.notFound ("user "++toString id++" not found"))
  else return .noContent

def deleteUser (id : Uuid) : Handler Answer := do
  let rows ← query (.delete id)
  changed id rows

def changePassword (argon : Argon2) (salt : String) (id : Uuid) (req : ChangePasswordRequest) :
    Handler Answer :=
  if req.password.utf8ByteSize<8 then
    .fail (.notFound "password must be at least 8 characters")
  else
    match hashPassword argon salt req.password with
    | .error _ => .fail .db
    | .ok hash => do
      let rows ← query (.setPasswordHash id hash)
      changed id rows

def setEnabled (id : Uuid) (action : String) : Handler Answer :=
  let update (enabled : Bool) : Handler Answer := do
    let rows ← query (.setEnabled id enabled)
    changed id rows
  match action with
  | "enable" => update true
  | "disable" => update false
  | _ => .fail (.notFound "action must be enable or disable")

inductive UserRequest where
  | list
  | create (body : CreateUserRequest)
  | delete (id : Uuid)
  | changePassword (id : Uuid) (body : ChangePasswordRequest)
  | setEnabled (id : Uuid) (action : String)

/-- A request, with the salt that is drawn for it and the server that it meets. -/
structure UserEvent where
  request : UserRequest
  salt : String
  server : UserServer

def UserRequest.handler (argon : Argon2) (salt : String) : UserRequest → Handler Answer
  | list => listUsers
  | create body => createUser argon salt body
  | delete id => deleteUser id
  | changePassword id body => Users.changePassword argon salt id body
  | setEnabled id action => Users.setEnabled id action

def UserEvent.run (argon : Argon2) (e : UserEvent) (t : UserTable) :
    Except AppError Answer × UserTable :=
  (e.request.handler argon e.salt).run (UserCall.exec e.server) t

/-! What the administrator, who sees the answers, knows of the accounts. -/

structure Account where
  username : String
  password : String
  role : String
  enabled : Bool

abbrev Book := Uuid → Option Account

/-- What an answer says of the accounts. -/
def Book.note (b : Book) (request : UserRequest) : Except AppError Answer → Book
  | .error _ => b
  | .ok answer =>
    match request,answer with
    | .create body,.created user =>
      Function.update b user.id (some ⟨user.username,body.password,user.role,user.enabled⟩)
    | .delete id,_ => Function.update b id none
    | .changePassword id body,_ =>
      Function.update b id ((b id).map fun acc => {acc with password := body.password})
    | .setEnabled id action,_ =>
      Function.update b id ((b id).map fun acc => {acc with enabled := action=="enable"})
    | _,_ => b

/-- The table, and the book of the administrator. -/
structure Administration where
  table : UserTable
  book : Book

def Administration.initial : Administration := ⟨.empty,fun _ => none⟩

def Administration.step (argon : Argon2) (s : Administration) (e : UserEvent) : Administration :=
  let (answer,t) := e.run argon s.table
  ⟨t,s.book.note e.request answer⟩

/-- A row is the account: its hash is one of the password. -/
structure Stores (argon : Argon2) (r : UserRow) (acc : Account) : Prop where
  username : r.username=acc.username
  hash : ∃ salt, argon.hash salt acc.password=.ok r.passwordHash
  role : r.role.text=acc.role
  enabled : r.enabled=acc.enabled

/-- The book says of every id what the table has under it. -/
def Represents (argon : Argon2) (t : UserTable) (b : Book) : Prop :=
  ∀ id, Option.Rel (Stores argon) (t.findById id) (b id)

section Runs

variable (argon : Argon2)

/-- What follows a statement, by what it came to. -/
def follow {α : Type} (srv : UserServer) (f : α → Handler Answer) :
    Except DbError α × UserTable → Except AppError Answer × UserTable
  | (.ok a,t) => (f a).run (UserCall.exec srv) t
  | (.error _,t) => (.error .db,t)

theorem run_query_bind (srv : UserServer) (c : UserCall) (f : c.Result → Handler Answer)
    (t : UserTable) :
    (query c >>= f).run (UserCall.exec srv) t=follow srv f (UserCall.exec srv c t) := by
  rw [query,Proc.run_bind,Proc.run_performOrFail]
  rcases UserCall.exec srv c t with ⟨r,t'⟩
  cases r <;> rfl

theorem run_changed (srv : UserServer) (id : Uuid) (n : Nat) (t : UserTable) :
    (changed id n).run (UserCall.exec srv) t=
      if n=0 then (.error (.notFound ("user "++toString id++" not found")),t)
      else (.ok .noContent,t) := by
  unfold changed
  split <;> rfl

/-- A request that was not done has left every account as it was. -/
def Undone (t : UserTable) (result : Except AppError Answer × UserTable) : Prop :=
  (∃ e, result.1=.error e) ∧ result.2.findById=t.findById

theorem undone_self (e : AppError) (t : UserTable) : Undone t (.error e,t) := ⟨⟨e,rfl⟩,rfl⟩

/-- A statement about one row, answered by how many rows it has changed. -/
theorem run_modify (srv : UserServer) (id : Uuid) (v : UserRow → Option UserRow) {t t' : UserTable}
    {exec : Except DbError Nat × UserTable} {result : Except AppError Answer × UserTable}
    (hresult : result=follow srv (changed id) exec)
    (hexec : exec=(.error .unavailable,t) ∨ exec=(.ok (UserCall.affected id t),t'))
    (hfind : t'.findById=Function.update t.findById id ((t.findById id).bind v)) :
    Undone t result ∨ result=(.ok .noContent,t') := by
  rcases hexec with rfl|rfl
  · rw [hresult]
    exact .inl (undone_self .db t)
  · rw [hresult,follow,run_changed]
    split_ifs with h
    · left
      refine ⟨⟨_,rfl⟩,?_⟩
      have hnone := UserCall.affected_eq_zero.mp h
      rw [hnone] at hfind
      show t'.findById=t.findById
      rw [hfind,Option.bind_none,← hnone,Function.update_eq_self]
    · exact .inr rfl

theorem run_delete (srv : UserServer) (id : Uuid) (t : UserTable) :
    Undone t ((deleteUser id).run (UserCall.exec srv) t) ∨
      (deleteUser id).run (UserCall.exec srv) t=(.ok .noContent,t.delete id) := by
  apply run_modify srv id (fun _ => none)
    (run_query_bind srv (.delete id) (changed id) t)
  · unfold UserCall.exec
    split
    · exact .inl rfl
    · exact .inr rfl
  · rw [UserTable.findById_delete]
    cases t.findById id <;> rfl

theorem run_setHash (srv : UserServer) (id : Uuid) (hash : String) (t : UserTable) :
    let result := (query (.setPasswordHash id hash) >>= changed id).run (UserCall.exec srv) t
    Undone t result ∨ result=(.ok .noContent,t.setPasswordHash id hash) := by
  apply run_modify srv id (fun r => some (r.withHash hash))
    (run_query_bind srv (.setPasswordHash id hash) (changed id) t)
  · unfold UserCall.exec
    split
    · exact .inl rfl
    · exact .inr rfl
  · rw [UserTable.findById_setPasswordHash]
    cases t.findById id <;> rfl

theorem run_toggle (srv : UserServer) (id : Uuid) (enabled : Bool) (t : UserTable) :
    let result := (query (.setEnabled id enabled) >>= changed id).run (UserCall.exec srv) t
    Undone t result ∨ result=(.ok .noContent,t.setEnabled id enabled) := by
  apply run_modify srv id (fun r => some (r.withEnabled enabled))
    (run_query_bind srv (.setEnabled id enabled) (changed id) t)
  · unfold UserCall.exec
    split
    · exact .inl rfl
    · exact .inr rfl
  · rw [UserTable.findById_setEnabled]
    cases t.findById id <;> rfl

theorem run_setEnabled (srv : UserServer) (id : Uuid) (action : String) (t : UserTable) :
    Undone t ((setEnabled id action).run (UserCall.exec srv) t) ∨
      (setEnabled id action).run (UserCall.exec srv) t=
        (.ok .noContent,t.setEnabled id (action=="enable")) := by
  unfold setEnabled
  split
  · exact run_toggle srv id true t
  · exact run_toggle srv id false t
  · exact .inl (undone_self _ t)

theorem run_changePassword (srv : UserServer) (salt : String) (id : Uuid)
    (body : ChangePasswordRequest) (t : UserTable) :
    let result := (changePassword argon salt id body).run (UserCall.exec srv) t
    Undone t result ∨ ∃ hash, argon.hash salt body.password=.ok hash ∧
      8 ≤ body.password.utf8ByteSize ∧ result=(.ok .noContent,t.setPasswordHash id hash) := by
  intro result
  unfold result changePassword
  split_ifs with hshort
  · exact .inl (undone_self _ t)
  · cases h : argon.hash salt body.password with
    | error e =>
      rw [hashPassword,h]
      exact .inl (undone_self .db t)
    | ok hash =>
      rw [hashPassword,h]
      rcases run_setHash srv id hash t with hrun|hrun
      · exact .inl hrun
      · exact .inr ⟨hash,rfl,by omega,hrun⟩

/-- What a creation that was done has checked, and the row that it has written. -/
theorem run_create (srv : UserServer) (salt : String) (body : CreateUserRequest) (t : UserTable) :
    let result := (createUser argon salt body).run (UserCall.exec srv) t
    Undone t result ∨ ∃ row t', result=(.ok (.created (.ofRow row)),t') ∧
      t'.findById=Function.update t.findById row.id (some row) ∧
      row.username=trim body.username ∧ row.username≠"" ∧ 8 ≤ body.password.utf8ByteSize ∧
      argon.hash salt body.password=.ok row.passwordHash ∧ row.role.text=body.role ∧
      row.enabled=true ∧ t.findById row.id=none ∧
      ∀ i r, t.findById i=some r → r.username≠row.username := by
  intro result
  unfold result createUser
  split_ifs with hbad hrole
  · exact .inl (undone_self _ t)
  · exact .inl (undone_self _ t)
  · rw [Bool.or_eq_true,not_or,decide_eq_true_eq] at hbad
    cases h : argon.hash salt body.password with
    | error e =>
      rw [hashPassword,h]
      exact .inl (undone_self .db t)
    | ok hash =>
      rw [hashPassword,h]
      simp only [Except.mapError]
      rw [Proc.run_bind,Proc.run_performOrFail,UserCall.exec]
      split_ifs with hrefused
      · exact .inl (undone_self .db t)
      · cases hinsert : t.insert srv.id srv.now (trim body.username) hash body.role with
        | error e =>
          exact .inl (undone_self _ t)
        | ok inserted =>
          obtain ⟨row,t'⟩ := inserted
          obtain ⟨hparse,hrow,-,-,hfind⟩ := UserTable.insert_ok hinsert
          obtain ⟨-,hid,hnames⟩ := UserTable.insert_iff.mp ⟨_,hinsert⟩
          have hkey : row.id=srv.id := congrArg UserRow.id hrow
          have hname : row.username=trim body.username := congrArg UserRow.username hrow
          refine .inr ⟨row,t',rfl,?_,hname,?_,by omega,?_,UserRole.text_of_parse hparse,?_,?_,?_⟩
          · rw [hkey]
            exact hfind
          · intro hempty
            rw [← hname,hempty] at hbad
            exact hbad.1 (by decide)
          · exact congrArg (fun r : UserRow => Except.ok r.passwordHash) hrow.symm
          · exact congrArg UserRow.enabled hrow
          · rw [hkey]
            exact hid
          · intro i r hr
            rw [hname]
            exact hnames i r hr

end Runs

end NacPlatform.Users
