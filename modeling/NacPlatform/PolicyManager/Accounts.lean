import NacPlatform.PolicyManager.Users

namespace NacPlatform.Users

open NacAuth (Argon2 hashPassword localAuthenticate LocalAuthError UserIdentity)

section

variable (argon : Argon2)

theorem Represents.congr {t t' : UserTable} {b : Book} (h : Represents argon t b)
    (hfind : t'.findById=t.findById) : Represents argon t' b := by
  intro id
  rw [hfind]
  exact h id

theorem Represents.update {t t' : UserTable} {b : Book} (h : Represents argon t b) {id : Uuid}
    {r : Option UserRow} {acc : Option Account} (hrel : Option.Rel (Stores argon) r acc)
    (hfind : t'.findById=Function.update t.findById id r) :
    Represents argon t' (Function.update b id acc) := by
  intro i
  rw [hfind]
  by_cases hi : i=id
  · subst hi
    rw [Function.update_self,Function.update_self]
    exact hrel
  · rw [Function.update_of_ne hi,Function.update_of_ne hi]
    exact h i

/-- A change of one column of a row and of the same part of its account. -/
theorem rel_map {r : Option UserRow} {acc : Option Account} {f : UserRow → UserRow}
    {g : Account → Account} (h : Option.Rel (Stores argon) r acc)
    (hfg : ∀ r acc, Stores argon r acc → Stores argon (f r) (g acc)) :
    Option.Rel (Stores argon) (r.map f) (acc.map g) := by
  cases h with
  | some hs => exact .some (hfg _ _ hs)
  | none => exact .none

theorem represents_undone {t : UserTable} {b : Book} {result : Except AppError Answer × UserTable}
    (request : UserRequest) (h : Represents argon t b) (hun : Undone t result) :
    Represents argon result.2 (b.note request result.1) := by
  obtain ⟨⟨e,he⟩,hfind⟩ := hun
  rw [he]
  exact h.congr argon hfind

theorem run_listUsers (srv : UserServer) (t : UserTable) :
    (listUsers.run (UserCall.exec srv) t).2=t ∧
      ∀ a, (listUsers.run (UserCall.exec srv) t).1=.ok a → ∃ users, a=.users users := by
  rw [listUsers,run_query_bind,UserCall.exec]
  split_ifs
  · refine ⟨rfl,?_⟩
    intro a h
    cases h
  · refine ⟨rfl,?_⟩
    intro a h
    cases h
    exact ⟨_,rfl⟩

/-- Every request leaves the table as the administrator notes it. -/
theorem step_represents {s : Administration} (e : UserEvent)
    (h : Represents argon s.table s.book) :
    Represents argon (s.step argon e).table (s.step argon e).book := by
  obtain ⟨request,salt,srv⟩ := e
  obtain ⟨t,b⟩ := s
  have goal : Represents argon ((request.handler argon salt).run (UserCall.exec srv) t).2
      (b.note request ((request.handler argon salt).run (UserCall.exec srv) t).1) := by
    cases request with
    | list =>
      obtain ⟨hsame,hanswer⟩ := run_listUsers srv t
      simp only [UserRequest.handler]
      rw [hsame]
      cases hrun : (listUsers.run (UserCall.exec srv) t).1 with
      | error e => exact h
      | ok a =>
        obtain ⟨users,rfl⟩ := hanswer a hrun
        exact h
    | create body =>
      rcases run_create argon srv salt body t with hun|⟨row,t',hrun,hfind,-,-,-,hhash,-,-,-,-⟩
      · exact represents_undone argon (.create body) h hun
      · have hstores : Stores argon row ⟨row.username,body.password,row.role.text,row.enabled⟩ :=
          ⟨rfl,⟨salt,hhash⟩,rfl,rfl⟩
        simp only [UserRequest.handler]
        rw [hrun]
        exact h.update argon (.some hstores) hfind
    | delete id =>
      rcases run_delete srv id t with hun|hrun
      · exact represents_undone argon (.delete id) h hun
      · simp only [UserRequest.handler]
        rw [hrun]
        exact h.update argon .none (UserTable.findById_delete id t)
    | changePassword id body =>
      rcases run_changePassword argon srv salt id body t with hun|⟨hash,hhash,-,hrun⟩
      · exact represents_undone argon (.changePassword id body) h hun
      · have hcolumn : ∀ r acc, Stores argon r acc →
            Stores argon (r.withHash hash) {acc with password := body.password} :=
          fun r acc hs => ⟨hs.username,⟨salt,hhash⟩,hs.role,hs.enabled⟩
        simp only [UserRequest.handler]
        rw [hrun]
        exact h.update argon (rel_map argon (h id) hcolumn)
          (UserTable.findById_setPasswordHash id hash t)
    | setEnabled id action =>
      rcases run_setEnabled srv id action t with hun|hrun
      · exact represents_undone argon (.setEnabled id action) h hun
      · have hcolumn : ∀ r acc, Stores argon r acc →
            Stores argon (r.withEnabled (action=="enable"))
              {acc with enabled := action=="enable"} :=
          fun r acc hs => ⟨hs.username,hs.hash,hs.role,rfl⟩
        simp only [UserRequest.handler]
        rw [hrun]
        exact h.update argon (rel_map argon (h id) hcolumn)
          (UserTable.findById_setEnabled id (action=="enable") t)
  exact goal

theorem initial_represents :
    Represents argon Administration.initial.table Administration.initial.book := by
  intro id
  exact .none

/-- A login reads the one row that it can be checked against and changes nothing. -/
theorem run_localAuthenticate {srv : UserServer} {username : String}
    (hsrv : srv.refuses (.credentials username)=false) (password : String) (t : UserTable) :
    (localAuthenticate argon username password).run (UserCall.exec srv) t=
      (match t.credentials username with
      | none => .error (.userNotFound username)
      | some (hash,role) =>
        match argon.parse hash with
        | .error e => .error (.internal (.inr e))
        | .ok verifies =>
          if verifies password then .ok ⟨username,none,none,[role]⟩ else .error .invalidCredentials,
        t) := by
  rw [localAuthenticate,Proc.run_bind,Proc.run_performOrFail,UserCall.exec,hsrv]
  simp only [Bool.false_eq_true,if_false,Except.mapError]
  cases t.credentials username with
  | none => rfl
  | some found =>
    obtain ⟨hash,role⟩ := found
    dsimp only
    cases argon.parse hash with
    | error e => rfl
    | ok verifies =>
      dsimp only
      split_ifs <;> rfl

/-- What a login comes to, by the book: an enabled account of the name and a password that a hash
of its password verifies, or one of the two refusals. -/
def LoginByBook (b : Book) (username password : String) :
    Except LocalAuthError UserIdentity → Prop
  | .ok identity => ∃ id acc, b id=some acc ∧ acc.username=username ∧ acc.enabled=true ∧
      argon.Verifies acc.password password ∧ identity=⟨username,none,none,[acc.role]⟩
  | .error (.userNotFound name) => name=username ∧
      ∀ id acc, b id=some acc → acc.username=username → acc.enabled=false
  | .error .invalidCredentials => ∃ id acc, b id=some acc ∧ acc.username=username ∧
      acc.enabled=true ∧ acc.password≠password
  | .error (.internal _) => False

theorem login_by_book {t : UserTable} {b : Book} (h : Represents argon t b) {srv : UserServer}
    {username : String} (hsrv : srv.refuses (.credentials username)=false) (password : String) :
    LoginByBook argon b username password
      ((localAuthenticate argon username password).run (UserCall.exec srv) t).1 := by
  rw [run_localAuthenticate argon hsrv]
  cases hfound : t.credentials username with
  | none =>
    refine ⟨rfl,?_⟩
    intro id acc hacc hname
    have hrel := h id
    rw [hacc] at hrel
    cases hrow : t.findById id with
    | none =>
      rw [hrow] at hrel
      cases hrel
    | some r =>
      rw [hrow] at hrel
      cases hrel with
      | some hs =>
        rw [← hs.enabled]
        exact UserTable.credentials_eq_none.mp hfound id r hrow (hs.username.trans hname)
  | some found =>
    obtain ⟨hash,role⟩ := found
    obtain ⟨id,r,hrow,hname,hon,rfl,rfl⟩ := UserTable.credentials_eq_some.mp hfound
    have hrel := h id
    rw [hrow] at hrel
    cases hacc : b id with
    | none =>
      rw [hacc] at hrel
      cases hrel
    | some acc =>
      rw [hacc] at hrel
      cases hrel with
      | some hs =>
        obtain ⟨salt,hhash⟩ := hs.hash
        obtain ⟨verifies,hparse,hself⟩ := argon.parse_hash salt acc.password r.passwordHash hhash
        have huser := hs.username.symm.trans hname
        have henabled := hs.enabled.symm.trans hon
        simp only [hparse]
        split_ifs with hv
        · exact ⟨id,acc,hacc,huser,henabled,⟨salt,r.passwordHash,verifies,hhash,hparse,hv⟩,
            by rw [hs.role]⟩
        · refine ⟨id,acc,hacc,huser,henabled,?_⟩
          intro same
          rw [same] at hself
          exact hv hself

/-- A name is used by one account at most. -/
theorem book_names {t : UserTable} {b : Book} (h : Represents argon t b) {i j : Uuid}
    {acc acc' : Account} (hi : b i=some acc) (hj : b j=some acc')
    (hname : acc.username=acc'.username) : i=j := by
  have hrow {i : Uuid} {acc : Account} (hi : b i=some acc) :
      ∃ r, t.findById i=some r ∧ r.username=acc.username := by
    have hrel := h i
    rw [hi] at hrel
    cases hr : t.findById i with
    | none =>
      rw [hr] at hrel
      cases hrel
    | some r =>
      rw [hr] at hrel
      cases hrel with
      | some hs => exact ⟨r,rfl,hs.username⟩
  obtain ⟨r,hr,hrn⟩ := hrow hi
  obtain ⟨r',hr',hrn'⟩ := hrow hj
  have hm := UserTable.findById_eq_some.mp hr
  have hm' := UserTable.findById_eq_some.mp hr'
  have hsame : r.username=r'.username := hrn.trans (hname.trans hrn'.symm)
  rw [← hm.2,← hm'.2,List.inj_on_of_nodup_map t.names hm.1 hm'.1 hsame]

/-- What every account keeps: a name without blanks around it, a password of eight bytes or more,
and a role that the table takes. -/
structure Account.WellFormed (acc : Account) : Prop where
  trimmed : trim acc.username=acc.username
  named : acc.username≠""
  password : 8 ≤ acc.password.utf8ByteSize
  role : ∃ r : UserRole, r.text=acc.role

def Book.WellFormed (b : Book) : Prop := ∀ id acc, b id=some acc → acc.WellFormed

theorem Book.WellFormed.update {b : Book} (h : b.WellFormed) (id : Uuid) {acc : Option Account}
    (hacc : ∀ a, acc=some a → a.WellFormed) : Book.WellFormed (Function.update b id acc) := by
  intro i a ha
  by_cases hi : i=id
  · rw [hi,Function.update_self] at ha
    exact hacc a ha
  · rw [Function.update_of_ne hi] at ha
    exact h i a ha

theorem note_wellFormed_of_error {b : Book} (h : b.WellFormed) (request : UserRequest)
    {result : Except AppError Answer × UserTable} {t : UserTable} (hun : Undone t result) :
    (b.note request result.1).WellFormed := by
  obtain ⟨⟨e,he⟩,-⟩ := hun
  rw [he]
  exact h

theorem step_wellFormed {s : Administration} (e : UserEvent) (h : s.book.WellFormed) :
    (s.step argon e).book.WellFormed := by
  obtain ⟨request,salt,srv⟩ := e
  obtain ⟨t,b⟩ := s
  have goal : (b.note request
      ((request.handler argon salt).run (UserCall.exec srv) t).1).WellFormed := by
    cases request with
    | list =>
      cases hrun : (listUsers.run (UserCall.exec srv) t).1 with
      | error e =>
        simp only [UserRequest.handler,hrun]
        exact h
      | ok a =>
        obtain ⟨users,rfl⟩ := (run_listUsers srv t).2 a hrun
        simp only [UserRequest.handler,hrun]
        exact h
    | create body =>
      rcases run_create argon srv salt body t with
        hun|⟨row,t',hrun,-,hname,hnamed,hlong,-,-,-,-,-⟩
      · exact note_wellFormed_of_error h (.create body) hun
      · simp only [UserRequest.handler]
        rw [hrun]
        apply h.update
        intro a ha
        cases ha
        refine ⟨?_,hnamed,hlong,⟨row.role,rfl⟩⟩
        show trim row.username=row.username
        rw [hname,trim_trim]
    | delete id =>
      rcases run_delete srv id t with hun|hrun
      · exact note_wellFormed_of_error h (.delete id) hun
      · simp only [UserRequest.handler]
        rw [hrun]
        exact h.update id nofun
    | changePassword id body =>
      rcases run_changePassword argon srv salt id body t with hun|⟨hash,-,hlong,hrun⟩
      · exact note_wellFormed_of_error h (.changePassword id body) hun
      · simp only [UserRequest.handler]
        rw [hrun]
        apply h.update
        intro a ha
        obtain ⟨acc,hacc,rfl⟩ := Option.map_eq_some_iff.mp ha
        have hold := h id acc hacc
        exact ⟨hold.trimmed,hold.named,hlong,hold.role⟩
    | setEnabled id action =>
      rcases run_setEnabled srv id action t with hun|hrun
      · exact note_wellFormed_of_error h (.setEnabled id action) hun
      · simp only [UserRequest.handler]
        rw [hrun]
        apply h.update
        intro a ha
        obtain ⟨acc,hacc,rfl⟩ := Option.map_eq_some_iff.mp ha
        have hold := h id acc hacc
        exact ⟨hold.trimmed,hold.named,hold.password,hold.role⟩
  exact goal

theorem initial_wellFormed : Administration.initial.book.WellFormed := by
  intro id acc h
  cases h

/-- What the administrator has done and not done so far. -/
def administered (events : List UserEvent) : Administration :=
  runs (Administration.step argon) .initial events

theorem administered_represents (events : List UserEvent) :
    Represents argon (administered argon events).table (administered argon events).book :=
  runs_invariant (fun s : Administration => Represents argon s.table s.book)
    (fun _ e => step_represents argon e) events (initial_represents argon)

theorem administered_wellFormed (events : List UserEvent) :
    (administered argon events).book.WellFormed :=
  runs_invariant (fun s : Administration => s.book.WellFormed)
    (fun _ e => step_wellFormed argon e) events initial_wellFormed

/-- The password that the book has for an enabled account logs in under its name. -/
theorem own_password_logs_in {t : UserTable} {b : Book} (h : Represents argon t b)
    {srv : UserServer} {id : Uuid} {acc : Account} (hacc : b id=some acc)
    (hon : acc.enabled=true) (hsrv : srv.refuses (.credentials acc.username)=false) :
    ((localAuthenticate argon acc.username acc.password).run (UserCall.exec srv) t).1=
      .ok ⟨acc.username,none,none,[acc.role]⟩ := by
  have hbook := login_by_book argon h hsrv acc.password
  cases hrun : ((localAuthenticate argon acc.username acc.password).run (UserCall.exec srv) t).1 with
  | ok identity =>
    rw [hrun] at hbook
    obtain ⟨i,acc',hacc',hname,-,-,rfl⟩ := hbook
    have hi := book_names argon h hacc' hacc hname
    rw [hi,hacc] at hacc'
    cases hacc'
    rfl
  | error e =>
    rw [hrun] at hbook
    cases e with
    | userNotFound name =>
      have hoff := hbook.2 id acc hacc rfl
      rw [hon] at hoff
      cases hoff
    | invalidCredentials =>
      obtain ⟨i,acc',hacc',hname,-,hne⟩ := hbook
      have hi := book_names argon h hacc' hacc hname
      rw [hi,hacc] at hacc'
      cases hacc'
      exact absurd rfl hne
    | internal cause => exact False.elim hbook

/-- A name is stored trimmed but looked up as it is typed: a user who was created under a name with
a blank at an end cannot log in under the name that the administrator has typed, and can under the
one that the answer shows. -/
theorem created_name_logs_in_iff_trimmed (argon : Argon2) (events : List UserEvent)
    (salt : String) (server srv : UserServer) (body : CreateUserRequest) (user : UserResponse)
    (hcreated : ((UserEvent.mk (.create body) salt server).run argon
      (administered argon events).table).1=.ok (.created user))
    (hsrv : ∀ username, srv.refuses (.credentials username)=false) :
    let t := (administered argon (events++[⟨.create body,salt,server⟩])).table
    let login := fun username =>
      ((localAuthenticate argon username body.password).run (UserCall.exec srv) t).1
    login user.username=.ok ⟨user.username,none,none,[body.role]⟩ ∧
      ((∃ identity, login body.username=.ok identity) ↔ trim body.username=body.username) ∧
      (trim body.username≠body.username →
        login body.username=.error (.userNotFound body.username)) := by
  let e : UserEvent := ⟨.create body,salt,server⟩
  intro t login
  have hlast : administered argon (events++[e])=(administered argon events).step argon e := by
    rw [administered,runs_append]
    rfl
  have hrep := administered_represents argon (events++[e])
  have hwell := administered_wellFormed argon (events++[e])
  obtain ⟨row,t',hrun,hname,hrole,hon⟩ : ∃ row t',
      e.run argon (administered argon events).table=(.ok (.created (.ofRow row)),t') ∧
        row.username=trim body.username ∧ row.role.text=body.role ∧ row.enabled=true := by
    rcases run_create argon server salt body (administered argon events).table with
      hun|⟨row,t',hrun,-,hname,-,-,-,hrole,hon,-,-⟩
    · obtain ⟨⟨err,herr⟩,-⟩ := hun
      have hboth := herr.symm.trans hcreated
      cases hboth
    · exact ⟨row,t',hrun,hname,hrole,hon⟩
  have huser : user=.ofRow row := by
    have hboth := (congrArg Prod.fst hrun).symm.trans hcreated
    cases hboth
    rfl
  have hacc : (administered argon (events++[e])).book row.id=
      some ⟨row.username,body.password,row.role.text,row.enabled⟩ := by
    have hbook : (administered argon (events++[e])).book=(administered argon events).book.note
        (.create body) (.ok (.created (.ofRow row))) := by
      rw [hlast,Administration.step,hrun]
    rw [hbook]
    exact Function.update_self ..
  have hself := own_password_logs_in argon hrep hacc hon (hsrv _)
  have htyped : trim body.username≠body.username →
      login body.username=.error (.userNotFound body.username) := by
    intro hne
    have hbook := login_by_book argon hrep (hsrv body.username) body.password
    show ((localAuthenticate argon body.username body.password).run _ _).1=_
    have hnone : ∀ id acc, (administered argon (events++[e])).book id=some acc →
        acc.username≠body.username := by
      intro id acc h same
      have htrim := (hwell id acc h).trimmed
      rw [same] at htrim
      exact hne htrim
    cases hresult : ((localAuthenticate argon body.username body.password).run (UserCall.exec srv)
        (administered argon (events++[e])).table).1 with
    | ok identity =>
      rw [hresult] at hbook
      obtain ⟨id,acc,h,same,-⟩ := hbook
      exact absurd same (hnone id acc h)
    | error err =>
      rw [hresult] at hbook
      cases err with
      | userNotFound name => rw [hbook.1]
      | invalidCredentials =>
        obtain ⟨id,acc,h,same,-⟩ := hbook
        exact absurd same (hnone id acc h)
      | internal cause => exact False.elim hbook
  have hshown : login user.username=.ok ⟨user.username,none,none,[body.role]⟩ := by
    rw [huser]
    show ((localAuthenticate argon row.username body.password).run _ _).1=_
    rw [hself,hrole]
    rfl
  refine ⟨hshown,?_,htyped⟩
  constructor
  · intro given
    obtain ⟨identity,hok⟩ := given
    by_contra hne
    rw [htyped hne] at hok
    cases hok
  · intro htrim
    have hsame : user.username=body.username := by
      rw [huser,← htrim]
      exact hname
    rw [← hsame]
    exact ⟨_,hshown⟩

/-- A server that refuses nothing and scans the rows as they stand. -/
def plainServer (id : Uuid) : UserServer := ⟨id,0,fun _ => false,fun rows => rows,fun _ => .refl _⟩

/-- The administrator types a blank before the name. -/
theorem created_name_logs_in_iff_trimmed_blank :
    let body : CreateUserRequest := {username := " kim", password := "correct horse"}
    let t := (administered Argon2.plain ([]++[⟨.create body,"salt",plainServer 7⟩])).table
    let login := fun username =>
      ((localAuthenticate Argon2.plain username body.password).run
        (UserCall.exec (plainServer 8)) t).1
    login "kim"=.ok ⟨"kim",none,none,["user"]⟩ ∧
      ((∃ identity, login " kim"=.ok identity) ↔ trim " kim"=" kim") ∧
      (trim " kim"≠" kim" → login " kim"=.error (.userNotFound " kim")) :=
  created_name_logs_in_iff_trimmed Argon2.plain [] "salt" (plainServer 7) (plainServer 8)
    {username := " kim", password := "correct horse"} ⟨7,"kim","user",true⟩ (by decide +kernel)
    fun _ => rfl

end

end NacPlatform.Users
