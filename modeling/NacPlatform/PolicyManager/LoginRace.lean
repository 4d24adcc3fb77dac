import NacPlatform.PolicyManager.Login
import NacPlatform.PolicyManager.Race

namespace NacPlatform

/-- The device is stored as allowed, and the last command that names it is an allow. -/
def LoginStands (mac : MacAddr) (w : World) : Prop :=
  (w.endpoints.findByMac mac).map (·.status)=some .allowed ∧
    (lastWrite naming mac.text w.commands).map (·.action)=some "allow"

namespace Race

variable {pg : Postgres} {mac : MacAddr} {verdict : EndpointRow → Status} {w : World}
  {marks : Party → Progress} {g : Progress} {c : Call} {i : Party}

/-- The devices that the handlers have looked up are stored. -/
def Known (w : World) (marks : Party → Progress) : Prop :=
  ∀ p row, (marks p).row=some row → ∃ st, w.endpoints.column standing row.id=some (row.macAddress,st)

/-- What the login has stored and published still stands. -/
structure Unspoiled (w : World) (login : Progress) : Prop where
  status : ∀ row, login.row=some row → login.stored.getD row.status=.allowed →
    w.endpoints.column standing row.id=some (row.macAddress,.allowed)
  command : ∀ cmd, login.sent=some cmd → cmd.action="allow" →
    (lastWrite naming cmd.macAddress w.commands).map (·.action)=some "allow"

section Steps

theorem may_ordered (h : may mac verdict i g c) : g.Ordered c := by
  cases i with
  | detection => exact h.1
  | login => exact h.1

theorem LoginRule.lookup (h : LoginRule verdict g c) (hc : c.LooksUp) : g.row=none := by
  cases c with
  | findById | findByMac | findByHost | upsert => exact h.2
  | _ => cases hc

theorem Known.step (h : Known w marks) (hc : (marks i).Ordered c) :
    Known (c.exec pg w).2 (Function.update marks i ((marks i).note c (c.exec pg w).1)) := by
  have kept (p : Party) (row : EndpointRow) (hrow : (marks p).row=some row) :
      ∃ st, (c.exec pg w).2.endpoints.column standing row.id=some (row.macAddress,st) := by
    obtain ⟨st,hst⟩ := h p row hrow
    exact ⟨_,hc.keeps pg hst⟩
  intro p row hrow
  by_cases hp : p=i
  · subst hp
    rw [Function.update_self] at hrow
    cases hc.turn pg w with
    | quiet same =>
      rw [same] at hrow
      exact kept p row hrow
    | found _ _ _ _ next known =>
      rw [next] at hrow
      exact ⟨_,known row hrow⟩
    | stores _ _ _ _ _ _ next =>
      rw [next] at hrow
      exact kept p row hrow
    | sends _ _ _ _ _ _ next =>
      rw [next] at hrow
      exact kept p row hrow
  · rw [Function.update_of_ne hp] at hrow
    exact kept p row hrow

/-- A call that stores no status leaves the login's. -/
theorem Unspoiled.status_kept {login : Progress} (h : Unspoiled w login) (hc : g.Ordered c)
    (hquiet : ∀ id, c.storedFor id=none) (row : EndpointRow) (hrow : login.row=some row)
    (hst : login.stored.getD row.status=.allowed) :
    (c.exec pg w).2.endpoints.column standing row.id=some (row.macAddress,.allowed) := by
  have hkept := hc.keeps pg (h.status row hrow hst)
  rwa [hquiet] at hkept

/-- What the login does next stands as well. -/
theorem Unspoiled.login_step (h : Unspoiled w g) (hc : g.Ordered c)
    (hknown : ∀ row, g.row=some row →
      ∃ st, w.endpoints.column standing row.id=some (row.macAddress,st)) :
    Unspoiled (c.exec pg w).2 (g.note c (c.exec pg w).1) := by
  cases hc.turn pg w with
  | quiet same stores sends =>
    rw [same]
    refine ⟨h.status_kept hc stores,?_⟩
    rw [Call.exec_commands,sends,List.append_nil]
    exact h.command
  | found row _ stored sent next known stores =>
    rw [next]
    refine ⟨fun r hr hst => ?_,fun cmd hcmd => ?_⟩
    · rw [stored] at hst
      have hread : r.status=.allowed := hst
      rw [known r hr,standing,hread]
    · rw [sent] at hcmd
      cases hcmd
  | stores row st call found _ sent next =>
    rw [next]
    refine ⟨fun r hr hst => ?_,fun cmd hcmd => ?_⟩
    · obtain rfl := Option.some.inj (found.symm.trans hr)
      obtain rfl : st=.allowed := hst
      obtain ⟨old,hold⟩ := hknown row hr
      have hkept := hc.keeps pg hold
      rw [call] at hkept ⊢
      simpa [Call.storedFor,Status.parse_text] using hkept
    · rw [sent] at hcmd
      cases hcmd
  | sends row cmd call _ _ _ next =>
    have hquiet (id : Uuid) : c.storedFor id=none := by rw [call]; rfl
    rw [next]
    refine ⟨h.status_kept hc hquiet,fun cmd' hcmd haction => ?_⟩
    obtain rfl := Option.some.inj hcmd
    rw [Call.exec_commands,call]
    simp [Call.published,naming,haction]

/-- A call of the detection that does not undo the login leaves it standing. -/
theorem Unspoiled.detection_step {login : Progress} (h : Unspoiled w login) (hc : g.Ordered c)
    (hok : login.undoneBy c=false) : Unspoiled (c.exec pg w).2 login := by
  have command (hquiet : c.published=[]) (cmd : EnforcementCommand) (hcmd : login.sent=some cmd)
      (haction : cmd.action="allow") :
      (lastWrite naming cmd.macAddress (c.exec pg w).2.commands).map (·.action)=some "allow" := by
    rw [Call.exec_commands,hquiet,List.append_nil]
    exact h.command cmd hcmd haction
  cases hc.turn pg w with
  | quiet _ stores sends => exact ⟨h.status_kept hc stores,command sends⟩
  | found _ _ _ _ _ _ stores sends => exact ⟨h.status_kept hc stores,command sends⟩
  | stores row st call =>
    refine ⟨fun r hr hst => ?_,command (by rw [call]; rfl)⟩
    have hkept := hc.keeps pg (h.status r hr hst)
    rw [call] at hok hkept ⊢
    by_cases hid : row.id=r.id
    · have hsettled : login.status=some .allowed := by simp [Progress.status,hr,hst]
      have htext : st.text="allowed" := by simpa [Progress.undoneBy,hsettled] using hok
      obtain rfl : st=.allowed := by
        have hparse := Status.parse_text st
        rw [htext] at hparse
        exact Option.some.inj (hparse.symm.trans (Status.parse_text .allowed))
      simpa [Call.storedFor,hid,Status.parse_text] using hkept
    · simpa [Call.storedFor,hid] using hkept
  | sends row cmd call =>
    refine ⟨h.status_kept hc (fun id => by rw [call]; rfl),fun cmd' hcmd haction => ?_⟩
    have hlast := h.command cmd' hcmd haction
    rw [call] at hok
    have hallow : cmd.action="allow" := by simpa [Progress.undoneBy,hcmd] using hok
    rw [Call.exec_commands,call]
    by_cases hmac : cmd.macAddress=cmd'.macAddress
    · simp [Call.published,naming,hmac,hallow]
    · simpa [Call.published,naming,hmac] using hlast

end Steps

section Losses

/-- The login has come to an allow, and the detection has stored something else after it. -/
structure StatusLost (row : EndpointRow) (w : World) (marks : Party → Progress) : Prop where
  found : (marks .login).row=some row
  allowed : (marks .login).stored.getD row.status=.allowed
  detection : (marks .detection).stored≠none
  lost : ∃ st, st≠.allowed ∧ w.endpoints.column standing row.id=some (row.macAddress,st)

/-- Both have published, and the last command for the device is not an allow. -/
structure CommandLost (mac : MacAddr) (w : World) (marks : Party → Progress) : Prop where
  login : (marks .login).sent≠none
  detection : (marks .detection).sent≠none
  lost : (lastWrite naming mac.text w.commands).map (·.action)≠some "allow"

theorem row_step (pg : Postgres) (w : World) {row : EndpointRow} (hmay : may mac verdict i (marks i) c)
    (hrow : (marks .login).row=some row) :
    (Function.update marks i ((marks i).note c (c.exec pg w).1) .login).row=some row := by
  cases i with
  | detection => simpa using hrow
  | login =>
    rw [Function.update_self]
    cases hmay.1.turn pg w with
    | quiet same => rw [same]; exact hrow
    | found _ looks =>
      rw [hmay.lookup looks] at hrow
      cases hrow
    | stores _ _ _ _ _ _ next => rw [next]; exact hrow
    | sends _ _ _ _ _ _ next => rw [next]; exact hrow

/-- The login does not store its allow a second time, and the detection stores only once. -/
theorem StatusLost.step {row : EndpointRow} (h : StatusLost row w marks)
    (hverdict : verdict row=.allowed) (hmay : may mac verdict i (marks i) c) :
    StatusLost row (c.exec pg w).2
      (Function.update marks i ((marks i).note c (c.exec pg w).1)) := by
  obtain ⟨st,hne,hst⟩ := h.lost
  have lost (hquiet : c.storedFor row.id=none) : ∃ st, st≠.allowed ∧
      (c.exec pg w).2.endpoints.column standing row.id=some (row.macAddress,st) := by
    have hkept := (may_ordered hmay).keeps pg hst
    rw [hquiet] at hkept
    exact ⟨st,hne,hkept⟩
  have found := row_step pg w hmay h.found
  cases i with
  | detection =>
    cases hmay.1.turn pg w with
    | quiet same stores =>
      exact ⟨found,by simpa using h.allowed,by simpa [same] using h.detection,lost (stores _)⟩
    | found _ _ stored => exact absurd stored h.detection
    | stores _ _ _ _ stored => exact absurd stored h.detection
    | sends _ _ call _ _ _ next =>
      exact ⟨found,by simpa using h.allowed,by simpa [next] using h.detection,
        lost (by rw [call]; rfl)⟩
  | login =>
    cases hmay.1.turn pg w with
    | quiet same stores =>
      exact ⟨found,by simpa [same] using h.allowed,by simpa using h.detection,lost (stores _)⟩
    | found _ looks =>
      have hnone := hmay.lookup looks
      rw [h.found] at hnone
      cases hnone
    | stores row' new call _ stored =>
      have hrule := hmay
      rw [call] at hrule
      have hchanged := (hrule.2 row h.found).1
      have hread := h.allowed
      rw [stored] at hread
      rw [hverdict] at hchanged
      exact absurd hread hchanged
    | sends _ _ call _ _ _ next =>
      exact ⟨found,by simpa [next] using h.allowed,by simpa using h.detection,
        lost (by rw [call]; rfl)⟩

/-- Neither publishes a second command. -/
theorem CommandLost.step (h : CommandLost mac w marks) (hc : (marks i).Ordered c) :
    CommandLost mac (c.exec pg w).2
      (Function.update marks i ((marks i).note c (c.exec pg w).1)) := by
  have published : (marks i).sent≠none := by
    cases i with
    | detection => exact h.detection
    | login => exact h.login
  cases hc.turn pg w with
  | quiet same _ sends =>
    rw [same,Function.update_eq_self]
    refine ⟨h.login,h.detection,?_⟩
    rw [Call.exec_commands,sends,List.append_nil]
    exact h.lost
  | found _ _ _ sent => exact absurd sent published
  | stores _ _ _ _ _ sent => exact absurd sent published
  | sends _ _ _ _ _ sent => exact absurd sent published

theorem undoneBy_eq_true {login : Progress} (h : login.undoneBy c=true) :
    (∃ id st, c=.setStatus id st ∧ st≠"allowed" ∧ login.status=some .allowed) ∨
      ∃ cmd, c=.publishCommand cmd ∧ cmd.action≠"allow" ∧ login.sent≠none := by
  cases c with
  | setStatus id st =>
    simp only [Progress.undoneBy,Bool.and_eq_true,bne_iff_ne,beq_iff_eq] at h
    exact .inl ⟨id,st,rfl,h⟩
  | publishCommand cmd =>
    simp only [Progress.undoneBy,Bool.and_eq_true,bne_iff_ne,Option.isSome_iff_ne_none] at h
    exact .inr ⟨cmd,rfl,h⟩
  | _ => cases h

/-- What a call of the detection that undoes the login comes to. -/
theorem undone_step (pg : Postgres) (hmay : DetectionRule mac (marks .detection) c)
    (hknown : Known w marks) (hundone : (marks .login).undoneBy c=true) :
    (∃ row, (marks .login).row=some row ∧ (row.macAddress=mac → StatusLost row (c.exec pg w).2
      (Function.update marks .detection
        ((marks .detection).note c (c.exec pg w).1)))) ∨
    CommandLost mac (c.exec pg w).2 (Function.update marks .detection
      ((marks .detection).note c (c.exec pg w).1)) := by
  obtain ⟨hordered,hdevice⟩ := hmay
  rcases undoneBy_eq_true hundone with ⟨id,text,rfl,hne,hlogin⟩ | ⟨cmd,rfl,hne,hlogin⟩
  · left
    obtain ⟨row,hrow,hsettled⟩ := Option.map_eq_some_iff.mp hlogin
    refine ⟨row,hrow,fun hmac => ?_⟩
    obtain ⟨st,hst⟩ := hknown .login row hrow
    have hkept := hordered.keeps pg hst
    obtain ⟨_,_,row',new,hrow',rfl,rfl⟩ := hordered
    obtain ⟨st',hst'⟩ := hknown .detection row' hrow'
    have hid : row'.id=row.id := by
      obtain ⟨r,hr,hplace⟩ := EndpointTable.column_eq_some.mp hst
      obtain ⟨r',hr',hplace'⟩ := EndpointTable.column_eq_some.mp hst'
      refine EndpointTable.mac_unique hr' hr ?_
      rw [(Prod.mk.inj hplace).1,(Prod.mk.inj hplace').1,hdevice row' hrow',hmac]
    refine ⟨by simpa using hrow,by simpa using hsettled,?_,new,?_,?_⟩
    · simp [Call.exec,Status.parse_text,Progress.note]
    · intro same
      subst same
      exact hne rfl
    · simpa [Call.storedFor,hid,Status.parse_text] using hkept
  · right
    obtain ⟨_,row',hrow',hnames⟩ := hordered
    refine ⟨by simpa using hlogin,by simp [Progress.note],?_⟩
    rw [Call.exec_commands]
    have hmac : cmd.macAddress=mac.text := by rw [hnames,hdevice row' hrow']
    simp [Call.published,naming,hmac,hne]

end Losses

section Runs

variable {rt : Runtime} {event : EndpointDetectedEvent} {resp : AuthResponse} {s : Race}
  {policies : List PolicyRow} {row : EndpointRow} {schedule : List Party}

/-- Both handlers keep to their rules from the start. -/
theorem start_keeps {rules : List PolicyRule} (hsuccess : resp.success=true)
    (hrules : w.rules pg=.ok rules) (hne : rules≠[]) (hmac : pg.macaddr event.macAddress=some mac)
    (hverdict : ∀ row, verdict row=decisionToStatus (evaluate rt rules
      (SessionHandler.context row (resp.username.getD "") resp.groups))) :
    (start rt event resp w).Keeps (Call.Answers pg w.policies) Progress.note (may mac verdict)
      (post verdict) := by
  intro i
  cases i with
  | detection => exact processEvent_follows hmac
  | login => exact processAuthResponse_follows hsuccess hrules hne hverdict

/-- What each call that the rules allow preserves, a run preserves. -/
theorem run_invariant {ok : Race → Party → Prop} (K : World → (Party → Progress) → Prop)
    (hkeep : ∀ s i c k, s.tasks i=.call c k → may mac verdict i (s.marks i) c → ok s i →
      K s.shared s.marks → K (c.exec pg s.shared).2
        (Function.update s.marks i ((s.marks i).note c (c.exec pg s.shared).1)))
    (hok : Guarded (step pg) ok s schedule)
    (hs : s.Keeps (Call.Answers pg policies) Progress.note (may mac verdict) (post verdict))
    (hpolicies : s.shared.policies=policies) (hk : K s.shared s.marks) :
    (runs (step pg) s schedule).Keeps (Call.Answers pg policies) Progress.note (may mac verdict)
        (post verdict) ∧
      (runs (step pg) s schedule).shared.policies=policies ∧
      K (runs (step pg) s schedule).shared (runs (step pg) s schedule).marks :=
  hs.invariant (fun w : World => w.policies=policies) (fun _ w hw => ⟨w,hw,rfl⟩)
    (fun c w hw => (c.exec_policies pg w).trans hw) K
    (fun s i c k hcall hmay hgo _ hK => hkeep s i c k hcall hmay hgo hK) hok hpolicies hk

theorem start_known (w : World) : Known w (start rt event resp w).marks := by
  intro p row hrow
  cases hrow

theorem start_unspoiled (w : World) : Unspoiled w ((start rt event resp w).marks .login) where
  status _ hrow := by cases hrow
  command _ hcmd := by cases hcmd

theorem stored_of_standing {t : EndpointTable} {id : Uuid} {st : Status}
    (h : t.column standing id=some (mac,st)) : (t.findByMac mac).map (·.status)=some st := by
  obtain ⟨r,hr,hplace⟩ := EndpointTable.column_eq_some.mp h
  obtain ⟨rfl,rfl⟩ := Prod.mk.inj hplace
  obtain rfl := EndpointTable.findById_id hr
  rw [EndpointTable.findByMac_eq_some.mpr ⟨hr,rfl⟩]
  rfl

theorem not_inOrder (h : ¬s.inOrder i=true) : i=.detection ∧
    ∃ c k, s.tasks .detection=.call c k ∧ (s.marks .login).undoneBy c=true := by
  cases i with
  | login => exact absurd rfl h
  | detection =>
    refine ⟨rfl,?_⟩
    unfold inOrder at h
    cases htask : s.tasks .detection with
    | ret a => simp [htask] at h
    | fail e => simp [htask] at h
    | call c k => exact ⟨c,k,rfl,by simpa [htask] using h⟩

theorem any_schedule (schedule : List Party) : Guarded (step pg) (fun _ _ => True) s schedule :=
  guarded_of_forall fun _ _ => trivial

/-- A call in order keeps what the login has come to. -/
theorem inOrder_step {k : c.Reply → Handler Unit} (hcall : s.tasks i=.call c k)
    (hmay : may mac verdict i (s.marks i) c) (hok : s.inOrder i=true)
    (hknown : Known s.shared s.marks) (h : Unspoiled s.shared (s.marks .login)) :
    Unspoiled (c.exec pg s.shared).2
      (Function.update s.marks i ((s.marks i).note c (c.exec pg s.shared).1) .login) := by
  cases i with
  | login =>
    rw [Function.update_self]
    exact h.login_step hmay.1 (hknown .login)
  | detection =>
    have hfree : (s.marks .login).undoneBy c=false := by simpa [inOrder,hcall] using hok
    simpa using h.detection_step hmay.1 hfree

/-- A loss lasts to the end. -/
theorem not_stands (hverdict : verdict row=.allowed)
    (hs : s.Keeps (Call.Answers pg policies) Progress.note (may row.macAddress verdict)
      (post verdict)) (hpolicies : s.shared.policies=policies)
    (h : StatusLost row s.shared s.marks ∨ CommandLost row.macAddress s.shared s.marks)
    (schedule : List Party) : ¬LoginStands row.macAddress (runs (step pg) s schedule).shared := by
  intro given
  obtain ⟨hstatus,hcommand⟩ := given
  rcases h with hlost | hlost
  · obtain ⟨st,hne,hst⟩ := (run_invariant (StatusLost row)
      (fun _ _ _ _ _ hmay _ h => h.step hverdict hmay) (any_schedule schedule) hs hpolicies
      hlost).2.2.lost
    rw [stored_of_standing hst] at hstatus
    exact hne (Option.some.inj hstatus)
  · exact (run_invariant (CommandLost row.macAddress)
      (fun _ _ _ _ _ hmay _ h => h.step (may_ordered hmay)) (any_schedule schedule) hs hpolicies
      hlost).2.2.lost hcommand

/-- Once it was the detection's turn to undo the login, the login does not stand at the end. -/
theorem not_stands_of_violated (hverdict : verdict row=.allowed)
    (hs : s.Keeps (Call.Answers pg policies) Progress.note (may row.macAddress verdict)
      (post verdict)) (hpolicies : s.shared.policies=policies) (hknown : Known s.shared s.marks)
    (hviolated : ¬s.inOrder i=true) (rest : List Party)
    (hrow : ((runs (step pg) (step pg s i) rest).marks .login).row=some row) :
    ¬LoginStands row.macAddress (runs (step pg) (step pg s i) rest).shared := by
  obtain ⟨rfl,c,k,hcall,hundone⟩ := not_inOrder hviolated
  have hmay : may row.macAddress verdict .detection (s.marks .detection) c := by
    have hfollows := hs .detection
    rw [hcall] at hfollows
    exact hfollows.1
  have hstep : step pg s .detection=_ := Watched.advance_of_call hcall
  have hs' : (step pg s .detection).Keeps (Call.Answers pg policies) Progress.note
      (may row.macAddress verdict) (post verdict) :=
    hs.advance (fun c => ⟨s.shared,hpolicies,rfl⟩) .detection
  have hpolicies' : (step pg s .detection).shared.policies=policies := by
    rw [hstep]
    exact (c.exec_policies pg _).trans hpolicies
  apply not_stands hverdict hs' hpolicies'
  rcases undone_step pg hmay hknown hundone with ⟨row',hrow',hlost⟩ | hlost
  · left
    have hstart : ((step pg s .detection).marks .login).row=some row' := by
      rw [hstep]
      simpa using hrow'
    have hstays := (run_invariant (fun _ marks => (marks .login).row=some row')
      (fun s _ _ _ _ hmay _ h => row_step pg s.shared hmay h) (any_schedule rest) hs'
      hpolicies' hstart).2.2
    obtain rfl := Option.some.inj (hstays.symm.trans hrow)
    rw [hstep]
    exact hlost rfl
  · right
    rw [hstep]
    exact hlost

end Runs

/-- For every interleaving of a detection and a successful login of one device, whose policies
allow it: both have ended with the device allowed and an allow as its last command exactly when at
no step the detection stores another status once the login has come to the allow, or publishes
another action once the login has published it. -/
theorem login_stands_iff {rt : Runtime} {event : EndpointDetectedEvent} {resp : AuthResponse}
    {row : EndpointRow} {rules : List PolicyRule} {schedule : List Party}
    (hsuccess : resp.success=true) (hrules : w.rules pg=.ok rules) (hne : rules≠[])
    (hdone : ∀ p, ((runs (step pg) (start rt event resp w) schedule).tasks p).idle=true)
    (hrow : ((runs (step pg) (start rt event resp w) schedule).marks .login).row=some row)
    (hmac : pg.macaddr event.macAddress=some row.macAddress)
    (hallowed : decisionToStatus (evaluate rt rules (SessionHandler.context row
      (resp.username.getD "") resp.groups))=.allowed) :
    LoginStands row.macAddress (runs (step pg) (start rt event resp w) schedule).shared ↔
      Guarded (step pg) (fun s i => s.inOrder i=true) (start rt event resp w) schedule := by
  let verdict (row : EndpointRow) : Status := decisionToStatus (evaluate rt rules
    (SessionHandler.context row (resp.username.getD "") resp.groups))
  have hverdict : verdict row=.allowed := hallowed
  have hstart : (start rt event resp w).Keeps (Call.Answers pg w.policies) Progress.note
      (may row.macAddress verdict) (post verdict) :=
    start_keeps hsuccess hrules hne hmac fun _ => rfl
  constructor
  · intro hstands
    rw [guarded_iff]
    intro pre i rest hschedule
    by_contra hviolated
    rw [hschedule,runs_append,runs_cons] at hstands hrow
    obtain ⟨hs,hpolicies,hknown⟩ := run_invariant Known
      (fun _ _ _ _ _ hmay _ h => h.step (may_ordered hmay)) (any_schedule pre) hstart rfl
      (start_known w)
    exact not_stands_of_violated hverdict hs hpolicies hknown hviolated rest hrow hstands
  · intro hguarded
    obtain ⟨hs,_,_,hunspoiled⟩ := run_invariant
      (fun w marks => Known w marks ∧ Unspoiled w (marks .login))
      (fun _ _ _ _ hcall hmay hok h =>
        ⟨h.1.step (may_ordered hmay),inOrder_step hcall hmay hok h.1 h.2⟩)
      hguarded hstart rfl ⟨start_known w,start_unspoiled w⟩
    obtain ⟨hstored,cmd,hsent,hnames,haction⟩ := hs.ended (hdone .login) row hrow
    rw [hverdict] at hstored haction
    have hallow : cmd.action="allow" := (Option.some.inj haction).symm
    refine ⟨stored_of_standing (hunspoiled.status row hrow hstored),?_⟩
    rw [← hnames]
    exact hunspoiled.command cmd hsent hallow

/-- A blocked device whose session is still open. -/
def blockedFirstSighting : World :=
  (runs (Platform.step Postgres.plain Runtime.ascii)
    (Platform.initial [staffPolicy,catchAll .quarantine])
    [.detected firstSighting,.admin 1 .block]).world

/-- The detection reads the row after the login has stored its allow, and leaves it alone. -/
theorem login_stands_before_upsert :
    let s := runs (step Postgres.plain)
      (start Runtime.ascii firstSighting staffLogin blockedFirstSighting)
      (.detection::.replicate 8 .login++.replicate 5 .detection)
    LoginStands ⟨0xaa,0xbb,0xcc,0xdd,0xee,0x01⟩ s.shared := by
  intro s
  have hread : (s.marks .login).row.map (·.macAddress)=some ⟨0xaa,0xbb,0xcc,0xdd,0xee,0x01⟩ := by
    decide +kernel
  obtain ⟨row,hrow,hmac⟩ := Option.map_eq_some_iff.mp hread
  have hrules : blockedFirstSighting.rules Postgres.plain=.ok
      [⟨"staff",10,.userGroup ["staff"],.allow⟩,
        ⟨"catch-all",100,.and [],.quarantine 99 "policy: catch-all"⟩] :=
    (rules_congr ((World.handle_policies _ _ _).trans (World.handle_policies _ _ _))).trans rfl
  have hdone (p : Party) : (s.tasks p).idle=true := by
    cases p <;> decide +kernel
  have hparsed : Postgres.plain.macaddr firstSighting.macAddress=some row.macAddress := by
    rw [hmac]
    decide +kernel
  have hstands := (login_stands_iff rfl hrules (by simp) hdone hrow hparsed rfl).mpr
    (by decide +kernel)
  rwa [hmac] at hstands

/-- The detection reads the row before the login and stores its decision after it: the user has
logged in, and the device is quarantined. -/
theorem detection_overwrites_login :
    let s := runs (step Postgres.plain)
      (start Runtime.ascii firstSighting staffLogin blockedFirstSighting)
      (.replicate 2 .detection++.replicate 8 .login++.replicate 6 .detection)
    (s.tasks .detection).idle=true ∧ (s.tasks .login).idle=true ∧
      (s.marks .login).sent.map (·.action)=some "allow" ∧
      s.shared.sessions.rows.map (·.state)=[.active,.detecting] ∧
      s.shared.endpoints.rows.map (·.status)=[.quarantined] ∧
      s.shared.commands.map (·.action)=["quarantine","denied","allow","quarantine"] ∧
      ¬LoginStands ⟨0xaa,0xbb,0xcc,0xdd,0xee,0x01⟩ s.shared := by
  intro s
  have hstatus : (s.shared.endpoints.findByMac ⟨0xaa,0xbb,0xcc,0xdd,0xee,0x01⟩).map (·.status)=
      some .quarantined := by decide +kernel
  refine ⟨by decide +kernel,by decide +kernel,by decide +kernel,by decide +kernel,
    by decide +kernel,by decide +kernel,fun h => ?_⟩
  have hallowed := hstatus.symm.trans h.1
  cases hallowed

end Race

end NacPlatform
