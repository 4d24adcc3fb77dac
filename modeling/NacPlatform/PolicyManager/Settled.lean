import NacPlatform.PolicyManager.Outcomes
import NacPlatform.Store.Latest

namespace NacPlatform

namespace SessionTable

theorem findById_modify {t : SessionTable} {id : Uuid} {f : SessionRow → SessionRow}
    (key : ∀ s, (f s).id=s.id) (sid : Uuid) : (t.modify id f key).findById sid=
      (t.findById sid).map fun s => if s.id==id then f s else s := by
  have h : ((fun s : SessionRow => s.id==sid) ∘ fun s => if s.id==id then f s else s)=
      fun s => s.id==sid := by
    funext s
    by_cases hs : s.id=id
    · simp [hs,key]
    · simp [hs]
  change List.find? _ (t.rows.map _)=_
  rw [List.find?_map,h]
  rfl

theorem findById_id {t : SessionTable} {sid : Uuid} {s : SessionRow}
    (h : t.findById sid=some s) : s.id=sid := by
  simpa using List.find?_some h

theorem findById_eq_some {t : SessionTable} {s : SessionRow} (h : s ∈ t.rows) :
    t.findById s.id=some s :=
  find?_unique t.ids h (by simp) fun s' _ h => by simpa using h

/-- A change of one session is a change of no other. -/
theorem findById_modify_ne {t : SessionTable} {id : Uuid} {f : SessionRow → SessionRow}
    (key : ∀ s, (f s).id=s.id) {sid : Uuid} (h : sid≠id) :
    (t.modify id f key).findById sid=t.findById sid := by
  rw [findById_modify]
  cases hs : t.findById sid with
  | none => rfl
  | some s =>
    have hne : s.id≠id := by rw [findById_id hs]; exact h
    simp [hne]

end SessionTable

namespace SessionHandler

variable {pg : Postgres} {rt : Runtime} {resp : AuthResponse} {w w₁ : World} {row : EndpointRow}

/-- The status a successful login ends with: that of the policies, if there are any. -/
def settledStatus (pg : Postgres) (rt : Runtime) (resp : AuthResponse) (w : World)
    (row : EndpointRow) : Status :=
  match w.rules pg with
  | .ok [] => row.status
  | .ok rules =>
    decisionToStatus (evaluate rt rules (context row (resp.username.getD "") resp.groups))
  | .error _ => row.status

/-- The row of the device once its response has been handled. -/
def settledRow (pg : Postgres) (rt : Runtime) (resp : AuthResponse) (w : World)
    (row : EndpointRow) : EndpointRow :=
  if resp.success then
    { row with
      username := if (resp.username.getD "").isEmpty then row.username
        else some (resp.username.getD "")
      status := settledStatus pg rt resp w row }
  else row

/-- The session once the response about it has been handled. -/
def settledSession (resp : AuthResponse) (now : Timestamp) (s : SessionRow) : SessionRow :=
  if resp.success then
    { s with
      state := .active
      username := (some (resp.username.getD "")).or s.username
      updatedAt := now }
  else { s with state := .terminated, endedAt := some now, updatedAt := now }

theorem settledSession_id (resp : AuthResponse) (now : Timestamp) (s : SessionRow) :
    (settledSession resp now s).id=s.id := by
  unfold settledSession
  split <;> rfl

def settledSessions (resp : AuthResponse) (w : World) (session : Option SessionRow) :
    SessionTable :=
  match session with
  | some sess =>
    w.sessions.modify sess.id (settledSession resp w.clock) (settledSession_id resp w.clock)
  | none => w.sessions

theorem settledSessions_some (resp : AuthResponse) (w : World) (sess : SessionRow) :
    settledSessions resp w (some sess)=
      if resp.success then
        w.sessions.transition sess.id .active (some (resp.username.getD "")) w.clock
      else w.sessions.terminate sess.id w.clock := by
  cases hs : resp.success with
  | true =>
    have settles : settledSession resp w.clock=fun s => { s with
        state := .active
        username := (some (resp.username.getD "")).or s.username
        updatedAt := w.clock } := by
      funext s
      simp [settledSession,hs]
    simp only [settledSessions,settles]
    rfl
  | false =>
    have settles : settledSession resp w.clock=fun s =>
        { s with state := .terminated, endedAt := some w.clock, updatedAt := w.clock } := by
      funext s
      simp [settledSession,hs]
    simp only [settledSessions,settles]
    rfl

theorem settledSessions_self {s : SessionRow} (h : w.sessions.findById s.id=some s) :
    (settledSessions resp w (some s)).findById s.id=some (settledSession resp w.clock s) := by
  unfold settledSessions
  simp only []
  rw [SessionTable.findById_modify,h]
  simp

theorem settledStatus_of_noRules (h : NoRules pg w) :
    settledStatus pg rt resp w row=row.status := by
  unfold settledStatus
  cases hr : w.rules pg with
  | error e => rfl
  | ok rules => rw [h rules hr]

theorem settledStatus_of_rules {rules : List PolicyRule} (h : w.rules pg=.ok rules)
    (hne : rules≠[]) : settledStatus pg rt resp w row=
      decisionToStatus (evaluate rt rules (context row (resp.username.getD "") resp.groups)) := by
  unfold settledStatus
  rw [h]
  cases rules with
  | nil => exact absurd rfl hne
  | cons rule rules => rfl

theorem named_findById (hrow : w₁.endpoints.findById row.id=some row) (username : String)
    (id : Uuid) : (named w₁ row username).findById id=if id=row.id then
      some { row with username := if username.isEmpty then row.username else some username }
      else w₁.endpoints.findById id := by
  unfold named
  by_cases hid : id=row.id
  · rw [if_pos hid,hid]
    split
    · rw [hrow]
    · rw [EndpointTable.findById_setUsername,hrow]
      simp
  · rw [if_neg hid]
    split
    · rfl
    · rw [EndpointTable.findById_setUsername,EndpointTable.map_findById_other hid]

/-- What the rest of the handler does once the device is resolved. -/
theorem handle_resolved (hres : Resolved pg resp w row w₁) :
    w.handle pg (processAuthResponse rt resp)=
      if resp.success then
        w₁.handle pg (do
          activate row (sessionOf pg resp w₁ row) (resp.username.getD "")
          reevaluate rt row (resp.username.getD "") resp.groups)
      else w₁.handle pg (authFailed row (sessionOf pg resp w₁ row)) := by
  rcases resolveEndpoint_cases pg resp w with ⟨row',w₁',hres',hrun⟩ | ⟨hno,_⟩
  · obtain ⟨rfl,rfl⟩ := hres.unique hres'
    unfold processAuthResponse
    rw [World.handle_bind_ok hrun]
    simp only []
    rw [World.handle_bind_ok (run_resolveSession resp row w₁)]
    cases resp.success <;> rfl
  · exact absurd hres (hno row w₁)

theorem handle_authFailed (w : World) (row : EndpointRow) (session : Option SessionRow) :
    (w.handle pg (authFailed row session)).endpoints=w.endpoints ∧
      (w.handle pg (authFailed row session)).sessions=match session with
        | some sess => w.sessions.terminate sess.id w.clock
        | none => w.sessions := by
  unfold authFailed
  cases session with
  | none => exact ⟨rfl,rfl⟩
  | some sess =>
    simp only []
    rw [World.handle_query_ok rfl]
    exact ⟨rfl,rfl⟩

theorem settled_sessions (hres : Resolved pg resp w row w₁) :
    (w.handle pg (processAuthResponse rt resp)).sessions=
      settledSessions resp w₁ (sessionOf pg resp w₁ row) := by
  cases hs : resp.success with
  | false =>
    rw [handle_resolved hres,hs,if_neg (by simp),(handle_authFailed ..).2]
    cases sessionOf pg resp w₁ row with
    | none => rfl
    | some sess => rw [settledSessions_some,hs,if_neg (by simp)]
  | true =>
    have active : activated w₁ (sessionOf pg resp w₁ row) (resp.username.getD "")=
        settledSessions resp w₁ (sessionOf pg resp w₁ row) := by
      cases sessionOf pg resp w₁ row with
      | none => rfl
      | some sess =>
        rw [settledSessions_some,hs,if_pos rfl]
        rfl
    rw [← active]
    have hout := processAuthResponse_outcome pg rt resp w
    generalize w.handle pg (processAuthResponse rt resp)=w' at hout ⊢
    cases hout with
    | unresolved hno => exact absurd hres (hno row w₁)
    | failed _ hfail _ _ _ =>
      rw [hs] at hfail
      cases hfail
    | unevaluated hres' _ _ heff =>
      obtain ⟨rfl,rfl⟩ := hres.unique hres'
      exact heff.sessions
    | decided hres' _ _ _ heff =>
      obtain ⟨rfl,rfl⟩ := hres.unique hres'
      exact heff.sessions

theorem settled_endpoints (hres : Resolved pg resp w row w₁) (id : Uuid) :
    (w.handle pg (processAuthResponse rt resp)).endpoints.findById id=
      if id=row.id then some (settledRow pg rt resp w row) else w₁.endpoints.findById id := by
  have status (st : Status) : ((named w₁ row (resp.username.getD "")).setStatus row.id st).findById
      id=if id=row.id then some { row with
          username := if (resp.username.getD "").isEmpty then row.username
            else some (resp.username.getD "")
          status := st }
        else w₁.endpoints.findById id := by
    rw [EndpointTable.findById_setStatus]
    by_cases hid : id=row.id
    · rw [named_findById hres.stored,if_pos hid,if_pos hid]
      simp
    · rw [EndpointTable.map_findById_other hid,named_findById hres.stored,if_neg hid,if_neg hid]
  have hout := processAuthResponse_outcome pg rt resp w
  generalize w.handle pg (processAuthResponse rt resp)=w' at hout ⊢
  cases hout with
  | unresolved hno => exact absurd hres (hno row w₁)
  | failed hres' hfail hend _ _ =>
    obtain ⟨rfl,rfl⟩ := hres.unique hres'
    have same : settledRow pg rt resp w row=row := by simp [settledRow,hfail]
    rw [hend,same]
    by_cases hid : id=row.id
    · rw [if_pos hid,hid,hres.stored]
    · rw [if_neg hid]
  | unevaluated hres' hs hno heff =>
    obtain ⟨rfl,rfl⟩ := hres.unique hres'
    rw [heff.endpoints,named_findById hres.stored,settledRow,hs,if_pos rfl,
      settledStatus_of_noRules hno]
  | decided hres' hs hloaded hne heff =>
    obtain ⟨rfl,rfl⟩ := hres.unique hres'
    rw [heff.endpoints,status,settledRow,hs,if_pos rfl,settledStatus_of_rules hloaded hne]

theorem unresolved_handle (hno : ∀ row w₁, ¬Resolved pg resp w row w₁) :
    w.handle pg (processAuthResponse rt resp)=w := by
  have hout := processAuthResponse_outcome pg rt resp w
  generalize w.handle pg (processAuthResponse rt resp)=w' at hout ⊢
  cases hout with
  | unresolved _ => rfl
  | failed hres _ _ _ _ => exact absurd hres (hno _ _)
  | unevaluated hres _ _ _ => exact absurd hres (hno _ _)
  | decided hres _ _ _ _ => exact absurd hres (hno _ _)

/-- The device and the session that a response is about in a world. -/
def picked (pg : Postgres) (resp : AuthResponse) (w : World) :
    Option (EndpointRow × Option SessionRow) :=
  match (resolveEndpoint resp).run (Call.exec pg) w with
  | (.ok (some row),w₁) => some (row,sessionOf pg resp w₁ row)
  | _ => none

theorem picked_cases (pg : Postgres) (resp : AuthResponse) (w : World) :
    (∃ row w₁, Resolved pg resp w row w₁ ∧
        picked pg resp w=some (row,sessionOf pg resp w₁ row)) ∨
      (∀ row w₁, ¬Resolved pg resp w row w₁) ∧ picked pg resp w=none := by
  unfold picked
  rcases resolveEndpoint_cases pg resp w with ⟨row,w₁,hres,hrun⟩ | ⟨hno,hrun | ⟨e,hrun⟩⟩
  · rw [hrun]
    exact .inl ⟨row,w₁,hres,rfl⟩
  · rw [hrun]
    exact .inr ⟨hno,rfl⟩
  · rw [hrun]
    exact .inr ⟨hno,rfl⟩

theorem picked_of_resolved (hres : Resolved pg resp w row w₁) :
    picked pg resp w=some (row,sessionOf pg resp w₁ row) := by
  rcases picked_cases pg resp w with ⟨row',w₁',hres',hp⟩ | ⟨hno,_⟩
  · obtain ⟨rfl,rfl⟩ := hres.unique hres'
    exact hp
  · exact absurd hres (hno row w₁)

theorem sessionOf_stored {s : SessionRow} (h : sessionOf pg resp w row=some s) :
    w.sessions.findById s.id=some s := by
  unfold sessionOf at h
  cases hsid : resp.sessionId with
  | some sid =>
    simp only [hsid] at h
    rw [SessionTable.findById_id h]
    exact h
  | none =>
    simp only [hsid] at h
    exact SessionTable.findById_eq_some (SessionTable.findActiveByEndpoint_latest h).1.1

/-- Resolving a device writes at most the row of that device. -/
theorem Resolved.other (hres : Resolved pg resp w row w₁) {id : Uuid} (hid : id≠row.id) :
    w₁.endpoints.findById id=w.endpoints.findById id := by
  cases hres with
  | known _ => rfl
  | registered _ _ h =>
    have hput := EndpointTable.upsert_put h
    exact hput.other hid

/-- No device and no session but those picked are changed. -/
theorem processAuthResponse_frame (pg : Postgres) (rt : Runtime) (resp : AuthResponse)
    (w : World) :
    (∀ id, (picked pg resp w).map (·.1.id)≠some id →
      (w.handle pg (processAuthResponse rt resp)).endpoints.findById id=
        w.endpoints.findById id) ∧
    ∀ sid, ((picked pg resp w).bind (·.2)).map (·.id)≠some sid →
      (w.handle pg (processAuthResponse rt resp)).sessions.findById sid=
        w.sessions.findById sid := by
  rcases picked_cases pg resp w with ⟨row,w₁,hres,hp⟩ | ⟨hno,_⟩
  · rw [hp]
    constructor
    · intro id hid
      have hid : id≠row.id := fun e => hid (congrArg some e.symm)
      rw [settled_endpoints hres,if_neg hid,hres.other hid]
    · intro sid hsid
      rw [settled_sessions hres,← hres.same.1]
      cases hs : sessionOf pg resp w₁ row with
      | none => rfl
      | some s =>
        have hsid : sid≠s.id := by
          intro e
          apply hsid
          rw [e,Option.bind_some,hs]
          rfl
        exact SessionTable.findById_modify_ne (settledSession_id resp w₁.clock) hsid
  · rw [unresolved_handle hno]
    exact ⟨fun _ _ => rfl,fun _ _ => rfl⟩

/-- A row but for the id that the database gave it. -/
def withoutId (r : EndpointRow) : EndpointRow := { r with id := 0 }

/-- A response picks the same device and the same session in both worlds, under the same
policies; nothing else need be the same. -/
structure SamePicks (pg : Postgres) (resp : AuthResponse) (w v : World) : Prop where
  known : lookup pg resp v=lookup pg resp w
  registered : lookup pg resp w=.ok none → ∀ m, pg.macaddr resp.macAddress=some m →
    v.endpoints.findByMac m=w.endpoints.findByMac m
  session : ∀ row row' w₁ v₁, Resolved pg resp w row w₁ → Resolved pg resp v row' v₁ →
    sessionOf pg resp v₁ row'=sessionOf pg resp w₁ row
  policies : v.policies=w.policies
  clock : v.clock=w.clock

variable {v : World}

theorem SamePicks.symm (h : SamePicks pg resp w v) : SamePicks pg resp v w where
  known := h.known.symm
  registered hno m hm := (h.registered (h.known.symm.trans hno) m hm).symm
  session row row' w₁ v₁ hv hw := (h.session row' row v₁ w₁ hw hv).symm
  policies := h.policies.symm
  clock := h.clock.symm

/-- The same device is resolved, but for the id of a new one. -/
theorem SamePicks.resolved (h : SamePicks pg resp w v) (hres : Resolved pg resp w row w₁) :
    ∃ row' v₁, Resolved pg resp v row' v₁ ∧ withoutId row'=withoutId row ∧
      (row'.id=row.id ∨ w.endpoints.findById row.id=none ∧ v.endpoints.findById row'.id=none) ∧
        v₁.clock=w₁.clock := by
  cases hres with
  | known hl => exact ⟨row,v,.known (h.known.trans hl),rfl,.inl rfl,h.clock⟩
  | registered hl hnamed hput =>
    obtain ⟨m,ip,hcast,-,hrow⟩ := EndpointTable.upsert_ok hput
    obtain ⟨row',t',hput'⟩ := EndpointTable.upsert_accepts (t := v.endpoints) v.clock hcast rfl
    obtain ⟨m',ip',hcast',-,hrow'⟩ := EndpointTable.upsert_ok hput'
    rw [hcast] at hcast'
    obtain ⟨rfl,rfl⟩ := Prod.mk.inj (Except.ok.inj hcast')
    have device := h.registered hl m (EndpointTable.cast_ok hcast).1
    have alike : withoutId row'=withoutId row ∧ (row'.id=row.id ∨
        w.endpoints.findById row.id=none ∧ v.endpoints.findById row'.id=none) := by
      rcases hrow with ⟨r,hr,rfl⟩ | ⟨hr,rfl⟩
      · rcases hrow' with ⟨r',hr',rfl⟩ | ⟨hr',rfl⟩
        · rw [device,hr] at hr'
          obtain rfl := Option.some.inj hr'
          exact ⟨by rw [h.clock],.inl rfl⟩
        · rw [device,hr] at hr'
          cases hr'
      · rcases hrow' with ⟨r',hr',rfl⟩ | ⟨hr',rfl⟩
        · rw [device,hr] at hr'
          cases hr'
        · exact ⟨by rw [h.clock]; rfl,
            .inr ⟨EndpointTable.findById_freshId _,EndpointTable.findById_freshId _⟩⟩
    exact ⟨row',_,.registered (h.known.trans hl) hnamed hput',alike.1,alike.2,
      congrArg (·+1) h.clock⟩

theorem settledRow_withoutId {row' : EndpointRow} (hpolicies : v.policies=w.policies)
    (h : withoutId row'=withoutId row) :
    withoutId (settledRow pg rt resp v row')=withoutId (settledRow pg rt resp w row) := by
  have hrow : row'={ row with id := row'.id } := by
    have hid := congrArg (fun r : EndpointRow => { r with id := row'.id }) h
    exact hid
  have status : settledStatus pg rt resp v row'=settledStatus pg rt resp w row := by
    unfold settledStatus
    rw [rules_congr hpolicies,hrow]
    rfl
  unfold settledRow
  rw [status]
  split
  · rw [hrow]
    rfl
  · exact h

/-- Worlds that differ elsewhere still differ in the same way: the device and the session picked
come out the same. -/
theorem samePicks_settle (rt : Runtime) (h : SamePicks pg resp w v) {row row' : EndpointRow}
    {session session' : Option SessionRow} (hw : picked pg resp w=some (row,session))
    (hv : picked pg resp v=some (row',session')) :
    session'=session ∧
    (row'.id=row.id ∨ w.endpoints.findById row.id=none ∧ v.endpoints.findById row'.id=none) ∧
    ((v.handle pg (processAuthResponse rt resp)).endpoints.findById row'.id).map withoutId=
      ((w.handle pg (processAuthResponse rt resp)).endpoints.findById row.id).map withoutId ∧
    ∀ s, session=some s →
      (v.handle pg (processAuthResponse rt resp)).sessions.findById s.id=
        (w.handle pg (processAuthResponse rt resp)).sessions.findById s.id := by
  rcases picked_cases pg resp w with ⟨r,w₁,hres,hp⟩ | ⟨_,hp⟩
  · obtain ⟨rfl,rfl⟩ := Prod.mk.inj (Option.some.inj (hp.symm.trans hw))
    obtain ⟨r',v₁,hres',hcols,hid,hclock⟩ := h.resolved hres
    obtain ⟨rfl,rfl⟩ := Prod.mk.inj (Option.some.inj ((picked_of_resolved hres').symm.trans hv))
    have session := h.session _ _ _ _ hres hres'
    refine ⟨session,hid,?_,?_⟩
    · rw [settled_endpoints hres,settled_endpoints hres',if_pos rfl,if_pos rfl,Option.map_some,
        Option.map_some,settledRow_withoutId h.policies hcols]
    · intro s hs
      have stored := sessionOf_stored hs
      have stored' := sessionOf_stored (session.trans hs)
      rw [settled_sessions hres,settled_sessions hres',session,hs,settledSessions_self stored,
        settledSessions_self stored',hclock]
  · rw [hp] at hw
    cases hw

theorem SamePicks.picked_isSome (h : SamePicks pg resp w v) :
    (picked pg resp v).isSome=(picked pg resp w).isSome := by
  rcases picked_cases pg resp w with ⟨row,w₁,hres,hp⟩ | ⟨hno,hp⟩
  · obtain ⟨row',v₁,hres',-⟩ := h.resolved hres
    rw [hp,picked_of_resolved hres']
    rfl
  · rcases picked_cases pg resp v with ⟨row',v₁,hres',-⟩ | ⟨_,hp'⟩
    · obtain ⟨row,w₁,hres,-⟩ := h.symm.resolved hres'
      exact absurd hres (hno row w₁)
    · rw [hp,hp']

end SessionHandler

end NacPlatform
