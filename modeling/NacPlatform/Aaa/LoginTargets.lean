import NacPlatform.Aaa.CaptivePortal
import NacPlatform.PolicyManager.Run
import NacPlatform.PolicyManager.Settled

namespace NacPlatform.Aaa

open SessionHandler

section

variable (pg : Postgres) (rt : Runtime) (uuid : String → Option Uuid) (state : PortalState)
  (now : Int) (clientIp : String) (form : LoginForm)

/-- The response that a login comes to in a world, if it comes to one. -/
def respond (w : World) : Option AuthResponse :=
  match (handleLogin state now clientIp form).run (Call.exec pg) w with
  | (.ok (event,_),_) => event.bind (readEvent uuid)
  | _ => none

/-- The device whose row the login may change: picked by the endpoint id of the form, else by its
MAC, else by the address of the client, else registered under the MAC. -/
def targetEndpoint (w : World) : Option Uuid :=
  (respond pg uuid state now clientIp form w).bind fun resp => (picked pg resp w).map (·.1.id)

/-- The session the login may change: picked by the session id of the form, else the latest open
one of the device. -/
def targetSession (w : World) : Option Uuid :=
  (respond pg uuid state now clientIp form w).bind fun resp =>
    ((picked pg resp w).bind (·.2)).map (·.id)

/-- Two worlds in which the login picks the same device and the same session. -/
structure SameTargets (w v : World) : Prop where
  address : givenMac state form=none →
    v.endpoints.findByHost pg clientIp=w.endpoints.findByHost pg clientIp
  picks : ∀ resp, respond pg uuid state now clientIp form w=some resp → SamePicks pg resp w v

theorem run_loginMac (w : World) : (loginMac state clientIp form).run (Call.exec pg) w=
    (.ok ((givenMac state form).getD
      (((w.endpoints.findByHost pg clientIp).map (·.macAddress.text)).getD "")),w) := by
  unfold loginMac
  cases givenMac state form with
  | some mac => rfl
  | none =>
    rw [Proc.run_bind,macFromDb,World.run_probe_bind]
    simp only [Call.exec]
    cases w.endpoints.findByHost pg clientIp <;> rfl

/-- The portal only reads. -/
theorem run_handleLogin (w : World) : ∃ r,
    (handleLogin state now clientIp form).run (Call.exec pg) w=(.ok r,w) := by
  unfold handleLogin
  rw [Proc.run_bind,run_loginMac]
  simp only []
  cases authenticate state form with
  | error e => exact ⟨_,rfl⟩
  | ok identity =>
    simp only []
    cases state.signToken ⟨identity.username,identity.groups,now+3600,now⟩ with
    | error e => exact ⟨_,rfl⟩
    | ok token => exact ⟨_,rfl⟩

theorem handle_login (w : World) :
    w.handle pg (login rt uuid state now clientIp form)=
      match respond pg uuid state now clientIp form w with
      | some resp => w.handle pg (processAuthResponse rt resp)
      | none => w := by
  obtain ⟨⟨event,dest⟩,hrun⟩ := run_handleLogin pg state now clientIp form w
  unfold login respond
  rw [World.handle_bind_ok hrun,hrun]
  simp only []
  cases event.bind (readEvent uuid) <;> rfl

/-- The response depends on the database through the row at the client's address only, and not
even on that where the MAC is given. -/
theorem respond_congr {w v : World} (h : givenMac state form=none →
    v.endpoints.findByHost pg clientIp=w.endpoints.findByHost pg clientIp) :
    respond pg uuid state now clientIp form v=respond pg uuid state now clientIp form w := by
  have mac : (givenMac state form).getD
      (((v.endpoints.findByHost pg clientIp).map (·.macAddress.text)).getD "")=
      (givenMac state form).getD
        (((w.endpoints.findByHost pg clientIp).map (·.macAddress.text)).getD "") := by
    cases hg : givenMac state form with
    | some mac => rfl
    | none => rw [h hg]
  unfold respond handleLogin
  rw [Proc.run_bind,Proc.run_bind,run_loginMac,run_loginMac,mac]
  simp only []
  cases authenticate state form with
  | error e => rfl
  | ok identity =>
    simp only []
    cases state.signToken ⟨identity.username,identity.groups,now+3600,now⟩ <;> rfl

theorem login_responds {w : World} {resp : AuthResponse}
    (h : respond pg uuid state now clientIp form w=some resp) :
    w.handle pg (login rt uuid state now clientIp form)=
        w.handle pg (processAuthResponse rt resp) ∧
      targetEndpoint pg uuid state now clientIp form w=(picked pg resp w).map (·.1.id) ∧
      targetSession pg uuid state now clientIp form w=
        ((picked pg resp w).bind (·.2)).map (·.id) := by
  refine ⟨?_,?_,?_⟩
  · rw [handle_login,h]
  · rw [targetEndpoint,h,Option.bind_some]
  · rw [targetSession,h,Option.bind_some]

/-- A login, successful or not, changes no device and no session but those that the form and, for
what the form leaves open, the client's address pick. Databases in which it picks the same ones,
whatever else they hold, come out the same there: they still differ in the same way. -/
theorem login_confined (w : World) :
    (∀ id, targetEndpoint pg uuid state now clientIp form w≠some id →
      (w.handle pg (login rt uuid state now clientIp form)).endpoints.findById id=
        w.endpoints.findById id) ∧
    (∀ sid, targetSession pg uuid state now clientIp form w≠some sid →
      (w.handle pg (login rt uuid state now clientIp form)).sessions.findById sid=
        w.sessions.findById sid) ∧
    ∀ v, SameTargets pg uuid state now clientIp form w v →
      targetSession pg uuid state now clientIp form v=
        targetSession pg uuid state now clientIp form w ∧
      (targetEndpoint pg uuid state now clientIp form v=
          targetEndpoint pg uuid state now clientIp form w ∨
        ∃ e e', targetEndpoint pg uuid state now clientIp form w=some e ∧
          targetEndpoint pg uuid state now clientIp form v=some e' ∧
          w.endpoints.findById e=none ∧ v.endpoints.findById e'=none) ∧
      (∀ e e', targetEndpoint pg uuid state now clientIp form w=some e →
        targetEndpoint pg uuid state now clientIp form v=some e' →
        ((v.handle pg (login rt uuid state now clientIp form)).endpoints.findById e').map
            withoutId=
          ((w.handle pg (login rt uuid state now clientIp form)).endpoints.findById e).map
            withoutId) ∧
      ∀ sid, targetSession pg uuid state now clientIp form w=some sid →
        (v.handle pg (login rt uuid state now clientIp form)).sessions.findById sid=
          (w.handle pg (login rt uuid state now clientIp form)).sessions.findById sid := by
  cases hw : respond pg uuid state now clientIp form w with
  | none =>
    have unchanged : w.handle pg (login rt uuid state now clientIp form)=w := by
      rw [handle_login,hw]
    refine ⟨fun _ _ => by rw [unchanged],fun _ _ => by rw [unchanged],?_⟩
    intro v same
    have hv := (respond_congr pg uuid state now clientIp form same.address).trans hw
    simp [targetSession,targetEndpoint,hw,hv]
  | some resp =>
    obtain ⟨handled,endpoint,session⟩ :=
      login_responds pg rt uuid state now clientIp form hw
    obtain ⟨endpoints,sessions⟩ := processAuthResponse_frame pg rt resp w
    rw [handled,endpoint,session]
    refine ⟨endpoints,sessions,?_⟩
    intro v same
    have hv := (respond_congr pg uuid state now clientIp form same.address).trans hw
    obtain ⟨handled',endpoint',session'⟩ :=
      login_responds pg rt uuid state now clientIp form hv
    rw [handled',endpoint',session']
    have picks := same.picks resp hw
    have both := picks.picked_isSome
    cases hpw : picked pg resp w with
    | none =>
      rw [hpw] at both
      have hpv : picked pg resp v=none := by simpa using both
      simp [hpv]
    | some pw =>
      rw [hpw] at both
      obtain ⟨pv,hpv⟩ := Option.isSome_iff_exists.mp both
      obtain ⟨row,s⟩ := pw
      obtain ⟨row',s'⟩ := pv
      obtain ⟨hs,hid,hrow,hsession⟩ := samePicks_settle rt picks hpw hpv
      rw [hpv]
      refine ⟨by rw [Option.bind_some,Option.bind_some,hs],?_,?_,?_⟩
      · cases hid with
        | inl hid => exact .inl (congrArg some hid)
        | inr hnew => exact .inr ⟨row.id,row'.id,rfl,rfl,hnew⟩
      · intro e e' he he'
        obtain rfl := Option.some.inj he
        obtain rfl := Option.some.inj he'
        exact hrow
      · intro sid hsid
        obtain ⟨s₀,hs₀,rfl⟩ := Option.map_eq_some_iff.mp hsid
        exact hsession s₀ hs₀

end

/-- A portal with one local account. -/
def samplePortal : PortalState where
  ldap := none
  localAuth username password :=
    if username="alice" ∧ password="secret" then .ok ⟨username,[]⟩ else .error "no such user"
  signToken _ := .ok ""
  defaultMac := none

/-- A login that names the MAC of another device changes the row of that device. -/
theorem login_changes_another_device :
    ¬∀ (w : World) (clientIp : String) (form : LoginForm) (row : EndpointRow),
      w.endpoints.findById row.id=some row →
      row.ipAddress.map Postgres.plain.host≠some clientIp →
      (w.handle Postgres.plain (login Runtime.ascii (fun _ => none) samplePortal 0 clientIp
        form)).endpoints.findById row.id=some row := by
  intro h
  have before : (runs (Platform.step Postgres.plain Runtime.ascii) (Platform.initial [])
      [.detected firstSighting]).world.endpoints.column
        (fun r => (r.ipAddress.map Postgres.plain.host,r.username)) 1=
      some (some "10.0.0.7",none) := by decide +kernel
  have after : ((runs (Platform.step Postgres.plain Runtime.ascii) (Platform.initial [])
      [.detected firstSighting]).world.handle Postgres.plain (login Runtime.ascii (fun _ => none)
        samplePortal 0 "10.0.0.9"
          ⟨"alice","secret",some "aa:bb:cc:dd:ee:01",none,none,none⟩)).endpoints.column
      (·.username) 1=some (some "alice") := by decide +kernel
  obtain ⟨row,hrow,hcols⟩ := EndpointTable.column_eq_some.mp before
  obtain ⟨hip,huser⟩ := Prod.mk.inj hcols
  have hid := EndpointTable.findById_id hrow
  obtain ⟨row',hrow',huser'⟩ := EndpointTable.column_eq_some.mp after
  have kept := h _ "10.0.0.9" ⟨"alice","secret",some "aa:bb:cc:dd:ee:01",none,none,none⟩ row
    (hid ▸ hrow) (by rw [hip]; decide)
  rw [hid,hrow'] at kept
  rw [Option.some.inj kept,huser] at huser'
  cases huser'

end NacPlatform.Aaa
