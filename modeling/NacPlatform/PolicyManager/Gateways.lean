import NacPlatform.PolicyManager.Outcomes
import NacPlatform.Sensor.Arp

namespace NacPlatform

/-- The site: what is known, the routing table, and the detections that are published and not yet
consumed. The sensor publishes every event from a task of its own, so their order is open. -/
structure Network where
  platform : Platform
  routes : String
  inFlight : List EndpointDetectedEvent

/-- Not a cycle of the ARP sync, which reads the routing table for itself. -/
def Step.Handled : Step → Prop
  | .arpSync .. => False
  | _ => True

inductive Activity where
  | route (content : String)
  | frame (ifaceName : String) (arp : Sensor.ArpPacket) (now : Int)
  | deliver (i : Nat)
  | arpSync (arpMap : List (String × Ipv4Addr)) (now : Int)
  | manage (a : Step) (handled : a.Handled)

namespace Network

def initial (policies : List PolicyRow) (routes : String) : Network :=
  ⟨Platform.initial policies,routes,[]⟩

def gateways (s : Network) : List Ipv4Addr := Background.detectDefaultGateways s.routes

variable (pg : Postgres) (rt : Runtime)

/-- The consumer takes up one of the events in flight. -/
def deliver (s : Network) (i : Nat) : Network :=
  match s.inFlight[i]? with
  | some event =>
    { s with
      platform := s.platform.step pg rt (.detected event)
      inFlight := s.inFlight.eraseIdx i }
  | none => s

/-- A cycle of the ARP sync, with the routing table of the moment; its events are put in flight. -/
def sync (s : Network) (arpMap : List (String × Ipv4Addr)) (now : Int) : Network :=
  let platform := s.platform.step pg rt (.arpSync arpMap s.gateways now)
  { s with
    platform := platform
    inFlight := s.inFlight++
      platform.world.detections.drop s.platform.world.detections.length }

def next (s : Network) : Activity → Network
  | .route content => { s with routes := content }
  | .frame ifaceName arp now =>
    { s with inFlight := s.inFlight++
        ((Sensor.snoop ifaceName arp).map fun e => Sensor.endpointDetected e now).toList }
  | .deliver i => s.deliver pg rt i
  | .arpSync arpMap now => s.sync pg rt arpMap now
  | .manage a _ => { s with platform := s.platform.step pg rt a }

end Network

/-- The address, without its suffix, is not among `G`. -/
def Away (G : List String) (ip : Option String) : Prop := ∀ s, ip=some s → stripCidr s ∉ G

/-- No address of `G` is newly stored, and no command is published for one. -/
structure Avoids (G : List String) (w w' : World) : Prop where
  stored : ∀ id ip, w'.endpoints.column (·.ipAddress) id=some (some ip) → stripCidr ip ∈ G →
    w.endpoints.column (·.ipAddress) id=some (some ip)
  sent : ∃ sent, w'.commands=w.commands++sent ∧ ∀ cmd ∈ sent, stripCidr cmd.ipAddress ∉ G

/-- The devices for which a handler may publish a command with the address they are stored with. -/
def Step.about (pg : Postgres) (w : World) : Step → EndpointRow → Prop
  | .detected event,r => event.ipAddress="" ∧
      (pg.macaddr event.macAddress).bind w.endpoints.findByMac=some r
  | .auth resp,r => SessionHandler.lookup pg resp w=.ok (some r) ∨
      SessionHandler.lookup pg resp w=.ok none ∧ resp.ipAddress="" ∧
        (pg.macaddr resp.macAddress).bind w.endpoints.findByMac=some r
  | .posture report,r => (pg.macaddr report.deviceId).bind w.endpoints.findByMac=some r
  | .admin id _,r => w.endpoints.findById id=some r
  | .evaluate _,r => w.endpoints.findById r.id=some r ∧ r.policyExempt=false
  | _,_ => False

/-- The address that a handler may store. -/
def Step.brings (pg : Postgres) (w : World) : Step → String → Prop
  | .detected event,ip => event.ipAddress=ip
  | .auth resp,ip => SessionHandler.lookup pg resp w=.ok none ∧ resp.ipAddress=ip
  | .register remoteIp _,ip => remoteIp=some ip
  | _,_ => False

section Avoidance

variable {pg : Postgres} {rt : Runtime} {G : List String} {w w₁ w' : World} {t : EndpointTable}
  {row : EndpointRow}

theorem Avoids.refl (G : List String) (w : World) : Avoids G w w := by
  constructor
  · intro id ip h _
    exact h
  · exact ⟨[],by simp,by simp⟩

theorem Avoids.trans (h : Avoids G w w₁) (h' : Avoids G w₁ w') : Avoids G w w' := by
  obtain ⟨sent,hsent,haway⟩ := h.sent
  obtain ⟨sent',hsent',haway'⟩ := h'.sent
  constructor
  · intro id ip hip hmem
    exact h.stored id ip (h'.stored id ip hip hmem) hmem
  · refine ⟨sent++sent',by rw [hsent',hsent,List.append_assoc],?_⟩
    intro cmd hcmd
    cases List.mem_append.mp hcmd with
    | inl hold => exact haway cmd hold
    | inr hnew => exact haway' cmd hnew

/-- An effect whose rows have the addresses they had, or one away from `G`. -/
theorem Avoids.of_effect {sessions : SessionTable} {sent : List EnforcementCommand}
    (heffect : Effect w w' t sessions sent)
    (hstored : ∀ id ip, t.column (·.ipAddress) id=some (some ip) → stripCidr ip ∈ G →
      w.endpoints.column (·.ipAddress) id=some (some ip))
    (hsent : ∀ cmd ∈ sent, stripCidr cmd.ipAddress ∉ G) : Avoids G w w' := by
  constructor
  · intro id ip h
    rw [heffect.endpoints] at h
    exact hstored id ip h
  · exact ⟨sent,heffect.commands,hsent⟩

theorem Away.getD (hG : "" ∉ G) {ip : Option String} (h : Away G ip) :
    stripCidr (ip.getD "") ∉ G := by
  cases ip with
  | none => exact hG
  | some s => exact h s rfl

theorem away_cast {ep : UpsertEndpoint} {mac : MacAddr} {ip : Option String}
    (hcast : EndpointTable.cast pg ep=.ok (mac,ip))
    (hgiven : ∀ s, ep.ipAddress=some s → Away G (pg.inet s)) : Away G ip := by
  obtain ⟨_,hip⟩ := EndpointTable.cast_ok hcast
  cases hip with
  | inl hnone =>
    rw [hnone.2]
    intro s hs
    cases hs
  | inr hsome =>
    obtain ⟨s,shown,hep,hshown,rfl⟩ := hsome
    rw [← hshown]
    exact hgiven s hep

/-- An upsert stores the address it is given, else it keeps the one that was there. -/
theorem away_upsert {ep : UpsertEndpoint} {now : Timestamp}
    (hput : w.endpoints.upsert pg ep now=.ok (row,t))
    (hgiven : ∀ s, ep.ipAddress=some s → Away G (pg.inet s))
    (hkept : ep.ipAddress=none → ∀ r,
      (pg.macaddr ep.macAddress).bind w.endpoints.findByMac=some r → Away G r.ipAddress) :
    Away G row.ipAddress := by
  obtain ⟨mac,ip,hcast,_,hrow⟩ := EndpointTable.upsert_ok hput
  obtain ⟨hmac,hip⟩ := EndpointTable.cast_ok hcast
  cases hip with
  | inl hnone =>
    obtain ⟨hep,rfl⟩ := hnone
    cases hrow with
    | inl hmerged =>
      obtain ⟨r,hr,rfl⟩ := hmerged
      exact hkept hep r (by rw [hmac,Option.bind_some,hr])
    | inr hnew =>
      obtain ⟨_,rfl⟩ := hnew
      intro s hs
      cases hs
  | inr hsome =>
    obtain ⟨s,shown,hep,hshown,rfl⟩ := hsome
    have haway := hgiven s hep
    rw [hshown] at haway
    cases hrow with
    | inl hmerged =>
      obtain ⟨r,_,rfl⟩ := hmerged
      exact haway
    | inr hnew =>
      obtain ⟨_,rfl⟩ := hnew
      exact haway

theorem stored_put {r : EndpointRow} {given : Option String}
    (hput : EndpointTable.Put w.endpoints t row) (hrow : row.ipAddress=given.or r.ipAddress)
    (haway : Away G given) (hr : w.endpoints.findById row.id=some r ∨ r.ipAddress=none)
    (id : Uuid) (ip : String) (h : t.column (·.ipAddress) id=some (some ip))
    (hmem : stripCidr ip ∈ G) : w.endpoints.column (·.ipAddress) id=some (some ip) := by
  obtain ⟨r',hr',hip⟩ := EndpointTable.column_eq_some.mp h
  by_cases hid : id=row.id
  · rw [hid,hput.self] at hr'
    cases hr'
    rw [hrow] at hip
    cases hgiven : given with
    | some s =>
      rw [hgiven,Option.some_or] at hip
      cases hip
      exact absurd hmem (haway _ hgiven)
    | none =>
      rw [hgiven,Option.none_or] at hip
      cases hr with
      | inl hold =>
        rw [hid]
        exact EndpointTable.column_eq_some.mpr ⟨r,hold,hip⟩
      | inr hnone =>
        rw [hnone] at hip
        cases hip
  · rw [hput.other hid] at hr'
    exact EndpointTable.column_eq_some.mpr ⟨r',hr',hip⟩

theorem stored_upsert {ep : UpsertEndpoint} {now : Timestamp}
    (hput : w.endpoints.upsert pg ep now=.ok (row,t))
    (hgiven : ∀ s, ep.ipAddress=some s → Away G (pg.inet s)) (id : Uuid) (ip : String)
    (h : t.column (·.ipAddress) id=some (some ip)) (hmem : stripCidr ip ∈ G) :
    w.endpoints.column (·.ipAddress) id=some (some ip) := by
  obtain ⟨mac,given,hcast,hput',hrow⟩ := EndpointTable.upsert_ok hput
  have haway : Away G given := away_cast hcast hgiven
  cases hrow with
  | inl hmerged =>
    obtain ⟨r,hr,rfl⟩ := hmerged
    exact stored_put hput' rfl haway (.inl (EndpointTable.findByMac_eq_some.mp hr).1) id ip h hmem
  | inr hnew =>
    obtain ⟨_,rfl⟩ := hnew
    have hor : (EndpointTable.insertedRow w.endpoints.freshId mac given ep now).ipAddress=
        given.or (EndpointTable.insertedRow w.endpoints.freshId mac none ep now).ipAddress :=
      Option.or_none.symm
    exact stored_put hput' hor haway (.inr rfl) id ip h hmem

theorem column_setStatus_ip (t : EndpointTable) (id : Uuid) (st : Status) :
    (t.setStatus id st).column (·.ipAddress)=t.column (·.ipAddress) :=
  EndpointTable.column_modify _ fun _ => rfl

theorem Consumer.commandFor_address {status : Status} {d : PolicyDecision}
    {cmd : EnforcementCommand} (h : cmd ∈ Consumer.commandFor row status d) :
    stripCidr cmd.ipAddress=stripCidr (row.ipAddress.getD "") := by
  obtain ⟨_,_,hip⟩ := Consumer.mem_commandFor h
  rw [hip]
  cases row.ipAddress with
  | none => rfl
  | some ip => simp

theorem Avoids.detected (hG : "" ∉ G) {event : EndpointDetectedEvent}
    (hgiven : ∀ s, (Consumer.upsertOf event).ipAddress=some s → Away G (pg.inet s))
    (hkept : (Consumer.upsertOf event).ipAddress=none → ∀ r,
      (pg.macaddr event.macAddress).bind w.endpoints.findByMac=some r → Away G r.ipAddress) :
    Avoids G w (w.handle pg (Consumer.processEvent rt event)) := by
  cases Consumer.processEvent_outcome pg rt event w with
  | inl hrefused =>
    rw [hrefused.2]
    exact .refl G w
  | inr hstored =>
    obtain ⟨row,t,w₁,hput,hout,heffect⟩ := hstored
    have hip : Away G row.ipAddress := away_upsert hput hgiven hkept
    have hfirst : Avoids G w w₁ := .of_effect heffect (stored_upsert hput hgiven) (by simp)
    have hsent (status : Status) (d : PolicyDecision) :
        ∀ cmd ∈ Consumer.commandFor row status d, stripCidr cmd.ipAddress ∉ G := by
      intro cmd hcmd
      rw [Consumer.commandFor_address hcmd]
      exact hip.getD hG
    apply hfirst.trans
    cases hout with
    | unevaluated _ heff => exact .of_effect heff (fun _ _ h _ => h) (by simp)
    | kept _ _ _ heff =>
      apply Avoids.of_effect heff (fun _ _ h _ => h)
      intro cmd hcmd
      split at hcmd
      · exact hsent _ _ cmd hcmd
      · cases hcmd
    | changed _ _ _ _ heff =>
      refine .of_effect heff ?_ (hsent _ _)
      intro id ip h _
      rw [column_setStatus_ip] at h
      exact h

theorem Avoids.reported (hG : "" ∉ G) {report : PostureReport}
    (hw : ∀ r, (pg.macaddr report.deviceId).bind w.endpoints.findByMac=some r → Away G r.ipAddress)
    (hout : PostureHandler.Outcome pg rt report w w') : Avoids G w w' := by
  have kept (row : EndpointRow) :
      (PostureHandler.reported w row report (PostureHandler.verdict rt report)).column (·.ipAddress)=
        w.endpoints.column (·.ipAddress) :=
    PostureHandler.column_reported (fun _ => rfl) fun _ => rfl
  cases hout with
  | unknown _ => exact .refl G w
  | kept _ _ heff =>
    refine .of_effect heff ?_ (by simp)
    intro id ip h _
    rw [kept] at h
    exact h
  | @changed _ row _ new found _ _ _ _ heff =>
    refine .of_effect heff ?_ (List.forall_mem_singleton.mpr ((hw row found).getD hG))
    intro id ip h _
    rw [column_setStatus_ip,kept] at h
    exact h

theorem Avoids.authenticated (hG : "" ∉ G) {resp : AuthResponse}
    (hw : ∀ r, Step.about pg w (.auth resp) r → Away G r.ipAddress)
    (haddress : SessionHandler.lookup pg resp w=.ok none → Away G (pg.inet resp.ipAddress))
    (hout : SessionHandler.Outcome pg rt resp w w') : Avoids G w w' := by
  have resolved {row : EndpointRow} {w₁ : World} (hres : SessionHandler.Resolved pg resp w row w₁) :
      Avoids G w w₁ ∧ Away G row.ipAddress := by
    cases hres with
    | known h => exact ⟨.refl G w,hw row (.inl h)⟩
    | registered hunknown _ hput =>
      have hgiven : ∀ s, (SessionHandler.upsertOf resp).ipAddress=some s → Away G (pg.inet s) := by
        intro s hs
        unfold SessionHandler.upsertOf at hs
        split at hs
        · cases hs
        · cases hs
          exact haddress hunknown
      have hip : Away G row.ipAddress := by
        apply away_upsert hput hgiven
        intro hnone r hr
        have hempty : resp.ipAddress="" := by
          unfold SessionHandler.upsertOf at hnone
          split at hnone
          · rename_i h
            simpa using h
          · cases hnone
        exact hw r (.inr ⟨hunknown,hempty,hr⟩)
      exact ⟨⟨stored_upsert hput hgiven,[],by simp,by simp⟩,hip⟩
  have named (w₁ : World) (row : EndpointRow) :
      (SessionHandler.named w₁ row (resp.username.getD "")).column (·.ipAddress)=
        w₁.endpoints.column (·.ipAddress) := SessionHandler.column_named fun _ => rfl
  cases hout with
  | unresolved _ => exact .refl G w
  | failed hres _ hendpoints hcommands _ =>
    apply (resolved hres).1.trans
    constructor
    · intro id ip h _
      rw [hendpoints] at h
      exact h
    · exact ⟨[],by simpa using hcommands,by simp⟩
  | unevaluated hres _ _ heff =>
    apply (resolved hres).1.trans
    refine .of_effect heff ?_ (by simp)
    intro id ip h _
    rw [named] at h
    exact h
  | @decided w₁ _ row rules hres _ _ _ heff =>
    apply (resolved hres).1.trans
    refine .of_effect heff ?_ (List.forall_mem_singleton.mpr ((resolved hres).2.getD hG))
    intro id ip h _
    rw [column_setStatus_ip,named] at h
    exact h

/-- A new status, and the command for it, of a device as the table has it. -/
theorem Avoids.commanded (hG : "" ∉ G) {cmd : EnforcementCommand} {new : Status}
    (hw : Away G row.ipAddress)
    (heffect : Effect w w' (w.endpoints.setStatus row.id new) w.sessions [cmd])
    (hcmd : stripCidr cmd.ipAddress=stripCidr (row.ipAddress.getD "")) : Avoids G w w' := by
  refine .of_effect heffect ?_ (List.forall_mem_singleton.mpr ?_)
  · intro id ip h _
    rw [column_setStatus_ip] at h
    exact h
  · rw [hcmd]
    exact hw.getD hG

theorem Avoids.evaluated (hG : "" ∉ G) (defaultAction : Option String)
    (hw : ∀ r, w.endpoints.findById r.id=some r → r.policyExempt=false → Away G r.ipAddress) :
    Avoids G w (w.handle pg (Evaluate.evaluatePolicies rt defaultAction)) := by
  have hstep : ∀ w' ep new, (Avoids G w w' ∧
        ∀ r, w'.endpoints.findById r.id=some r → r.policyExempt=false → Away G r.ipAddress) →
      w'.endpoints.findById ep.id=some ep → ep.policyExempt=false → ep.status≠new →
      Avoids G w (Evaluate.applied w' ep new) ∧
        ∀ r, (Evaluate.applied w' ep new).endpoints.findById r.id=some r → r.policyExempt=false →
          Away G r.ipAddress := by
    intro w' ep new h hep hexempt _
    have hip := h.2 ep hep hexempt
    refine ⟨h.1.trans (.commanded hG hip ⟨rfl,rfl,rfl,rfl⟩ rfl),?_⟩
    intro r hr hfalse
    change (w'.endpoints.setStatus ep.id new).findById r.id=some r at hr
    rw [EndpointTable.findById_setStatus] at hr
    obtain ⟨r₀,hr₀,hnew⟩ := Option.map_eq_some_iff.mp hr
    have hsame : r₀.policyExempt=r.policyExempt ∧ r₀.ipAddress=r.ipAddress := by
      rw [← hnew]
      split <;> exact ⟨rfl,rfl⟩
    have hid := EndpointTable.findById_id hr₀
    rw [← hsame.2]
    exact h.2 r₀ (by rw [hid]; exact hr₀) (hsame.1.trans hfalse)
  exact (@Evaluate.evaluatePolicies_invariant pg rt _ hstep defaultAction w ⟨.refl G w,hw⟩).1

theorem Avoids.registered {remoteIp : Option String} {req : AgentService.RegisterRequest}
    (haddress : ∀ ip, remoteIp=some ip → Away G (pg.inet ip))
    (hout : AgentService.Outcome pg remoteIp req w w') : Avoids G w w' := by
  cases hout with
  | refused heff => exact .of_effect heff (fun _ _ h _ => h) (by simp)
  | upserted _ hput heff => exact .of_effect heff (stored_upsert hput haddress) (by simp)
  | moved hput heff =>
    cases EndpointTable.upsertByAgentId_ok hput with
    | inl hnone => cases hnone.1
    | inr hmoved =>
      obtain ⟨_,mac,given,r,_,hcast,hr,_,hrow,hput'⟩ := hmoved
      cases hrow
      have haway : Away G given := away_cast hcast haddress
      have hfind := EndpointTable.findById_eq_some.mpr ⟨hr,rfl⟩
      exact .of_effect heff (stored_put hput' rfl haway (.inl hfind)) (by simp)

theorem Avoids.noted (heffect : Effect w w' t w.sessions [])
    (h : t.column (·.ipAddress)=w.endpoints.column (·.ipAddress)) : Avoids G w w' := by
  refine .of_effect heffect ?_ (by simp)
  intro id ip hip _
  rw [h] at hip
  exact hip

/-- A handler that comes upon no address of `G`, stored or brought along. -/
theorem Avoids.handled (hG : "" ∉ G) {s : Platform} {a : Step} (ha : a.Handled)
    (hw : ∀ r, a.about pg s.world r → Away G r.ipAddress)
    (haddress : ∀ ip, a.brings pg s.world ip → Away G (pg.inet ip)) :
    Avoids G s.world (s.step pg rt a).world := by
  cases a with
  | detected event =>
    apply Avoids.detected hG
    · intro ip hip
      unfold Consumer.upsertOf at hip
      split at hip
      · cases hip
      · cases hip
        exact haddress _ rfl
    · intro hnone r hr
      have hempty : event.ipAddress="" := by
        unfold Consumer.upsertOf at hnone
        split at hnone
        · rename_i h
          simpa using h
        · cases hnone
      exact hw r ⟨hempty,hr⟩
  | auth resp =>
    exact .authenticated hG hw (fun hunknown => haddress _ ⟨hunknown,rfl⟩)
      (SessionHandler.processAuthResponse_outcome pg rt resp s.world)
  | posture report =>
    exact .reported hG hw (PostureHandler.processPosture_outcome pg rt report s.world)
  | admin id action =>
    cases AdminAction.handler_outcome pg id action s.world with
    | inl hunknown => exact hunknown.2 ▸ .refl G s.world
    | inr hknown =>
      obtain ⟨row,hrow,heffect⟩ := hknown
      obtain rfl := EndpointTable.findById_id hrow
      exact .commanded hG (hw row hrow) heffect (by simp [Endpoints.commandFor,enforcementCommand])
  | assignPolicy id policyId =>
    cases Endpoints.assignPolicy_outcome pg id policyId s.world with
    | inl hsame => exact hsame ▸ .refl G s.world
    | inr heffect => exact .noted heffect (EndpointTable.column_setPolicy fun _ => rfl)
  | setExempt id exempt =>
    cases Endpoints.setExempt_outcome pg id exempt s.world with
    | inl hsame => exact hsame ▸ .refl G s.world
    | inr heffect => exact .noted heffect (EndpointTable.column_setExempt fun _ => rfl)
  | evaluate defaultAction =>
    exact .evaluated hG defaultAction fun r hr hexempt => hw r ⟨hr,hexempt⟩
  | arpSync arpMap gatewayIps now => exact ha.elim
  | register remoteIp req =>
    exact .registered haddress (AgentService.register_outcome pg remoteIp req s.world)

/-- What is in flight carries an IPv4 address. -/
def Network.Addressed (s : Network) : Prop :=
  ∀ event ∈ s.inFlight, ∃ ip : Ipv4Addr, event.ipAddress=ip.text

end Avoidance

namespace Network

variable {pg : Postgres} {rt : Runtime} {s : Network}

/-- The ARP sync publishes detections of the addresses it has read. -/
theorem sync_detections (arpMap : List (String × Ipv4Addr)) (gatewayIps : List String) (now : Int)
    (pending : Background.PendingIp) (w : World) :
    ∃ events, ((Background.arpSync rt (arpMap.map fun e => (e.1,e.2.text)) gatewayIps now
        pending).run (Call.exec pg) w).2.detections=w.detections++events ∧
      ∀ event ∈ events, ∃ ip : Ipv4Addr, event.ipAddress=ip.text := by
  apply Background.arpSync_invariant (fun w' => ∃ events, w'.detections=w.detections++events ∧
    ∀ event ∈ events, ∃ ip : Ipv4Addr, event.ipAddress=ip.text)
  · intro w' mac ip _ h
    obtain ⟨events,hevents,hip⟩ := h
    refine ⟨events++[Background.arpSyncEvent mac ip.text now],?_,?_⟩
    · change w'.detections++_=_
      rw [hevents,List.append_assoc]
    · intro event hmem
      cases List.mem_append.mp hmem with
      | inl hold => exact hip event hold
      | inr hnew =>
        obtain rfl := List.mem_singleton.mp hnew
        exact ⟨ip,rfl⟩
  · intro w' row ip _ h _
    exact h
  · exact ⟨[],by simp,by simp⟩

theorem Addressed.next (h : s.Addressed) (a : Activity) : (s.next pg rt a).Addressed := by
  cases a with
  | route content => exact h
  | frame ifaceName arp now =>
    intro event hmem
    cases List.mem_append.mp hmem with
    | inl hold => exact h event hold
    | inr hnew =>
      obtain ⟨e,_,rfl⟩ := Option.map_eq_some_iff.mp (Option.mem_toList.mp hnew)
      exact ⟨e.ipAddress,rfl⟩
  | deliver i =>
    change (s.deliver pg rt i).Addressed
    unfold Network.deliver
    cases s.inFlight[i]? with
    | none => exact h
    | some event =>
      intro event' hmem
      exact h event' (List.mem_of_mem_eraseIdx hmem)
  | arpSync arpMap now =>
    obtain ⟨events,hevents,hip⟩ := @sync_detections pg rt arpMap
      (s.gateways.map Ipv4Addr.text) now s.platform.pendingIp s.platform.world
    intro event hmem
    have hmem' : event ∈ s.inFlight++(s.platform.step pg rt
        (.arpSync arpMap s.gateways now)).world.detections.drop
          s.platform.world.detections.length := hmem
    have hsame : (s.platform.step pg rt (.arpSync arpMap s.gateways now)).world.detections=
        s.platform.world.detections++events := hevents
    rw [hsame,List.drop_left] at hmem'
    cases List.mem_append.mp hmem' with
    | inl hold => exact h event hold
    | inr hnew => exact hip event hnew
  | manage a _ => exact h

end Network

end NacPlatform
