import NacPlatform.PolicyManager.Outcomes

namespace NacPlatform

def naming (cmd : EnforcementCommand) (mac : String) : Option EnforcementCommand :=
  if cmd.macAddress=mac then some cmd else none

/-- The last command that names the device has the action of its status and its address. -/
def Announced (commands : List EnforcementCommand) (row : EndpointRow) : Prop :=
  ∃ cmd, lastWrite naming row.macAddress.text commands=some cmd ∧ row.status.announcedBy cmd ∧
    ∀ ip, row.ipAddress=some ip → stripCidr cmd.ipAddress=stripCidr ip

/-- The statement that writes `row` leaves the addresses of a device that is enforced. -/
def KeepsAddresses (t : EndpointTable) (row : EndpointRow) : Prop :=
  ∀ r, t.findById row.id=some r → r.status.enforced=true →
    row.macAddress=r.macAddress ∧ row.ipAddress.map stripCidr=r.ipAddress.map stripCidr

/-- The step takes none of the three ways on which an address is written and nothing published:
a detection without policies, a login of an unknown device id that fails or meets no policies,
a registration. -/
def Republishes (pg : Postgres) (s : Platform) : Step → Prop
  | .detected event => NoRules pg s.world → ∀ row t,
      s.world.endpoints.upsert pg (Consumer.upsertOf event) s.world.clock=.ok (row,t) →
      KeepsAddresses s.world.endpoints row
  | .auth resp => (resp.success=false ∨ NoRules pg s.world) → ∀ row t,
      SessionHandler.lookup pg resp s.world=.ok none → resp.macAddress.isEmpty=false →
      s.world.endpoints.upsert pg (SessionHandler.upsertOf resp) s.world.clock=.ok (row,t) →
      KeepsAddresses s.world.endpoints row
  | .register remoteIp req =>
      (∀ row t, s.world.endpoints.upsertByAgentId pg (AgentService.upsertOf remoteIp req)
          s.world.clock=.ok (some row,t) → KeepsAddresses s.world.endpoints row) ∧
      ((∀ row t, s.world.endpoints.upsertByAgentId pg (AgentService.upsertOf remoteIp req)
          s.world.clock≠.ok (some row,t)) → ∀ row t now,
        s.world.endpoints.upsert pg (AgentService.upsertOf remoteIp req) now=.ok (row,t) →
        KeepsAddresses s.world.endpoints row)
  | _ => True

/-- What a command is to match. -/
def placement (r : EndpointRow) : MacAddr × Status × Option String :=
  (r.macAddress,r.status,r.ipAddress.map stripCidr)

theorem Announced.congr {commands : List EnforcementCommand} {r r' : EndpointRow}
    (h : Announced commands r) (he : placement r'=placement r) : Announced commands r' := by
  obtain ⟨cmd,hcmd,hstatus,hip⟩ := h
  simp only [placement,Prod.mk.injEq] at he
  refine ⟨cmd,he.1 ▸ hcmd,he.2.1 ▸ hstatus,?_⟩
  intro ip hsome
  have hmap := he.2.2
  rw [hsome,Option.map_some] at hmap
  obtain ⟨ip',hip',heq⟩ := Option.map_eq_some_iff.mp hmap.symm
  rw [hip ip' hip',heq]

/-- The last of the commands just sent is the last of all. -/
theorem Announced.sent {sent : List EnforcementCommand} {row : EndpointRow}
    (h : Announced sent row) (commands : List EnforcementCommand) :
    Announced (commands++sent) row := by
  obtain ⟨cmd,hcmd,hrest⟩ := h
  refine ⟨cmd,?_,hrest⟩
  rw [lastWrite_append,hcmd]
  rfl

theorem Announced.unnamed {commands sent : List EnforcementCommand} {row : EndpointRow}
    (h : Announced commands row) (hsent : ∀ cmd ∈ sent, cmd.macAddress≠row.macAddress.text) :
    Announced (commands++sent) row := by
  obtain ⟨cmd,hcmd,hrest⟩ := h
  refine ⟨cmd,?_,hrest⟩
  have hnone : lastWrite naming row.macAddress.text sent=none := by
    rw [lastWrite_eq_none]
    intro cmd' hcmd'
    rw [naming,if_neg (hsent cmd' hcmd')]
  rw [lastWrite_append,hnone]
  exact hcmd

theorem announced_single {cmd : EnforcementCommand} {row : EndpointRow}
    (hmac : cmd.macAddress=row.macAddress.text) (hstatus : row.status.announcedBy cmd)
    (hip : ∀ ip, row.ipAddress=some ip → stripCidr cmd.ipAddress=stripCidr ip) :
    Announced [cmd] row :=
  ⟨cmd,by simp [lastWrite,naming,hmac],hstatus,hip⟩

/-- Every denied or quarantined device is announced as it is stored. -/
def AllAnnounced (w : World) : Prop :=
  ∀ id row, w.endpoints.findById id=some row → row.status.enforced=true → Announced w.commands row

namespace AllAnnounced

variable {pg : Postgres} {rt : Runtime} {w w₁ w' : World} {t t' : EndpointTable}
  {sessions : SessionTable} {sent : List EnforcementCommand} {row : EndpointRow} {new : Status}

/-- After a step each enforced device is announced by what the step sent, or it is placed as it
was and nothing sent names it. -/
theorem effect (h : AllAnnounced w) (hw : w₁.commands=w.commands)
    (heffect : Effect w₁ w' t' sessions sent)
    (hrows : ∀ id r, t'.findById id=some r → r.status.enforced=true → Announced sent r ∨
      (∀ cmd ∈ sent, cmd.macAddress≠r.macAddress.text) ∧
        w.endpoints.column placement id=some (placement r)) : AllAnnounced w' := by
  intro id r hr hst
  rw [heffect.endpoints] at hr
  rw [heffect.commands,hw]
  rcases hrows id r hr hst with hsent | ⟨hunnamed,hsame⟩
  · exact hsent.sent _
  · obtain ⟨r',hr',hplace⟩ := EndpointTable.column_eq_some.mp hsame
    have hst' : r'.status.enforced=true := by
      simp only [placement,Prod.mk.injEq] at hplace
      rw [hplace.2.1]
      exact hst
    exact ((h id r' hr' hst').congr hplace.symm).unnamed hunnamed

/-- Nothing is sent, and no enforced device changes its place. -/
theorem quiet (h : AllAnnounced w) (hw : w₁.commands=w.commands)
    (heffect : Effect w₁ w' t' sessions [])
    (hrows : ∀ id r, t'.findById id=some r → r.status.enforced=true →
      w.endpoints.column placement id=some (placement r)) : AllAnnounced w' :=
  h.effect hw heffect fun id r hr hst => .inr ⟨by simp,hrows id r hr hst⟩

/-- A new status for one device, and a command for it. -/
theorem decided (h : AllAnnounced w) (hw : w₁.commands=w.commands)
    (heffect : Effect w₁ w' (t.setStatus row.id new) sessions sent)
    (hrow : t.column placement row.id=some (placement row))
    (hothers : ∀ id, id≠row.id → t.column placement id=w.endpoints.column placement id)
    (hnames : ∀ cmd ∈ sent, cmd.macAddress=row.macAddress.text)
    (hsent : new.enforced=true → Announced sent { row with status := new }) :
    AllAnnounced w' := by
  obtain ⟨r₀,hr₀,hplace⟩ := EndpointTable.column_eq_some.mp hrow
  simp only [placement,Prod.mk.injEq] at hplace
  refine h.effect hw heffect ?_
  intro id r hr hst
  by_cases hid : id=row.id
  · subst hid
    rw [EndpointTable.findById_setStatus,hr₀] at hr
    obtain rfl : { r₀ with status := new }=r := by
      simpa [EndpointTable.findById_id hr₀] using hr
    refine .inl ((hsent hst).congr ?_)
    simp [placement,hplace]
  · right
    have hcol : t.column placement id=some (placement r) := by
      rw [← EndpointTable.column_setStatus hid new]
      exact EndpointTable.column_eq_some.mpr ⟨r,hr,rfl⟩
    refine ⟨?_,(hothers id hid).symm.trans hcol⟩
    intro cmd hcmd hmac
    obtain ⟨r',hr',hplace'⟩ := EndpointTable.column_eq_some.mp hcol
    simp only [placement,Prod.mk.injEq] at hplace'
    have hsame : r₀.macAddress=r'.macAddress := by
      rw [hplace.1,hplace'.1]
      exact MacAddr.text_injective ((hnames cmd hcmd).symm.trans hmac)
    exact hid (EndpointTable.mac_unique hr' hr₀ hsame.symm)

theorem upserted {ep : UpsertEndpoint} {now : Timestamp}
    (hput : w.endpoints.upsert pg ep now=.ok (row,t)) (hkeeps : KeepsAddresses w.endpoints row)
    (id : Uuid) (r : EndpointRow) (hr : t.findById id=some r) (hst : r.status.enforced=true) :
    w.endpoints.column placement id=some (placement r) := by
  obtain ⟨mac,ip,_,hrow,hcase⟩ := EndpointTable.upsert_ok hput
  by_cases hid : id=row.id
  · subst hid
    obtain rfl := Option.some.inj (hrow.self.symm.trans hr)
    rcases hcase with ⟨r₀,hr₀,rfl⟩ | ⟨_,rfl⟩
    · have hfind := (EndpointTable.findByMac_eq_some.mp hr₀).1
      obtain ⟨hmac,hip⟩ := hkeeps r₀ hfind hst
      refine EndpointTable.column_eq_some.mpr ⟨r₀,hfind,?_⟩
      rw [placement,← hmac,← hip]
      rfl
    · cases hst
  · rw [hrow.other hid] at hr
    exact EndpointTable.column_eq_some.mpr ⟨r,hr,rfl⟩

theorem others {t : EndpointTable} (hput : EndpointTable.Put w.endpoints t row) (id : Uuid)
    (hid : id≠row.id) : t.column placement id=w.endpoints.column placement id := by
  rw [EndpointTable.column,hput.other hid,EndpointTable.column]

/-- The addresses differ unless the device has none or has the one it had. -/
theorem unmoved {event : EndpointDetectedEvent} {t : EndpointTable}
    (hput : w.endpoints.upsert pg (Consumer.upsertOf event) w.clock=.ok (row,t))
    (hip : Consumer.ipChanged (Consumer.storedIp pg event w) row=false) :
    KeepsAddresses w.endpoints row := by
  intro r hr hst
  obtain ⟨mac,ip,hcast,_,hcase⟩ := EndpointTable.upsert_ok hput
  have hmac : pg.macaddr event.macAddress=some mac := (EndpointTable.cast_ok hcast).1
  rcases hcase with ⟨r₀,hr₀,rfl⟩ | ⟨_,rfl⟩
  · have hfind := (EndpointTable.findByMac_eq_some.mp hr₀).1
    obtain rfl : r=r₀ := Option.some.inj (hr.symm.trans hfind)
    refine ⟨rfl,?_⟩
    have hstored : Consumer.storedIp pg event w=r.ipAddress.map stripCidr := by
      rw [Consumer.storedIp,hmac,Option.bind_some,hr₀,Option.bind_some]
    rw [Consumer.ipChanged,hstored] at hip
    cases hnew : (ip.or r.ipAddress) with
    | none =>
      change (ip.or r.ipAddress).map stripCidr=_
      rw [hnew,(Option.or_eq_none_iff.mp hnew).2]
    | some shown =>
      change (((ip.or r.ipAddress).map stripCidr).isSome &&
        r.ipAddress.map stripCidr != (ip.or r.ipAddress).map stripCidr)=false at hip
      rw [hnew] at hip
      have he : r.ipAddress.map stripCidr=some (stripCidr shown) := by simpa using hip
      change (ip.or r.ipAddress).map stripCidr=_
      rw [hnew,he,Option.map_some]
  · change w.endpoints.findById w.endpoints.freshId=some r at hr
    rw [EndpointTable.findById_freshId] at hr
    cases hr

theorem detected {event : EndpointDetectedEvent} (h : AllAnnounced w)
    (hok : NoRules pg w → ∀ row t,
      w.endpoints.upsert pg (Consumer.upsertOf event) w.clock=.ok (row,t) →
      KeepsAddresses w.endpoints row) :
    AllAnnounced (w.handle pg (Consumer.processEvent rt event)) := by
  rcases Consumer.processEvent_outcome pg rt event w with
    ⟨_,hsame⟩ | ⟨row,t,w₁,hput,hout,heffect⟩
  · rw [hsame]
    exact h
  have hput' : EndpointTable.Put w.endpoints t row :=
    EndpointTable.upsert_put hput
  have hrow : t.column placement row.id=some (placement row) :=
    EndpointTable.column_eq_some.mpr ⟨row,hput'.self,rfl⟩
  have hw₁ : w₁.commands=w.commands := by rw [heffect.commands,List.append_nil]
  have hnames (status : Status) (d : PolicyDecision) :
      ∀ cmd ∈ Consumer.commandFor row status d, cmd.macAddress=row.macAddress.text :=
    fun cmd hcmd => (Consumer.mem_commandFor hcmd).1
  have hsent (status : Status) (d : PolicyDecision) (hst : status.enforced=true) :
      Announced (Consumer.commandFor row status d) { row with status := status } := by
    obtain ⟨cmd,hcmd⟩ : ∃ cmd, Consumer.commandFor row status d=[cmd] := by
      cases status with
      | denied => exact ⟨_,rfl⟩
      | quarantined => exact ⟨_,rfl⟩
      | allowed => cases hst
      | pending => cases hst
    obtain ⟨hmac,haction,hip⟩ := Consumer.mem_commandFor (hcmd ▸ List.mem_singleton_self cmd)
    rw [hcmd]
    refine announced_single hmac (.inr haction) ?_
    intro ip hrow
    change row.ipAddress=some ip at hrow
    rw [hip,hrow]
    simp
  cases hout with
  | unevaluated hno heff =>
    refine h.quiet hw₁ heff fun id r hr hst => ?_
    rw [heffect.endpoints] at hr
    exact upserted hput (hok ((NoRules.congr heffect.policies).mp hno) row t hput) id r hr hst
  | kept _ _ _ heff =>
    by_cases hmoved : (Consumer.ipChanged (Consumer.storedIp pg event w) row &&
        row.status.enforced)=true
    · rw [if_pos hmoved,heffect.endpoints,← EndpointTable.setStatus_self hput'.self] at heff
      exact h.decided hw₁ heff hrow (others hput') (hnames _ _) (hsent row.status _)
    · rw [if_neg hmoved] at heff
      refine h.quiet hw₁ heff fun id r hr hst => ?_
      rw [heffect.endpoints] at hr
      by_cases hid : id=row.id
      · subst hid
        obtain rfl := Option.some.inj (hput'.self.symm.trans hr)
        have hip : Consumer.ipChanged (Consumer.storedIp pg event w) row=false := by
          simpa [hst] using hmoved
        exact upserted hput (unmoved hput hip) _ row hr hst
      · rw [← others hput' id hid]
        exact EndpointTable.column_eq_some.mpr ⟨r,hr,rfl⟩
  | changed _ _ _ _ heff =>
    rw [heffect.endpoints] at heff
    exact h.decided hw₁ heff hrow (others hput') (hnames _ _) (hsent _ _)

theorem reported {report : PostureReport} (h : AllAnnounced w)
    (hout : PostureHandler.Outcome pg rt report w w') : AllAnnounced w' := by
  have kept (row : EndpointRow) :
      (PostureHandler.reported w row report (PostureHandler.verdict rt report)).column placement=
        w.endpoints.column placement :=
    PostureHandler.column_reported (fun _ => rfl) fun _ => rfl
  cases hout with
  | unknown _ => exact h
  | kept _ _ heff =>
    refine h.quiet rfl heff fun id r hr _ => ?_
    rw [← kept]
    exact EndpointTable.column_eq_some.mpr ⟨r,hr,rfl⟩
  | @changed _ row rules new hfound _ _ _ _ heff =>
    have hrow : w.endpoints.findById row.id=some row := by
      obtain ⟨m,_,hm⟩ := Option.bind_eq_some_iff.mp hfound
      exact (EndpointTable.findByMac_eq_some.mp hm).1
    have hcol : (PostureHandler.reported w row report (PostureHandler.verdict rt report)).column
        placement row.id=some (placement row) := by
      rw [kept]
      exact EndpointTable.column_eq_some.mpr ⟨row,hrow,rfl⟩
    refine h.decided rfl heff hcol (fun id _ => by rw [kept]) ?_ ?_
    · exact List.forall_mem_singleton.mpr rfl
    · intro _
      refine announced_single rfl (.inl rfl) ?_
      intro ip hip
      change row.ipAddress=some ip at hip
      simp [PostureHandler.commandFor,enforcementCommand,hip]

/-- A decision on a device as the table has it. -/
theorem commanded {cmd : EnforcementCommand} (h : AllAnnounced w)
    (hrow : w.endpoints.findById row.id=some row)
    (heffect : Effect w w' (w.endpoints.setStatus row.id new) sessions [cmd])
    (hmac : cmd.macAddress=row.macAddress.text) (hstatus : new.announcedBy cmd)
    (hip : ∀ ip, row.ipAddress=some ip → stripCidr cmd.ipAddress=stripCidr ip) :
    AllAnnounced w' :=
  h.decided rfl heffect (EndpointTable.column_eq_some.mpr ⟨row,hrow,rfl⟩) (fun _ _ => rfl)
    (List.forall_mem_singleton.mpr hmac) fun _ => announced_single hmac hstatus hip

theorem authenticated {resp : AuthResponse} (h : AllAnnounced w)
    (hout : SessionHandler.Outcome pg rt resp w w')
    (hok : (resp.success=false ∨ NoRules pg w) → ∀ row t,
      SessionHandler.lookup pg resp w=.ok none → resp.macAddress.isEmpty=false →
      w.endpoints.upsert pg (SessionHandler.upsertOf resp) w.clock=.ok (row,t) →
      KeepsAddresses w.endpoints row) : AllAnnounced w' := by
  have named (w₁ : World) (row : EndpointRow) :
      (SessionHandler.named w₁ row (resp.username.getD "")).column placement=
        w₁.endpoints.column placement := SessionHandler.column_named fun _ => rfl
  have resolved (hsilent : resp.success=false ∨ NoRules pg w) {row : EndpointRow} {w₁ : World}
      (hres : SessionHandler.Resolved pg resp w row w₁) (id : Uuid) (r : EndpointRow)
      (hr : w₁.endpoints.column placement id=some (placement r)) (hst : r.status.enforced=true) :
      w.endpoints.column placement id=some (placement r) := by
    cases hres with
    | known _ => exact hr
    | registered hunknown hmac hput =>
      obtain ⟨r₁,hr₁,hplace⟩ := EndpointTable.column_eq_some.mp hr
      have hst₁ : r₁.status.enforced=true := by
        simp only [placement,Prod.mk.injEq] at hplace
        rw [hplace.2.1]
        exact hst
      rw [← hplace]
      exact upserted hput (hok hsilent _ _ hunknown hmac hput) id r₁ hr₁ hst₁
  cases hout with
  | unresolved _ => exact h
  | failed hres hfail hendpoints hcommands hpolicies =>
    refine h.quiet hres.same.2.1 ⟨hendpoints,rfl,by simpa using hcommands,hpolicies⟩ ?_
    intro id r hr hst
    exact resolved (.inl hfail) hres id r (EndpointTable.column_eq_some.mpr ⟨r,hr,rfl⟩) hst
  | unevaluated hres _ hno heff =>
    refine h.quiet hres.same.2.1 heff ?_
    intro id r hr hst
    refine resolved (.inr hno) hres id r ?_ hst
    rw [← named]
    exact EndpointTable.column_eq_some.mpr ⟨r,hr,rfl⟩
  | @decided w₁ _ row rules hres _ _ _ heff =>
    have hcol : (SessionHandler.named w₁ row (resp.username.getD "")).column placement row.id=
        some (placement row) := by
      rw [named]
      exact EndpointTable.column_eq_some.mpr ⟨row,hres.stored,rfl⟩
    obtain ⟨hmac,hann⟩ := SessionHandler.commandFor_announces row
      (evaluate rt rules (SessionHandler.context row (resp.username.getD "") resp.groups))
    refine h.decided hres.same.2.1 heff hcol ?_ (List.forall_mem_singleton.mpr hmac) ?_
    · intro id hid
      rw [named]
      cases hres with
      | known _ => rfl
      | registered _ _ hput =>
        exact others (EndpointTable.upsert_put hput) id hid
    · intro _
      refine announced_single hmac hann ?_
      intro ip hip
      change row.ipAddress=some ip at hip
      simp [SessionHandler.commandFor,enforcementCommand,hip]

theorem administered {id : Uuid} {action : AdminAction} (h : AllAnnounced w) :
    AllAnnounced (w.handle pg (action.handler id)) := by
  rcases AdminAction.handler_outcome pg id action w with ⟨_,hsame⟩ | ⟨row,hrow,heffect⟩
  · rw [hsame]
    exact h
  · obtain rfl := EndpointTable.findById_id hrow
    refine h.commanded hrow heffect rfl (.inl rfl) ?_
    intro ip hip
    simp [Endpoints.commandFor,enforcementCommand,hip]

theorem applied {ep : EndpointRow} (h : AllAnnounced w)
    (hep : w.endpoints.findById ep.id=some ep) : AllAnnounced (Evaluate.applied w ep new) := by
  refine h.commanded hep ⟨rfl,rfl,rfl,rfl⟩ rfl (.inl rfl) ?_
  intro ip hip
  simp [Evaluate.commandFor,enforcementCommand,hip]

/-- The ARP sync sends a command with the address that it stores. -/
theorem moved {ip : Ipv4Addr} (h : AllAnnounced w)
    (hrow : w.endpoints.findByMac row.macAddress=some row) :
    AllAnnounced (Background.moved w row ip) := by
  obtain ⟨hfind,_⟩ := EndpointTable.findByMac_eq_some.mp hrow
  have heffect : Effect w (Background.moved w row ip)
      (w.endpoints.updateIp row.macAddress (ip.text++"/32") w.clock) w.sessions
      (Background.commandsFor row ip) := ⟨rfl,rfl,rfl,rfl⟩
  refine h.effect rfl heffect ?_
  intro id r hr hst
  rw [EndpointTable.findById_updateIp] at hr
  obtain ⟨r₀,hr₀,hnew⟩ := Option.map_eq_some_iff.mp hr
  by_cases hmac : r₀.macAddress=row.macAddress
  · have hid := EndpointTable.mac_unique hr₀ hfind hmac
    subst hid
    obtain rfl := Option.some.inj (hr₀.symm.trans hfind)
    rw [if_pos (by simp)] at hnew
    subst hnew
    have hst₀ : r₀.status.enforced=true := hst
    obtain ⟨cmd,hcmd⟩ := Background.commandsFor_enforced ip hst₀
    obtain ⟨hnamed,hstatus,hip⟩ := Background.mem_commandsFor (hcmd ▸ List.mem_singleton_self cmd)
    rw [hcmd]
    refine .inl (announced_single hnamed hstatus ?_)
    intro ip' hip'
    obtain rfl := Option.some.inj hip'
    rw [hip,stripCidr_text,stripCidr_shown]
  · rw [if_neg (by simpa using hmac)] at hnew
    subst hnew
    refine .inr ⟨?_,EndpointTable.column_eq_some.mpr ⟨r₀,hr₀,rfl⟩⟩
    intro cmd hcmd he
    exact hmac (MacAddr.text_injective (he.symm.trans (Background.mem_commandsFor hcmd).1))

theorem registered {remoteIp : Option String} {req : AgentService.RegisterRequest}
    (h : AllAnnounced w) (hout : AgentService.Outcome pg remoteIp req w w')
    (hmoved : ∀ row t,
      w.endpoints.upsertByAgentId pg (AgentService.upsertOf remoteIp req) w.clock=.ok (some row,t) →
      KeepsAddresses w.endpoints row)
    (hupserted : (∀ row t,
        w.endpoints.upsertByAgentId pg (AgentService.upsertOf remoteIp req) w.clock≠
          .ok (some row,t)) → ∀ row t now,
      w.endpoints.upsert pg (AgentService.upsertOf remoteIp req) now=.ok (row,t) →
      KeepsAddresses w.endpoints row) : AllAnnounced w' := by
  cases hout with
  | refused heff =>
    exact h.quiet rfl heff fun id r hr _ => EndpointTable.column_eq_some.mpr ⟨r,hr,rfl⟩
  | upserted hunmoved hput heff =>
    exact h.quiet rfl heff fun id r hr hst =>
      upserted hput (hupserted hunmoved _ _ _ hput) id r hr hst
  | moved hput heff =>
    refine h.quiet rfl heff fun id r hr hst => ?_
    have hkeeps := hmoved _ _ hput
    rcases EndpointTable.upsertByAgentId_ok hput with ⟨hnone,_⟩ | ⟨_,mac,ip,r₀,_,_,hr₀,_,hrow,hput'⟩
    · cases hnone
    obtain rfl := Option.some.inj hrow
    have hfind := EndpointTable.findById_eq_some.mpr ⟨hr₀,rfl⟩
    by_cases hid : id=r₀.id
    · subst hid
      obtain rfl := Option.some.inj (hput'.self.symm.trans hr)
      obtain ⟨hmac,hip⟩ := hkeeps r₀ hfind hst
      refine EndpointTable.column_eq_some.mpr ⟨r₀,hfind,?_⟩
      rw [placement,← hmac,← hip]
      rfl
    · rw [hput'.other hid] at hr
      exact EndpointTable.column_eq_some.mpr ⟨r,hr,rfl⟩

/-- A write to columns of no command. -/
theorem noted {t : EndpointTable} (h : AllAnnounced w) (heffect : Effect w w' t w.sessions [])
    (ht : t.column placement=w.endpoints.column placement) : AllAnnounced w' := by
  refine h.quiet rfl heffect fun id r hr _ => ?_
  rw [← ht]
  exact EndpointTable.column_eq_some.mpr ⟨r,hr,rfl⟩

theorem step {s : Platform} {a : Step} (h : AllAnnounced s.world) (hok : Republishes pg s a) :
    AllAnnounced (s.step pg rt a).world := by
  cases a with
  | detected event => exact h.detected hok
  | auth resp =>
    exact h.authenticated (SessionHandler.processAuthResponse_outcome pg rt resp s.world) hok
  | posture report =>
    exact h.reported (PostureHandler.processPosture_outcome pg rt report s.world)
  | admin id action => exact h.administered
  | assignPolicy id policyId =>
    rcases Endpoints.assignPolicy_outcome pg id policyId s.world with hsame | heffect
    · exact (congrArg AllAnnounced hsame).mpr h
    · exact h.noted heffect (EndpointTable.column_setPolicy fun _ => rfl)
  | setExempt id exempt =>
    rcases Endpoints.setExempt_outcome pg id exempt s.world with hsame | heffect
    · exact (congrArg AllAnnounced hsame).mpr h
    · exact h.noted heffect (EndpointTable.column_setExempt fun _ => rfl)
  | evaluate defaultAction =>
    exact Evaluate.evaluatePolicies_invariant AllAnnounced
      (fun _ _ _ h hep _ _ => h.applied hep) defaultAction s.world h
  | arpSync arpMap gatewayIps now =>
    exact Background.arpSync_invariant AllAnnounced arpMap (gatewayIps.map Ipv4Addr.text) now
      s.pendingIp s.world (fun _ _ _ _ h => h) (fun _ _ _ _ h hrow => h.moved hrow) h
  | register remoteIp req =>
    exact h.registered (AgentService.register_outcome pg remoteIp req s.world) hok.1 hok.2

end AllAnnounced

/-- In every run whose steps all publish as `Republishes` says, the last command for each denied
or quarantined device has the action of its status and its address. -/
theorem enforced_announced {pg : Postgres} {rt : Runtime} {policies : List PolicyRow}
    {steps : List Step}
    (hok : Guarded (Platform.step pg rt) (Republishes pg) (Platform.initial policies) steps)
    (id : Uuid) (row : EndpointRow)
    (hrow : (runs (Platform.step pg rt) (Platform.initial policies) steps).world.endpoints.findById
      id=some row) (hst : row.status.enforced=true) :
    Announced (runs (Platform.step pg rt) (Platform.initial policies) steps).world.commands row := by
  have hstart : AllAnnounced (Platform.initial policies).world := by
    intro id row hrow
    cases hrow
  exact hok.invariant (fun s => AllAnnounced s.world) (fun _ _ h hok => h.step hok) hstart id row
    hrow hst

def quarantinedAgent : AgentService.RegisterRequest :=
  ⟨"agent-1","laptop","linux","6.1","aa:bb:cc:dd:ee:01"⟩

/-- An administrator quarantines a device, and two cycles of the ARP sync find it elsewhere. -/
def quarantinedThenMoved : List Step :=
  [.detected firstSighting,.admin 1 .quarantine,
    .arpSync [("aa:bb:cc:dd:ee:01",⟨10,0,0,9⟩)] [] 0,
    .arpSync [("aa:bb:cc:dd:ee:01",⟨10,0,0,9⟩)] [] 30]

theorem enforced_announced_run :
    ∃ row, (runs (Platform.step Postgres.plain Runtime.ascii) (Platform.initial [])
        quarantinedThenMoved).world.endpoints.findById 1=some row ∧
      Announced (runs (Platform.step Postgres.plain Runtime.ascii) (Platform.initial [])
        quarantinedThenMoved).world.commands row := by
  have hok : Guarded (Platform.step Postgres.plain Runtime.ascii) (Republishes Postgres.plain)
      (Platform.initial []) quarantinedThenMoved := by
    simp only [quarantinedThenMoved,Guarded,Republishes,and_true]
    intro _ row t _ r hr
    cases hr
  have hst : ((runs (Platform.step Postgres.plain Runtime.ascii) (Platform.initial [])
      quarantinedThenMoved).world.endpoints.findById 1).map (·.status.enforced)=some true := by
    decide +kernel
  obtain ⟨row,hrow,henforced⟩ := Option.map_eq_some_iff.mp hst
  exact ⟨row,hrow,enforced_announced hok 1 row hrow henforced⟩

/-- The agent of a quarantined device registers from another address: the row has the new address
and the last command the old one. -/
theorem registration_unannounced :
    let step := Platform.step Postgres.plain Runtime.ascii
    let s := runs step (Platform.initial [catchAll .quarantine])
      [.detected firstSighting,.register (some "10.0.0.9") quarantinedAgent]
    s.world.endpoints.column (fun r => (r.status,r.ipAddress)) 1=
        some (.quarantined,some "10.0.0.9/32") ∧
      lastWrite naming "aa:bb:cc:dd:ee:01" s.world.commands=
        some (enforcementCommand "aa:bb:cc:dd:ee:01" "10.0.0.7" "quarantine" (some 99)) := by
  decide +kernel

end NacPlatform
