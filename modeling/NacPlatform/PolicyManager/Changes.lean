import NacPlatform.PolicyManager.Announced
import Mathlib.Logic.Relation

namespace NacPlatform

/-! What a step can do to hardware addresses and statuses, and what it sends about them. -/

def station (r : EndpointRow) : MacAddr × Status := (r.macAddress,r.status)

/-- One change of the tables with the commands for it. The statuses that bind are those whose
devices the enforcement service has to know. -/
inductive Change (binds : Status → Bool) (w w' : World) : Prop
  /-- Rows are written, but no device comes to have a status that binds or moves while it has. -/
  | stored (rows : ∀ id p, w'.endpoints.column station id=some p → binds p.2=true →
      w.endpoints.column station id=some p) (commands : w'.commands=w.commands)
  /-- A decision about one device, and the commands for it. -/
  | decided {id : Uuid} {mac : MacAddr} {old new : Status} {sent : List EnforcementCommand}
      (was : w.endpoints.column station id=some (mac,old))
      (endpoints : w'.endpoints.column station=
        Function.update (w.endpoints.column station) id (some (mac,new)))
      (commands : w'.commands=w.commands++sent)
      (announced : ∀ cmd ∈ sent, cmd.macAddress=mac.text ∧ new.announcedBy cmd)
      (told : binds new=true → new=old ∨ sent≠[])

def Changes (binds : Status → Bool) : World → World → Prop :=
  Relation.ReflTransGen (Change binds)

/-- A settled status is one that a decision has led to. -/
def Status.settled (s : Status) : Bool := s != .pending

/-- What every change keeps, a sequence of changes keeps. -/
theorem Changes.invariant {binds : Status → Bool} {I : World → Prop}
    (hI : ∀ w w', I w → Change binds w w' → I w') {w w' : World} (h : Changes binds w w')
    (hw : I w) : I w' := by
  induction h with
  | refl => exact hw
  | tail _ hchange ih => exact hI _ _ ih hchange

section Station

variable {t : EndpointTable} {w w' : World} {binds : Status → Bool}

theorem column_station_setStatus {id : Uuid} {mac : MacAddr} {old : Status} (new : Status)
    (h : t.column station id=some (mac,old)) :
    (t.setStatus id new).column station=
      Function.update (t.column station) id (some (mac,new)) := by
  funext i
  by_cases hi : i=id
  · subst hi
    obtain ⟨r,hr,hs⟩ := EndpointTable.column_eq_some.mp h
    rw [Function.update_self,EndpointTable.column,EndpointTable.findById_setStatus,hr]
    have hmac : r.macAddress=mac := congrArg Prod.fst hs
    simp [station,hmac,EndpointTable.findById_id hr]
  · rw [Function.update_of_ne hi,EndpointTable.column_setStatus hi]

theorem station_unique {i j : Uuid} {mac : MacAddr} {st st' : Status}
    (hi : t.column station i=some (mac,st)) (hj : t.column station j=some (mac,st')) : i=j := by
  obtain ⟨r,hr,hs⟩ := EndpointTable.column_eq_some.mp hi
  obtain ⟨r',hr',hs'⟩ := EndpointTable.column_eq_some.mp hj
  exact EndpointTable.mac_unique hr hr'
    ((congrArg Prod.fst hs).trans (congrArg Prod.fst hs').symm)

theorem column_station {r : EndpointRow} (h : t.findById r.id=some r) :
    t.column station r.id=some (r.macAddress,r.status) :=
  EndpointTable.column_eq_some.mpr ⟨r,h,rfl⟩

theorem Changes.one (h : Change binds w w') : Changes binds w w' := Relation.ReflTransGen.single h

theorem Changes.trans {w₁ : World} (h : Changes binds w w₁) (h' : Changes binds w₁ w') :
    Changes binds w w' :=
  Relation.ReflTransGen.trans h h'

/-- No hardware address and no status changes. -/
theorem Changes.noted (hcolumn : w'.endpoints.column station=w.endpoints.column station)
    (hcommands : w'.commands=w.commands) : Changes binds w w' := by
  refine .one (.stored ?_ hcommands)
  intro id p hp _
  rw [← hcolumn]
  exact hp

/-- A row put in place of one with the same address and status, or a row of a new device. -/
theorem Changes.put {row : EndpointRow} (hput : EndpointTable.Put w.endpoints w'.endpoints row)
    (hrow : binds row.status=true →
      w.endpoints.column station row.id=some (row.macAddress,row.status))
    (hcommands : w'.commands=w.commands) : Changes binds w w' := by
  refine .one (.stored ?_ hcommands)
  intro id p hp hst
  obtain ⟨r,hr,rfl⟩ := EndpointTable.column_eq_some.mp hp
  by_cases hid : id=row.id
  · subst hid
    obtain rfl := Option.some.inj (hput.self.symm.trans hr)
    exact hrow hst
  · rw [hput.other hid] at hr
    exact EndpointTable.column_eq_some.mpr ⟨r,hr,rfl⟩

theorem Changes.upserted {pg : Postgres} {ep : UpsertEndpoint} {now : Timestamp}
    {row : EndpointRow} (hpending : binds .pending=false)
    (hput : w.endpoints.upsert pg ep now=.ok (row,w'.endpoints))
    (hcommands : w'.commands=w.commands) : Changes binds w w' := by
  obtain ⟨mac,ip,-,hput,hcase⟩ := EndpointTable.upsert_ok hput
  refine .put hput ?_ hcommands
  intro hst
  rcases hcase with ⟨r,hr,rfl⟩|⟨-,rfl⟩
  · exact column_station (r := r) (EndpointTable.findByMac_eq_some.mp hr).1
  · have hnew : binds .pending=true := hst
    rw [hpending] at hnew
    cases hnew

/-- A decision about a device on the table as it was before. -/
theorem Changes.decided {w₁ : World} {t : EndpointTable} {sessions : SessionTable}
    {sent : List EnforcementCommand} {row : EndpointRow} {new : Status}
    (heffect : Effect w₁ w' (t.setStatus row.id new) sessions sent)
    (hcommands : w₁.commands=w.commands)
    (hcolumn : t.column station=w.endpoints.column station)
    (hrow : w.endpoints.column station row.id=some (row.macAddress,row.status))
    (hsent : ∀ cmd ∈ sent, cmd.macAddress=row.macAddress.text ∧ new.announcedBy cmd)
    (htold : binds new=true → new=row.status ∨ sent≠[]) : Changes binds w w' := by
  refine .one (.decided hrow ?_ ?_ hsent htold)
  · rw [heffect.endpoints,column_station_setStatus new (hcolumn ▸ hrow),hcolumn]
  · rw [heffect.commands,hcommands]

end Station

/-- No registration gives a device with a status that binds another hardware address. -/
def StaysPut (binds : Status → Bool) (pg : Postgres) (s : Platform) : Step → Prop
  | .register remoteIp req => ∀ row t,
      s.world.endpoints.upsertByAgentId pg (AgentService.upsertOf remoteIp req) s.world.clock=
        .ok (some row,t) →
      ∀ r, s.world.endpoints.findById row.id=some r → binds r.status=true →
        row.macAddress=r.macAddress
  | _ => True

section Steps

variable {pg : Postgres} {rt : Runtime} {w w' : World} {binds : Status → Bool}
  (hpending : binds .pending=false)
include hpending

theorem Consumer.commandFor_ne_nil {row : EndpointRow} {status : Status} {d : PolicyDecision}
    (h : binds status=true) : Consumer.commandFor row status d≠[] := by
  cases status with
  | denied => exact List.cons_ne_nil _ _
  | quarantined => exact List.cons_ne_nil _ _
  | allowed => exact List.cons_ne_nil _ _
  | pending =>
    rw [hpending] at h
    cases h

theorem Consumer.processEvent_changes (event : EndpointDetectedEvent) :
    Changes binds w (w.handle pg (processEvent rt event)) := by
  rcases processEvent_outcome pg rt event w with ⟨-,hsame⟩|⟨row,t,w₁,hput,hout,heffect⟩
  · rw [hsame]
    exact .refl
  have hrow : w₁.endpoints.column station row.id=some (row.macAddress,row.status) := by
    rw [heffect.endpoints]
    exact column_station (EndpointTable.upsert_put hput).self
  have announced (status : Status) (d : PolicyDecision) : ∀ cmd ∈ commandFor row status d,
      cmd.macAddress=row.macAddress.text ∧ status.announcedBy cmd := by
    intro cmd hcmd
    obtain ⟨hmac,haction,-⟩ := mem_commandFor hcmd
    exact ⟨hmac,.inr haction⟩
  have hupserted : Changes binds w w₁ :=
    .upserted hpending (heffect.endpoints ▸ hput) (by rw [heffect.commands,List.append_nil])
  refine hupserted.trans ?_
  cases hout with
  | unevaluated _ heff =>
    exact .noted (by rw [heff.endpoints]) (by rw [heff.commands,List.append_nil])
  | kept _ _ _ heff =>
    by_cases hmoved : (ipChanged (storedIp pg event w) row && row.status.enforced)=true
    · rw [if_pos hmoved] at heff
      have hstored : w₁.endpoints.findById row.id=some row := by
        rw [heffect.endpoints]
        exact (EndpointTable.upsert_put hput).self
      rw [← EndpointTable.setStatus_self hstored] at heff
      exact .decided heff rfl rfl hrow (announced row.status _) fun _ => .inl rfl
    · rw [if_neg hmoved] at heff
      exact .noted (by rw [heff.endpoints]) (by rw [heff.commands,List.append_nil])
  | changed _ _ _ _ heff =>
    exact .decided heff rfl rfl hrow (announced _ _) fun h =>
      .inr (commandFor_ne_nil hpending h)

omit hpending in
theorem PostureHandler.outcome_changes {report : PostureReport}
    (hout : Outcome pg rt report w w') : Changes binds w w' := by
  have kept (row : EndpointRow) :
      (reported w row report (verdict rt report)).column station=w.endpoints.column station :=
    column_reported (fun _ => rfl) fun _ => rfl
  cases hout with
  | unknown _ => exact .refl
  | kept _ _ heff =>
    exact .noted (by rw [heff.endpoints,kept]) (by rw [heff.commands,List.append_nil])
  | @changed _ row rules new hfound _ _ _ _ heff =>
    have hrow : w.endpoints.column station row.id=some (row.macAddress,row.status) := by
      obtain ⟨m,_,hm⟩ := Option.bind_eq_some_iff.mp hfound
      exact column_station (EndpointTable.findByMac_eq_some.mp hm).1
    exact .decided heff rfl (kept row) hrow (List.forall_mem_singleton.mpr ⟨rfl,.inl rfl⟩)
      fun _ => .inr (List.cons_ne_nil _ _)

theorem SessionHandler.outcome_changes {resp : AuthResponse}
    (hout : Outcome pg rt resp w w') : Changes binds w w' := by
  have resolved {row : EndpointRow} {w₁ : World} (hres : Resolved pg resp w row w₁) :
      Changes binds w w₁ := by
    cases hres with
    | known _ => exact .refl
    | registered _ _ hput => exact .upserted hpending hput rfl
  have named (w₁ : World) (row : EndpointRow) :
      (named w₁ row (resp.username.getD "")).column station=w₁.endpoints.column station :=
    column_named fun _ => rfl
  cases hout with
  | unresolved _ => exact .refl
  | failed hres _ hendpoints hcommands _ =>
    exact (resolved hres).trans (.noted (by rw [hendpoints]) hcommands)
  | unevaluated hres _ _ heff =>
    refine (resolved hres).trans (.noted ?_ ?_)
    · rw [heff.endpoints,named]
    · rw [heff.commands,List.append_nil]
  | @decided w₁ _ row rules hres _ _ _ heff =>
    refine (resolved hres).trans (.decided heff rfl (named w₁ row) (column_station hres.stored) ?_
      fun _ => .inr (List.cons_ne_nil _ _))
    exact List.forall_mem_singleton.mpr (commandFor_announces row _)

omit hpending in
theorem AdminAction.handler_changes (id : Uuid) (action : AdminAction) :
    Changes binds w (w.handle pg (action.handler id)) := by
  rcases handler_outcome pg id action w with ⟨-,hsame⟩|⟨row,hrow,heffect⟩
  · rw [hsame]
    exact .refl
  · obtain rfl := EndpointTable.findById_id hrow
    exact .decided heffect rfl rfl (column_station hrow)
      (List.forall_mem_singleton.mpr ⟨rfl,.inl rfl⟩) fun _ => .inr (List.cons_ne_nil _ _)

omit hpending in
theorem Evaluate.applied_changes {ep : EndpointRow} {new : Status}
    (hep : w.endpoints.findById ep.id=some ep) : Changes binds w (applied w ep new) := by
  have heffect : Effect w (applied w ep new) (w.endpoints.setStatus ep.id new) w.sessions
      [commandFor ep new] := ⟨rfl,rfl,rfl,rfl⟩
  exact .decided heffect rfl rfl (column_station hep)
    (List.forall_mem_singleton.mpr ⟨rfl,.inl rfl⟩) fun _ => .inr (List.cons_ne_nil _ _)

omit hpending in
/-- The ARP sync tells again what an enforced device is, at its new address. -/
theorem Background.moved_changes {row : EndpointRow} (ip : Ipv4Addr)
    (hrow : w.endpoints.findByMac row.macAddress=some row) : Changes binds w (moved w row ip) := by
  have hfind := (EndpointTable.findByMac_eq_some.mp hrow).1
  have hcolumn : (w.endpoints.updateIp row.macAddress (ip.text++"/32") w.clock).column station=
      w.endpoints.column station := EndpointTable.column_updateIp fun _ => rfl
  have hstays : (moved w row ip).endpoints.column station=
      Function.update (w.endpoints.column station) row.id (some (row.macAddress,row.status)) := by
    show (w.endpoints.updateIp row.macAddress (ip.text++"/32") w.clock).column station=_
    rw [hcolumn,← column_station hfind,Function.update_eq_self]
  refine .one (.decided (column_station hfind) hstays rfl ?_ fun _ => .inl rfl)
  intro cmd hcmd
  obtain ⟨hmac,hann,-⟩ := mem_commandsFor hcmd
  exact ⟨hmac,hann⟩

theorem AgentService.outcome_changes {remoteIp : Option String} {req : RegisterRequest}
    (hout : Outcome pg remoteIp req w w')
    (hstays : ∀ row t,
      w.endpoints.upsertByAgentId pg (upsertOf remoteIp req) w.clock=.ok (some row,t) →
      ∀ r, w.endpoints.findById row.id=some r → binds r.status=true →
        row.macAddress=r.macAddress) : Changes binds w w' := by
  cases hout with
  | refused heff => exact .noted (by rw [heff.endpoints]) (by rw [heff.commands,List.append_nil])
  | upserted _ hput heff =>
    exact .upserted hpending (heff.endpoints ▸ hput) (by rw [heff.commands,List.append_nil])
  | moved hput heff =>
    have hkeeps := hstays _ _ hput
    rcases EndpointTable.upsertByAgentId_ok hput with ⟨hnone,-⟩|⟨_,mac,ip,r,-,-,hr,-,hrow,hput'⟩
    · cases hnone
    obtain rfl := Option.some.inj hrow
    have hfind := EndpointTable.findById_eq_some.mpr ⟨hr,rfl⟩
    refine .put (heff.endpoints ▸ hput') ?_ (by rw [heff.commands,List.append_nil])
    intro hst
    rw [hkeeps r hfind hst]
    exact column_station hfind

/-- Every step comes to a sequence of changes. -/
theorem Platform.step_changes {s : Platform} {a : Step} (hok : StaysPut binds pg s a) :
    Changes binds s.world (s.step pg rt a).world := by
  cases a with
  | detected event => exact Consumer.processEvent_changes hpending event
  | auth resp =>
    exact SessionHandler.outcome_changes hpending
      (SessionHandler.processAuthResponse_outcome pg rt resp s.world)
  | posture report =>
    exact PostureHandler.outcome_changes
      (PostureHandler.processPosture_outcome pg rt report s.world)
  | admin id action => exact AdminAction.handler_changes id action
  | assignPolicy id policyId =>
    rcases Endpoints.assignPolicy_outcome pg id policyId s.world with hsame|heff
    · exact (congrArg (Changes binds s.world) hsame).mpr .refl
    · refine .noted ?_ (heff.commands.trans (List.append_nil _))
      exact heff.endpoints ▸ EndpointTable.column_setPolicy fun _ => rfl
  | setExempt id exempt =>
    rcases Endpoints.setExempt_outcome pg id exempt s.world with hsame|heff
    · exact (congrArg (Changes binds s.world) hsame).mpr .refl
    · refine .noted ?_ (heff.commands.trans (List.append_nil _))
      exact heff.endpoints ▸ EndpointTable.column_setExempt fun _ => rfl
  | evaluate defaultAction =>
    exact Evaluate.evaluatePolicies_invariant (Changes binds s.world)
      (fun _ _ _ h hep _ _ => h.trans (Evaluate.applied_changes hep)) defaultAction s.world .refl
  | arpSync arpMap gatewayIps now =>
    exact Background.arpSync_invariant (Changes binds s.world) arpMap (gatewayIps.map Ipv4Addr.text) now
      s.pendingIp s.world (fun _ _ _ _ h => h.trans (.noted rfl rfl))
      (fun _ _ ip _ h hrow => h.trans (Background.moved_changes ip hrow)) .refl
  | register remoteIp req =>
    exact AgentService.outcome_changes hpending
      (AgentService.register_outcome pg remoteIp req s.world) hok

end Steps

/-- The hardware address that the commands for IP rules name. -/
def noDevice : MacAddr := ⟨0,0,0,0,0,0⟩

/-- Of each device with a status that binds, the last command that names it announces the status. -/
def Commanded (binds : Status → Bool) (t : EndpointTable) (cmds : List EnforcementCommand) :
    Prop :=
  ∀ id p, t.column station id=some p → binds p.2=true → p.1≠noDevice →
    ∃ cmd, lastWrite naming p.1.text cmds=some cmd ∧ p.2.announcedBy cmd

section Sent

variable {binds : Status → Bool} {t : EndpointTable} {w w' : World}
  {cmds sent : List EnforcementCommand}

theorem lastWrite_unnamed {mac : String} (h : ∀ cmd ∈ sent, cmd.macAddress≠mac) :
    lastWrite naming mac sent=none := by
  apply lastWrite_eq_none.mpr
  intro cmd hcmd
  rw [naming,if_neg (h cmd hcmd)]

/-- Some command names the device, so that one is the last to do so. -/
theorem lastWrite_named {mac : String} {cmd : EnforcementCommand} (hcmd : cmd ∈ sent)
    (hmac : cmd.macAddress=mac) :
    ∃ last ∈ sent, lastWrite naming mac sent=some last ∧ last.macAddress=mac := by
  cases hlast : lastWrite naming mac sent with
  | none =>
    have hnone := lastWrite_eq_none.mp hlast cmd hcmd
    rw [naming,if_pos hmac] at hnone
    cases hnone
  | some last =>
    obtain ⟨pre,c,post,rfl,hc,-⟩ := lastWrite_eq_some.mp hlast
    obtain ⟨hname,hsame⟩ := Option.ite_none_right_eq_some.mp hc
    obtain rfl := Option.some.inj hsame
    exact ⟨c,by simp,rfl,hname⟩

/-- Commands about other devices. -/
theorem Commanded.append (h : Commanded binds t cmds)
    (hother : ∀ id p, t.column station id=some p → p.1≠noDevice →
      ∀ cmd ∈ sent, cmd.macAddress≠p.1.text) : Commanded binds t (cmds++sent) := by
  intro id p hp hst hdevice
  rw [lastWrite_append,lastWrite_unnamed (hother id p hp hdevice),Option.none_or]
  exact h id p hp hst hdevice

theorem Change.commanded (hchange : Change binds w w') (h : Commanded binds w.endpoints cmds) :
    ∃ sent, w'.commands=w.commands++sent ∧
      (∀ cmd ∈ sent, ∃ m : MacAddr, cmd.macAddress=m.text) ∧
      Commanded binds w'.endpoints (cmds++sent) := by
  cases hchange with
  | stored hrows hcommands =>
    refine ⟨[],by rw [hcommands,List.append_nil],by simp,?_⟩
    intro id p hp hst
    rw [List.append_nil]
    exact h id p (hrows id p hp hst) hst
  | @decided id₀ mac old new sent hwas hendpoints hcommands hsent htold =>
    refine ⟨sent,hcommands,fun cmd hcmd => ⟨mac,(hsent cmd hcmd).1⟩,?_⟩
    intro id p hp hst hdevice
    rw [hendpoints] at hp
    by_cases hid : id=id₀
    · subst hid
      rw [Function.update_self] at hp
      obtain rfl := Option.some.inj hp
      rcases List.eq_nil_or_concat' sent with rfl|⟨before,cmd,rfl⟩
      · obtain rfl : new=old := (htold hst).resolve_right (not_not_intro rfl)
        rw [List.append_nil]
        exact h id _ hwas hst hdevice
      · obtain ⟨hmac,hann⟩ := hsent cmd (by simp)
        refine ⟨cmd,?_,hann⟩
        rw [← List.append_assoc,lastWrite_concat,naming,if_pos hmac,Option.some_or]
    · rw [Function.update_of_ne hid] at hp
      rw [lastWrite_append,lastWrite_unnamed,Option.none_or]
      · exact h id p hp hst hdevice
      · intro cmd hcmd hname
        have hmac : p.1=mac := MacAddr.text_injective (hname.symm.trans (hsent cmd hcmd).1)
        exact hid (station_unique hp (hmac ▸ hwas))

theorem Changes.commanded (hchanges : Changes binds w w') (h : Commanded binds w.endpoints cmds) :
    ∃ sent, w'.commands=w.commands++sent ∧
      (∀ cmd ∈ sent, ∃ m : MacAddr, cmd.macAddress=m.text) ∧
      Commanded binds w'.endpoints (cmds++sent) := by
  refine hchanges.invariant (I := fun w' => ∃ sent, w'.commands=w.commands++sent ∧
    (∀ cmd ∈ sent, ∃ m : MacAddr, cmd.macAddress=m.text) ∧
    Commanded binds w'.endpoints (cmds++sent)) ?_ ⟨[],by simp,by simp,by simpa using h⟩
  intro w₁ w₂ given hchange
  obtain ⟨before,hbefore,hnamed,hcommanded⟩ := given
  obtain ⟨sent,hsent,hnew,hall⟩ := hchange.commanded hcommanded
  refine ⟨before++sent,by rw [hsent,hbefore,List.append_assoc],?_,by
    rwa [← List.append_assoc]⟩
  intro cmd hcmd
  rcases List.mem_append.mp hcmd with hcmd|hcmd
  · exact hnamed cmd hcmd
  · exact hnew cmd hcmd

end Sent

end NacPlatform
