import NacPlatform.PolicyManager.Outcomes
import NacPlatform.Store.Latest

namespace NacPlatform

/-- In every reachable state the sessions have been opened one after another. -/
theorem Platform.reachable_timed {pg : Postgres} {rt : Runtime} (policies : List PolicyRow)
    (steps : List Step) :
    (runs (Platform.step pg rt) (Platform.initial policies) steps).world.Timed := by
  refine runs_invariant (fun s : Platform => s.world.Timed) ?_ steps (World.Timed.initial policies)
  intro s a h
  cases a <;> exact h.run _

namespace Consumer

/-! What an `endpoint.detected` event does to the row of one device. -/

variable {pg : Postgres} {rt : Runtime} {w : World} {event : EndpointDetectedEvent}
  {row r : EndpointRow} {t : EndpointTable} {id : Uuid}

/-- The status that an event leaves on a row: the one it has, or another one of the policies. -/
inductive Verdict (pg : Postgres) (rt : Runtime) (w : World) (row : EndpointRow) : Status → Prop where
  | kept (reason : NoRules pg w ∨ loggedIn pg w row=true ∨ ∃ rules, w.rules pg=.ok rules ∧
      rules≠[] ∧ row.status=decisionToStatus (evaluate rt rules (context row))) :
      Verdict pg rt w row row.status
  | changed {rules : List PolicyRule} (loaded : w.rules pg=.ok rules) (some : rules≠[])
      (open_ : loggedIn pg w row=false)
      (differs : row.status≠decisionToStatus (evaluate rt rules (context row))) :
      Verdict pg rt w row (decisionToStatus (evaluate rt rules (context row)))

theorem Verdict.of_loggedIn {st : Status} (h : Verdict pg rt w row st)
    (hin : loggedIn pg w row=true) : st=row.status := by
  cases h with
  | kept _ => rfl
  | changed _ _ hopen _ =>
    rw [hin] at hopen
    cases hopen

/-- Policies that confirm the status of a row leave it. -/
theorem Verdict.of_confirmed {st : Status} (h : Verdict pg rt w row st)
    (hsame : ∀ rules, w.rules pg=.ok rules → rules≠[] →
      decisionToStatus (evaluate rt rules (context row))=row.status) : st=row.status := by
  cases h with
  | kept _ => rfl
  | changed hloaded hsome _ _ => exact hsame _ hloaded hsome

/-- Policies that decide something else for a device that is not logged in change it. -/
theorem Verdict.of_refuted {st : Status} {rules : List PolicyRule} (h : Verdict pg rt w row st)
    (hloaded : w.rules pg=.ok rules) (hsome : rules≠[]) (hopen : loggedIn pg w row=false) :
    st=decisionToStatus (evaluate rt rules (context row)) := by
  cases h with
  | kept hreason =>
    rcases hreason with hno | hin | ⟨rules',hloaded',_,hsame⟩
    · exact absurd (hno rules hloaded) hsome
    · rw [hin] at hopen
      cases hopen
    · rw [hloaded] at hloaded'
      obtain rfl := Except.ok.inj hloaded'
      exact hsame
  | changed hloaded' _ _ _ =>
    rw [hloaded] at hloaded'
    obtain rfl := Except.ok.inj hloaded'
    rfl

theorem loggedIn_congr {w' : World} (h : w'.sessions=w.sessions) :
    loggedIn pg w' row=loggedIn pg w row := by
  rw [loggedIn,loggedIn,h]

/-- The device of the event: its row as the upsert leaves it, with the status of the verdict. A
session is opened only when that status is another one. -/
theorem processEvent_self (rt : Runtime)
    (hput : w.endpoints.upsert pg (upsertOf event) w.clock=.ok (row,t)) :
    ∃ st, (w.handle pg (processEvent rt event)).endpoints.findById row.id=
        some { row with status := st } ∧ Verdict pg rt w row st ∧
      ((w.handle pg (processEvent rt event)).sessions=w.sessions ∨ st≠row.status ∧
        ∃ d now, (w.handle pg (processEvent rt event)).sessions=
          w.sessions.create (captivePortalSession row d) now) := by
  rcases processEvent_outcome pg rt event w with ⟨⟨e,he⟩,_⟩ | ⟨row',t',w₁,hput',hout,heffect⟩
  · rw [hput] at he
    cases he
  rw [hput] at hput'
  obtain ⟨rfl,rfl⟩ := Prod.mk.inj (Except.ok.inj hput')
  have hrow : t.findById row.id=some row :=
    (EndpointTable.upsert_put hput).self
  have hrules : w₁.rules pg=w.rules pg := rules_congr heffect.policies
  have hlogin : loggedIn pg w₁ row=loggedIn pg w row := loggedIn_congr heffect.sessions
  have stays {w' : World} {sent : List EnforcementCommand}
      (heff : Effect w₁ w' w₁.endpoints w₁.sessions sent) :
      w'.endpoints.findById row.id=some { row with status := row.status } ∧
        w'.sessions=w.sessions := by
    rw [heff.endpoints,heffect.endpoints]
    exact ⟨hrow,heff.sessions.trans heffect.sessions⟩
  cases hout with
  | unevaluated hno heff =>
    exact ⟨row.status,(stays heff).1,.kept (.inl ((NoRules.congr heffect.policies).mp hno)),
      .inl (stays heff).2⟩
  | kept hloaded hsome hreason heff =>
    refine ⟨row.status,(stays heff).1,.kept (.inr ?_),.inl (stays heff).2⟩
    rcases hreason with hin | hsame
    · exact .inl (hlogin ▸ hin)
    · exact .inr ⟨_,hrules ▸ hloaded,hsome,hsame⟩
  | @changed rules hloaded hsome hopen hdiffers heff =>
    refine ⟨_,?_,.changed (hrules ▸ hloaded) hsome (hlogin ▸ hopen) hdiffers,?_⟩
    · rw [heff.endpoints,heffect.endpoints,EndpointTable.findById_setStatus,hrow]
      simp
    · rw [heff.sessions,sessionsAfter,heffect.sessions]
      split
      · exact .inr ⟨hdiffers.symm,_,_,rfl⟩
      · exact .inl rfl

/-- The row of any other device stays, and so does what is open for it. -/
theorem processEvent_other (hr : w.endpoints.findById id=some r)
    (hother : ∀ row t, w.endpoints.upsert pg (upsertOf event) w.clock=.ok (row,t) → row.id≠id) :
    (w.handle pg (processEvent rt event)).endpoints.findById id=some r := by
  rcases processEvent_outcome pg rt event w with ⟨_,hsame⟩ | ⟨row,t,w₁,hput,hout,heffect⟩
  · rw [hsame]
    exact hr
  have hid : id≠row.id := (hother row t hput).symm
  have ht : w₁.endpoints.findById id=some r := by
    rw [heffect.endpoints,← hr]
    exact (EndpointTable.upsert_put hput).other hid
  cases hout with
  | unevaluated _ heff => rw [heff.endpoints,ht]
  | kept _ _ _ heff => rw [heff.endpoints,ht]
  | changed _ _ _ _ heff =>
    rw [heff.endpoints,EndpointTable.findById_setStatus,EndpointTable.map_findById_other hid,ht]

/-- What is open for a device is not touched by events about others. -/
theorem processEvent_findActive (htimed : w.Timed)
    (hother : ∀ row t, w.endpoints.upsert pg (upsertOf event) w.clock=.ok (row,t) → row.id≠id ∨
      ∀ st, Verdict pg rt w row st → st=row.status) :
    (w.handle pg (processEvent rt event)).sessions.findActiveByEndpoint pg id=
      w.sessions.findActiveByEndpoint pg id := by
  have htimed' : (w.handle pg (processEvent rt event)).Timed := htimed.run _
  cases hput : w.endpoints.upsert pg (upsertOf event) w.clock with
  | error e =>
    rcases processEvent_outcome pg rt event w with ⟨_,hsame⟩ | ⟨row,t,_,hput',_⟩
    · rw [hsame]
    · rw [hput] at hput'
      cases hput'
  | ok res =>
    obtain ⟨row,t⟩ := res
    obtain ⟨st,_,hverdict,hsessions⟩ := processEvent_self rt hput
    rcases hsessions with hsame | ⟨hchanged,d,now,hcreated⟩
    · rw [hsame]
    rcases hother row t hput with hid | hsame
    · apply SessionTable.findActiveByEndpoint_congr htimed.distinct htimed'.distinct
      intro s hopen
      rw [hcreated]
      simp only [SessionTable.create,List.mem_append,List.mem_singleton,or_iff_left_iff_imp]
      intro same
      subst same
      simp [SessionTable.isOpen,SessionTable.created,captivePortalSession,hid] at hopen
    · exact absurd (hsame st hverdict) hchanged

end Consumer

end NacPlatform
