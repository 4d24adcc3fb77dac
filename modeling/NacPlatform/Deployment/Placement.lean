import NacPlatform.Deployment.Delivery

namespace NacPlatform

open Enforcement

namespace Deployment

section Steps

variable {pg : Postgres} {rt : Runtime} {d : Deployment} {binds : Status → Bool} {base : Nat}

theorem parseMac_text (m : MacAddr) : parseMac m.text=some m := MacAddr.ofHexDigits_text m

theorem recalls_forgotten {h : Host} (hstate : h.state=∅) : Recalls h := by
  constructor
  · intro key entry hentry
    rw [hstate,AList.lookup_empty] at hentry
    cases hentry
  · intro key entry hentry
    rw [hstate,AList.lookup_empty] at hentry
    cases hentry

/-- The keys of remembered devices are texts of hardware addresses, so that no device is remembered
under two of them. -/
theorem consistent_of_keys {env : Env} {cmd : EnforcementCommand} {m : MacAddr} {h : Host}
    (hm : cmd.macAddress=m.text)
    (hkeys : ∀ key entry, h.state.lookup key=some entry → ∃ m : MacAddr, key=m.text)
    (hremembered : ∀ action entry, cmd.treatment=some action →
      commandEntry env h.spoofer (received cmd)=none →
      h.state.lookup (stateKey rt cmd)=some entry → entry.action=action) :
    (EnfStep.command env cmd).Consistent rt h := by
  refine ⟨?_,hremembered⟩
  intro key entry hentry hkey hparse
  obtain ⟨m',rfl⟩ := hkeys key entry hentry
  rw [hm,parseMac_text,parseMac_text,Option.some.injEq] at hparse
  refine absurd ?_ hkey
  rw [stateKey,hm,rt.toLowercase_text,hparse]

theorem handle_keys {c : Env × EnforcementCommand} {m : MacAddr} {h : Host} (hok : c.1.MacsOk)
    (hm : c.2.macAddress=m.text)
    (hkeys : ∀ key entry, h.state.lookup key=some entry → ∃ m : MacAddr, key=m.text)
    {key : String} {entry : QuarantineEntry}
    (hentry : (handle rt .nft h c).state.lookup key=some entry) : ∃ m : MacAddr, key=m.text := by
  rw [handle_state rt hok] at hentry
  split at hentry
  · exact hkeys key entry (lookup_erase_eq.mp hentry).2
  · split at hentry
    · rw [lookup_insert_eq] at hentry
      by_cases hkey : key=stateKey rt c.2
      · rw [stateKey,hm,rt.toLowercase_text] at hkey
        exact ⟨m,hkey⟩
      · rw [if_neg hkey] at hentry
        exact hkeys key entry hentry
    · exact hkeys key entry hentry

theorem Recalls.handle {env : Env} {cmd : EnforcementCommand} {m : MacAddr} {h : Host}
    (hr : Recalls h) (henv : env.MacsOk) (hm : cmd.macAddress=m.text)
    (hremembered : ∀ action entry, cmd.treatment=some action →
      commandEntry env h.spoofer (received cmd)=none →
      h.state.lookup (stateKey rt cmd)=some entry → entry.action=action) :
    Recalls (handle rt .nft h (env,cmd)) where
  agree := handle_agree rt (c := (env,cmd)) henv (by rw [hm,parseMac_text])
    (consistent_of_keys hm hr.keys hremembered) hr.agree
  keys _ _ hentry := handle_keys (c := (env,cmd)) henv hm hr.keys hentry

theorem Recalls.reinforce {env : Env} {h : Host} (hr : Recalls h) (henv : env.MacsOk) :
    Recalls (reinforce rt .nft env h) where
  agree := reinforce_agree rt henv hr.agree
  keys key entry hentry := by
    rw [reinforce_eq,reinforceEntries_state] at hentry
    exact hr.keys key entry hentry

theorem managerStarts_publishes (binds : Status → Bool) :
    Publishes binds d (d.step pg rt .managerStarts) [] where
  published := (List.append_nil _).symm
  taken := rfl
  host := rfl
  named := by simp
  commanded cmds h := by rwa [List.append_nil]

theorem Wired.step (h : d.Wired) (a : DeploymentStep) : (d.step pg rt a).Wired := by
  cases a with
  | manage a =>
    obtain ⟨sent,hp⟩ : ∃ sent, Publishes free d (d.step pg rt (.manage a)) sent :=
      manage_publishes rfl (staysPut_free d.platform a)
    exact h.publish hp
  | ipRule call =>
    obtain ⟨sent,hp⟩ : ∃ sent, Publishes free d (d.step pg rt (.ipRule call)) sent :=
      ipRule_publishes call
    exact h.publish hp
  | deliver env =>
    unfold Deployment.step
    cases hnext : d.published[d.taken]? with
    | none => exact h
    | some cmd => exact ⟨h.named,(List.getElem?_eq_some_iff.mp hnext).1⟩
  | tick env => exact ⟨h.named,h.taken⟩
  | managerStarts => exact h.publish (managerStarts_publishes free)
  | reconcile => exact h.publish (reconcile_publishes free)
  | enforcementStarts gateway spoofer => exact ⟨h.named,le_rfl⟩

/-- A step leaves the host alone, or it is one of the enforcement service. -/
theorem Recalls.step (hw : d.Wired) (h : Recalls d.host) {a : DeploymentStep}
    (hok : d.Handled rt a) : Recalls (d.step pg rt a).host := by
  cases a with
  | deliver env =>
    obtain ⟨henv,hremembered⟩ := hok
    unfold Deployment.step
    cases hnext : d.published[d.taken]? with
    | none => exact h
    | some cmd =>
      obtain ⟨m,hm⟩ := hw.named cmd (List.mem_of_getElem? hnext)
      exact h.handle henv hm (hremembered cmd hnext)
  | tick env => exact h.reinforce hok
  | enforcementStarts gateway spoofer =>
    apply recalls_forgotten
    cases gateway <;> rfl
  | _ => exact h

theorem Sound.deliver (h : d.Sound binds base) {env : Env}
    (hok : d.Handled rt (.deliver env)) : (d.step pg rt (.deliver env)).Sound binds base := by
  have hwired : (d.step pg rt (.deliver env)).Wired := h.toWired.step _
  have hrecalls : Recalls (d.step pg rt (.deliver env)).host := h.recalls.step h.toWired hok
  unfold Deployment.step at *
  cases hnext : d.published[d.taken]? with
  | none => exact h
  | some cmd =>
    simp only [hnext] at hwired hrecalls
    refine ⟨hwired,hrecalls,h.begun,h.commanded,?_⟩
    intro m' c hc a
    show (handle rt .nft d.host (env,cmd)).inMacs m'.text a ↔ c.treatment=some a
    obtain ⟨m,hm⟩ := h.named cmd (List.mem_of_getElem? hnext)
    rw [handle_inMacs rt (c := (env,cmd)) hok.1 (by rw [hm,parseMac_text])]
    by_cases hbegun : d.taken<base
    · -- a command from before `base`: none of those since has been handled
      have hzero : d.taken+1-base=0 := by omega
      simp only [hzero,List.take_zero,lastWrite_nil] at hc
      cases hc
    · have hnext' : (d.published.drop base)[d.taken-base]?=some cmd := by
        rw [List.getElem?_drop,show base+(d.taken-base)=d.taken by omega,hnext]
      have htaken : d.taken+1-base=d.taken-base+1 := by omega
      simp only [htaken,List.take_add_one,hnext',Option.toList_some,lastWrite_concat,naming] at hc
      by_cases hmm : m'=m
      · rw [if_pos (by rw [hm,hmm]),Option.some_or] at hc
        obtain rfl := Option.some.inj hc
        rw [if_pos (by rw [hmm])]
      · have hne : m'.text≠m.text := MacAddr.text_inj.not.mpr hmm
        rw [if_neg (by rw [hm]; exact hne.symm),Option.none_or] at hc
        rw [if_neg hne]
        exact h.sets m' c hc a

theorem Sound.tick (h : d.Sound binds base) {env : Env} (hok : env.MacsOk) :
    (d.step pg rt (.tick env)).Sound binds base where
  toWired := h.toWired.step _
  recalls := h.recalls.reinforce hok
  begun := h.begun
  commanded := h.commanded
  sets m cmd hcmd a := by
    show (Enforcement.reinforce rt .nft env d.host).inMacs m.text a ↔ _
    rw [reinforce_inMacs rt hok h.recalls.agree]
    exact h.sets m cmd hcmd a

/-- Where the service has missed nothing, a start of it moves no device. -/
theorem Sound.enforcementStarts (h : d.Sound binds base) {spoofer : Option MacAddr}
    (hdone : d.taken=d.published.length) :
    (d.step pg rt (.enforcementStarts false spoofer)).Sound binds base where
  toWired := h.toWired.step _
  recalls := recalls_forgotten rfl
  begun := h.begun
  commanded := h.commanded
  sets m cmd hcmd a := by
    refine h.sets m cmd ?_ a
    rw [hdone]
    exact hcmd

theorem Sound.step (hpending : binds .pending=false) (h : d.Sound binds base) {a : DeploymentStep}
    (hok : d.Proper pg rt binds a) : (d.step pg rt a).Sound binds base := by
  obtain ⟨hhandled,hcareful⟩ := hok
  cases a with
  | manage a =>
    obtain ⟨sent,hp⟩ : ∃ sent, Publishes binds d (d.step pg rt (.manage a)) sent :=
      manage_publishes hpending hcareful
    exact h.publish hp
  | ipRule call =>
    obtain ⟨sent,hp⟩ : ∃ sent, Publishes binds d (d.step pg rt (.ipRule call)) sent :=
      ipRule_publishes call
    exact h.publish hp
  | deliver env => exact h.deliver hhandled
  | tick env => exact h.tick hhandled
  | managerStarts => exact h.publish (managerStarts_publishes binds)
  | reconcile => exact h.publish (reconcile_publishes binds)
  | enforcementStarts gateway spoofer =>
    obtain ⟨rfl,hdone⟩ := hcareful
    exact h.enforcementStarts hdone

/-- What the service has missed does not matter to the enforced devices once policy-manager has
reconciled. -/
theorem Sound.reconciled (hw : d.Wired) (h : Recalls d.host) :
    (d.step pg rt .reconcile).Sound Status.enforced d.published.length where
  toWired := hw.step _
  recalls := h
  begun := by
    rw [(reconcile_publishes free).published,List.length_append]
    omega
  commanded := by
    rw [(reconcile_publishes free).published,List.drop_left]
    exact reconcile_commands
  sets m cmd hcmd a := by
    have hzero : (d.step pg rt .reconcile).taken-d.published.length=0 := by
      rw [(reconcile_publishes free).taken]
      exact Nat.sub_eq_zero_of_le hw.taken
    rw [hzero,List.take_zero] at hcmd
    cases hcmd

end Steps

end Deployment

/-- The treatment that a status asks for. -/
def Status.treatment : Status → Option NacAction
  | .denied => some .block
  | .quarantined => some .quarantine
  | .allowed => none
  | .pending => none

/-- What a command that announces a status asks for. -/
theorem treatment_of_announced {st : Status} {cmd : EnforcementCommand} (h : st.announcedBy cmd)
    (hst : st.settled=true) : cmd.treatment=st.treatment := by
  have action : cmd.action=st.text ∨ st.action=some cmd.action := h
  unfold EnforcementCommand.treatment
  cases st with
  | denied =>
    obtain haction|haction : cmd.action="denied" ∨ cmd.action="block" :=
      action.imp id fun h => (Option.some.inj h).symm
    all_goals rw [haction]; decide
  | quarantined =>
    obtain haction|haction : cmd.action="quarantined" ∨ cmd.action="quarantine" :=
      action.imp id fun h => (Option.some.inj h).symm
    all_goals rw [haction]; decide
  | allowed =>
    obtain haction|haction : cmd.action="allowed" ∨ cmd.action="allow" :=
      action.imp id fun h => (Option.some.inj h).symm
    all_goals rw [haction]; decide
  | pending => cases hst

theorem Status.settled_of_enforced {st : Status} (h : st.enforced=true) : st.settled=true := by
  cases st with
  | pending => cases h
  | _ => rfl

/-- Once everything that was published has been handled, a device whose status binds is in the MAC
set of its status and in no other. -/
theorem Deployment.Sound.placed {d : Deployment} {binds : Status → Bool} {base : Nat}
    (h : d.Sound binds base) (hbinds : ∀ st, binds st=true → st.settled=true)
    (hdone : d.taken=d.published.length) {row : EndpointRow}
    (hrow : d.platform.world.endpoints.findById row.id=some row) (hst : binds row.status=true)
    (hdevice : row.macAddress≠noDevice) (a : NacAction) :
    d.host.inMacs row.macAddress.text a ↔ row.status.treatment=some a := by
  obtain ⟨cmd,hcmd,hann⟩ := h.commanded row.id _ (column_station hrow) hst hdevice
  have hlast : lastWrite naming row.macAddress.text
      ((d.published.drop base).take (d.taken-base))=some cmd := by
    rw [hdone,← List.length_drop,List.take_length]
    exact hcmd
  rw [h.sets _ _ hlast,treatment_of_announced hann (hbinds _ hst)]

end NacPlatform
