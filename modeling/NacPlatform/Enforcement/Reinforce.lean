import NacPlatform.Enforcement.Remembered
import NacPlatform.Enforcement.Loops

namespace NacPlatform.Enforcement

/-- What the service does next when commands and reinforcement ticks do not overlap. -/
inductive EnfStep where
  | command (env : Env) (cmd : EnforcementCommand)
  | tick (env : Env)

namespace EnfStep

def env : EnfStep → Env
  | .command env _ => env
  | .tick env => env

def command? : EnfStep → Option (Env × EnforcementCommand)
  | .command env cmd => some (env,cmd)
  | .tick _ => none

end EnfStep

/-- The commands among the steps of a run. -/
def commands (steps : List EnfStep) : List (Env × EnforcementCommand) :=
  steps.filterMap EnfStep.command?

section Reinforcement

variable (rt : Runtime)

/-- The host after one tick of the reinforcement loop. -/
def reinforce (ipt : Backend) (env : Env) (h : Host) : Host :=
  ((reinforcePass rt ipt).run (exec env) h).2

def step (ipt : Backend) (h : Host) : EnfStep → Host
  | .command env cmd => handle rt ipt h (env,cmd)
  | .tick env => reinforce rt ipt env h

/-- Every entry of the quarantine state asks for the treatment its device has. -/
def Agree (h : Host) : Prop :=
  ∀ key entry, h.state.lookup key=some entry →
    ∃ m, parseMac key=some m ∧ ∀ a, h.inMacs m.text a ↔ entry.action=a

/-- No entry will be left to ask for another treatment than the command: one under another
notation of the device asks for the same already, and so does the device's own when the command
is not going to be remembered. -/
def EnfStep.Consistent (h : Host) : EnfStep → Prop
  | .command env cmd =>
    (∀ key entry, h.state.lookup key=some entry → key≠stateKey rt cmd →
      parseMac key=parseMac cmd.macAddress → cmd.treatment=some entry.action) ∧
    (∀ action entry, cmd.treatment=some action →
      commandEntry env h.spoofer (received cmd)=none →
      h.state.lookup (stateKey rt cmd)=some entry → entry.action=action)
  | .tick _ => True

theorem parseMac_stateKey (cmd : EnforcementCommand) :
    parseMac (stateKey rt cmd)=parseMac cmd.macAddress :=
  rt.ofHexDigits_toLowercase cmd.macAddress

/-- A consistent command keeps the state in agreement with the MAC sets. -/
theorem handle_agree {c : Env × EnforcementCommand} (hok : c.1.MacsOk) {m : MacAddr}
    (hm : parseMac c.2.macAddress=some m) {h : Host}
    (hc : (EnfStep.command c.1 c.2).Consistent rt h) (hagree : Agree h) :
    Agree (handle rt .nft h c) := by
  obtain ⟨hothers,hown⟩ := hc
  have sets := handle_inMacs rt hok hm h
  have own : parseMac (stateKey rt c.2)=some m := (parseMac_stateKey rt c.2).trans hm
  have elsewhere {key : String} {entry : QuarantineEntry} (hk : key≠stateKey rt c.2)
      (he : h.state.lookup key=some entry) :
      ∃ m', parseMac key=some m' ∧
        ∀ a, (handle rt .nft h c).inMacs m'.text a ↔ entry.action=a := by
    obtain ⟨m',hm',hin⟩ := hagree key entry he
    refine ⟨m',hm',fun a => ?_⟩
    rw [sets]
    by_cases hmm : m'=m
    · have ht := hothers key entry he hk (hm'.trans (hmm ▸ hm.symm))
      simp [hmm,ht]
    · rw [if_neg (MacAddr.text_inj.not.mpr hmm),hin]
  intro key entry he
  rw [handle_state rt hok] at he
  split at he
  · have hk : key≠stateKey rt c.2 := by
      intro same
      subst same
      simp at he
    rw [AList.lookup_erase_ne hk] at he
    exact elsewhere hk he
  · rename_i hallow
    have ht : c.2.treatment=some (mapAction c.2.action) :=
      treatment_eq_some.mpr ⟨by simpa using hallow,rfl⟩
    split at he
    · rename_i entry' hentry
      by_cases hk : key=stateKey rt c.2
      · subst hk
        rw [AList.lookup_insert,Option.some.injEq] at he
        subst he
        obtain ⟨-,-,-,haction⟩ := commandEntry_eq_some hentry
        refine ⟨m,own,fun a => ?_⟩
        rw [sets,if_pos rfl,ht,haction,Option.some.injEq]
        rfl
      · rw [AList.lookup_insert_ne hk] at he
        exact elsewhere hk he
    · rename_i hnone
      by_cases hk : key=stateKey rt c.2
      · subst hk
        refine ⟨m,own,fun a => ?_⟩
        rw [sets,if_pos rfl,ht,Option.some.injEq,hown _ entry ht hnone he]
      · exact elsewhere hk he

theorem reinforceEntries_state (env : Env) (entries : List (String × QuarantineEntry))
    (h : Host) : ((reinforceEntries rt .nft entries).run (exec env) h).2.state=h.state := by
  induction entries generalizing h with
  | nil => rfl
  | cons e entries ih =>
    simp only [reinforceEntries,Proc.run_bind,Proc.run_attempt,treat_nft,ih,nftTreat_state]

/-- Replaying what the MAC sets say already moves nothing. -/
theorem reinforceEntries_inMacs {env : Env} (hok : env.MacsOk)
    (entries : List (String × QuarantineEntry)) (h : Host)
    (hagree : ∀ key entry, (key,entry) ∈ entries →
      ∃ m, parseMac key=some m ∧ ∀ a, h.inMacs m.text a ↔ entry.action=a) :
    ((reinforceEntries rt .nft entries).run (exec env) h).2.inMacs=h.inMacs := by
  induction entries generalizing h with
  | nil => rfl
  | cons e entries ih =>
    obtain ⟨key,entry⟩ := e
    obtain ⟨m,hm,hin⟩ := hagree key entry List.mem_cons_self
    have same : ((nftTreat rt entry.action key (some entry.victimIp.text)).run
        (exec env) h).2.inMacs=h.inMacs := by
      funext x a
      rw [nftTreat_inMacs rt hok,nftMac_eq rt hm]
      by_cases hx : x=m.text
      · rw [if_pos hx,hx,hin]
      · rw [if_neg hx]
    simp only [reinforceEntries,Proc.run_bind,Proc.run_attempt,treat_nft]
    rw [ih _ fun key' entry' he => ?_,same]
    rw [same]
    exact hagree key' entry' (List.mem_cons_of_mem _ he)

theorem reinforce_eq (ipt : Backend) (env : Env) (h : Host) :
    reinforce rt ipt env h=
      ((reinforceEntries rt ipt (env.walk h.entries)).run (exec env) h).2 := rfl

/-- A tick over a state in agreement moves no device. -/
theorem reinforce_inMacs {env : Env} (hok : env.MacsOk) {h : Host} (hagree : Agree h) :
    (reinforce rt .nft env h).inMacs=h.inMacs := by
  rw [reinforce_eq]
  refine reinforceEntries_inMacs rt hok _ h fun key entry he => hagree key entry ?_
  exact mem_entries.mp ((env.walk_perm h.entries).mem_iff.mp he)

theorem reinforce_agree {env : Env} (hok : env.MacsOk) {h : Host} (hagree : Agree h) :
    Agree (reinforce rt .nft env h) := by
  intro key entry he
  rw [reinforce_inMacs rt hok hagree]
  rw [reinforce_eq,reinforceEntries_state] at he
  exact hagree key entry he

end Reinforcement

end NacPlatform.Enforcement
