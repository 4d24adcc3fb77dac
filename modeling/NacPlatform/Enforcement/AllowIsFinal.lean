import NacPlatform.Enforcement.Interleaving

namespace NacPlatform.Enforcement

/-- The element will be deleted, and until then only nft commands are run. -/
abbrev WillDelete (set : NftSet) (elem : String) : EnfProc Unit → Prop :=
  Proc.Until IsNft (· = .nft .delete set elem)

/-- The entry will be removed, and until then only nft commands are run. -/
abbrev WillRemove (key : String) : EnfProc Unit → Prop := Proc.Until IsNft (· = .stateRemove key)

section Allow

variable (rt : Runtime) {m : MacAddr} {cmd : EnforcementCommand}

theorem consume_until {before goal : EnfOp → Prop} (hallow : isAllowAction cmd.action=true)
    (h : (executeAllow rt .nft (received cmd)).Until before goal) :
    (consume rt .nft cmd).Until before goal := by
  refine Proc.Until.bind (Proc.Until.attempt ?_)
  rw [if_pos (by exact hallow)]
  exact h

/-- An allow deletes every element of its device. -/
theorem consume_willDelete (hallow : isAllowAction cmd.action=true)
    (hm : parseMac cmd.macAddress=some m) {set : NftSet} {elem : String}
    (hd : DeviceElem m (received cmd).ipAddress set elem) :
    WillDelete set elem (consume rt .nft cmd) := by
  refine consume_until rt hallow (Proc.Until.bind ?_)
  have hmac : nftMac rt cmd.macAddress=m.text := nftMac_eq rt hm
  rcases hd with ⟨a,rfl,rfl⟩ | ⟨a,rfl,rfl,hu⟩
  · cases a with
    | block => exact .inl (by rw [received_macAddress,hmac]; rfl)
    | quarantine => exact .inr ⟨trivial,fun _ => .inl (by rw [received_macAddress,hmac]; rfl)⟩
  · refine .inr ⟨trivial,fun _ => .inr ⟨trivial,fun _ => ?_⟩⟩
    have hip : (ipOpt (received cmd)).filter usableIp=some (received cmd).ipAddress := by
      simp [ipOpt_eq,Option.filter,hu]
    change (allowIp (ipOpt (received cmd))).Until _ _
    rw [allowIp,hip]
    cases a with
    | block => exact .inl rfl
    | quarantine => exact .inr ⟨trivial,fun _ => .inl rfl⟩

/-- An allow removes the entry of its device once the nft commands are done. -/
theorem consume_willRemove (hallow : isAllowAction cmd.action=true) :
    WillRemove (stateKey rt cmd) (consume rt .nft cmd) := by
  refine consume_until rt hallow (Proc.Until.bind_right (allow_total rt ..) ?_ fun _ => .inl rfl)
  refine (allow_performs rt ..).mono ?_
  intro op given
  obtain ⟨set,elem,rfl⟩ := given
  trivial

end Allow

/-- The pass has not begun or will not add the element. -/
def ReplaysOff (rt : Runtime) (set : NftSet) (elem : String) (p : EnfProc Unit) : Prop :=
  p=reinforcePass rt .nft ∨ Performs (· ≠ .nft .add set elem) p

/-- The pass has not begun or will not poison the device. -/
def PoisonsOff (m : MacAddr) (ip : String) (p : EnfProc Unit) : Prop :=
  p=repoisonPass ∨ p.Only (LooksElsewhere m) (OffDevice m ip)

/-- The device as an allow leaves it. While the allow is in progress it may still have to delete
an element or the entry; what it has deleted no task brings back. -/
structure LetGo (rt : Runtime) (m : MacAddr) (ip key : String) (inProgress : Prop)
    (s : Service) : Prop where
  consumer : (s.tasks .consumer).Only (LooksElsewhere m) (OffDevice m ip)
  reinforce : Performs ReplayOp (s.tasks .reinforce)
  repoison : Performs RepoisonOp (s.tasks .repoison)
  sets : ∀ set elem, DeviceElem m ip set elem →
    (inProgress ∧ WillDelete set elem (s.tasks .consumer)) ∨
    (elem ∉ s.shared.sets set ∧ ReplaysOff rt set elem (s.tasks .reinforce))
  entries : (inProgress ∧ WillRemove key (s.tasks .consumer)) ∨
    ∀ key' entry, s.shared.state.lookup key'=some entry → ¬EntryOf m ip key' entry

/-- What the consumer's next operation may meet. A deletion of an element of the device goes
through, and no pass in progress still has to add the element. When the entry is removed, no other
entry is about the device. When the device is told where its gateway is, no pass in progress still
has to poison it. A command that poisons does not find the device to be the gateway. -/
def ConsumerOk (rt : Runtime) (m : MacAddr) (ip key : String) (s : Service) (env : Env) :
    EnfOp → Prop
  | .nft .delete set elem => DeviceElem m ip set elem →
    (env.nftFails .delete set elem=true → elem ∉ s.shared.sets set) ∧
      ReplaysOff rt set elem (s.tasks .reinforce)
  | .stateRemove key' => key'=key → ∀ other entry, other≠key →
    s.shared.state.lookup other=some entry → ¬EntryOf m ip other entry
  | .sendFrame .restore frame => frame.dst=m → PoisonsOff m ip (s.tasks .repoison)
  | .arpLookup gw => (exec env (.arpLookup gw) s.shared).1=some m →
    Performs (OffDevice m ip) (s.tasks .consumer)
  | _ => True

/-- While the allow has still to remove the entry, a reinforcement pass does not begin with an
entry that adds an element which the allow has deleted. -/
def ReplayOk (rt : Runtime) (m : MacAddr) (ip key : String) (s : Service) : EnfOp → Prop
  | .stateSnapshot => WillRemove key (s.tasks .consumer) →
    ∀ other entry set elem, s.shared.state.lookup other=some entry →
      Adds rt other entry set elem → DeviceElem m ip set elem →
      WillDelete set elem (s.tasks .consumer)
  | _ => True

/-- The condition on a step after the allow has arrived. A command that arrives later for another
device does not name the address. -/
def StepOk (rt : Runtime) (m : MacAddr) (ip key : String) (s : Service) : TaskStep → Prop
  | .receive cmd => isAllowAction cmd.action=false → usableIp ip=true → ¬NamesIp cmd ip
  | .advance .consumer env => ∀ op k, s.tasks .consumer=.call op k →
    ConsumerOk rt m ip key s env op
  | .advance .reinforce _ => ∀ op k, s.tasks .reinforce=.call op k → ReplayOk rt m ip key s op
  | _ => True

section Steps

variable {rt : Runtime} {m : MacAddr} {ip key : String} {inProgress : Prop}

theorem exec_notMem {env : Env} {op : EnfOp} {h : Host} {set : NftSet} {elem : String}
    (hn : elem ∉ h.sets set) (hop : op≠.nft .add set elem) :
    elem ∉ (exec env op h).2.sets set := by
  cases op with
  | nft verb set' elem' =>
    by_cases hs : set=set'
    · subst hs
      simp only [exec,execNft]
      split
      · exact hn
      · cases verb with
        | add =>
          have he : elem≠elem' := fun e => hop (e ▸ rfl)
          simp [he,hn]
        | delete => simp [hn]
    · rw [exec,execNft_sets_ne env verb elem' h hs]
      exact hn
  | _ => rwa [exec_sets env _ h (by simp)]

theorem exec_delete_notMem {env : Env} {h : Host} {set : NftSet} {elem : String}
    (hf : env.nftFails .delete set elem=true → elem ∉ h.sets set) :
    elem ∉ (exec env (.nft .delete set elem) h).2.sets set := by
  simp only [exec,execNft]
  split
  · rename_i hfail
    exact hf hfail
  · simp

/-- An entry was there before or has just been put there. -/
theorem exec_lookup {env : Env} {op : EnfOp} {h : Host} {key : String} {entry : QuarantineEntry}
    (hl : (exec env op h).2.state.lookup key=some entry) :
    op=.stateInsert key entry ∨ (h.state.lookup key=some entry ∧ op≠.stateRemove key) := by
  cases op with
  | stateInsert key' entry' =>
    by_cases hk : key=key'
    · subst hk
      rw [exec,AList.lookup_insert] at hl
      exact .inl (by rw [Option.some.inj hl])
    · rw [exec,AList.lookup_insert_ne hk] at hl
      exact .inr ⟨hl,by simp⟩
  | stateRemove key' =>
    by_cases hk : key=key'
    · subst hk
      simp [exec] at hl
    · rw [exec,AList.lookup_erase_ne hk] at hl
      exact .inr ⟨hl,by simpa using Ne.symm hk⟩
  | _ =>
    rw [exec_state] at hl
    · exact .inr ⟨hl,by simp⟩
    · trivial

/-- Without an insertion about the device the entries about it stay as they are or go. -/
theorem exec_entries {env : Env} {op : EnfOp} {h : Host}
    (hop : ∀ other entry, op=.stateInsert other entry → ¬EntryOf m ip other entry)
    (hs : ∀ other entry, h.state.lookup other=some entry → ¬EntryOf m ip other entry) :
    ∀ other entry, (exec env op h).2.state.lookup other=some entry →
      ¬EntryOf m ip other entry := by
  intro other entry hl
  rcases exec_lookup hl with hins | ⟨hl,-⟩
  · exact hop other entry hins
  · exact hs other entry hl

theorem not_insert_of_offDevice {op : EnfOp} (hop : OffDevice m ip op) :
    ∀ other entry, op=.stateInsert other entry → ¬EntryOf m ip other entry := by
  intro other entry same
  subst same
  exact hop

theorem not_add_of_offDevice {op : EnfOp} {set : NftSet} {elem : String}
    (hop : OffDevice m ip op) (hd : DeviceElem m ip set elem) : op≠.nft .add set elem := by
  intro same
  subst same
  exact hop hd

/-- An operation of the consumer. -/
theorem advance_consumer {s : Service} {env : Env}
    (hg : LetGo rt m ip key inProgress s) (hok : StepOk rt m ip key s (.advance .consumer env)) :
    LetGo rt m ip key inProgress (s.advance (exec env) .consumer) := by
  cases hi : (s.tasks .consumer).idle with
  | true => rwa [Pool.advance_of_idle hi]
  | false =>
    obtain ⟨op,k,hp⟩ := Proc.eq_call_of_not_idle hi
    have hcon := hg.consumer
    have hcok := hok op k hp
    rw [hp] at hcon
    obtain ⟨hop,hnext⟩ := hcon
    rw [Pool.advance_of_call hp]
    have hre : Function.update s.tasks .consumer (k (exec env op s.shared).1) .reinforce=
        s.tasks .reinforce := rfl
    refine ⟨?_,hg.reinforce,hg.repoison,fun set elem hd => ?_,?_⟩
    · simp only [Function.update_self]
      by_cases hlook : LooksElsewhere m op (exec env op s.shared).1
      · exact hnext _ hlook
      · cases op with
        | arpLookup gw =>
          have hall := hcok (by simpa [LooksElsewhere] using hlook)
          rw [hp] at hall
          exact (hall.2 _ trivial).of_anyReply
        | _ => exact absurd trivial hlook
    · simp only [Function.update_self,hre]
      rcases hg.sets set elem hd with ⟨hprog,hwill⟩ | ⟨hn,hq⟩
      · rw [hp] at hwill
        rcases hwill with rfl | ⟨-,hwill⟩
        · obtain ⟨hfail,hq⟩ := hcok hd
          exact .inr ⟨exec_delete_notMem hfail,hq⟩
        · exact .inl ⟨hprog,hwill _⟩
      · exact .inr ⟨exec_notMem hn (not_add_of_offDevice hop hd),hq⟩
    · simp only [Function.update_self]
      rcases hg.entries with ⟨hprog,hwill⟩ | hs
      · rw [hp] at hwill
        rcases hwill with rfl | ⟨-,hwill⟩
        · refine .inr fun other entry hl => ?_
          rcases exec_lookup hl with hins | ⟨hl,hne⟩
          · cases hins
          · exact hcok rfl other entry (fun e => hne (e ▸ rfl)) hl
        · exact .inl ⟨hprog,hwill _⟩
      · exact .inr (exec_entries (not_insert_of_offDevice hop) hs)

/-- An operation of a reinforcement pass. -/
theorem advance_reinforce {s : Service} {env : Env} (hg : LetGo rt m ip key inProgress s)
    (hok : StepOk rt m ip key s (.advance .reinforce env)) :
    LetGo rt m ip key inProgress (s.advance (exec env) .reinforce) := by
  cases hi : (s.tasks .reinforce).idle with
  | true => rwa [Pool.advance_of_idle hi]
  | false =>
    obtain ⟨op,k,hp⟩ := Proc.eq_call_of_not_idle hi
    have hrep := hg.reinforce
    rw [hp] at hrep
    obtain ⟨hop,hnext⟩ := hrep
    have hins : ∀ other entry, op≠.stateInsert other entry := by
      intro other entry same
      subst same
      rcases hop with hop | hop
      · cases hop
      · exact hop
    rw [Pool.advance_of_call hp]
    have hcon : Function.update s.tasks .reinforce (k (exec env op s.shared).1) .consumer=
        s.tasks .consumer := rfl
    refine ⟨hg.consumer,by simpa using hnext _ trivial,hg.repoison,fun set elem hd => ?_,?_⟩
    · simp only [Function.update_self,hcon]
      rcases hg.sets set elem hd with hwill | ⟨hn,hq⟩
      · exact .inl hwill
      rcases hq with hpass | hquiet
      · -- the pass begins: what it is going to replay is what the state holds now
        rw [hp] at hpass
        cases hpass
        by_cases hadd : ∃ other entry, s.shared.state.lookup other=some entry ∧
            Adds rt other entry set elem
        · obtain ⟨other,entry,hl,hadds⟩ := hadd
          rcases hg.entries with ⟨hprog,hwill⟩ | hs
          · exact .inl ⟨hprog,hok _ _ hp hwill other entry set elem hl hadds hd⟩
          · exact absurd (hadds.entryOf rt hd) (hs other entry hl)
        · refine .inr ⟨hn,.inr (reinforceEntries_quiet rt fun other entry he hadds => hadd ?_)⟩
          have hmem := (env.walk_perm s.shared.entries).mem_iff.mp he
          exact ⟨other,entry,mem_entries.mp hmem,hadds⟩
      · rw [hp] at hquiet
        exact .inr ⟨exec_notMem hn hquiet.1,.inr (hquiet.2 _ trivial)⟩
    · rcases hg.entries with hwill | hs
      · exact .inl hwill
      · exact .inr (exec_entries (fun o e same => absurd same (hins o e)) hs)

/-- An operation of a re-poison pass. -/
theorem advance_repoison {s : Service} {env : Env} (hg : LetGo rt m ip key inProgress s) :
    LetGo rt m ip key inProgress (s.advance (exec env) .repoison) := by
  cases hi : (s.tasks .repoison).idle with
  | true => rwa [Pool.advance_of_idle hi]
  | false =>
    obtain ⟨op,k,hp⟩ := Proc.eq_call_of_not_idle hi
    have hrep := hg.repoison
    rw [hp] at hrep
    obtain ⟨hop,hnext⟩ := hrep
    have hnft : ∀ verb set elem, op≠.nft verb set elem := by
      intro verb set elem same
      subst same
      rcases hop with hop | hop
      · cases hop
      · exact hop
    have hins : ∀ other entry, op≠.stateInsert other entry := by
      intro other entry same
      subst same
      rcases hop with hop | hop
      · cases hop
      · exact hop
    rw [Pool.advance_of_call hp]
    refine ⟨hg.consumer,hg.reinforce,by simpa using hnext _ trivial,fun set elem hd => ?_,?_⟩
    · rcases hg.sets set elem hd with hwill | ⟨hn,hq⟩
      · exact .inl hwill
      · exact .inr ⟨exec_notMem hn (hnft _ _ _),hq⟩
    · rcases hg.entries with hwill | hs
      · exact .inl hwill
      · exact .inr (exec_entries (fun o e same => absurd same (hins o e)) hs)

/-- The next command, unless it blocks or quarantines the device. -/
theorem receive_letGo {s : Service} {cmd : EnforcementCommand} (hm : m≠.broadcast)
    (hlater : isAllowAction cmd.action=false → parseMac cmd.macAddress≠some m)
    (hg : LetGo rt m ip key inProgress s) (hok : StepOk rt m ip key s (.receive cmd)) :
    LetGo rt m ip key inProgress (s.start .consumer (consume rt .nft cmd)) := by
  cases hi : (s.tasks .consumer).idle with
  | false => rwa [Pool.start_of_busy hi]
  | true =>
    rw [Pool.start_of_idle hi]
    have idle {before goal : EnfOp → Prop} : ¬(s.tasks .consumer).Until before goal :=
      fun h => by simp [h.not_idle] at hi
    refine ⟨?_,hg.reinforce,hg.repoison,fun set elem hd => ?_,?_⟩
    · simp only [Function.update_self]
      exact consume_only rt (fun _ => (executeAllow_offDevice rt _).of_anyReply)
        fun h => executeCommand_offDevice rt hm (hlater h) (hok h)
    · exact (hg.sets set elem hd).imp (fun h => absurd h.2 idle) id
    · exact hg.entries.imp (fun h => absurd h.2 idle) id

theorem reinforceTick_letGo {s : Service} (hg : LetGo rt m ip key inProgress s) :
    LetGo rt m ip key inProgress (s.start .reinforce (reinforcePass rt .nft)) := by
  cases hi : (s.tasks .reinforce).idle with
  | false => rwa [Pool.start_of_busy hi]
  | true =>
    rw [Pool.start_of_idle hi]
    refine ⟨hg.consumer,?_,hg.repoison,fun set elem hd => ?_,hg.entries⟩
    · simpa using reinforcePass_replays rt
    · exact (hg.sets set elem hd).imp id fun h => ⟨h.1,.inl (by simp)⟩

theorem repoisonTick_letGo {s : Service} (hg : LetGo rt m ip key inProgress s) :
    LetGo rt m ip key inProgress (s.start .repoison repoisonPass) := by
  cases hi : (s.tasks .repoison).idle with
  | false => rwa [Pool.start_of_busy hi]
  | true =>
    rw [Pool.start_of_idle hi]
    exact ⟨hg.consumer,hg.reinforce,by simpa using repoisonPass_performs,hg.sets,hg.entries⟩

/-- No later step blocks or quarantines the device. -/
def NoLater (m : MacAddr) : TaskStep → Prop
  | .receive cmd => isAllowAction cmd.action=false → parseMac cmd.macAddress≠some m
  | _ => True

/-- The device stays let go in any step that meets the condition. -/
theorem taskStep_letGo {s : Service} {step : TaskStep} (hm : m≠.broadcast)
    (hlater : NoLater m step) (hg : LetGo rt m ip key inProgress s)
    (hok : StepOk rt m ip key s step) :
    LetGo rt m ip key inProgress (taskStep rt .nft s step) := by
  cases step with
  | receive cmd => exact receive_letGo hm hlater hg hok
  | reinforceTick => exact reinforceTick_letGo hg
  | repoisonTick => exact repoisonTick_letGo hg
  | advance task env =>
    cases task with
    | consumer => exact advance_consumer hg hok
    | reinforce => exact advance_reinforce hg hok
    | repoison => exact advance_repoison hg

/-- The frames sent since then do not poison the device, and no pass in progress is going to. -/
structure Unpoisoned (m : MacAddr) (ip : String) (before : List (FrameKind × ArpFrame))
    (s : Service) : Prop where
  repoison : PoisonsOff m ip (s.tasks .repoison)
  frames : ∃ sent, s.shared.frames=before++sent ∧ ∀ f ∈ sent, ¬(f.1=.poison ∧ f.2.dst=m)

/-- A re-poison pass does not find the device to be the gateway. -/
def PoisonOk (m : MacAddr) (s : Service) : TaskStep → Prop
  | .advance .repoison env => ∀ gw k, s.tasks .repoison=.call (.arpLookup gw) k →
    (exec env (.arpLookup gw) s.shared).1≠some m
  | _ => True

theorem exec_frames {env : Env} {op : EnfOp} {h : Host} (hop : OffDevice m ip op) :
    ∃ sent, (exec env op h).2.frames=h.frames++sent ∧ ∀ f ∈ sent, ¬(f.1=.poison ∧ f.2.dst=m) := by
  have same : ∀ h' : Host, h'.frames=h.frames →
      ∃ sent, h'.frames=h.frames++sent ∧ ∀ f ∈ sent, ¬(f.1=.poison ∧ f.2.dst=m) :=
    fun h' e => ⟨[],by simp [e],by simp⟩
  cases op with
  | nft verb set elem =>
    refine same _ ?_
    simp only [exec,execNft]
    split <;> [rfl; (cases verb <;> rfl)]
  | iptInsert chain rule => refine same _ ?_; simp only [exec,execIpt]; split <;> rfl
  | iptAppend chain rule => refine same _ ?_; simp only [exec,execIpt]; split <;> rfl
  | iptDeleteLoop chain rule => refine same _ ?_; simp only [exec]; split <;> rfl
  | sendFrame kind frame =>
    simp only [exec]
    split
    · exact same _ rfl
    · refine ⟨[(kind,frame)],rfl,fun f hf => ?_⟩
      obtain rfl := List.mem_singleton.mp hf
      intro given
      obtain ⟨rfl,hd⟩ := given
      exact hop hd
  | _ => exact same _ rfl

theorem Unpoisoned.send {before : List (FrameKind × ArpFrame)} {s : Service}
    (hu : Unpoisoned m ip before s) {env : Env} {op : EnfOp} (hop : OffDevice m ip op) :
    ∃ sent, (exec env op s.shared).2.frames=before++sent ∧
      ∀ f ∈ sent, ¬(f.1=.poison ∧ f.2.dst=m) := by
  obtain ⟨sent,hs,hn⟩ := hu.frames
  obtain ⟨sent',hs',hn'⟩ : ∃ sent, (exec env op s.shared).2.frames=s.shared.frames++sent ∧
      ∀ f ∈ sent, ¬(f.1=.poison ∧ f.2.dst=m) := exec_frames hop
  refine ⟨sent++sent',by rw [hs',hs,List.append_assoc],fun f hf => ?_⟩
  exact (List.mem_append.mp hf).elim (hn f) (hn' f)

/-- While the device is let go, no step poisons it. -/
theorem taskStep_unpoisoned {s : Service} {step : TaskStep}
    {before : List (FrameKind × ArpFrame)} (hm : m≠.broadcast)
    (hg : LetGo rt m ip key False s) (hok : PoisonOk m s step)
    (hu : Unpoisoned m ip before s) : Unpoisoned m ip before (taskStep rt .nft s step) := by
  have busy {i : Task} {p : EnfProc Unit} (hi : i≠.repoison) :
      Unpoisoned m ip before (s.start i p) := by
    refine ⟨?_,by rw [Pool.start_shared]; exact hu.frames⟩
    unfold Pool.start
    split
    · simpa [Function.update_of_ne hi.symm] using hu.repoison
    · exact hu.repoison
  cases step with
  | receive cmd => exact busy (by decide)
  | reinforceTick => exact busy (by decide)
  | repoisonTick =>
    simp only [taskStep]
    cases hi : (s.tasks .repoison).idle with
    | false => rwa [Pool.start_of_busy hi]
    | true =>
      rw [Pool.start_of_idle hi]
      exact ⟨.inl (by simp),hu.frames⟩
  | advance task env =>
    simp only [taskStep]
    cases hi : (s.tasks task).idle with
    | true => rwa [Pool.advance_of_idle hi]
    | false =>
      obtain ⟨op,k,hp⟩ := Proc.eq_call_of_not_idle hi
      rw [Pool.advance_of_call hp]
      cases task with
      | consumer =>
        have hcon := hg.consumer
        rw [hp] at hcon
        exact ⟨hu.repoison,hu.send hcon.1⟩
      | reinforce =>
        have hrep := hg.reinforce
        rw [hp] at hrep
        refine ⟨hu.repoison,?_⟩
        obtain ⟨sent,hs,hn⟩ := hu.frames
        refine ⟨sent,?_,hn⟩
        rw [← hs]
        rcases hrep.1 with rfl | hnft
        · rfl
        · cases op with
          | nft verb set elem =>
            simp only [exec,execNft]
            split <;> [rfl; (cases verb <;> rfl)]
          | _ => exact absurd hnft id
      | repoison =>
        rcases hu.repoison with hpass | honly
        · -- the pass begins: none of the entries it takes is about the device
          rw [hp] at hpass
          cases hpass
          refine ⟨.inr ?_,hu.frames⟩
          simp only [Function.update_self]
          refine repoisonRest_offDevice hm fun other entry he hv => ?_
          have hmem := (env.walk_perm s.shared.entries).mem_iff.mp he
          rcases hg.entries with ⟨hfalse,-⟩ | hs
          · exact hfalse
          · exact hs other entry (mem_entries.mp hmem) (.inr (.inl hv))
        · rw [hp] at honly
          refine ⟨.inr ?_,hu.send honly.1⟩
          simp only [Function.update_self]
          refine honly.2 _ ?_
          cases op with
          | arpLookup gw => exact hok gw k hp
          | _ => trivial

end Steps

section Final

variable (rt : Runtime) {m : MacAddr} {ip key : String}

/-- The passes only ever do what passes do. -/
structure Passes (s : Service) : Prop where
  reinforce : Performs ReplayOp (s.tasks .reinforce)
  repoison : Performs RepoisonOp (s.tasks .repoison)

theorem taskStep_passes {s : Service} (step : TaskStep) (hp : Passes s) :
    Passes (taskStep rt .nft s step) := by
  have start {i : Task} {p : EnfProc Unit}
      (hi : ∀ s' : Service, s'.tasks=Function.update s.tasks i p → Passes s') :
      Passes (s.start i p) := by
    unfold Pool.start
    split
    · exact hi _ rfl
    · exact hp
  cases step with
  | receive cmd =>
    exact start fun s' hs => ⟨by simpa [hs] using hp.reinforce,by simpa [hs] using hp.repoison⟩
  | reinforceTick =>
    exact start fun s' hs =>
      ⟨by simpa [hs] using reinforcePass_replays rt,by simpa [hs] using hp.repoison⟩
  | repoisonTick =>
    exact start fun s' hs =>
      ⟨by simpa [hs] using hp.reinforce,by simpa [hs] using repoisonPass_performs⟩
  | advance task env =>
    simp only [taskStep]
    cases hi : (s.tasks task).idle with
    | true => rwa [Pool.advance_of_idle hi]
    | false =>
      obtain ⟨op,k,ht⟩ := Proc.eq_call_of_not_idle hi
      rw [Pool.advance_of_call ht]
      obtain ⟨hre,hpo⟩ := hp
      cases task with
      | consumer => exact ⟨hre,hpo⟩
      | reinforce =>
        rw [ht] at hre
        exact ⟨by simpa using hre.2 _ trivial,hpo⟩
      | repoison =>
        rw [ht] at hpo
        exact ⟨hre,by simpa using hpo.2 _ trivial⟩

theorem Reachable.passes {s : Service} (h : Reachable rt s) : Passes s := by
  obtain ⟨spoofer,steps,rfl⟩ := h
  exact runs_invariant Passes (fun _ step hp => taskStep_passes rt step hp) steps
    ⟨trivial,trivial⟩

/-- An allow that the consumer takes up will let its device go. -/
theorem receive_allow_letGo {s : Service} {cmd : EnforcementCommand} (hp : Passes s)
    (hidle : (s.tasks .consumer).idle=true) (hallow : isAllowAction cmd.action=true)
    (hmac : parseMac cmd.macAddress=some m) :
    LetGo rt m (received cmd).ipAddress (stateKey rt cmd) True
      (taskStep rt .nft s (.receive cmd)) := by
  rw [taskStep,Pool.start_of_idle hidle]
  refine ⟨?_,hp.reinforce,hp.repoison,fun set elem hd => .inl ⟨trivial,?_⟩,.inl ⟨trivial,?_⟩⟩
  · simp only [Function.update_self]
    exact consume_only rt (fun _ => (executeAllow_offDevice rt _).of_anyReply)
      fun h => by simp [hallow] at h
  · simpa using consume_willDelete rt hallow hmac hd
  · simpa using consume_willRemove rt hallow

/-- Where the consumer has nothing of the allow left to do, the device has been let go. -/
theorem LetGo.finished {s : Service} (hg : LetGo rt m ip key True s)
    (hdone : ∀ goal, (∀ op, goal op → ¬ArpOp .restore op) →
      ¬(s.tasks .consumer).Until IsNft goal) : LetGo rt m ip key False s := by
  refine ⟨hg.consumer,hg.reinforce,hg.repoison,fun set elem hd => ?_,?_⟩
  · refine (hg.sets set elem hd).imp (fun h => absurd h.2 (hdone _ ?_)) id
    intro op same
    subst same
    exact id
  · refine hg.entries.imp (fun h => absurd h.2 (hdone _ ?_)) id
    intro op same
    subst same
    exact id

theorem runs_letGo {inProgress : Prop} {s : Service} {steps : List TaskStep}
    (hm : m≠.broadcast) (hlater : ∀ step ∈ steps, NoLater m step)
    (hok : Guarded (taskStep rt .nft) (StepOk rt m ip key) s steps)
    (hg : LetGo rt m ip key inProgress s) :
    LetGo rt m ip key inProgress (runs (taskStep rt .nft) s steps) :=
  (hok.and (guarded_of_forall hlater)).invariant (LetGo rt m ip key inProgress)
    (fun _ _ hg h => taskStep_letGo hm h.2 hg h.1) hg

theorem runs_unpoisoned {s : Service} {steps : List TaskStep} (hm : m≠.broadcast)
    (hlater : ∀ step ∈ steps, NoLater m step)
    (hok : Guarded (taskStep rt .nft) (StepOk rt m ip key) s steps)
    (hpoison : Guarded (taskStep rt .nft) (PoisonOk m) s steps)
    (hg : LetGo rt m ip key False s) (hp : PoisonsOff m ip (s.tasks .repoison)) :
    Unpoisoned m ip s.shared.frames (runs (taskStep rt .nft) s steps) := by
  refine (((hok.and (guarded_of_forall hlater)).and hpoison).invariant
    (fun w => LetGo rt m ip key False w ∧ Unpoisoned m ip s.shared.frames w)
    (fun w step h hstep => ?_) ⟨hg,hp,[],by simp,by simp⟩).2
  exact ⟨taskStep_letGo hm hstep.1.2 h.1 hstep.1.1,taskStep_unpoisoned hm h.1 hstep.2 h.2⟩

/-- In every interleaving of the consumer with the background passes whose steps meet `StepOk`
once the allow of a device has arrived, and in which no later command blocks or quarantines the
device: as soon as the allow is done the hardware address and the address are in no set, whether
or not a pass is in progress; and after a frame that restores the device no frame poisons it,
provided no pass takes it for the gateway. -/
theorem allow_is_final {s : Service} (hs : Reachable rt s) (cmd : EnforcementCommand)
    (rest : List TaskStep) (hm : m≠.broadcast) (hallow : isAllowAction cmd.action=true)
    (hmac : parseMac cmd.macAddress=some m) (hidle : (s.tasks .consumer).idle=true)
    (hip : ∀ entry, s.shared.state.lookup (stateKey rt cmd)=some entry →
      entry.victimIp.text=(received cmd).ipAddress)
    (hlater : ∀ step ∈ rest, NoLater m step)
    (hok : Guarded (taskStep rt .nft) (StepOk rt m (received cmd).ipAddress (stateKey rt cmd))
      (taskStep rt .nft s (.receive cmd)) rest) :
    let after := fun steps => runs (taskStep rt .nft) s (.receive cmd::steps)
    (∀ mid later, rest=mid++later → ((after mid).tasks .consumer).idle=true → ∀ action,
      m.text ∉ (after rest).shared.sets (macSet action) ∧
      (usableIp (received cmd).ipAddress=true →
        (received cmd).ipAddress ∉ (after rest).shared.sets (ipSet action)) ∧
      ∀ entry, s.shared.state.lookup (stateKey rt cmd)=some entry →
        usableIp entry.victimIp.text=true →
        entry.victimIp.text ∉ (after rest).shared.sets (ipSet action)) ∧
    ∀ mid env later frame k, rest=mid++.advance .consumer env::later →
      (after mid).tasks .consumer=.call (.sendFrame .restore frame) k → frame.dst=m →
      Guarded (taskStep rt .nft) (PoisonOk m) (after mid) (.advance .consumer env::later) →
      ∃ sent, (after rest).shared.frames=(after mid).shared.frames++sent ∧
        ∀ f ∈ sent, ¬(f.1=.poison ∧ f.2.dst=m) := by
  intro after
  have hstart := receive_allow_letGo rt (hs.passes rt) hidle hallow hmac
  refine ⟨fun mid later hrest hdone action => ?_,fun mid env later frame k hrest hcall hdst hp => ?_⟩
  · subst hrest
    obtain ⟨hmid,hlate⟩ := (guarded_append _ _ _ _ _).mp hok
    have hlater' := List.forall_mem_append.mp hlater
    have hg : LetGo rt m (received cmd).ipAddress (stateKey rt cmd) False (after mid) := by
      refine (runs_letGo rt hm hlater'.1 hmid hstart).finished rt fun goal _ hu => ?_
      exact Bool.noConfusion (hdone.symm.trans hu.not_idle)
    have hend : LetGo rt m (received cmd).ipAddress (stateKey rt cmd) False (after (mid++later)) := by
      have he : after (mid++later)=runs (taskStep rt .nft) (after mid) later :=
        runs_append _ s (.receive cmd::mid) later
      rw [he]
      exact runs_letGo rt hm hlater'.2 hlate hg
    have gone {set : NftSet} {elem : String}
        (hd : DeviceElem m (received cmd).ipAddress set elem) :
        elem ∉ (after (mid++later)).shared.sets set :=
      (hend.sets set elem hd).elim (fun h => absurd h.1 id) And.left
    refine ⟨gone (.inl ⟨action,rfl,rfl⟩),fun hu => gone (.inr ⟨action,rfl,rfl,hu⟩),?_⟩
    intro entry he hu
    rw [hip entry he] at hu ⊢
    exact gone (.inr ⟨action,rfl,rfl,hu⟩)
  · subst hrest
    obtain ⟨hmid,hlate⟩ := (guarded_append _ _ _ _ _).mp hok
    have hlater' := List.forall_mem_append.mp hlater
    have hg : LetGo rt m (received cmd).ipAddress (stateKey rt cmd) False (after mid) := by
      refine (runs_letGo rt hm hlater'.1 hmid hstart).finished rt fun goal hgoal hu => ?_
      change ((after mid).tasks .consumer).Until IsNft goal at hu
      rw [hcall] at hu
      rcases hu with hu | ⟨hu,-⟩
      · exact hgoal _ hu rfl
      · exact hu
    have hquiet := hlate.1 _ k hcall hdst
    have he : after (mid++.advance .consumer env::later)=
        runs (taskStep rt .nft) (after mid) (.advance .consumer env::later) :=
      runs_append _ s (.receive cmd::mid) (.advance .consumer env::later)
    rw [he]
    exact (runs_unpoisoned rt hm hlater'.2 hlate hp hg hquiet).frames

/-- Where the state is empty, no pass is in progress and nothing fails, every step of the consumer
meets the condition. -/
theorem stepOk_of_calm {s : Service} (hre : (s.tasks .reinforce).idle=true)
    (hpo : (s.tasks .repoison).idle=true) (hstate : s.shared.entries.isEmpty=true)
    (route : Option String) : StepOk rt m ip key s (.advance .consumer (.calm route none)) := by
  intro op k hp
  unfold ConsumerOk
  split
  · exact fun _ => ⟨fun hf => absurd hf (by simp [Env.calm]),.inr (Proc.only_of_idle hre)⟩
  · intro _ other entry _ hl
    have hmem := mem_entries.mpr hl
    rw [List.isEmpty_iff.mp hstate] at hmem
    cases hmem
  · exact fun _ => .inr (Proc.only_of_idle hpo)
  · intro hl
    cases hl
  · trivial

/-- A device is blocked and allowed again, and a tick follows. -/
theorem allow_is_final_run :
    let env : Env := .calm none none
    let block : EnforcementCommand := ⟨"AA-BB-CC-DD-EE-01","","denied","",none,none⟩
    let allow : EnforcementCommand := ⟨"aabb.ccdd.ee01","","allow","",none,none⟩
    let s := runs (taskStep .ascii .nft) (.initial none)
      [.receive block,.advance .consumer env,.advance .consumer env]
    let m := MacAddr.mk 0xaa 0xbb 0xcc 0xdd 0xee 1
    m.text ∉ (runs (taskStep .ascii .nft) s [.receive allow,.advance .consumer env,
      .advance .consumer env,.advance .consumer env,.reinforceTick]).shared.sets (macSet .block) := by
  intro env block allow s m
  have hok : Guarded (taskStep .ascii .nft) (StepOk .ascii m (received allow).ipAddress
      (stateKey .ascii allow)) (taskStep .ascii .nft s (.receive allow))
      [.advance .consumer env,.advance .consumer env,.advance .consumer env,.reinforceTick] :=
    ⟨stepOk_of_calm _ (by decide +kernel) (by decide +kernel) (by decide +kernel) none,
      stepOk_of_calm _ (by decide +kernel) (by decide +kernel) (by decide +kernel) none,
      stepOk_of_calm _ (by decide +kernel) (by decide +kernel) (by decide +kernel) none,
      trivial,trivial⟩
  have idle : ((runs (taskStep .ascii .nft) s [.receive allow,.advance .consumer env,
      .advance .consumer env,.advance .consumer env]).tasks .consumer).idle=true := by
    decide +kernel
  have reachable : Reachable .ascii s :=
    ⟨none,[.receive block,.advance .consumer env,.advance .consumer env],rfl⟩
  have waiting : (s.tasks .consumer).idle=true := by decide +kernel
  have fresh : ∀ entry, s.shared.state.lookup (stateKey .ascii allow)=some entry →
      entry.victimIp.text=(received allow).ipAddress := by
    have he : s.shared.state.lookup (stateKey .ascii allow)=none := by decide +kernel
    simp [he]
  have later : ∀ step ∈ [TaskStep.advance .consumer env,.advance .consumer env,
      .advance .consumer env,.reinforceTick], NoLater m step := by
    simp [NoLater]
  obtain ⟨hsets,-⟩ := allow_is_final .ascii reachable allow _ (by decide : m≠.broadcast)
    (by decide) (by decide) waiting fresh later hok
  obtain ⟨gone,-⟩ := hsets [.advance .consumer env,.advance .consumer env,.advance .consumer env]
    [.reinforceTick] rfl idle .block
  beta_reduce at gone
  exact gone

/-- A reinforcement pass takes its snapshot before the allow of a device and replays it after:
with no task left at work the device is blocked again. -/
theorem tick_brings_device_back :
    let env : Env := .calm none none
    let block : EnforcementCommand :=
      ⟨"aa:bb:cc:dd:ee:01","10.0.0.7","denied","10.0.0.1",none,none⟩
    let allow : EnforcementCommand := ⟨"aa:bb:cc:dd:ee:01","10.0.0.7","allow","",none,none⟩
    let blocked := runs (taskStep .ascii .nft) (.initial none)
      (.receive block::List.replicate 7 (.advance .consumer env)++
        [.reinforceTick,.advance .reinforce env])
    let allowed := runs (taskStep .ascii .nft) blocked
      (.receive allow::List.replicate 8 (.advance .consumer env))
    let final := runs (taskStep .ascii .nft) allowed (List.replicate 4 (.advance .reinforce env))
    let m := MacAddr.mk 0xaa 0xbb 0xcc 0xdd 0xee 1
    (blocked.tasks .consumer).idle=true ∧
    (allowed.tasks .consumer).idle=true ∧ m.text ∉ allowed.shared.sets .blockedMacs ∧
    (∀ task, (final.tasks task).idle=true) ∧ m.text ∈ final.shared.sets .blockedMacs ∧
      "10.0.0.7" ∈ final.shared.sets .blockedIps := by
  refine ⟨by decide +kernel,by decide +kernel,by decide +kernel,fun task => ?_,by decide +kernel,
    by decide +kernel⟩
  cases task <;> decide +kernel

end Final

end NacPlatform.Enforcement
