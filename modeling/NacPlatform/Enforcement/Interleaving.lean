import NacPlatform.Enforcement.Tasks
import NacPlatform.Enforcement.Remembered

namespace NacPlatform.Enforcement

/-! What an allow leaves behind when the background passes run in between. Throughout, `m` is the
hardware address of the device, `ip` the address its allow carries and `key` the key of its entry. -/

/-- The nft elements that stand for the device. -/
def DeviceElem (m : MacAddr) (ip : String) (set : NftSet) (elem : String) : Prop :=
  (∃ a, set=macSet a ∧ elem=m.text) ∨ (∃ a, set=ipSet a ∧ elem=ip ∧ usableIp ip=true)

/-- Entries about the device, under whatever key. -/
def EntryOf (m : MacAddr) (ip : String) (key : String) (entry : QuarantineEntry) : Prop :=
  parseMac key=some m ∨ entry.victimMac=m ∨ (usableIp ip=true ∧ entry.victimIp.text=ip)

/-- The elements that a replay of the entry adds. -/
def Adds (rt : Runtime) (key : String) (entry : QuarantineEntry) (set : NftSet)
    (elem : String) : Prop :=
  (set=macSet entry.action ∧ elem=nftMac rt key) ∨
  (set=ipSet entry.action ∧ elem=entry.victimIp.text)

/-- The command names the address as it stands or in another spelling. -/
def NamesIp (cmd : EnforcementCommand) (ip : String) : Prop :=
  (received cmd).ipAddress=ip ∨ ∃ a, Ipv4Addr.parse (received cmd).ipAddress=some a ∧ a.text=ip

/-- Operations that bring nothing of the device back. -/
def OffDevice (m : MacAddr) (ip : String) : EnfOp → Prop
  | .nft .add set elem => ¬DeviceElem m ip set elem
  | .stateInsert key entry => ¬EntryOf m ip key entry
  | .sendFrame .poison frame => frame.dst≠m
  | _ => True

/-- The ARP cache gives the device's hardware address for no gateway. -/
def LooksElsewhere (m : MacAddr) : (op : EnfOp) → op.Reply → Prop
  | .arpLookup _, mac => mac≠some m
  | _, _ => True

def IsNft : EnfOp → Prop
  | .nft .. => True
  | _ => False

/-- Operations of a reinforcement pass. -/
def ReplayOp (op : EnfOp) : Prop := op=.stateSnapshot ∨ IsNft op

/-- Operations of a re-poison pass. -/
def RepoisonOp (op : EnfOp) : Prop := op=.stateSnapshot ∨ ArpOp .poison op

section Passes

variable (rt : Runtime)

theorem nftMac_eq_text {mac : String} {m : MacAddr} :
    nftMac rt mac=m.text ↔ parseMac mac=some m := by
  refine ⟨fun h => ?_,nftMac_eq rt⟩
  by_cases hl : (hexDigits mac).length=12
  · obtain ⟨m',hm'⟩ := MacAddr.ofHexDigits_isSome.mpr hl
    have ht := nftMac_eq rt hm'
    rw [h,MacAddr.text_inj] at ht
    exact ht ▸ hm'
  · exfalso
    have hn : nftMac rt mac=rt.toLowercase mac := by simp [nftMac,hl]
    have hd := congrArg hexDigits (hn.symm.trans h)
    rw [rt.hexDigits_toLowercase] at hd
    have hlen := MacAddr.ofHexDigits_isSome.mp ⟨m,MacAddr.ofHexDigits_text m⟩
    rw [← hd,List.length_map] at hlen
    exact hl hlen

/-- What adds an element of the device is an entry about the device. -/
theorem Adds.entryOf {m : MacAddr} {ip key : String} {entry : QuarantineEntry} {set : NftSet}
    {elem : String} (ha : Adds rt key entry set elem) (hd : DeviceElem m ip set elem) :
    EntryOf m ip key entry := by
  rcases ha with ⟨rfl,rfl⟩ | ⟨rfl,rfl⟩
  · rcases hd with ⟨a,-,hm⟩ | ⟨a,hs,-⟩
    · exact .inl ((nftMac_eq_text rt).mp hm)
    · exact absurd hs (macSet_ne_ipSet _ _)
  · rcases hd with ⟨a,hs,-⟩ | ⟨a,-,hip,hu⟩
    · exact absurd hs (ipSet_ne_macSet _ _)
    · exact .inr (.inr ⟨hu,hip⟩)

theorem reinforceEntries_performs {s : EnfOp → Prop} (entries : List (String × QuarantineEntry))
    (h : ∀ key entry, (key,entry) ∈ entries → ∀ op,
      TreatOp (nftMac rt key) (some entry.victimIp.text) entry.action op → s op) :
    Performs s (reinforceEntries rt .nft entries) := by
  induction entries with
  | nil => exact Proc.only_pure _
  | cons e entries ih =>
    obtain ⟨key,entry⟩ := e
    have treated : Performs s (treat rt .nft entry.action key (some entry.victimIp.text)) := by
      rw [treat_nft]
      exact (nftTreat_performs rt ..).mono (h key entry List.mem_cons_self)
    exact .bind treated.attempt fun _ =>
      ih fun key' entry' he => h key' entry' (List.mem_cons_of_mem _ he)

theorem reinforceEntries_replays (entries : List (String × QuarantineEntry)) :
    Performs ReplayOp (reinforceEntries rt .nft entries) :=
  reinforceEntries_performs rt entries fun _ _ _ op hop => by cases hop <;> exact .inr trivial

theorem reinforcePass_replays : Performs ReplayOp (reinforcePass rt .nft) :=
  .bind (Proc.only_perform.mpr (.inl rfl)) fun entries => reinforceEntries_replays rt entries

/-- A replay of entries of which none adds the element does not add it. -/
theorem reinforceEntries_quiet {entries : List (String × QuarantineEntry)} {set : NftSet}
    {elem : String} (h : ∀ key entry, (key,entry) ∈ entries → ¬Adds rt key entry set elem) :
    Performs (· ≠ .nft .add set elem) (reinforceEntries rt .nft entries) := by
  refine reinforceEntries_performs rt entries fun key entry he op hop => ?_
  have hn := h key entry he
  intro same
  subst same
  cases hop with
  | enterMac => exact hn (.inl ⟨rfl,rfl⟩)
  | enterIp x hx => exact hn (.inr ⟨rfl,(Option.some.inj hx).symm⟩)

theorem repoisonEntries_performs (myMac : MacAddr) (gw : Option Ipv4Addr)
    (entries : List (String × QuarantineEntry)) :
    Performs RepoisonOp (repoisonEntries myMac gw entries) := by
  induction entries with
  | nil => exact Proc.only_pure _
  | cons e entries ih =>
    refine .bind ?_ fun _ => ih
    rw [spoof_eq]
    exact ((poison_performs ..).mono fun _ => .inr).attempt

theorem repoisonPass_performs : Performs RepoisonOp repoisonPass := by
  refine .bind (Proc.only_perform.mpr (.inl rfl)) fun entries => ?_
  unfold repoisonRest
  split
  · exact Proc.only_pure _
  · refine .bind (Proc.only_perform.mpr (.inr trivial)) fun spoofer => ?_
    split
    · exact Proc.only_pure _
    · exact .bind (Proc.only_perform.mpr (.inr trivial)) fun _ => repoisonEntries_performs ..

end Passes

section Poisoning

variable {m : MacAddr} {ip : String}

/-- Poisoning another device does not reach the device, unless it is taken for the gateway. -/
theorem poison_offDevice (hm : m≠.broadcast) (myMac : MacAddr) (victimIp : Ipv4Addr)
    {victimMac : MacAddr} (hv : victimMac≠m) (gatewayIp : Ipv4Addr) :
    (poison myMac victimIp victimMac gatewayIp).Only (LooksElsewhere m) (OffDevice m ip) := by
  refine .bind (Proc.only_performOrFail.mpr hv) fun _ => ⟨trivial,fun mac hmac => ?_⟩
  refine Proc.only_performOrFail.mpr ?_
  cases mac with
  | none => exact hm.symm
  | some gwMac => exact fun e => hmac (congrArg some e)

theorem repoisonEntries_offDevice (hm : m≠.broadcast) (myMac : MacAddr) (gw : Option Ipv4Addr)
    {entries : List (String × QuarantineEntry)}
    (h : ∀ key entry, (key,entry) ∈ entries → entry.victimMac≠m) :
    (repoisonEntries myMac gw entries).Only (LooksElsewhere m) (OffDevice m ip) := by
  induction entries with
  | nil => trivial
  | cons e entries ih =>
    obtain ⟨key,entry⟩ := e
    refine .bind ?_ fun _ => ih fun key' entry' he => h key' entry' (List.mem_cons_of_mem _ he)
    rw [spoof_eq]
    exact (poison_offDevice hm _ _ (h key entry List.mem_cons_self) _).attempt

theorem repoisonRest_offDevice (hm : m≠.broadcast) {entries : List (String × QuarantineEntry)}
    (h : ∀ key entry, (key,entry) ∈ entries → entry.victimMac≠m) :
    (repoisonRest entries).Only (LooksElsewhere m) (OffDevice m ip) := by
  unfold repoisonRest
  split
  · exact Proc.only_pure _
  · refine .bind (Proc.only_perform.mpr trivial) fun spoofer => ?_
    split
    · exact Proc.only_pure _
    · exact .bind (Proc.only_perform.mpr trivial) fun gw => repoisonEntries_offDevice hm _ gw h

end Poisoning

section Commands

variable (rt : Runtime) {m : MacAddr} {ip : String} {cmd : EnforcementCommand}

theorem consume_only {allowed : (op : EnfOp) → op.Reply → Prop} {s : EnfOp → Prop}
    (hallow : isAllowAction cmd.action=true →
      (executeAllow rt .nft (received cmd)).Only allowed s)
    (hother : isAllowAction cmd.action=false →
      (executeCommand rt .nft (received cmd)).Only allowed s) :
    (consume rt .nft cmd).Only allowed s := by
  refine .bind (Proc.Only.attempt ?_) fun _ => Proc.only_pure _
  split
  · rename_i h
    exact hallow h
  · rename_i h
    exact hother (by simpa using h)

/-- An allow, of whatever device, brings nothing back. -/
theorem executeAllow_offDevice (cmd : EnforcementCommand) :
    Performs (OffDevice m ip) (executeAllow rt .nft cmd) := by
  refine .bind ((allow_performs rt _ _).mono ?_) fun _ => ?_
  · intro op given
    obtain ⟨set,elem,rfl⟩ := given
    trivial
  · refine .bind (Proc.only_perform.mpr trivial) fun entry => ?_
    refine (restoreArp_performs cmd entry).mono fun op hop => ?_
    cases op with
    | sendFrame kind frame =>
      obtain rfl : kind=.restore := hop
      trivial
    | nft verb set elem => exact absurd hop id
    | stateInsert key entry => exact absurd hop id
    | _ => trivial

/-- A block or quarantine of another device, on another address, brings nothing back. -/
theorem executeCommand_offDevice (hm : m≠.broadcast) (hmac : parseMac cmd.macAddress≠some m)
    (hip : usableIp ip=true → ¬NamesIp cmd ip) :
    (executeCommand rt .nft (received cmd)).Only (LooksElsewhere m) (OffDevice m ip) := by
  have release : Performs (OffDevice m ip) (releaseOldIp rt .nft (received cmd)) :=
    (releaseOldIp_performs rt _).mono fun op hop => by cases hop <;> trivial
  have treated : Performs (OffDevice m ip) (nftTreat rt (mapAction cmd.action) cmd.macAddress
      (ipOpt (received cmd))) := by
    refine (nftTreat_performs rt ..).mono fun op hop => ?_
    cases hop with
    | leaveMac => trivial
    | leaveIp x hx => trivial
    | enterMac =>
      intro given
      rcases given with ⟨a,-,he⟩ | ⟨a,hs,-⟩
      · exact hmac ((nftMac_eq_text rt).mp he)
      · exact macSet_ne_ipSet _ _ hs
    | enterIp x hx =>
      intro given
      rcases given with ⟨a,hs,-⟩ | ⟨a,-,he,hu⟩
      · exact ipSet_ne_macSet _ _ hs
      · rw [ipOpt_eq] at hx
        exact hip hu (.inl ((Option.some.inj (filter_eq_some hx)).trans he))
  have arp : (enforceArp rt (received cmd) (mapAction cmd.action)).Only (LooksElsewhere m)
      (OffDevice m ip) := by
    refine enforceArp_only rt _ _ trivial trivial (fun myMac victimIp victimMac gw hv => ?_) ?_
    · exact poison_offDevice hm myMac victimIp (fun e => hmac (e ▸ hv)) gw
    · intro op given
      obtain ⟨entry,-,hvm,hvi⟩ := given
      intro given
      rcases given with hk | hv | ⟨hu,he⟩
      · exact hmac ((rt.ofHexDigits_toLowercase _).symm.trans hk)
      · exact hmac (hv ▸ hvm)
      · exact hip hu (.inr ⟨_,hvi,he⟩)
  rw [executeCommand,treat_nft]
  exact .bind release.of_anyReply fun _ => .bind treated.of_anyReply fun _ => arp

end Commands

end NacPlatform.Enforcement
