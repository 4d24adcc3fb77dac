import NacPlatform.Enforcement.IpRules
import NacPlatform.Enforcement.Reinforce

namespace NacPlatform.Enforcement

/-- The address a command can put into an IP set or take out of one. -/
def commandIp (c : Env × EnforcementCommand) : Option Ipv4Addr :=
  (ipOpt (received c.2)).bind Ipv4Addr.parse

def commandMac (c : Env × EnforcementCommand) : Option MacAddr := parseMac c.2.macAddress

/-- A command for a device, with an IPv4 address or none, handled while a gateway is known and
nothing fails. -/
structure DeviceCommand (c : Env × EnforcementCommand) : Prop where
  mac : (commandMac c).isSome=true
  ip : (received c.2).ipAddress="" ∨ ∃ x : Ipv4Addr, (received c.2).ipAddress=x.text
  gateway : (knownGateway c.1 (received c.2)).isSome=true
  works : c.1.Works

/-- An allow carries the address of every entry of its device, under whatever key. -/
def CarriesKnown (h : Host) (c : Env × EnforcementCommand) : Prop :=
  isAllowAction c.2.action=true → ∀ key entry, h.state.lookup key=some entry →
    commandMac c=some entry.victimMac → commandIp c=some entry.victimIp

/-- No address is used by two devices. -/
def OwnAddresses (cmds : List (Env × EnforcementCommand)) : Prop :=
  ∀ c ∈ cmds, ∀ d ∈ cmds, ∀ x, commandIp c=some x → commandIp d=some x →
    commandMac c=commandMac d

/-- Every device is spelled in one way, letter case aside. -/
def OneSpelling (rt : Runtime) (cmds : List (Env × EnforcementCommand)) : Prop :=
  ∀ c ∈ cmds, ∀ d ∈ cmds, commandMac c=commandMac d → stateKey rt c.2=stateKey rt d.2

/-- After each allow, no address that an earlier block or quarantine of the device carried is in
an IP set. -/
def Releases (rt : Runtime) (h : Host) (cmds : List (Env × EnforcementCommand)) : Prop :=
  ∀ pre c post, cmds=pre++c::post → isAllowAction c.2.action=true →
    ∀ d ∈ pre, isAllowAction d.2.action=false → commandMac d=commandMac c →
      ∀ x, commandIp d=some x → ∀ a,
        x.text ∉ (handle rt .nft (runs (handle rt .nft) h pre) c).sets (ipSet a)

section Effect

variable (rt : Runtime) {c : Env × EnforcementCommand}

/-- What address such a command carries is an IPv4 address in dotted decimal. -/
theorem DeviceCommand.carried (hc : DeviceCommand c) {ip : String}
    (hip : ipOpt (received c.2)=some ip) :
    ∃ x : Ipv4Addr, ip=x.text ∧ (received c.2).ipAddress=x.text ∧ usableIp x.text=true := by
  rw [ipOpt_eq,Option.filter_eq_some_iff] at hip
  obtain ⟨e,hu⟩ := hip
  have hsame := Option.some.inj e
  subst hsame
  cases hc.ip with
  | inl hempty =>
    rw [hempty] at hu
    exact absurd hu (by decide)
  | inr hplain =>
    obtain ⟨y,hy⟩ := hplain
    rw [hy] at hu
    exact ⟨y,hy,hy,hu⟩

theorem DeviceCommand.address (hc : DeviceCommand c) {x : Ipv4Addr} (hx : commandIp c=some x) :
    (received c.2).ipAddress=x.text ∧ usableIp x.text=true := by
  obtain ⟨ip,hip,hparse⟩ := Option.bind_eq_some_iff.mp hx
  obtain ⟨y,rfl,hplain⟩ := hc.carried hip
  rw [Ipv4Addr.parse_text] at hparse
  have same := Option.some.inj hparse
  subst same
  exact hplain

theorem DeviceCommand.ipOpt_none (hc : DeviceCommand c) (hx : commandIp c=none) :
    ipOpt (received c.2)=none := by
  cases hip : ipOpt (received c.2) with
  | none => rfl
  | some ip =>
    obtain ⟨y,rfl,_⟩ := hc.carried hip
    rw [commandIp,hip,Option.bind_some,Ipv4Addr.parse_text] at hx
    cases hx

theorem DeviceCommand.ipOpt_some (hc : DeviceCommand c) {x : Ipv4Addr}
    (hx : commandIp c=some x) : ipOpt (received c.2)=some x.text := by
  obtain ⟨hip,hu⟩ := hc.address hx
  rw [ipOpt_eq,hip,Option.filter,if_pos hu]

/-- An allow takes out the address it carries, and no other. -/
theorem DeviceCommand.allow_inIps (hc : DeviceCommand c) (ha : isAllowAction c.2.action=true)
    (h : Host) (x : Ipv4Addr) (a : NacAction) :
    (handle rt .nft h c).inIps x.text a ↔ commandIp c≠some x ∧ h.inIps x.text a := by
  rw [handle_eq,if_pos ha,executeAllow_inIps rt hc.works]
  have carried : ipOpt (received c.2)=some x.text ↔ commandIp c=some x := by
    cases hip : commandIp c with
    | none => simp [hc.ipOpt_none hip]
    | some y =>
      rw [hc.ipOpt_some hip,Option.some.injEq,Option.some.injEq,Ipv4Addr.text_inj]
  rw [Ne,carried]

theorem DeviceCommand.treat_inIps (hc : DeviceCommand c) (ha : isAllowAction c.2.action=false)
    {ip : Ipv4Addr} (hip : commandIp c=some ip) (h : Host) (x : Ipv4Addr) (a : NacAction) :
    (handle rt .nft h c).inIps x.text a ↔
      if x=ip then mapAction c.2.action=a
      else (∀ old, h.state.lookup (stateKey rt c.2)=some old → old.victimIp≠x) ∧
        h.inIps x.text a := by
  have named := hc.ipOpt_some hip
  rw [handle_eq,if_neg (by simp [ha])]
  simp only [executeCommand_inIps rt hc.works,named,Option.some.injEq,Ipv4Addr.text_inj,
    received_action]
  by_cases hx : x=ip
  · rw [if_pos hx.symm,if_pos hx]
  · have hx' : ¬ip=x := fun e => hx e.symm
    rw [if_neg hx',if_neg hx,leftIp_ne_iff rt named hx,stateKey_received]

theorem DeviceCommand.treat_none_inIps (hc : DeviceCommand c)
    (ha : isAllowAction c.2.action=false) (hip : commandIp c=none) (h : Host) (x : Ipv4Addr)
    (a : NacAction) : (handle rt .nft h c).inIps x.text a ↔ h.inIps x.text a := by
  rw [handle_eq,if_neg (by simp [ha])]
  simp [executeCommand_inIps rt hc.works,leftIp,hc.ipOpt_none hip]

/-- A block or quarantine with an address is remembered by it. -/
theorem DeviceCommand.treat_state (hc : DeviceCommand c) (ha : isAllowAction c.2.action=false)
    {ip : Ipv4Addr} (hip : commandIp c=some ip) (h : Host) :
    ∃ entry, entry.victimIp=ip ∧ commandMac c=some entry.victimMac ∧
      (handle rt .nft h c).state=h.state.insert (stateKey rt c.2) entry := by
  obtain ⟨m,hm⟩ := Option.isSome_iff_exists.mp hc.mac
  obtain ⟨gw,hgw⟩ := Option.isSome_iff_exists.mp hc.gateway
  have sent : (h.spoofer.all fun myMac => poisonOk c.1 myMac ip m gw)=true := by
    cases h.spoofer <;> simp [poisonOk,hc.works.send]
  have hm' : parseMac (received c.2).macAddress=some m := hm
  have entry : commandEntry c.1 h.spoofer (received c.2)=
      some ⟨ip,m,gw,mapAction (received c.2).action⟩ := by
    simp only [commandEntry,hc.ipOpt_some hip,Option.bind_eq_bind,Option.bind_some,
      Ipv4Addr.parse_text,hm',hgw,sent,if_true]
  refine ⟨⟨ip,m,gw,mapAction (received c.2).action⟩,rfl,hm,?_⟩
  rw [handle_state rt hc.works.macsOk,if_neg (by simp [ha]),entry]

theorem DeviceCommand.treat_none_state (hc : DeviceCommand c)
    (ha : isAllowAction c.2.action=false) (hip : commandIp c=none) (h : Host) :
    (handle rt .nft h c).state=h.state := by
  have entry : commandEntry c.1 h.spoofer (received c.2)=none := by
    simp [commandEntry,hc.ipOpt_none hip]
  rw [handle_state rt hc.works.macsOk,if_neg (by simp [ha]),entry]

theorem DeviceCommand.allow_state (hc : DeviceCommand c) (ha : isAllowAction c.2.action=true)
    (h : Host) : (handle rt .nft h c).state=h.state.erase (stateKey rt c.2) := by
  rw [handle_state rt hc.works.macsOk,if_pos ha]

end Effect

/-- Every entry is the trace of an earlier block or quarantine. -/
def Named (rt : Runtime) (cmds : List (Env × EnforcementCommand)) (h : Host) : Prop :=
  ∀ key entry, h.state.lookup key=some entry → ∃ d ∈ cmds, stateKey rt d.2=key ∧
    isAllowAction d.2.action=false ∧ commandMac d=some entry.victimMac ∧
      commandIp d=some entry.victimIp

/-- Every address in an IP set is the address of an entry. -/
def Covered (h : Host) : Prop :=
  ∀ x a, h.inIps (Ipv4Addr.text x) a →
    ∃ key entry, h.state.lookup key=some entry ∧ entry.victimIp=x

/-- The address of every entry is in an IP set. -/
def Held (h : Host) : Prop :=
  ∀ key entry, h.state.lookup key=some entry → ∃ a, h.inIps entry.victimIp.text a

section Invariants

variable (rt : Runtime) {c : Env × EnforcementCommand} {h : Host}

theorem named_step {cmds : List (Env × EnforcementCommand)} (hn : Named rt cmds h)
    (hc : DeviceCommand c) : Named rt (cmds++[c]) (handle rt .nft h c) := by
  have old {key : String} {entry : QuarantineEntry} (hl : h.state.lookup key=some entry) :
      ∃ d ∈ cmds++[c], stateKey rt d.2=key ∧ isAllowAction d.2.action=false ∧
        commandMac d=some entry.victimMac ∧ commandIp d=some entry.victimIp := by
    obtain ⟨d,hd,hrest⟩ := hn key entry hl
    exact ⟨d,List.mem_append_left _ hd,hrest⟩
  intro key entry hl
  cases ha : isAllowAction c.2.action with
  | true =>
    rw [hc.allow_state rt ha,lookup_erase_eq] at hl
    exact old hl.2
  | false =>
    cases hip : commandIp c with
    | none =>
      rw [hc.treat_none_state rt ha hip] at hl
      exact old hl
    | some ip =>
      obtain ⟨new,hnew,hmac,hstate⟩ := hc.treat_state rt ha hip h
      rw [hstate,lookup_insert_eq] at hl
      split at hl
      · rename_i hk
        subst hl
        exact ⟨c,List.mem_append_right _ (List.mem_singleton_self c),hk.symm,ha,hmac,
          hnew ▸ hip⟩
      · exact old hl

/-- An allow that carries what is known of its device leaves no address without an entry. -/
theorem covered_step {cmds : List (Env × EnforcementCommand)} (hn : Named rt cmds h)
    (hcov : Covered h) (hc : DeviceCommand c) (hknown : CarriesKnown h c) :
    Covered (handle rt .nft h c) := by
  intro x a hin
  cases ha : isAllowAction c.2.action with
  | true =>
    rw [hc.allow_inIps rt ha] at hin
    obtain ⟨key,entry,hl,hx⟩ := hcov x a hin.2
    refine ⟨key,entry,?_,hx⟩
    rw [hc.allow_state rt ha,lookup_erase_eq]
    refine ⟨?_,hl⟩
    intro hk
    -- the entry of this device would carry the address that the allow has just taken out
    obtain ⟨d,-,hdk,-,hdm,-⟩ := hn key entry hl
    have same : commandMac d=commandMac c := by
      rw [commandMac,commandMac,← parseMac_stateKey rt d.2,← parseMac_stateKey rt c.2,hdk,hk]
    have hcar := hknown ha key entry hl (same ▸ hdm)
    exact hin.1 (hx ▸ hcar)
  | false =>
    cases hip : commandIp c with
    | none =>
      rw [hc.treat_none_inIps rt ha hip] at hin
      rw [hc.treat_none_state rt ha hip]
      exact hcov x a hin
    | some ip =>
      obtain ⟨new,hnew,-,hstate⟩ := hc.treat_state rt ha hip h
      rw [hc.treat_inIps rt ha hip] at hin
      by_cases hx : x=ip
      · refine ⟨stateKey rt c.2,new,?_,hnew.trans hx.symm⟩
        rw [hstate,AList.lookup_insert]
      · rw [if_neg hx] at hin
        obtain ⟨key,entry,hl,hxe⟩ := hcov x a hin.2
        refine ⟨key,entry,?_,hxe⟩
        have hk : key≠stateKey rt c.2 := fun e => hin.1 entry (e ▸ hl) hxe
        rw [hstate,AList.lookup_insert_ne hk]
        exact hl

/-- Where devices have addresses and spellings of their own, no command of one takes the address
of another out. -/
theorem held_step {cmds : List (Env × EnforcementCommand)} (hn : Named rt cmds h)
    (hheld : Held h) (hc : DeviceCommand c) (hown : OwnAddresses (cmds++[c]))
    (hone : OneSpelling rt (cmds++[c])) : Held (handle rt .nft h c) := by
  have mem : c ∈ cmds++[c] := List.mem_append_right _ (List.mem_singleton_self c)
  intro key entry hl
  cases ha : isAllowAction c.2.action with
  | true =>
    rw [hc.allow_state rt ha,lookup_erase_eq] at hl
    obtain ⟨hk,hl⟩ := hl
    obtain ⟨a,hin⟩ := hheld key entry hl
    refine ⟨a,?_⟩
    rw [hc.allow_inIps rt ha]
    refine ⟨?_,hin⟩
    intro hcar
    obtain ⟨d,hd,hdk,-,-,hdip⟩ := hn key entry hl
    have hd := List.mem_append_left [c] hd
    have same := hown c mem d hd _ hcar hdip
    exact hk (hdk.symm.trans (hone c mem d hd same).symm)
  | false =>
    cases hip : commandIp c with
    | none =>
      rw [hc.treat_none_state rt ha hip] at hl
      simp only [hc.treat_none_inIps rt ha hip]
      exact hheld key entry hl
    | some ip =>
      obtain ⟨new,hnew,-,hstate⟩ := hc.treat_state rt ha hip h
      rw [hstate,lookup_insert_eq] at hl
      split at hl
      · subst hl
        refine ⟨mapAction c.2.action,?_⟩
        rw [hc.treat_inIps rt ha hip,if_pos hnew]
      · rename_i hk
        by_cases hx : entry.victimIp=ip
        · refine ⟨mapAction c.2.action,?_⟩
          rw [hc.treat_inIps rt ha hip,if_pos hx]
        · obtain ⟨a,hin⟩ := hheld key entry hl
          refine ⟨a,?_⟩
          rw [hc.treat_inIps rt ha hip,if_neg hx]
          refine ⟨?_,hin⟩
          intro old hold e
          -- the command's own entry has another device's address only if the two are one
          obtain ⟨d,hd,hdk,-,-,hdip⟩ := hn key entry hl
          obtain ⟨d',hd',hdk',-,-,hdip'⟩ := hn _ old hold
          have hd := List.mem_append_left [c] hd
          have hd' := List.mem_append_left [c] hd'
          have same := hown d hd d' hd' _ hdip (e ▸ hdip')
          exact hk (hdk.symm.trans ((hone d hd d' hd' same).trans hdk'))

section Runs

variable (spoofer : Option MacAddr)

theorem run_named (cmds : List (Env × EnforcementCommand)) (hc : ∀ c ∈ cmds, DeviceCommand c) :
    Named rt cmds (runs (handle rt .nft) (.empty spoofer) cmds) := by
  induction cmds using List.reverseRecOn with
  | nil =>
    intro key entry hl
    cases hl
  | append_singleton cmds c ih =>
    rw [runs_append]
    exact named_step rt (ih fun d hd => hc d (List.mem_append_left _ hd))
      (hc c (List.mem_append_right _ (List.mem_singleton_self c)))

theorem run_covered (cmds : List (Env × EnforcementCommand)) (hc : ∀ c ∈ cmds, DeviceCommand c)
    (hg : Guarded (handle rt .nft) CarriesKnown (.empty spoofer) cmds) :
    Covered (runs (handle rt .nft) (.empty spoofer) cmds) := by
  induction cmds using List.reverseRecOn with
  | nil =>
    intro x a hin
    simp [Host.inIps,Host.empty] at hin
  | append_singleton cmds c ih =>
    have hcmds : ∀ d ∈ cmds, DeviceCommand d := fun d hd => hc d (List.mem_append_left _ hd)
    obtain ⟨hg,hlast⟩ := (guarded_append ..).mp hg
    rw [runs_append]
    exact covered_step rt (run_named rt spoofer cmds hcmds) (ih hcmds hg)
      (hc c (List.mem_append_right _ (List.mem_singleton_self c))) hlast.1

theorem run_held (cmds : List (Env × EnforcementCommand)) (hc : ∀ c ∈ cmds, DeviceCommand c)
    (hown : OwnAddresses cmds) (hone : OneSpelling rt cmds) :
    Held (runs (handle rt .nft) (.empty spoofer) cmds) := by
  induction cmds using List.reverseRecOn with
  | nil =>
    intro key entry hl
    cases hl
  | append_singleton cmds c ih =>
    have left {d} (hd : d ∈ cmds) : d ∈ cmds++[c] := List.mem_append_left _ hd
    have hcmds : ∀ d ∈ cmds, DeviceCommand d := fun d hd => hc d (left hd)
    have hheld := ih hcmds (fun d hd e he => hown d (left hd) e (left he))
      fun d hd e he => hone d (left hd) e (left he)
    rw [runs_append]
    exact held_step rt (run_named rt spoofer cmds hcmds) hheld
      (hc c (List.mem_append_right _ (List.mem_singleton_self c))) hown hone

end Runs

end Invariants

/-- An allow releases all addresses its device was ever blocked or quarantined by, as long as
every allow carries the address of each entry its device has. Where each device is spelled in one
way this is also needed. -/
theorem allow_releases (rt : Runtime) (spoofer : Option MacAddr)
    (cmds : List (Env × EnforcementCommand)) (hc : ∀ c ∈ cmds, DeviceCommand c)
    (hown : OwnAddresses cmds) :
    (Guarded (handle rt .nft) CarriesKnown (.empty spoofer) cmds →
      Releases rt (.empty spoofer) cmds) ∧
    (OneSpelling rt cmds → Releases rt (.empty spoofer) cmds →
      Guarded (handle rt .nft) CarriesKnown (.empty spoofer) cmds) := by
  constructor
  · intro hg pre c post same ha d hd _ hdm x hdx a hin
    subst same
    have mem {e} (he : e ∈ pre) : e ∈ pre++c::post := List.mem_append_left _ he
    have hpre : ∀ e ∈ pre, DeviceCommand e := fun e he => hc e (mem he)
    have hdev : DeviceCommand c := hc c (List.mem_append_right _ List.mem_cons_self)
    obtain ⟨hg,hlast⟩ := (guarded_append ..).mp hg
    obtain ⟨hne,hin⟩ := (hdev.allow_inIps rt ha _ x a).mp hin
    obtain ⟨key,entry,hl,hx⟩ := run_covered rt spoofer pre hpre hg x a hin
    obtain ⟨e,he,-,-,hem,hex⟩ := run_named rt spoofer pre hpre key entry hl
    -- whoever was blocked by this address is the device of the allow
    have same := hown d (mem hd) e (mem he) x hdx (hx ▸ hex)
    have hmac : commandMac c=some entry.victimMac := hdm.symm.trans (same.trans hem)
    exact hne (hx ▸ hlast.1 ha key entry hl hmac)
  · intro hone hrel
    rw [guarded_iff]
    intro pre c post hsplit ha key entry hl hmac
    subst hsplit
    have mem {e} (he : e ∈ pre) : e ∈ pre++c::post := List.mem_append_left _ he
    have hpre : ∀ e ∈ pre, DeviceCommand e := fun e he => hc e (mem he)
    have hdev : DeviceCommand c := hc c (List.mem_append_right _ List.mem_cons_self)
    obtain ⟨d,hd,-,hda,hdm,hdx⟩ := run_named rt spoofer pre hpre key entry hl
    obtain ⟨a,hin⟩ := run_held rt spoofer pre hpre
      (fun e he f hf => hown e (mem he) f (mem hf))
      (fun e he f hf => hone e (mem he) f (mem hf)) key entry hl
    have gone := hrel pre c post rfl ha d hd hda (hdm.trans hmac.symm) _ hdx a
    by_contra hne
    exact gone ((hdev.allow_inIps rt ha _ entry.victimIp a).mpr ⟨hne,hin⟩)

/-- A command as it arrives on a system with the default gateway 10.0.0.1. -/
def sampleCommand (mac ip action : String) : Env × EnforcementCommand :=
  (.calm (some "Iface Destination Gateway\neth0 00000000 0100000A") none,
    ⟨mac,ip,action,"",none,none⟩)

def sampleBlock : Env × EnforcementCommand :=
  sampleCommand "AA:BB:CC:DD:EE:01" "10.0.0.7/32" "block"

theorem sampleBlock_device : DeviceCommand sampleBlock :=
  ⟨by decide,.inr ⟨⟨10,0,0,7⟩,by decide⟩,by decide,fun _ _ _ => rfl,fun _ => rfl⟩

theorem allow_releases_run :
    Releases .ascii (.empty none)
      [sampleBlock,sampleCommand "AA:BB:CC:DD:EE:01" "10.0.0.7" "allow"] := by
  have device : DeviceCommand (sampleCommand "AA:BB:CC:DD:EE:01" "10.0.0.7" "allow") :=
    ⟨by decide,.inr ⟨⟨10,0,0,7⟩,by decide⟩,by decide,fun _ _ _ => rfl,fun _ => rfl⟩
  have hc : ∀ c ∈ [sampleBlock,sampleCommand "AA:BB:CC:DD:EE:01" "10.0.0.7" "allow"],
      DeviceCommand c :=
    List.forall_mem_cons.mpr ⟨sampleBlock_device,List.forall_mem_singleton.mpr device⟩
  have mac : ∀ c ∈ [sampleBlock,sampleCommand "AA:BB:CC:DD:EE:01" "10.0.0.7" "allow"],
      commandMac c=some ⟨0xaa,0xbb,0xcc,0xdd,0xee,1⟩ :=
    List.forall_mem_cons.mpr ⟨by decide,List.forall_mem_singleton.mpr (by decide)⟩
  have own : OwnAddresses
      [sampleBlock,sampleCommand "AA:BB:CC:DD:EE:01" "10.0.0.7" "allow"] :=
    fun c hm d hd _ _ _ => (mac c hm).trans (mac d hd).symm
  apply (allow_releases .ascii none
    [sampleBlock,sampleCommand "AA:BB:CC:DD:EE:01" "10.0.0.7" "allow"] hc own).1
  have blocked : CarriesKnown (.empty none) sampleBlock := fun ha => absurd ha (by decide)
  refine ⟨blocked,?_,trivial⟩
  intro _ key entry hl _
  obtain ⟨d,hd,-,-,-,hip⟩ := run_named .ascii none [sampleBlock]
    (fun c hm => List.mem_singleton.mp hm ▸ sampleBlock_device) key entry hl
  rw [List.mem_singleton.mp hd] at hip
  rw [← hip]
  decide

/-- An allow without an address leaves the one its device was blocked by. -/
theorem allow_keeps_blocked_address :
    ¬∀ cmds : List (Env × EnforcementCommand), (∀ c ∈ cmds, DeviceCommand c) →
      OwnAddresses cmds → OneSpelling .ascii cmds → Releases .ascii (.empty none) cmds := by
  intro h
  have device : DeviceCommand (sampleCommand "AA:BB:CC:DD:EE:01" "" "allow") :=
    ⟨by decide,.inl (by decide),by decide,fun _ _ _ => rfl,fun _ => rfl⟩
  have hc : ∀ c ∈ [sampleBlock,sampleCommand "AA:BB:CC:DD:EE:01" "" "allow"],
      DeviceCommand c :=
    List.forall_mem_cons.mpr ⟨sampleBlock_device,List.forall_mem_singleton.mpr device⟩
  have mac : ∀ c ∈ [sampleBlock,sampleCommand "AA:BB:CC:DD:EE:01" "" "allow"],
      c.2.macAddress="AA:BB:CC:DD:EE:01" :=
    List.forall_mem_cons.mpr ⟨rfl,List.forall_mem_singleton.mpr rfl⟩
  have kept := h [sampleBlock,sampleCommand "AA:BB:CC:DD:EE:01" "" "allow"] hc
    (fun c hm d hd _ _ _ => by rw [commandMac,commandMac,mac c hm,mac d hd])
    (fun c hm d hd _ => by rw [stateKey,stateKey,mac c hm,mac d hd])
    [sampleBlock] (sampleCommand "AA:BB:CC:DD:EE:01" "" "allow") [] rfl (by decide)
    sampleBlock List.mem_cons_self (by decide) rfl ⟨10,0,0,7⟩ (by decide) .block
  exact kept (by decide +kernel)

end NacPlatform.Enforcement
