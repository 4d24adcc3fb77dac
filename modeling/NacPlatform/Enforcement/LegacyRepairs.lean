import NacPlatform.Enforcement.Legacy
import NacPlatform.Enforcement.Reinforce

namespace NacPlatform.Enforcement

theorem treatRules_twice (m : MacAddr) (rules : Chain → List IptRule) (action : NacAction) :
    treatRules m (treatRules m rules action) action=treatRules m rules action := by
  funext chain
  cases action <;> cases chain
  · by_cases hin : dropRule (iptText m) ∈ rules .nacBlock <;> simp [treatRules,hin]
  · simp only [treatRules,List.filter_filter]
    exact List.filter_congr fun rule _ => by grind
  · simp [treatRules,List.filter_filter]
  · by_cases hin : dropRule (iptText m) ∈ rules .nacQuarantine <;> simp [treatRules,hin]

section Treatment

variable {env : Env} (rt : Runtime) {m : MacAddr}

/-- The firewall calls of a reinforcement tick, for the entries that it has taken out of the
state. -/
def tickCalls (entries : List (String × QuarantineEntry)) : List FirewallCall :=
  entries.map fun e => ⟨some e.2.action,e.1,some e.2.victimIp.text⟩

theorem reinforceEntries_calls (ipt : Backend) (env : Env)
    (entries : List (String × QuarantineEntry)) (h : Host) :
    ((reinforceEntries rt ipt entries).run (exec env) h).2=
      runs (callFirewall rt ipt env) h (tickCalls entries) := by
  induction entries generalizing h with
  | nil => rfl
  | cons e entries ih =>
    simp only [reinforceEntries,Proc.run_bind,Proc.run_attempt,ih]
    rfl

/-- Calls for a device that all ask for one action do as a single one does. -/
theorem runs_treatRules (hw : env.IptWorks) (calls : List FirewallCall)
    (hcalls : ∀ c ∈ calls, (hexDigits c.mac).length=12) {action : NacAction}
    (hown : ∀ c ∈ calls, parseMac c.mac=some m → c.action=some action) (h : Host) :
    (runs (callFirewall rt .iptablesLegacy env) h calls).rulesFor m=
      if ∃ c ∈ calls, parseMac c.mac=some m then treatRules m (h.rulesFor m) action
      else h.rulesFor m := by
  induction calls generalizing h with
  | nil => simp
  | cons c calls ih =>
    obtain ⟨hc,hcalls⟩ := List.forall_mem_cons.mp hcalls
    obtain ⟨hmine,hown⟩ := List.forall_mem_cons.mp hown
    obtain ⟨m',hm'⟩ : ∃ m, parseMac c.mac=some m := MacAddr.ofHexDigits_isSome.mpr hc
    rw [runs_cons,ih hcalls hown]
    by_cases hm : m'=m
    · subst hm
      have called : (callFirewall rt .iptablesLegacy env h c).rulesFor m'=
          treatRules m' (h.rulesFor m') action := by
        rw [callFirewall,FirewallCall.body,hmine hm']
        exact treat_rulesFor rt hw h action hm' c.ip
      rw [called,treatRules_twice,ite_self,if_pos ⟨c,List.mem_cons_self,hm'⟩]
    · have same : (callFirewall rt .iptablesLegacy env h c).rulesFor m=h.rulesFor m :=
        (call_performs rt hm').run_frame (fun h => h.rulesFor m)
          (exec_rulesFor_ne env fun e => hm e.symm) h
      have hother : ¬parseMac c.mac=some m := fun e => hm (Option.some.inj (hm'.symm.trans e))
      rw [same]
      simp [hother]

end Treatment

section Verdicts

variable {m : MacAddr}

theorem mem_sublists_three {α : Type} {l : List α} {a b c : α} (h : l.Sublist [a,b,c]) :
    l ∈ [[],[a],[b],[c],[a,b],[a,c],[b,c],[a,b,c]] := by
  simp only [List.sublist_cons_iff,List.sublist_nil] at h
  grind

/-- What some rules of a quarantine do without the others. -/
theorem quarantineRules_verdict {rules : List IptRule}
    (hleft : rules.Sublist (rulesOf m (some .quarantine) .nacQuarantine)) {p : Packet}
    (hp : p.srcMac=m) : iptVerdict rules p=.drop ↔ dropRule (iptText m) ∈ rules ∧
      (p.dport=some (.udp,53) → dnsRule (iptText m) ∉ rules) ∧
      (p.dport=some (.tcp,captivePort) → portalRule (iptText m) ∉ rules) := by
  subst hp
  have hm := parseMac_iptText p.srcMac
  have hcases := mem_sublists_three hleft
  simp only [List.mem_cons,List.not_mem_nil,or_false] at hcases
  by_cases hdns : p.dport=some (.udp,53)
  · rcases hcases with rfl|rfl|rfl|rfl|rfl|rfl|rfl|rfl <;>
      simp [iptVerdict,IptRule.Matches,portalRule,dnsRule,dropRule,hm,hdns]
  · by_cases hportal : p.dport=some (.tcp,captivePort)
    · rcases hcases with rfl|rfl|rfl|rfl|rfl|rfl|rfl|rfl <;>
        simp [iptVerdict,IptRule.Matches,portalRule,dnsRule,dropRule,hm,hportal]
    · rcases hcases with rfl|rfl|rfl|rfl|rfl|rfl|rfl|rfl <;>
        simp [iptVerdict,IptRule.Matches,portalRule,dnsRule,dropRule,hm,hdns,hportal]

/-- Where the drop is gone all rules are made again, before and after those that are left. -/
theorem remade_verdict {rules : List IptRule}
    (hleft : rules.Sublist (rulesOf m (some .quarantine) .nacQuarantine))
    (hdrop : dropRule (iptText m) ∉ rules) {p : Packet} (hp : p.srcMac=m) :
    iptVerdict (portalRule (iptText m)::dnsRule (iptText m)::(rules++[dropRule (iptText m)])) p=
      .drop ↔ ¬p.Excepted := by
  subst hp
  have hm := parseMac_iptText p.srcMac
  have hcases := mem_sublists_three hleft
  simp only [List.mem_cons,List.not_mem_nil,or_false] at hcases
  unfold Packet.Excepted
  by_cases hdns : p.dport=some (.udp,53)
  · simp [iptVerdict,IptRule.Matches,portalRule,dnsRule,hm,hdns]
  · by_cases hportal : p.dport=some (.tcp,captivePort)
    · simp [iptVerdict,IptRule.Matches,portalRule,hm,hportal]
    · rcases hcases with rfl|rfl|rfl|rfl|rfl|rfl|rfl|rfl <;>
        simp_all [iptVerdict,IptRule.Matches,portalRule,dnsRule,dropRule]

/-- A tick gives a quarantine its verdicts back unless the drop is left without one of the two
exceptions. -/
theorem quarantine_remade_iff {rules : Chain → List IptRule}
    (hleft : (rules .nacQuarantine).Sublist (rulesOf m (some .quarantine) .nacQuarantine)) :
    (∀ p : Packet, p.srcMac=m → p.srcIp.isSome=true →
      (iptVerdict (treatRules m rules .quarantine .nacQuarantine) p=.drop ↔ ¬p.Excepted)) ↔
    (dropRule (iptText m) ∈ rules .nacQuarantine →
      dnsRule (iptText m) ∈ rules .nacQuarantine ∧
      portalRule (iptText m) ∈ rules .nacQuarantine) := by
  by_cases hdrop : dropRule (iptText m) ∈ rules .nacQuarantine
  · have treated : treatRules m rules .quarantine .nacQuarantine=rules .nacQuarantine := by
      rw [treatRules,if_pos hdrop]
    rw [treated]
    constructor
    · intro hall _
      have passes (d : IptProto × Nat) (hd : d=(.udp,53) ∨ d=(.tcp,captivePort)) :
          iptVerdict (rules .nacQuarantine) ⟨m,some .unspecified,some d⟩≠.drop := by
        intro h
        exact (hall ⟨m,some .unspecified,some d⟩ rfl rfl).mp h (by simpa [Packet.Excepted] using hd)
      have hdns := passes (.udp,53) (.inl rfl)
      have hportal := passes (.tcp,captivePort) (.inr rfl)
      rw [Ne,quarantineRules_verdict hleft rfl] at hdns hportal
      simpa [hdrop] using And.intro hdns hportal
    · intro hkept p hp _
      obtain ⟨hdns,hportal⟩ := hkept hdrop
      rw [quarantineRules_verdict hleft hp]
      simp [hdrop,hdns,hportal,Packet.Excepted]
  · have treated : treatRules m rules .quarantine .nacQuarantine=portalRule (iptText m)::
        dnsRule (iptText m)::(rules .nacQuarantine++[dropRule (iptText m)]) := by
      rw [treatRules,if_neg hdrop]
    rw [treated]
    constructor
    · intro _ hin
      exact absurd hin hdrop
    · intro _ p hp _
      exact remade_verdict hleft hdrop hp

/-- A tick gives a block its rule back. -/
theorem block_remade {rules : Chain → List IptRule}
    (hleft : ∀ chain, (rules chain).Sublist (rulesOf m (some .block) chain)) :
    treatRules m rules .block=rulesOf m (some .block) := by
  have hquarantine : rules .nacQuarantine=[] := List.sublist_nil.mp (hleft .nacQuarantine)
  have hblock := hleft .nacBlock
  simp only [rulesOf,List.sublist_cons_iff,List.sublist_nil] at hblock
  funext chain
  cases chain
  · rcases hblock with hnone|⟨rest,hone,hrest⟩
    · simp [treatRules,rulesOf,hnone]
    · simp [treatRules,rulesOf,hone,hrest]
  · simp [treatRules,rulesOf,hquarantine]

end Verdicts

end NacPlatform.Enforcement
