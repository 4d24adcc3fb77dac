import NacPlatform.Framework.Loop
import NacPlatform.Enforcement.MacSets

namespace NacPlatform.Enforcement

/-- What the firewall looks at in a packet: an IPv6 packet has no IPv4 source, and only UDP and TCP
packets have a destination port. -/
structure Packet where
  srcMac : MacAddr
  srcIp : Option Ipv4Addr
  dport : Option (IptProto × Nat)
  deriving DecidableEq, Repr

/-- A call on the firewall. Without an action it lets the device pass. -/
structure FirewallCall where
  action : Option NacAction
  mac : String
  ip : Option String
  deriving DecidableEq, Repr

def FirewallCall.body (rt : Runtime) (ipt : Backend) (c : FirewallCall) : EnfProc Unit :=
  match c.action with
  | some action => treat rt ipt action c.mac c.ip
  | none => allow rt ipt c.mac c.ip

def callFirewall (rt : Runtime) (ipt : Backend) (env : Env) (h : Host) (c : FirewallCall) : Host :=
  ((c.body rt ipt).run (exec env) h).2

/-- What a call writes about a device. -/
def callFor (c : FirewallCall) (m : MacAddr) : Option (Option NacAction) :=
  if parseMac c.mac=some m then some c.action else none

/-- What the last call for a device asks for. -/
def lastAction (m : MacAddr) (calls : List FirewallCall) : Option NacAction :=
  (lastWrite callFor m calls).join

/-! The chains of iptables-legacy. -/

/-- The NAC chains that the built-in chains jump to, in their order. -/
structure Hooks where
  forward : List Chain
  input : List Chain
  deriving DecidableEq, Repr

def iptEnsureJump (parent : List Chain) (chain : Chain) : List Chain :=
  if chain ∈ parent then parent else chain::parent

def setupIptLegacy (hooks : Hooks) : Hooks where
  forward := iptEnsureJump (iptEnsureJump hooks.forward .nacBlock) .nacQuarantine
  input := iptEnsureJump hooks.input .nacBlock

def IptRule.Matches (rule : IptRule) (p : Packet) : Prop :=
  parseMac rule.macSource=some p.srcMac ∧ ∀ d, rule.dport=some d → p.dport=some d

instance (rule : IptRule) (p : Packet) : Decidable (rule.Matches p) :=
  inferInstanceAs (Decidable (_ ∧ ∀ d, rule.dport=some d → p.dport=some d))

/-- The first rule that matches decides; at the end of a chain the packet goes on. -/
def iptVerdict (rules : List IptRule) (p : Packet) : IptTarget :=
  ((rules.find? fun rule => rule.Matches p).map (·.target)).getD .return

/-- A packet passes one chain after another until one of them drops it. -/
def Host.drops (h : Host) (hook : List Chain) (p : Packet) : Prop :=
  ∃ chain ∈ hook, iptVerdict (h.chains chain) p=.drop

/-- Every iptables command does its work. -/
def Env.IptWorks (env : Env) : Prop := ∀ chain rule, env.iptFails chain rule=false

/-- One `-D`: the first such rule goes; without one the command fails. -/
def deleteRule (rule : IptRule) (rules : List IptRule) : Option (List IptRule) :=
  if rule ∈ rules then some (rules.erase rule) else none

theorem filter_ne_erase (rule : IptRule) (rules : List IptRule) :
    (rules.erase rule).filter (· ≠ rule)=rules.filter (· ≠ rule) := by
  induction rules with
  | nil => rfl
  | cons r rs ih =>
    by_cases h : r=rule
    · simp [h]
    · rw [List.erase_cons_tail (by simpa using h),List.filter_cons,List.filter_cons,ih]

/-- The loop ends when every rule like the one to delete is gone. -/
theorem loop_deleteRule (rule : IptRule) (rules : List IptRule) :
    Loop (deleteRule rule) rules (rules.filter (· ≠ rule)) := by
  have shorter (rs rs' : List IptRule) (h : deleteRule rule rs=some rs') :
      rule ∈ rs ∧ rs'=rs.erase rule := by
    unfold deleteRule at h
    split at h
    · next hin => exact ⟨hin,(Option.some.inj h).symm⟩
    · cases h
  obtain ⟨rest,hloop⟩ := Loop.ends (f := deleteRule rule) List.length (by
    intro rs rs' h
    obtain ⟨hin,rfl⟩ := shorter rs rs' h
    have := List.length_pos_of_mem hin
    rw [List.length_erase_of_mem hin]
    omega) rules
  have hend := hloop.invariant (fun rs => rs.filter (· ≠ rule)=rules.filter (· ≠ rule)) (by
    intro rs rs' h hrs
    obtain ⟨-,rfl⟩ := shorter rs rs' h
    rw [filter_ne_erase,hrs]) rfl
  have hout : rule ∉ rest := by
    intro hin
    simp [deleteRule,hin] at hend
  have hrest : rest=rules.filter (· ≠ rule) := by
    rw [← hend.1]
    refine (List.filter_eq_self.mpr fun r hr => ?_).symm
    simpa using fun e : r=rule => hout (e ▸ hr)
  exact hrest ▸ hloop

theorem deleteLoop_eq (rule : IptRule) (rules : List IptRule) :
    deleteLoop rule rules=rules.filter (· ≠ rule) := by
  fun_induction deleteLoop rule rules with
  | case1 rules hin ih => rw [ih,filter_ne_erase]
  | case2 rules hout =>
    refine (List.filter_eq_self.mpr fun r hr => ?_).symm
    simpa using fun e : r=rule => hout (e ▸ hr)

section Texts

theorem hexDigits_colonPairs {ds : List Char} (h : ∀ c ∈ ds, isHexDigit c=true) :
    hexDigits (String.ofList (colonPairs ds))=ds := by
  have colon : isHexDigit ':'=false := by decide
  rw [hexDigits,String.toList_ofList]
  fun_induction colonPairs ds with
  | case1 a b c cs ih =>
    obtain ⟨ha,hb,hcs⟩ : isHexDigit a=true ∧ isHexDigit b=true ∧
        ∀ x ∈ c::cs, isHexDigit x=true := by simpa using h
    rw [List.filter_cons_of_pos ha,List.filter_cons_of_pos hb,
      List.filter_cons_of_neg (by simp [colon]),ih hcs]
  | case2 cs => exact List.filter_eq_self.mpr h

/-- The upper-case text of an address. -/
def iptText (m : MacAddr) : String :=
  String.ofList (colonPairs ((hexDigits m.text).map Char.toUpper))

theorem isHexDigit_of_mem {s : String} : ∀ c ∈ hexDigits s, isHexDigit c=true :=
  fun _ hc => (List.mem_filter.mp hc).2

theorem toUpper_hexDigit {c : Char} (hc : isHexDigit c=true) :
    isHexDigit c.toUpper=true ∧ c.toUpper.toLower=c.toLower ∧ c.toLower.toUpper=c.toUpper :=
  hexDigit_forall (P := fun c => isHexDigit c.toUpper=true ∧ c.toUpper.toLower=c.toLower ∧
    c.toLower.toUpper=c.toUpper) (by decide) hc

/-- Texts that name one hardware address become one text in the rules. -/
theorem iptMac_eq (rt : Runtime) {mac : String} {m : MacAddr} (h : parseMac mac=some m) :
    iptMac rt mac=iptText m := by
  have hlen := MacAddr.ofHexDigits_isSome.mp ⟨m,h⟩
  have lower : hexDigits m.text=(hexDigits mac).map Char.toLower := by
    have hnft := nftMac_eq rt h
    rw [nftMac,if_pos hlen] at hnft
    rw [← hnft]
    apply hexDigits_colonPairs
    intro c hc
    obtain ⟨d,hd,rfl⟩ := List.mem_map.mp hc
    rw [isHexDigit_toLower]
    exact isHexDigit_of_mem d hd
  have upper : (hexDigits m.text).map Char.toUpper=(hexDigits mac).map Char.toUpper := by
    rw [lower,List.map_map]
    exact List.map_congr_left fun c hc => (toUpper_hexDigit (isHexDigit_of_mem c hc)).2.2
  rw [iptMac,if_pos hlen,iptText,upper]

theorem parseMac_iptText (m : MacAddr) : parseMac (iptText m)=some m := by
  have hex : ∀ c ∈ (hexDigits m.text).map Char.toUpper, isHexDigit c=true := by
    intro c hc
    obtain ⟨d,hd,rfl⟩ := List.mem_map.mp hc
    exact (toUpper_hexDigit (isHexDigit_of_mem d hd)).1
  have lower : ((hexDigits m.text).map Char.toUpper).map Char.toLower=
      (hexDigits m.text).map Char.toLower := by
    rw [List.map_map]
    exact List.map_congr_left fun c hc => (toUpper_hexDigit (isHexDigit_of_mem c hc)).2.1
  rw [parseMac,iptText,hexDigits_colonPairs hex,← MacAddr.ofHexDigits_toLower hex,lower,
    MacAddr.ofHexDigits_toLower isHexDigit_of_mem]
  exact m.ofHexDigits_text

end Texts

/-- The rules about one device, in their order. -/
def rulesAbout (m : MacAddr) (rules : List IptRule) : List IptRule :=
  rules.filter fun rule => parseMac rule.macSource=some m

/-- Only the rules about its sender decide about a packet. -/
theorem iptVerdict_rulesAbout (rules : List IptRule) (p : Packet) :
    iptVerdict (rulesAbout p.srcMac rules) p=iptVerdict rules p := by
  rw [iptVerdict,rulesAbout,List.find?_filter]
  have only (rule : IptRule) : decide (parseMac rule.macSource=some p.srcMac ∧
      decide (rule.Matches p)=true)=decide (rule.Matches p) := by
    by_cases h : rule.Matches p
    · simp [h,h.1]
    · simp [h]
  simp only [decide_eq_true_eq] at only ⊢
  simp only [only]
  rfl

section About

variable {m m' : MacAddr} {rule : IptRule}

theorem mem_rulesAbout {rules : List IptRule} :
    rule ∈ rulesAbout m rules ↔ rule ∈ rules ∧ parseMac rule.macSource=some m := by
  simp [rulesAbout]

@[simp] theorem rulesAbout_append (m : MacAddr) (rs rs' : List IptRule) :
    rulesAbout m (rs++rs')=rulesAbout m rs++rulesAbout m rs' := List.filter_append ..

theorem rulesAbout_cons (h : parseMac rule.macSource=some m) (rules : List IptRule) :
    rulesAbout m (rule::rules)=rule::rulesAbout m rules := by
  simp [rulesAbout,h]

theorem rulesAbout_cons_ne (h : parseMac rule.macSource=some m') (hne : m≠m')
    (rules : List IptRule) : rulesAbout m (rule::rules)=rulesAbout m rules := by
  have hne' : ¬m'=m := fun e => hne e.symm
  simp [rulesAbout,h,hne']

theorem rulesAbout_filter (m : MacAddr) (p : IptRule → Bool) (rules : List IptRule) :
    rulesAbout m (rules.filter p)=(rulesAbout m rules).filter p := by
  rw [rulesAbout,rulesAbout,List.filter_filter,List.filter_filter]
  exact List.filter_congr fun _ _ => Bool.and_comm ..

/-- Deleting a rule about another device changes nothing. -/
theorem rulesAbout_delete_ne (h : parseMac rule.macSource=some m') (hne : m≠m')
    (rules : List IptRule) : rulesAbout m (rules.filter (· ≠ rule))=rulesAbout m rules := by
  rw [rulesAbout_filter,List.filter_eq_self]
  intro r hr
  have hm := (mem_rulesAbout.mp hr).2
  simp only [ne_eq,decide_not,Bool.not_eq_true',decide_eq_false_iff_not]
  intro same
  subst same
  exact hne (Option.some.inj (hm.symm.trans h))

end About

/-- The rules of a chain that are about a device. -/
def Host.rulesFor (h : Host) (m : MacAddr) (chain : Chain) : List IptRule :=
  rulesAbout m (h.chains chain)

/-- The rules that stand for an action: in the chain of quarantine both exceptions come before the
drop. -/
def rulesOf (m : MacAddr) : Option NacAction → Chain → List IptRule
  | some .block, .nacBlock => [dropRule (iptText m)]
  | some .quarantine, .nacQuarantine =>
    [portalRule (iptText m),dnsRule (iptText m),dropRule (iptText m)]
  | _, _ => []

/-- What a block or quarantine makes of the rules about its device, whichever there are: only the
drop is looked for. -/
def treatRules (m : MacAddr) (rules : Chain → List IptRule) : NacAction → Chain → List IptRule
  | .block, .nacBlock =>
    if dropRule (iptText m) ∈ rules .nacBlock then rules .nacBlock
    else dropRule (iptText m)::rules .nacBlock
  | .block, .nacQuarantine =>
    (((rules .nacQuarantine).filter (· ≠ dnsRule (iptText m))).filter
      (· ≠ portalRule (iptText m))).filter (· ≠ dropRule (iptText m))
  | .quarantine, .nacBlock => (rules .nacBlock).filter (· ≠ dropRule (iptText m))
  | .quarantine, .nacQuarantine =>
    if dropRule (iptText m) ∈ rules .nacQuarantine then rules .nacQuarantine
    else portalRule (iptText m)::dnsRule (iptText m)::
      (rules .nacQuarantine++[dropRule (iptText m)])

theorem treatRules_rulesOf (m : MacAddr) (a : Option NacAction) (action : NacAction) :
    treatRules m (rulesOf m a) action=rulesOf m (some action) := by
  funext chain
  rcases a with _|_|_ <;> cases action <;> cases chain <;>
    simp [treatRules,rulesOf,dnsRule,portalRule,dropRule]

/-- Operations on rules about one device. -/
def OnRulesOf (m : MacAddr) : EnfOp → Prop
  | .iptCheck _ rule => parseMac rule.macSource=some m
  | .iptInsert _ rule => parseMac rule.macSource=some m
  | .iptAppend _ rule => parseMac rule.macSource=some m
  | .iptDeleteLoop _ rule => parseMac rule.macSource=some m
  | _ => False

section Calls

variable {env : Env} {m m' : MacAddr}

theorem setChain_rulesFor (h : Host) (chain chain' : Chain) (rules : List IptRule) :
    (h.setChain chain rules).rulesFor m chain'=
      if chain'=chain then rulesAbout m rules else h.rulesFor m chain' := by
  unfold Host.rulesFor Host.setChain
  by_cases hc : chain'=chain
  · subst hc
    simp
  · simp [hc]

theorem insert_rulesFor {rule : IptRule} (hrule : parseMac rule.macSource=some m) (h : Host)
    (chain chain' : Chain) : (h.setChain chain (rule::h.chains chain)).rulesFor m chain'=
      if chain'=chain then rule::h.rulesFor m chain' else h.rulesFor m chain' := by
  rw [setChain_rulesFor,rulesAbout_cons hrule]
  split
  · next hc => rw [hc]; rfl
  · rfl

theorem append_rulesFor {rule : IptRule} (hrule : parseMac rule.macSource=some m) (h : Host)
    (chain chain' : Chain) : (h.setChain chain (h.chains chain++[rule])).rulesFor m chain'=
      if chain'=chain then h.rulesFor m chain'++[rule] else h.rulesFor m chain' := by
  rw [setChain_rulesFor,rulesAbout_append,rulesAbout_cons hrule]
  split
  · next hc => rw [hc]; rfl
  · rfl

/-- Operations on the rules of another device leave those of this one alone. -/
theorem exec_rulesFor_ne (env : Env) (hne : m≠m') (op : EnfOp) (h : Host) (hop : OnRulesOf m' op) :
    (exec env op h).2.rulesFor m=h.rulesFor m := by
  funext chain'
  cases op with
  | iptCheck chain rule => rfl
  | iptInsert chain rule =>
    simp only [exec,execIpt]
    split
    · rfl
    · rw [setChain_rulesFor,rulesAbout_cons_ne hop hne]
      split
      · next hc => rw [hc]; rfl
      · rfl
  | iptAppend chain rule =>
    simp only [exec,execIpt]
    split
    · rfl
    · rw [setChain_rulesFor,rulesAbout_append,rulesAbout_cons_ne hop hne]
      split
      · next hc => rw [hc]; exact List.append_nil _
      · rfl
  | iptDeleteLoop chain rule =>
    simp only [exec]
    split
    · rfl
    · rw [setChain_rulesFor,deleteLoop_eq,rulesAbout_delete_ne hop hne]
      split
      · next hc => rw [hc]; rfl
      · rfl
  | _ => exact absurd hop (by simp [OnRulesOf])

variable (rt : Runtime)

theorem iptRemoveQuarantine_performs (m : MacAddr) :
    Performs (OnRulesOf m) (iptRemoveQuarantine (iptText m)) := by
  have hm := parseMac_iptText m
  refine .bind (Proc.only_perform.mpr hm) fun _ => .bind (Proc.only_perform.mpr hm) fun _ => ?_
  exact Proc.only_perform.mpr hm

/-- A call for a device works on its rules only. -/
theorem call_performs {c : FirewallCall} (hc : parseMac c.mac=some m) :
    Performs (OnRulesOf m) (c.body rt .iptablesLegacy) := by
  have hm := parseMac_iptText m
  have htext := iptMac_eq rt hc
  unfold FirewallCall.body
  cases c.action with
  | none =>
    simp only [allow,iptAllow,htext]
    exact .bind (Proc.only_perform.mpr hm) fun _ => iptRemoveQuarantine_performs m
  | some action =>
    cases action with
    | block =>
      simp only [treat,block,iptBlock,htext]
      refine .bind (iptRemoveQuarantine_performs m) fun _ => ?_
      refine .bind (Proc.only_perform.mpr hm) fun found => ?_
      cases found with
      | true => exact Proc.only_pure _
      | false => exact Proc.only_performOrFail.mpr hm
    | quarantine =>
      simp only [treat,quarantine,iptQuarantine,htext]
      refine .bind (Proc.only_perform.mpr hm) fun _ => ?_
      refine .bind (Proc.only_perform.mpr hm) fun found => ?_
      cases found with
      | true => exact Proc.only_pure _
      | false =>
        refine .bind (Proc.only_performOrFail.mpr hm) fun _ => ?_
        refine .bind (Proc.only_performOrFail.mpr hm) fun _ => ?_
        exact Proc.only_performOrFail.mpr hm

theorem dropRule_mem_rulesFor (h : Host) (chain : Chain) :
    dropRule (iptText m) ∈ h.chains chain ↔ dropRule (iptText m) ∈ h.rulesFor m chain := by
  rw [Host.rulesFor,mem_rulesAbout]
  exact (and_iff_left (parseMac_iptText m)).symm

theorem iptRemoveQuarantine_total (mac : String) : (iptRemoveQuarantine mac).Total :=
  .bind (Proc.total_perform _) fun _ => .bind (Proc.total_perform _) fun _ => Proc.total_perform _

theorem iptRemoveBlock_total (mac : String) : (iptRemoveBlock mac).Total := Proc.total_perform _

section Own

variable (hw : env.IptWorks)
include hw

theorem iptDeleteLoop_run (chain : Chain) (rule : IptRule) (h : Host) :
    (iptDeleteLoop chain rule).run (exec env) h=
      (.ok (),h.setChain chain ((h.chains chain).filter (· ≠ rule))) := by
  rw [iptDeleteLoop,Proc.run_perform,exec,if_neg (by rw [hw]; decide),deleteLoop_eq]

theorem delete_rulesFor (chain chain' : Chain) (rule : IptRule) (h : Host) :
    ((iptDeleteLoop chain rule).run (exec env) h).2.rulesFor m chain'=
      if chain'=chain then (h.rulesFor m chain').filter (· ≠ rule) else h.rulesFor m chain' := by
  rw [iptDeleteLoop_run hw,setChain_rulesFor,rulesAbout_filter]
  split
  · next hc => rw [hc]; rfl
  · rfl

theorem iptRemoveQuarantine_rulesFor (h : Host) (chain : Chain) :
    ((iptRemoveQuarantine (iptText m)).run (exec env) h).2.rulesFor m chain=
      if chain=.nacQuarantine then
        (((h.rulesFor m chain).filter (· ≠ dnsRule (iptText m))).filter
          (· ≠ portalRule (iptText m))).filter (· ≠ dropRule (iptText m))
      else h.rulesFor m chain := by
  have first := delete_rulesFor hw (m := m) .nacQuarantine chain (dnsRule (iptText m)) h
  have second := delete_rulesFor hw (m := m) .nacQuarantine chain (portalRule (iptText m))
    ((iptDeleteLoop .nacQuarantine (dnsRule (iptText m))).run (exec env) h).2
  rw [iptRemoveQuarantine,(Proc.total_perform _).run_bind,(Proc.total_perform _).run_bind]
  change (((iptDeleteLoop _ _).run (exec env) ((iptDeleteLoop _ _).run (exec env)
    ((iptDeleteLoop _ _).run (exec env) h).2).2).2).rulesFor m chain=_
  rw [delete_rulesFor hw,second,first]
  split <;> rfl

theorem iptCheck_run_bind (chain : Chain) (rule : IptRule) (f : Bool → EnfProc Unit) (h : Host) :
    (iptCheck chain rule >>= f).run (exec env) h=
      (f (rule ∈ h.chains chain)).run (exec env) h := by
  rw [iptCheck,Proc.run_bind,Proc.run_perform]
  simp only [exec,hw chain rule,Bool.not_false,Bool.true_and]

theorem iptInsert_run (chain : Chain) (rule : IptRule) (h : Host) :
    (iptInsert chain rule).run (exec env) h=(.ok (),h.setChain chain (rule::h.chains chain)) := by
  rw [iptInsert,Proc.run_performOrFail]
  simp [exec,execIpt,hw chain rule]

theorem iptAppend_run (chain : Chain) (rule : IptRule) (h : Host) :
    (iptAppend chain rule).run (exec env) h=(.ok (),h.setChain chain (h.chains chain++[rule])) := by
  rw [iptAppend,Proc.run_performOrFail]
  simp [exec,execIpt,hw chain rule]

theorem iptBlock_rulesFor (h : Host) {mac : String} (hmac : parseMac mac=some m) :
    ((iptBlock rt mac).run (exec env) h).2.rulesFor m=treatRules m (h.rulesFor m) .block := by
  have removed := iptRemoveQuarantine_rulesFor hw (m := m) h
  simp only [iptBlock,iptMac_eq rt hmac]
  rw [(iptRemoveQuarantine_total _).run_bind,iptCheck_run_bind hw]
  generalize ((iptRemoveQuarantine (iptText m)).run (exec env) h).2=w at removed
  have found := dropRule_mem_rulesFor (m := m) w .nacBlock
  rw [removed,if_neg (by decide)] at found
  funext chain
  by_cases hin : dropRule (iptText m) ∈ w.chains .nacBlock
  · simp only [hin,decide_true,if_true]
    have hown := found.mp hin
    rw [Proc.run_pure,removed]
    cases chain <;> simp [treatRules,hown]
  · have hown : dropRule (iptText m) ∉ h.rulesFor m .nacBlock := fun e => hin (found.mpr e)
    simp only [hin,decide_false,Bool.false_eq_true,if_false,iptInsert_run hw]
    have hdrop : parseMac (dropRule (iptText m)).macSource=some m := parseMac_iptText m
    rw [insert_rulesFor hdrop,removed]
    cases chain <;> simp [treatRules,hown]

theorem iptQuarantine_rulesFor (h : Host) {mac : String} (hmac : parseMac mac=some m) :
    ((iptQuarantine rt mac).run (exec env) h).2.rulesFor m=
      treatRules m (h.rulesFor m) .quarantine := by
  have removed (chain : Chain) := delete_rulesFor hw (m := m) .nacBlock chain
    (dropRule (iptText m)) h
  simp only [iptQuarantine,iptMac_eq rt hmac]
  rw [(iptRemoveBlock_total _).run_bind,iptCheck_run_bind hw,iptRemoveBlock]
  generalize ((iptDeleteLoop .nacBlock (dropRule (iptText m))).run (exec env) h).2=w at removed
  have found := dropRule_mem_rulesFor (m := m) w .nacQuarantine
  rw [removed,if_neg (by decide)] at found
  funext chain
  by_cases hin : dropRule (iptText m) ∈ w.chains .nacQuarantine
  · simp only [hin,decide_true,if_true]
    have hown := found.mp hin
    rw [Proc.run_pure,removed]
    cases chain <;> simp [treatRules,hown]
  · have hown : dropRule (iptText m) ∉ h.rulesFor m .nacQuarantine := fun e => hin (found.mpr e)
    have hm := parseMac_iptText m
    have hdns : parseMac (dnsRule (iptText m)).macSource=some m := hm
    have hportal : parseMac (portalRule (iptText m)).macSource=some m := hm
    have hdrop : parseMac (dropRule (iptText m)).macSource=some m := hm
    simp only [hin,decide_false,Bool.false_eq_true,if_false,Proc.run_bind,iptInsert_run hw,
      iptAppend_run hw]
    rw [append_rulesFor hdrop,insert_rulesFor hportal,insert_rulesFor hdns,removed]
    cases chain <;> simp [treatRules,hown]

/-- A call for a device does to its rules what `treatRules` says, whatever they were. -/
theorem treat_rulesFor (h : Host) (action : NacAction) {mac : String}
    (hmac : parseMac mac=some m) (ip : Option String) :
    ((treat rt .iptablesLegacy action mac ip).run (exec env) h).2.rulesFor m=
      treatRules m (h.rulesFor m) action := by
  cases action with
  | block => exact iptBlock_rulesFor rt hw h hmac
  | quarantine => exact iptQuarantine_rulesFor rt hw h hmac

theorem iptAllow_rulesFor {h : Host} {a : Option NacAction} (ha : h.rulesFor m=rulesOf m a)
    {mac : String} (hmac : parseMac mac=some m) :
    ((iptAllow rt mac).run (exec env) h).2.rulesFor m=rulesOf m none := by
  simp only [iptAllow,iptMac_eq rt hmac]
  funext chain
  rw [(iptRemoveBlock_total _).run_bind,iptRemoveQuarantine_rulesFor hw,iptRemoveBlock,
    delete_rulesFor hw,ha]
  rcases a with _|_|_ <;> cases chain <;> simp [rulesOf,dnsRule,portalRule,dropRule]

end Own

/-- The rules about each device are those of an action. -/
def Host.Holds (h : Host) (action : MacAddr → Option NacAction) : Prop :=
  ∀ m, h.rulesFor m=rulesOf m (action m)

/-- A call changes the action of its device, and of no other. -/
theorem callFirewall_holds (hw : env.IptWorks) {h : Host} {action : MacAddr → Option NacAction}
    (hh : h.Holds action) {c : FirewallCall} (hc : parseMac c.mac=some m) :
    (callFirewall rt .iptablesLegacy env h c).Holds (Function.update action m c.action) := by
  intro m'
  by_cases hm : m'=m
  · subst hm
    rw [Function.update_self,callFirewall,FirewallCall.body]
    cases c.action with
    | none => exact iptAllow_rulesFor rt hw (hh m') hc
    | some action =>
      simp only []
      rw [treat_rulesFor rt hw h action hc,hh m',treatRules_rulesOf]
  · rw [Function.update_of_ne hm,← hh m']
    exact (call_performs rt hc).run_frame (fun h => h.rulesFor m') (exec_rulesFor_ne env hm) h

/-- The chains answer for each device by the last call for it, if there is one. -/
theorem runs_holds_last (hw : env.IptWorks) (calls : List FirewallCall)
    (hcalls : ∀ c ∈ calls, (hexDigits c.mac).length=12) {h : Host}
    {action : MacAddr → Option NacAction} (hh : h.Holds action) :
    (runs (callFirewall rt .iptablesLegacy env) h calls).Holds fun m =>
      (lastWrite callFor m calls).getD (action m) := by
  induction calls using List.reverseRecOn with
  | nil => exact hh
  | append_singleton calls c ih =>
    obtain ⟨m,hc⟩ : ∃ m, parseMac c.mac=some m :=
      MacAddr.ofHexDigits_isSome.mpr (hcalls c (by simp))
    have before := ih fun c hc => hcalls c (List.mem_append_left _ hc)
    have after := callFirewall_holds rt hw before hc
    intro m'
    rw [runs_append,runs_cons,runs_nil,after m']
    change _=rulesOf m' ((lastWrite callFor m' (calls++[c])).getD (action m'))
    rw [lastWrite_concat,callFor]
    by_cases hm : m'=m
    · subst hm
      rw [Function.update_self,if_pos hc,Option.some_or,Option.getD_some]
    · have hne : parseMac c.mac≠some m' := fun e => hm (Option.some.inj (e.symm.trans hc))
      rw [Function.update_of_ne hm,if_neg hne,Option.none_or]

theorem runs_holds (hw : env.IptWorks) (calls : List FirewallCall)
    (hcalls : ∀ c ∈ calls, (hexDigits c.mac).length=12) {h : Host}
    (hempty : ∀ chain, h.chains chain=[]) :
    (runs (callFirewall rt .iptablesLegacy env) h calls).Holds fun m => lastAction m calls := by
  have start : h.Holds fun _ => none := by
    intro m
    funext chain
    rw [Host.rulesFor,hempty]
    rfl
  have same (m : MacAddr) : (lastWrite callFor m calls).getD none=lastAction m calls := by
    rw [lastAction]
    cases lastWrite callFor m calls <;> rfl
  intro m
  exact (runs_holds_last rt hw calls hcalls start m).trans (congrArg (rulesOf m) (same m))

theorem Host.Holds.verdict {h : Host} {action : MacAddr → Option NacAction} (hh : h.Holds action)
    (chain : Chain) (p : Packet) : iptVerdict (h.chains chain) p=
      iptVerdict (rulesOf p.srcMac (action p.srcMac) chain) p := by
  rw [← hh p.srcMac,Host.rulesFor,iptVerdict_rulesAbout]

end Calls

/-- DNS and the captive portal. -/
def Packet.Excepted (p : Packet) : Prop :=
  p.dport=some (.udp,53) ∨ p.dport=some (.tcp,captivePort)

instance (p : Packet) : Decidable p.Excepted := inferInstanceAs (Decidable (_ ∨ _))

theorem verdict_block (p : Packet) (action : Option NacAction) :
    iptVerdict (rulesOf p.srcMac action .nacBlock) p=.drop ↔ action=some .block := by
  have hm := parseMac_iptText p.srcMac
  rcases action with _|_|_ <;> simp [iptVerdict,rulesOf,IptRule.Matches,dropRule,hm]

/-- The exceptions of a quarantine come before its drop. -/
theorem verdict_quarantine (p : Packet) (action : Option NacAction) :
    iptVerdict (rulesOf p.srcMac action .nacQuarantine) p=.drop ↔
      action=some .quarantine ∧ ¬p.Excepted := by
  have hm := parseMac_iptText p.srcMac
  rcases action with _|_|_
  · simp [iptVerdict,rulesOf]
  · simp [iptVerdict,rulesOf]
  · unfold Packet.Excepted
    by_cases hportal : p.dport=some (.tcp,captivePort)
    · simp [iptVerdict,rulesOf,IptRule.Matches,portalRule,dnsRule,dropRule,hm,hportal]
    · by_cases hdns : p.dport=some (.udp,53)
      · simp [iptVerdict,rulesOf,IptRule.Matches,portalRule,dnsRule,dropRule,hm,hdns]
      · simp [iptVerdict,rulesOf,IptRule.Matches,portalRule,dnsRule,dropRule,hm,hportal,hdns]

section Hooks

variable {h : Host} {action : MacAddr → Option NacAction}

theorem Host.Holds.drops_forward (hh : h.Holds action) (p : Packet) :
    h.drops (setupIptLegacy ⟨[],[]⟩).forward p ↔
      action p.srcMac=some .block ∨ action p.srcMac=some .quarantine ∧ ¬p.Excepted := by
  have hforward : (setupIptLegacy ⟨[],[]⟩).forward=[.nacQuarantine,.nacBlock] := rfl
  rw [hforward,Host.drops]
  simp only [List.mem_cons,List.not_mem_nil,or_false,exists_eq_or_imp,exists_eq_left,hh.verdict]
  rw [verdict_quarantine,verdict_block,or_comm]

theorem Host.Holds.drops_input (hh : h.Holds action) (p : Packet) :
    h.drops (setupIptLegacy ⟨[],[]⟩).input p ↔ action p.srcMac=some .block := by
  have hinput : (setupIptLegacy ⟨[],[]⟩).input=[.nacBlock] := rfl
  rw [hinput,Host.drops]
  simp only [List.mem_singleton,exists_eq_left,hh.verdict]
  rw [verdict_block]

end Hooks

/-- From empty chains, whatever devices the calls are for: a packet to be forwarded is dropped iff
the last call for its sender is a block, or a quarantine that does not except the packet; a packet
to the gateway itself is dropped iff that call is a block; and the loops that delete rules end. -/
theorem legacy_enforces_last_call (rt : Runtime) {env : Env} (hw : env.IptWorks)
    (calls : List FirewallCall) (hcalls : ∀ c ∈ calls, (hexDigits c.mac).length=12) {h : Host}
    (hempty : ∀ chain, h.chains chain=[]) (p : Packet) :
    let h' := runs (callFirewall rt .iptablesLegacy env) h calls
    let hooks := setupIptLegacy ⟨[],[]⟩
    let last := lastAction p.srcMac calls
    (h'.drops hooks.forward p ↔
      last=some .block ∨ last=some .quarantine ∧ ¬p.dport=some (.udp,53) ∧
        ¬p.dport=some (.tcp,8080)) ∧
    (h'.drops hooks.input p ↔ last=some .block) ∧
    ∀ rule rules, Loop (deleteRule rule) rules (deleteLoop rule rules) := by
  intro h' hooks last
  have holds : h'.Holds fun m => lastAction m calls := runs_holds rt hw calls hcalls hempty
  refine ⟨?_,holds.drops_input p,?_⟩
  · rw [holds.drops_forward,Packet.Excepted,not_or]
    rfl
  · intro rule rules
    rw [deleteLoop_eq]
    exact loop_deleteRule rule rules

/-- The last call quarantines the device under another notation of its address: it may ask for
names, and nothing else of what it sends passes. -/
theorem legacy_enforces_last_call_twice :
    let calls := [FirewallCall.mk (some .block) "aa-bb-cc-dd-ee-01" none,
      FirewallCall.mk (some .quarantine) "AABBCCDDEE01" none]
    let h := runs (callFirewall .ascii .iptablesLegacy (.calm none none)) (.empty none) calls
    let m : MacAddr := ⟨0xaa,0xbb,0xcc,0xdd,0xee,1⟩
    let forward := (setupIptLegacy ⟨[],[]⟩).forward
    h.drops forward ⟨m,none,some (.tcp,443)⟩ ∧ ¬h.drops forward ⟨m,none,some (.udp,53)⟩ := by
  intro calls h m forward
  have hcalls : ∀ c ∈ calls, (hexDigits c.mac).length=12 := by decide
  have last : lastAction m calls=some .quarantine := by decide
  have all (p : Packet) (hp : p.srcMac=m) := (@legacy_enforces_last_call .ascii
    (.calm none none) (fun _ _ => rfl) calls hcalls (.empty none) (fun _ => rfl) p).1
  constructor
  · refine (all _ rfl).mpr (.inr ⟨last,by decide,by decide⟩)
  · intro hdrop
    rcases (all _ rfl).mp hdrop with hblock | ⟨-,hdns,-⟩
    · exact absurd (last.symm.trans hblock) (by decide)
    · exact hdns rfl

end NacPlatform.Enforcement
