import NacPlatform.Framework.Run
import NacPlatform.PolicyManager.Reconcile

namespace NacPlatform

/-! Points that are treated one by one, and sets of points that ask for a treatment. -/

section Coverage

variable {X A : Type} [DecidableEq X]

/-- A point has the treatment of the sets that it lies in. -/
def Agrees (treated : X → Option A) (covered : A → X → Prop) : Prop :=
  ∀ x a, treated x=some a ↔ covered a x

variable {treated : X → Option A} {covered covered' : A → X → Prop} {member : X → Prop} {base : X}
  {v : A}

/-- Treating one point of a set is as good as treating the set when its other points have the
treatment already and nothing else is asked for that point. -/
theorem Agrees.set_iff (h : Agrees treated covered) (hbase : member base)
    (hcov : ∀ a x, covered' a x ↔ covered a x ∨ (a=v ∧ member x)) :
    Agrees (Function.update treated base (some v)) covered' ↔
      (∀ x, member x → x≠base → covered v x) ∧ ∀ a, a≠v → ¬covered a base := by
  constructor
  · intro h'
    constructor
    · intro x hx hne
      have hx' := (h' x v).mpr ((hcov v x).mpr (.inr ⟨rfl,hx⟩))
      rw [Function.update_of_ne hne] at hx'
      exact (h x v).mp hx'
    · intro a hne ha
      have ha' := (h' base a).mpr ((hcov a base).mpr (.inl ha))
      rw [Function.update_self] at ha'
      exact hne (Option.some.inj ha').symm
  · intro given x a
    obtain ⟨hrest,hother⟩ := given
    rw [hcov]
    by_cases hx : x=base
    · subst hx
      rw [Function.update_self]
      constructor
      · intro e
        exact .inr ⟨(Option.some.inj e).symm,hbase⟩
      · intro given
        rcases given with ha|⟨rfl,_⟩
        · by_cases hav : a=v
          · rw [hav]
          · exact absurd ha (hother a hav)
        · rfl
    · rw [Function.update_of_ne hx,h x a]
      constructor
      · exact .inl
      · intro given
        rcases given with ha|⟨rfl,hm⟩
        · exact ha
        · exact hrest x hm hx

/-- Releasing one point of a set is as good as withdrawing the set when no other set asks for that
point and other sets ask the same for the rest of it. -/
theorem Agrees.clear_iff {on : Prop} (h : Agrees treated covered)
    (hcov : ∀ a x, covered a x ↔ covered' a x ∨ (on ∧ a=v ∧ member x)) :
    Agrees (Function.update treated base none) covered' ↔
      (∀ a, ¬covered' a base) ∧ (on → ∀ x, member x → x≠base → covered' v x) := by
  constructor
  · intro h'
    constructor
    · intro a ha
      have ha' := (h' base a).mpr ha
      rw [Function.update_self] at ha'
      cases ha'
    · intro hon x hx hne
      have hx' := (h x v).mpr ((hcov v x).mpr (.inr ⟨hon,rfl,hx⟩))
      apply (h' x v).mp
      rw [Function.update_of_ne hne]
      exact hx'
  · intro given x a
    obtain ⟨hnone,hrest⟩ := given
    by_cases hx : x=base
    · subst hx
      rw [Function.update_self]
      exact ⟨fun e => (nomatch e),fun ha => absurd ha (hnone a)⟩
    · rw [Function.update_of_ne hx,h x a,hcov]
      constructor
      · intro given
        rcases given with ha|⟨hon,rfl,hm⟩
        · exact ha
        · exact hrest hon x hm hx
      · exact .inl

end Coverage

/-- An address with the number of its leading bits that count. -/
structure Cidr where
  base : Ipv4Addr
  prefixLen : Nat
  le : prefixLen ≤ 32
  deriving DecidableEq

namespace Cidr

/-- The addresses with the same leading bits. -/
def Contains (c : Cidr) (x : Ipv4Addr) : Prop :=
  x.toU32.toNat>>>(32-c.prefixLen)=c.base.toU32.toNat>>>(32-c.prefixLen)

instance (c : Cidr) (x : Ipv4Addr) : Decidable (c.Contains x) :=
  inferInstanceAs (Decidable (_=_))

theorem contains_base (c : Cidr) : c.Contains c.base := rfl

/-- All bits of a single address count. -/
theorem eq_base_of_contains {c : Cidr} (h32 : c.prefixLen=32) {x : Ipv4Addr} (h : c.Contains x) :
    x=c.base := by
  rw [Contains,h32] at h
  exact Ipv4Addr.toU32_inj h

/-- `192.168.0.5` or `10.0.0.0/24`. -/
def parse (s : String) : Option Cidr :=
  (Ipv4Addr.parse (stripCidr s)).bind fun base =>
    match s.toList.dropWhile (· != '/') with
    | [] => some ⟨base,32,Nat.le_refl 32⟩
    | _::digits =>
      (Ipv4Addr.parseOctet digits).bind fun n =>
        if h : n.toNat ≤ 32 then some ⟨base,n.toNat,h⟩ else none

/-- The address that is written is the one without the suffix. -/
theorem base_of_parse {s : String} {c : Cidr} (h : parse s=some c) :
    Ipv4Addr.parse (stripCidr s)=some c.base := by
  rw [parse,Option.bind_eq_some_iff] at h
  obtain ⟨base,hbase,h⟩ := h
  rw [hbase]
  split at h
  · rw [← Option.some.inj h]
  · obtain ⟨n,_,h⟩ := Option.bind_eq_some_iff.mp h
    split at h
    · rw [← Option.some.inj h]
    · cases h

end Cidr

/-- A row of `ip_rules` with its key. -/
structure StoredIpRule where
  id : Uuid
  row : IpRuleRow
  note : Option String
  deriving DecidableEq, Repr

/-- The table `ip_rules`: the ids and the texts of the addresses are unique. -/
structure IpRuleTable where
  rows : List StoredIpRule
  ids : (rows.map (·.id)).Nodup
  cidrs : (rows.map (·.row.ipCidr)).Nodup

namespace IpRuleAction

def parse (s : String) : Option IpRuleAction := [block,quarantine].find? fun a => a.text==s

def treatment : IpRuleAction → NacAction
  | block => .block
  | quarantine => .quarantine

end IpRuleAction

/-- A row with a new key. -/
theorem nodup_map_concat {α κ : Type} {key : α → κ} {rows : List α} {r : α}
    (h : (rows.map key).Nodup) (hr : key r ∉ rows.map key) :
    ((rows++[r]).map key).Nodup := by
  rw [List.map_append,List.map_singleton,List.nodup_append]
  refine ⟨h,List.nodup_singleton _,?_⟩
  intro k hk k' hk' same
  subst same
  exact hr (List.mem_singleton.mp hk' ▸ hk)

def StoredIpRule.toggled (enabled : Bool) (r : StoredIpRule) : StoredIpRule :=
  {r with row := {r.row with enabled := enabled}}

theorem StoredIpRule.toggled_id (enabled : Bool) (r : StoredIpRule) :
    (r.toggled enabled).id=r.id := rfl

theorem StoredIpRule.toggled_ipCidr (enabled : Bool) (r : StoredIpRule) :
    (r.toggled enabled).row.ipCidr=r.row.ipCidr := rfl

theorem ids_toggled (p : StoredIpRule → Bool) (enabled : Bool) (rows : List StoredIpRule) :
    (updateRows p (StoredIpRule.toggled enabled) rows).map (·.id)=rows.map (·.id) :=
  map_updateRows (StoredIpRule.toggled_id enabled) rows

theorem cidrs_toggled (p : StoredIpRule → Bool) (enabled : Bool) (rows : List StoredIpRule) :
    (updateRows p (StoredIpRule.toggled enabled) rows).map (·.row.ipCidr)=
      rows.map (·.row.ipCidr) := by
  apply map_updateRows
  exact StoredIpRule.toggled_ipCidr enabled

namespace IpRuleTable

def empty : IpRuleTable := ⟨[],List.nodup_nil,List.nodup_nil⟩

def find (t : IpRuleTable) (id : Uuid) : Option StoredIpRule := t.rows.find? (·.id==id)

/-- `INSERT … RETURNING …`; a text that is there already is a unique violation. -/
def insert (t : IpRuleTable) (ipCidr : String) (action : IpRuleAction) (note : Option String) :
    Option (StoredIpRule × IpRuleTable) :=
  if h : ipCidr ∈ t.rows.map (·.row.ipCidr) then none
  else
    let rule : StoredIpRule := ⟨freshKey (t.rows.map (·.id)),⟨ipCidr,action,true⟩,note⟩
    some (rule,⟨t.rows++[rule],nodup_map_concat t.ids (freshKey_notMem _),
      nodup_map_concat t.cidrs h⟩)

def delete (t : IpRuleTable) (id : Uuid) : IpRuleTable where
  rows := t.rows.filter fun r => !(r.id==id)
  ids := t.ids.sublist (List.filter_sublist.map _)
  cidrs := t.cidrs.sublist (List.filter_sublist.map _)

def setEnabled (t : IpRuleTable) (id : Uuid) (enabled : Bool) : IpRuleTable where
  rows := updateRows (·.id==id) (StoredIpRule.toggled enabled) t.rows
  ids := (ids_toggled (·.id==id) enabled t.rows).symm ▸ t.ids
  cidrs := (cidrs_toggled (·.id==id) enabled t.rows).symm ▸ t.cidrs

end IpRuleTable

structure CreateIpRuleRequest where
  ipCidr : String
  action : String
  note : Option String
  deriving DecidableEq, Repr

/-- The errors of the API, all of them answered as 404. -/
inductive IpRuleError where
  | cidrRequired
  | unknownAction
  | alreadyExists (ipCidr : String)
  | notFound (id : Uuid)
  | unknownToggle
  deriving DecidableEq, Repr

def IpRuleError.message : IpRuleError → String
  | cidrRequired => "ip_cidr is required"
  | unknownAction => "action must be 'block' or 'quarantine'"
  | alreadyExists ipCidr => "IP rule for '"++ipCidr++"' already exists"
  | notFound id => "IP rule "++toString id++" not found"
  | unknownToggle => "action must be 'enable' or 'disable'"

/-- The table, and what has been published, oldest first. -/
structure IpRuleState where
  rules : IpRuleTable
  commands : List EnforcementCommand

namespace IpRuleState

def initial : IpRuleState := ⟨.empty,[]⟩

/-- The command names the address without its suffix. -/
def publishIpEnforcement (s : IpRuleState) (ip action : String) : IpRuleState :=
  if action ∈ ["block","quarantine","allow"] then
    {s with commands :=
      s.commands++[enforcementCommand "00:00:00:00:00:00" (stripCidr ip) action none]}
  else s

def createIpRule (s : IpRuleState) (req : CreateIpRuleRequest) :
    Except IpRuleError StoredIpRule × IpRuleState :=
  if (trim req.ipCidr).isEmpty then (.error .cidrRequired,s)
  else
    match IpRuleAction.parse req.action with
    | none => (.error .unknownAction,s)
    | some action =>
      match s.rules.insert (trim req.ipCidr) action req.note with
      | none => (.error (.alreadyExists req.ipCidr),s)
      | some (rule,rules) =>
        (.ok rule,{s with rules := rules}.publishIpEnforcement rule.row.ipCidr
          rule.row.action.text)

def deleteIpRule (s : IpRuleState) (id : Uuid) : Except IpRuleError Unit × IpRuleState :=
  match s.rules.find id with
  | none => (.error (.notFound id),s)
  | some rule =>
    (.ok (),{s with rules := s.rules.delete id}.publishIpEnforcement rule.row.ipCidr "allow")

def setIpRuleEnabled (s : IpRuleState) (id : Uuid) (action : String) :
    Except IpRuleError Unit × IpRuleState :=
  let toggle (enabled : Bool) :=
    match s.rules.find id with
    | none => (.error (.notFound id),s)
    | some rule =>
      (.ok (),{s with rules := s.rules.setEnabled id enabled}.publishIpEnforcement rule.row.ipCidr
        (if enabled then rule.row.action.text else "allow"))
  match action with
  | "enable" => toggle true
  | "disable" => toggle false
  | _ => (.error .unknownToggle,s)

end IpRuleState

inductive IpRuleCall where
  | create (req : CreateIpRuleRequest)
  | delete (id : Uuid)
  | setEnabled (id : Uuid) (action : String)
  deriving DecidableEq, Repr

namespace IpRuleState

/-- A call that is refused leaves everything as it was. -/
def step (s : IpRuleState) : IpRuleCall → IpRuleState
  | .create req => (s.createIpRule req).2
  | .delete id => (s.deleteIpRule id).2
  | .setEnabled id action => (s.setIpRuleEnabled id action).2

/-- What a command says of an address: it sets its treatment, or clears it, if it names it. -/
def treats (cmd : EnforcementCommand) (x : Ipv4Addr) : Option (Option NacAction) :=
  if Ipv4Addr.parse cmd.ipAddress=some x then some cmd.treatment else none

/-- The treatment that the commands leave an address with. -/
def treatment (s : IpRuleState) (x : Ipv4Addr) : Option NacAction :=
  (lastWrite treats x s.commands).join

end IpRuleState

/-- The rule is about the address. -/
def IpRuleRow.Covers (r : IpRuleRow) (x : Ipv4Addr) : Prop :=
  ∃ c, Cidr.parse r.ipCidr=some c ∧ c.Contains x

/-- An enabled rule asks for this treatment of the address. -/
def Covered (rows : List StoredIpRule) (a : NacAction) (x : Ipv4Addr) : Prop :=
  ∃ r ∈ rows, r.row.enabled=true ∧ r.row.action.treatment=a ∧ r.row.Covers x

/-- An address is blocked or quarantined exactly when an enabled rule says so. -/
def IpRuleState.Faithful (s : IpRuleState) : Prop := Agrees s.treatment (Covered s.rules.rows)

section Rules

variable {rows : List StoredIpRule} {r : StoredIpRule} {c : Cidr}

theorem covers_iff {row : IpRuleRow} (h : Cidr.parse row.ipCidr=some c) (x : Ipv4Addr) :
    row.Covers x ↔ c.Contains x := by
  simp only [IpRuleRow.Covers,h,Option.some.injEq,exists_eq_left']

/-- The rules but for one. -/
def others (rows : List StoredIpRule) (id : Uuid) : List StoredIpRule :=
  rows.filter fun r => !(r.id==id)

theorem mem_others {id : Uuid} : r ∈ others rows id ↔ r ∈ rows ∧ r.id≠id := by
  simp [others]

theorem covered_concat (a : NacAction) (x : Ipv4Addr) (h : Cidr.parse r.row.ipCidr=some c)
    (hon : r.row.enabled=true) : Covered (rows++[r]) a x ↔
      Covered rows a x ∨ (a=r.row.action.treatment ∧ c.Contains x) := by
  unfold Covered
  constructor
  · intro given
    obtain ⟨q,hq,hqon,ha,hqx⟩ := given
    rcases List.mem_append.mp hq with hq|hq
    · exact .inl ⟨q,hq,hqon,ha,hqx⟩
    · obtain rfl := List.mem_singleton.mp hq
      exact .inr ⟨ha.symm,(covers_iff h x).mp hqx⟩
  · intro given
    rcases given with ⟨q,hq,hqon,ha,hqx⟩|⟨ha,hx⟩
    · exact ⟨q,List.mem_append_left _ hq,hqon,ha,hqx⟩
    · exact ⟨r,List.mem_append_right _ List.mem_cons_self,hon,ha.symm,(covers_iff h x).mpr hx⟩

/-- What is covered is covered by this rule or by the others. -/
theorem covered_split (hids : (rows.map (·.id)).Nodup) (hr : r ∈ rows) (a : NacAction)
    (x : Ipv4Addr) (h : Cidr.parse r.row.ipCidr=some c) : Covered rows a x ↔
      Covered (others rows r.id) a x ∨
        (r.row.enabled=true ∧ a=r.row.action.treatment ∧ c.Contains x) := by
  unfold Covered
  constructor
  · intro given
    obtain ⟨q,hq,hqon,ha,hqx⟩ := given
    by_cases hid : q.id=r.id
    · obtain rfl := List.inj_on_of_nodup_map hids hq hr hid
      exact .inr ⟨hqon,ha.symm,(covers_iff h x).mp hqx⟩
    · exact .inl ⟨q,mem_others.mpr ⟨hq,hid⟩,hqon,ha,hqx⟩
  · intro given
    rcases given with ⟨q,hq,hqon,ha,hqx⟩|⟨hon,ha,hx⟩
    · exact ⟨q,(mem_others.mp hq).1,hqon,ha,hqx⟩
    · exact ⟨r,hr,hon,ha.symm,(covers_iff h x).mpr hx⟩

theorem covered_toggled (hids : (rows.map (·.id)).Nodup) (hr : r ∈ rows) (enabled : Bool)
    (a : NacAction) (x : Ipv4Addr) (h : Cidr.parse r.row.ipCidr=some c) :
    Covered (updateRows (·.id==r.id) (StoredIpRule.toggled enabled) rows) a x ↔
      Covered (others rows r.id) a x ∨
        (enabled=true ∧ a=r.row.action.treatment ∧ c.Contains x) := by
  unfold Covered
  constructor
  · intro given
    obtain ⟨q,hq,hqon,ha,hqx⟩ := given
    rcases mem_updateRows.mp hq with ⟨q',hq',hid,rfl⟩|⟨hq,hid⟩
    · obtain rfl := List.inj_on_of_nodup_map hids hq' hr (by simpa using hid)
      exact .inr ⟨hqon,ha.symm,(covers_iff h x).mp hqx⟩
    · exact .inl ⟨q,mem_others.mpr ⟨hq,by simpa using hid⟩,hqon,ha,hqx⟩
  · intro given
    rcases given with ⟨q,hq,hqon,ha,hqx⟩|⟨hon,ha,hx⟩
    · obtain ⟨hq,hid⟩ := mem_others.mp hq
      exact ⟨q,mem_updateRows.mpr (.inr ⟨hq,by simpa using hid⟩),hqon,ha,hqx⟩
    · exact ⟨r.toggled enabled,mem_updateRows.mpr (.inl ⟨r,hr,by simp,rfl⟩),hon,ha.symm,
        (covers_iff h x).mpr hx⟩

theorem covered_enabled (hids : (rows.map (·.id)).Nodup) (hr : r ∈ rows) (a : NacAction)
    (x : Ipv4Addr) (h : Cidr.parse r.row.ipCidr=some c) :
    Covered (updateRows (·.id==r.id) (StoredIpRule.toggled true) rows) a x ↔
      Covered rows a x ∨ (a=r.row.action.treatment ∧ c.Contains x) := by
  rw [covered_toggled hids hr true a x h,covered_split hids hr a x h]
  constructor
  · intro given
    rcases given with ho|⟨_,hx⟩
    · exact .inl (.inl ho)
    · exact .inr hx
  · intro given
    rcases given with (ho|⟨_,hx⟩)|hx
    · exact .inl ho
    · exact .inr ⟨rfl,hx⟩
    · exact .inr ⟨rfl,hx⟩

theorem covered_disabled (hids : (rows.map (·.id)).Nodup) (hr : r ∈ rows) (a : NacAction)
    (x : Ipv4Addr) (h : Cidr.parse r.row.ipCidr=some c) :
    Covered (updateRows (·.id==r.id) (StoredIpRule.toggled false) rows) a x ↔
      Covered (others rows r.id) a x := by
  rw [covered_toggled hids hr false a x h]
  exact or_iff_left fun hx => (nomatch hx.1)

end Rules

/-- The rules of the table are for addresses and ranges of addresses. -/
def IpRuleTable.Addressed (t : IpRuleTable) : Prop :=
  ∀ r ∈ t.rows, (Cidr.parse r.row.ipCidr).isSome=true

theorem IpRuleTable.mem_of_find {t : IpRuleTable} {id : Uuid} {r : StoredIpRule}
    (h : t.find id=some r) : r ∈ t.rows ∧ r.id=id :=
  ⟨List.mem_of_find?_eq_some h,by simpa using List.find?_some h⟩

/-- The other addresses of the range are covered by rules of the same action already, and no rule
of the other action covers the address that is written. -/
def SafeToAnnounce (rows : List StoredIpRule) (a : NacAction) (c : Cidr) : Prop :=
  (∀ x, c.Contains x → x≠c.base → Covered rows a x) ∧ ∀ b, b≠a → ¬Covered rows b c.base

/-- No other rule covers the address that is written, and if the rule is enabled, other rules of
the same action cover the other addresses of its range. -/
def SafeToRelease (rows : List StoredIpRule) (r : StoredIpRule) (c : Cidr) : Prop :=
  (∀ b, ¬Covered (others rows r.id) b c.base) ∧
    (r.row.enabled=true → ∀ x, c.Contains x → x≠c.base →
      Covered (others rows r.id) r.row.action.treatment x)

namespace IpRuleState

/-- What a call must meet for the one address that it names to be enough. A call that is refused
must meet nothing. -/
def KeepsCoverage (s : IpRuleState) : IpRuleCall → Prop
  | .create req => ∀ action c, IpRuleAction.parse req.action=some action →
      Cidr.parse (trim req.ipCidr)=some c →
      trim req.ipCidr ∉ s.rules.rows.map (·.row.ipCidr) →
      SafeToAnnounce s.rules.rows action.treatment c
  | .delete id => ∀ r c, s.rules.find id=some r → Cidr.parse r.row.ipCidr=some c →
      SafeToRelease s.rules.rows r c
  | .setEnabled id action => ∀ r c, s.rules.find id=some r → Cidr.parse r.row.ipCidr=some c →
      (action="enable" → SafeToAnnounce s.rules.rows r.row.action.treatment c) ∧
        (action="disable" → SafeToRelease s.rules.rows r c)

/-- A rule that is created is for an address or a range of addresses. -/
def Addressed : IpRuleCall → Prop
  | .create req => (Cidr.parse (trim req.ipCidr)).isSome=true
  | _ => True

theorem treatment_concat (s : IpRuleState) (rules : IpRuleTable) {cmd : EnforcementCommand}
    {base : Ipv4Addr} (h : Ipv4Addr.parse cmd.ipAddress=some base) :
    (IpRuleState.mk rules (s.commands++[cmd])).treatment=
      Function.update s.treatment base cmd.treatment := by
  funext x
  rw [treatment,lastWrite_concat,treats,h]
  by_cases hx : x=base
  · subst hx
    rw [if_pos rfl,Function.update_self]
    rfl
  · rw [if_neg fun e => hx (Option.some.inj e).symm,Function.update_of_ne hx,Option.none_or]
    rfl

/-- Publishing a rule's action sets the treatment of the address that is written in it. -/
theorem treatment_announced (s : IpRuleState) (rules : IpRuleTable) {ip : String} {c : Cidr}
    (h : Cidr.parse ip=some c) (action : IpRuleAction) :
    ({s with rules := rules}.publishIpEnforcement ip action.text).treatment=
      Function.update s.treatment c.base (some action.treatment) := by
  have hbase := Cidr.base_of_parse h
  cases action with
  | block => exact treatment_concat s rules hbase
  | quarantine => exact treatment_concat s rules hbase

theorem treatment_released (s : IpRuleState) (rules : IpRuleTable) {ip : String} {c : Cidr}
    (h : Cidr.parse ip=some c) :
    ({s with rules := rules}.publishIpEnforcement ip "allow").treatment=
      Function.update s.treatment c.base none :=
  treatment_concat s rules (Cidr.base_of_parse h)

@[simp] theorem publishIpEnforcement_rules (s : IpRuleState) (ip action : String) :
    (s.publishIpEnforcement ip action).rules=s.rules := by
  unfold publishIpEnforcement
  split <;> rfl

theorem not_isEmpty_of_parse {text : String} (h : (Cidr.parse text).isSome=true) :
    text.isEmpty=false := by
  cases he : text.isEmpty with
  | false => rfl
  | true =>
    rw [String.isEmpty_iff.mp he] at h
    exact absurd h (by decide)

section Calls

variable {s : IpRuleState}

/-- Announcing a rule keeps the table and the treatments together exactly under its condition. -/
theorem faithful_announced_iff (h : s.Faithful) (rules : IpRuleTable) {ip : String} {c : Cidr}
    (hparse : Cidr.parse ip=some c) (action : IpRuleAction)
    (hcov : ∀ a x, Covered rules.rows a x ↔
      Covered s.rules.rows a x ∨ (a=action.treatment ∧ c.Contains x)) :
    ({s with rules := rules}.publishIpEnforcement ip action.text).Faithful ↔
      SafeToAnnounce s.rules.rows action.treatment c := by
  rw [Faithful,treatment_announced s rules hparse,publishIpEnforcement_rules]
  exact Agrees.set_iff h c.contains_base hcov

theorem faithful_released_iff (h : s.Faithful) (rules : IpRuleTable) {r : StoredIpRule} {c : Cidr}
    (hr : r ∈ s.rules.rows) (hparse : Cidr.parse r.row.ipCidr=some c)
    (hcov : ∀ a x, Covered rules.rows a x ↔ Covered (others s.rules.rows r.id) a x) :
    ({s with rules := rules}.publishIpEnforcement r.row.ipCidr "allow").Faithful ↔
      SafeToRelease s.rules.rows r c := by
  have same : Covered rules.rows=Covered (others s.rules.rows r.id) := by
    funext a x
    exact propext (hcov a x)
  rw [Faithful,treatment_released s rules hparse,publishIpEnforcement_rules,SafeToRelease]
  change Agrees _ (Covered rules.rows) ↔ _
  rw [same]
  exact Agrees.clear_iff h fun a x => covered_split s.rules.ids hr a x hparse

theorem faithful_create_iff (h : s.Faithful) {req : CreateIpRuleRequest}
    (hreq : Addressed (.create req)) :
    (s.createIpRule req).2.Faithful ↔ s.KeepsCoverage (.create req) := by
  obtain ⟨c,hc⟩ := Option.isSome_iff_exists.mp hreq
  rw [createIpRule,if_neg (by rw [not_isEmpty_of_parse hreq]; decide)]
  cases hact : IpRuleAction.parse req.action with
  | none => exact ⟨fun _ a _ ha => absurd (hact.symm.trans ha) (by simp),fun _ => h⟩
  | some action =>
    by_cases hin : trim req.ipCidr ∈ s.rules.rows.map (·.row.ipCidr)
    · simp only [IpRuleTable.insert,dif_pos hin]
      exact ⟨fun _ _ _ _ _ hout => absurd hin hout,fun _ => h⟩
    · simp only [IpRuleTable.insert,dif_neg hin]
      have hrule (rule : StoredIpRule) (hrow : rule.row=⟨trim req.ipCidr,action,true⟩)
          (a : NacAction) (x : Ipv4Addr) : Covered (s.rules.rows++[rule]) a x ↔
            Covered s.rules.rows a x ∨ (a=action.treatment ∧ c.Contains x) := by
        have hparse : Cidr.parse rule.row.ipCidr=some c := by rw [hrow]; exact hc
        refine (covered_concat a x hparse (by rw [hrow])).trans ?_
        rw [hrow]
      have hann := faithful_announced_iff h
        ⟨_,nodup_map_concat s.rules.ids (freshKey_notMem _),nodup_map_concat s.rules.cidrs hin⟩
        hc action (hrule ⟨freshKey (s.rules.rows.map (·.id)),⟨trim req.ipCidr,action,true⟩,
          req.note⟩ rfl)
      rw [hann,KeepsCoverage]
      constructor
      · intro hsafe action' c' haction' hc' _
        obtain rfl := Option.some.inj (hact.symm.trans haction')
        obtain rfl := Option.some.inj (hc.symm.trans hc')
        exact hsafe
      · intro hall
        exact hall action c hact hc hin

/-- A condition on the rule that is found. -/
theorem forall_found_iff {r : StoredIpRule} {c : Cidr} (hc : Cidr.parse r.row.ipCidr=some c)
    (P : StoredIpRule → Cidr → Prop) :
    (∀ r' c', some r=some r' → Cidr.parse r'.row.ipCidr=some c' → P r' c') ↔ P r c := by
  refine ⟨fun hall => hall r c rfl hc,?_⟩
  intro hP r' c' hr' hc'
  obtain rfl := Option.some.inj hr'
  obtain rfl := Option.some.inj (hc.symm.trans hc')
  exact hP

theorem faithful_delete_iff (h : s.Faithful) (hs : s.rules.Addressed) (id : Uuid) :
    (s.deleteIpRule id).2.Faithful ↔ s.KeepsCoverage (.delete id) := by
  rw [deleteIpRule,KeepsCoverage]
  cases hfind : s.rules.find id with
  | none => exact ⟨fun _ _ _ hr => (nomatch hr),fun _ => h⟩
  | some r =>
    obtain ⟨hr,rfl⟩ := IpRuleTable.mem_of_find hfind
    obtain ⟨c,hc⟩ := Option.isSome_iff_exists.mp (hs r hr)
    rw [forall_found_iff hc (SafeToRelease s.rules.rows)]
    exact faithful_released_iff h (s.rules.delete r.id) hr hc fun _ _ => Iff.rfl

/-- What becomes of the state when the rule is there. -/
theorem setIpRuleEnabled_found {id : Uuid} {r : StoredIpRule} (h : s.rules.find id=some r)
    (action : String) : (s.setIpRuleEnabled id action).2=
      if action="enable" then
        {s with rules := s.rules.setEnabled id true}.publishIpEnforcement r.row.ipCidr
          r.row.action.text
      else if action="disable" then
        {s with rules := s.rules.setEnabled id false}.publishIpEnforcement r.row.ipCidr "allow"
      else s := by
  unfold setIpRuleEnabled
  simp only [h]
  split
  · rfl
  · rfl
  · next he hd => rw [if_neg he,if_neg hd]

theorem setIpRuleEnabled_missing {id : Uuid} (h : s.rules.find id=none) (action : String) :
    (s.setIpRuleEnabled id action).2=s := by
  unfold setIpRuleEnabled
  simp only [h]
  split <;> rfl

theorem faithful_setEnabled_iff (h : s.Faithful) (hs : s.rules.Addressed) (id : Uuid)
    (action : String) :
    (s.setIpRuleEnabled id action).2.Faithful ↔ s.KeepsCoverage (.setEnabled id action) := by
  rw [KeepsCoverage]
  cases hfind : s.rules.find id with
  | none =>
    rw [setIpRuleEnabled_missing hfind]
    exact ⟨fun _ _ _ hr => (nomatch hr),fun _ => h⟩
  | some r =>
    obtain ⟨hr,rfl⟩ := IpRuleTable.mem_of_find hfind
    obtain ⟨c,hc⟩ := Option.isSome_iff_exists.mp (hs r hr)
    rw [setIpRuleEnabled_found hfind,forall_found_iff hc fun r c =>
      (action="enable" → SafeToAnnounce s.rules.rows r.row.action.treatment c) ∧
        (action="disable" → SafeToRelease s.rules.rows r c)]
    by_cases henable : action="enable"
    · -- enable: the rule asks for its range, as it may have done before
      rw [if_pos henable,faithful_announced_iff h (s.rules.setEnabled r.id true) hc r.row.action
        fun a x => covered_enabled s.rules.ids hr a x hc]
      have hdisable : action≠"disable" := by rw [henable]; decide
      exact ⟨fun hsafe => ⟨fun _ => hsafe,fun e => absurd e hdisable⟩,fun hall => hall.1 henable⟩
    by_cases hdisable : action="disable"
    · rw [if_neg henable,if_pos hdisable,
        faithful_released_iff h (s.rules.setEnabled r.id false) hr hc
          fun a x => covered_disabled s.rules.ids hr a x hc]
      exact ⟨fun hsafe => ⟨fun e => absurd e henable,fun _ => hsafe⟩,fun hall => hall.2 hdisable⟩
    · rw [if_neg henable,if_neg hdisable]
      exact ⟨fun _ => ⟨fun e => absurd e henable,fun e => absurd e hdisable⟩,fun _ => h⟩

theorem step_iff (h : s.Faithful) (hs : s.rules.Addressed) (call : IpRuleCall)
    (hcall : Addressed call) : (s.step call).Faithful ↔ s.KeepsCoverage call := by
  cases call with
  | create req => exact faithful_create_iff h hcall
  | delete id => exact faithful_delete_iff h hs id
  | setEnabled id action => exact faithful_setEnabled_iff h hs id action

theorem addressed_create (hs : s.rules.Addressed) {req : CreateIpRuleRequest}
    (hreq : Addressed (.create req)) : (s.createIpRule req).2.rules.Addressed := by
  rw [createIpRule,if_neg (by rw [not_isEmpty_of_parse hreq]; decide)]
  cases IpRuleAction.parse req.action with
  | none => exact hs
  | some action =>
    by_cases hin : trim req.ipCidr ∈ s.rules.rows.map (·.row.ipCidr)
    · simp only [IpRuleTable.insert,dif_pos hin]
      exact hs
    · simp only [IpRuleTable.insert,dif_neg hin,publishIpEnforcement_rules]
      intro r hr
      rcases List.mem_append.mp hr with hr|hr
      · exact hs r hr
      · rw [List.mem_singleton.mp hr]
        exact hreq

theorem addressed_delete (hs : s.rules.Addressed) (id : Uuid) :
    (s.deleteIpRule id).2.rules.Addressed := by
  rw [deleteIpRule]
  cases s.rules.find id with
  | none => exact hs
  | some rule =>
    rw [publishIpEnforcement_rules]
    intro r hr
    exact hs r (List.mem_filter.mp hr).1

theorem addressed_setEnabled (hs : s.rules.Addressed) (id : Uuid) (action : String) :
    (s.setIpRuleEnabled id action).2.rules.Addressed := by
  have keep (enabled : Bool) : (s.rules.setEnabled id enabled).Addressed := by
    intro r hr
    rcases mem_updateRows.mp hr with ⟨q,hq,_,rfl⟩|⟨hq,_⟩
    · exact hs q hq
    · exact hs r hq
  cases hfind : s.rules.find id with
  | none =>
    rw [setIpRuleEnabled_missing hfind]
    exact hs
  | some rule =>
    rw [setIpRuleEnabled_found hfind]
    split
    · rw [publishIpEnforcement_rules]
      exact keep true
    split
    · rw [publishIpEnforcement_rules]
      exact keep false
    · exact hs

theorem step_addressed (hs : s.rules.Addressed) (call : IpRuleCall) (hcall : Addressed call) :
    (s.step call).rules.Addressed := by
  cases call with
  | create req =>
    rw [step]
    exact addressed_create hs hcall
  | delete id => exact addressed_delete hs id
  | setEnabled id action => exact addressed_setEnabled hs id action

end Calls

/-- The treatments agree with the enabled rules all the way exactly when every call is one for
which naming a single address is enough. -/
theorem ip_rules_cover_iff (calls : List IpRuleCall) (hcalls : ∀ call ∈ calls, Addressed call) :
    Guarded step KeepsCoverage initial calls ↔
      ∀ pre post, calls=pre++post → (runs step initial pre).Faithful := by
  have hinit : initial.Faithful := by
    intro x a
    constructor
    · exact fun h => (nomatch h)
    · intro given
      obtain ⟨r,hr,_⟩ := given
      cases hr
  exact guarded_iff_within (J := fun s : IpRuleState => s.rules.Addressed)
    (fun s call hs hcall => step_addressed hs call hcall)
    (fun s call hs hcall h => step_iff h hs call hcall) hcalls (fun r hr => (nomatch hr)) hinit

theorem ip_rules_cover_iff_host :
    (runs step initial [.create ⟨"10.0.0.7","block",none⟩]).Faithful := by
  refine (ip_rules_cover_iff [.create ⟨"10.0.0.7","block",none⟩] ?_).mp ⟨?_,trivial⟩ _ [] rfl
  · intro call hcall
    rw [List.mem_singleton.mp hcall]
    show (Cidr.parse (trim "10.0.0.7")).isSome=true
    decide
  · intro action c haction hc _
    have hc32 : Cidr.parse (trim "10.0.0.7")=some ⟨⟨10,0,0,7⟩,32,Nat.le_refl 32⟩ := by decide
    obtain rfl := Option.some.inj (hc32.symm.trans hc)
    constructor
    · intro x hx hne
      exact absurd (Cidr.eq_base_of_contains rfl hx) hne
    · intro b hb given
      obtain ⟨r,hr,_⟩ := given
      cases hr

/-- Only `10.0.0.0` is blocked. -/
theorem ip_rules_block_one_address :
    ¬(runs step initial [.create ⟨"10.0.0.0/24","block",none⟩]).Faithful := by
  intro h
  have hnone : (runs step initial [.create ⟨"10.0.0.0/24","block",none⟩]).treatment
      ⟨10,0,0,7⟩=none := by decide
  have hcovers : (⟨"10.0.0.0/24",.block,true⟩ : IpRuleRow).Covers ⟨10,0,0,7⟩ :=
    ⟨⟨⟨10,0,0,0⟩,24,by decide⟩,by decide,by decide⟩
  have hblock := (h ⟨10,0,0,7⟩ .block).mpr ⟨_,List.mem_singleton_self _,rfl,rfl,hcovers⟩
  rw [hnone] at hblock
  cases hblock

end IpRuleState

end NacPlatform
