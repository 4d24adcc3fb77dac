import NacPlatform.PolicyManager.Conditions

namespace NacPlatform

/-- The leaves that both evaluators implement. -/
inductive SharedLeaf where
  | osFamily (value : String)
  | deviceType (value : String)
  | compliant (required : Bool)
  | macList (macs : List String)
  | macBlacklist (macs : List String)

def SharedLeaf.condition : SharedLeaf → Condition
  | osFamily value => .osFamily value
  | deviceType value => .deviceType value
  | compliant required => .compliant required
  | macList macs => .macList macs
  | macBlacklist macs => .macBlacklist macs

/-- The conditions built from the leaves in `L` with and, or and not. -/
inductive Over (L : SharedLeaf → Prop) : Condition → Prop where
  | leaf {l : SharedLeaf} (h : L l) : Over L l.condition
  | and {cs : List Condition} (h : ∀ c ∈ cs, Over L c) : Over L (.and cs)
  | or {cs : List Condition} (h : ∀ c ∈ cs, Over L c) : Over L (.or cs)
  | not {c : Condition} (h : Over L c) : Over L (.not c)

/-- A context that carries the facts of a row the shared leaves look at. -/
def EndpointRow.facts (row : EndpointRow) (base : PolicyContext) : PolicyContext :=
  { base with
    macAddress := row.macAddress.text
    osFamily := row.osFamily
    deviceType := row.deviceType
    isCompliant := row.isCompliant }

section Agreement

variable {rt : Runtime}

theorem allMatches_eq (row : EndpointRow) (cs : List Condition) :
    allMatches rt row cs=cs.all (conditionMatches rt row) := by
  induction cs with
  | nil => rfl
  | cons c cs ih => simp only [allMatches,List.all_cons,ih]

theorem anyMatches_eq (row : EndpointRow) (cs : List Condition) :
    anyMatches rt row cs=cs.any (conditionMatches rt row) := by
  induction cs with
  | nil => rfl
  | cons c cs ih => simp only [anyMatches,List.any_cons,ih]

/-- A stored text that equals the wanted one up to ASCII case is the wanted one. -/
def sameCase (stored : Option String) (value : String) : Prop :=
  ∀ s, stored=some s → eqIgnoreAsciiCase s value=true → s=value

/-- A listed address with the upper case of the stored one is, or another listed one is, equal to
it up to ASCII case. -/
def sameAddress (rt : Runtime) (mac : MacAddr) (macs : List String) : Prop :=
  (∃ m ∈ macs, rt.toUppercase m=rt.toUppercase mac.text) →
    ∃ m ∈ macs, eqIgnoreAsciiCase m mac.text=true

/-- The row gives the evaluators no ground to differ on a leaf. -/
def SharedLeaf.agrees (rt : Runtime) (row : EndpointRow) : SharedLeaf → Prop
  | osFamily value => sameCase row.osFamily value
  | deviceType value => sameCase row.deviceType value
  | compliant required => row.isCompliant.isSome=true ∨ required=true
  | macList macs => sameAddress rt row.macAddress macs
  | macBlacklist macs => sameAddress rt row.macAddress macs

theorem text_leaf_iff (stored : Option String) (value : String) :
    (stored==some value)=(stored.map fun s => eqIgnoreAsciiCase s value).getD false ↔
      sameCase stored value := by
  cases stored with
  | none => simp [sameCase]
  | some s =>
    have hself : eqIgnoreAsciiCase value value=true := by simp [eqIgnoreAsciiCase]
    rw [Bool.eq_iff_iff]
    simp only [Option.map_some,Option.getD_some,sameCase,Option.some.injEq,forall_eq',
      beq_iff_eq]
    constructor
    · intro h
      exact h.mpr
    · intro h
      exact ⟨fun e => e ▸ hself,h⟩

theorem mac_leaf_iff (mac : MacAddr) (macs : List String) :
    (macs.any fun m => rt.toUppercase m==rt.toUppercase mac.text)=
        (macs.any fun m => eqIgnoreAsciiCase m mac.text) ↔ sameAddress rt mac macs := by
  rw [Bool.eq_iff_iff]
  simp only [List.any_eq_true,beq_iff_eq,sameAddress]
  constructor
  · intro h
    exact h.mp
  · intro h
    refine ⟨h,?_⟩
    intro given
    obtain ⟨m,hm,he⟩ := given
    exact ⟨m,hm,upper_eq_of_ignoreCase rt.toUppercase_ascii mac.text_ascii he⟩

theorem leaf_iff (row : EndpointRow) (base : PolicyContext) (l : SharedLeaf) :
    matchesCondition rt (row.facts base) l.condition=conditionMatches rt row l.condition ↔
      l.agrees rt row := by
  cases l with
  | osFamily value => exact text_leaf_iff row.osFamily value
  | deviceType value => exact text_leaf_iff row.deviceType value
  | compliant required =>
    change (row.isCompliant==some required)=(row.isCompliant.getD false==required) ↔
      row.isCompliant.isSome=true ∨ required=true
    cases row.isCompliant with
    | none => cases required <;> decide
    | some b => simp
  | macList macs => exact mac_leaf_iff row.macAddress macs
  | macBlacklist macs => exact mac_leaf_iff row.macAddress macs

/-- Agreement on the leaves carries over to every tree, `not` included. -/
theorem tree_agrees {L : SharedLeaf → Prop} {row : EndpointRow} {base : PolicyContext}
    (hL : ∀ l, L l → l.agrees rt row) {c : Condition} (hc : Over L c) :
    matchesCondition rt (row.facts base) c=conditionMatches rt row c := by
  induction hc with
  | leaf h => exact (leaf_iff row base _).mpr (hL _ h)
  | @and cs h ih =>
    rw [matchesCondition,conditionMatches,allMatch_eq,allMatches_eq]
    rw [Bool.eq_iff_iff,List.all_eq_true,List.all_eq_true]
    exact forall₂_congr fun c hc => by rw [ih c hc]
  | @or cs h ih =>
    rw [matchesCondition,conditionMatches,anyMatch_eq,anyMatches_eq]
    rw [Bool.eq_iff_iff,List.any_eq_true,List.any_eq_true]
    exact exists_congr fun c => and_congr_right fun hc => by rw [ih c hc]
  | not h ih => rw [matchesCondition,conditionMatches,ih]

/-- On a row, the two evaluators give every tree over a set of leaves the same value, and so pick
the same rule of every list in order of priority, exactly when the row gives them no ground to
differ on one of these leaves. -/
theorem evaluators_agree_iff (rt : Runtime) (L : SharedLeaf → Prop) (row : EndpointRow)
    (base : PolicyContext) :
    ((∀ c, Over L c → matchesCondition rt (row.facts base) c=conditionMatches rt row c) ∧
      ∀ rules : List PolicyRule, rules.Pairwise (fun a b => a.priority ≤ b.priority) →
        (∀ r ∈ rules, Over L r.condition) →
        firstMatch rt rules (row.facts base)=
          rules.find? fun r => conditionMatches rt row r.condition) ↔
      ∀ l, L l → l.agrees rt row := by
  constructor
  · intro h l hl
    exact (leaf_iff row base l).mp (h.1 _ (.leaf hl))
  · intro hL
    refine ⟨fun c hc => tree_agrees hL hc,?_⟩
    intro rules hsorted hrules
    rw [firstMatch,sortRules_of_sorted hsorted]
    exact find?_congr fun r hr => tree_agrees hL (hrules r hr)

end Agreement

/-- A workstation as the sensor reports it, before any posture report. -/
def windowsRow : EndpointRow :=
  EndpointTable.insertedRow 1 ⟨0xaa,0xbb,0xcc,0xdd,0xee,1⟩ (some "10.0.0.7/32")
    ⟨"aa:bb:cc:dd:ee:01",some "10.0.0.7",none,some "Windows",none,none,none,none,none⟩ 0

/-- The batch run sees a `windows` rule match a Windows device, and a device without a verdict as
one that is not compliant; the event path sees neither. -/
theorem evaluators_differ :
    matchesCondition Runtime.ascii (windowsRow.facts {}) (.osFamily "windows")=false ∧
      conditionMatches Runtime.ascii windowsRow (.osFamily "windows")=true ∧
      matchesCondition Runtime.ascii (windowsRow.facts {}) (.compliant false)=false ∧
      conditionMatches Runtime.ascii windowsRow (.compliant false)=true := by
  decide +kernel

end NacPlatform
