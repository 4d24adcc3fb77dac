import NacPlatform.PolicyManager.Agreement
import NacPlatform.PolicyManager.OsVersions

namespace NacPlatform

/-! What the event path makes of conditions on posture data, which it does not have. -/

/-- The leaves on posture data, and those on the address. -/
inductive BlindLeaf where
  | osVersionBelow (version : String)
  | osVersionAtLeast (version : String)
  | softwareInstalled (name : String)
  | softwareNotInstalled (name : String)
  | hasMissingPatches
  | usbEnabled
  | bluetoothEnabled
  | folderSharingEnabled
  | macList (macs : List String)
  | macBlacklist (macs : List String)

def BlindLeaf.condition : BlindLeaf → Condition
  | osVersionBelow version => .osVersionBelow version
  | osVersionAtLeast version => .osVersionAtLeast version
  | softwareInstalled name => .softwareInstalled name
  | softwareNotInstalled name => .softwareNotInstalled name
  | hasMissingPatches => .hasMissingPatches
  | usbEnabled => .usbEnabled
  | bluetoothEnabled => .bluetoothEnabled
  | folderSharingEnabled => .folderSharingEnabled
  | macList macs => .macList macs
  | macBlacklist macs => .macBlacklist macs

/-- The conditions built with and, or and not whose leaves are in `L`: in `L true` below an even
number of negations, in `L false` below an odd number. -/
inductive Signed (L : Bool → BlindLeaf → Prop) : Bool → Condition → Prop where
  | leaf {pos : Bool} {l : BlindLeaf} (h : L pos l) : Signed L pos l.condition
  | and {pos : Bool} {cs : List Condition} (h : ∀ c ∈ cs, Signed L pos c) : Signed L pos (.and cs)
  | or {pos : Bool} {cs : List Condition} (h : ∀ c ∈ cs, Signed L pos c) : Signed L pos (.or cs)
  | not {pos : Bool} {c : Condition} (h : Signed L (!pos) c) : Signed L pos (.not c)

/-- The columns that posture reports write. -/
structure PostureColumns where
  sw : Option Json
  missingPatches : Int32
  usbEnabled : Option Bool
  bluetooth : Option Bool
  folderSharing : Option Bool
  osVersion : Option String

def EndpointRow.reporting (row : EndpointRow) (p : PostureColumns) : EndpointRow :=
  { row with
    postureSw := p.sw
    postureMissingPatches := p.missingPatches
    postureUsbEnabled := p.usbEnabled
    postureBluetooth := p.bluetooth
    postureFolderSharing := p.folderSharing
    postureOsVersion := p.osVersion }

/-- The first value stands for no more than the second; below a negation the other way round. -/
def Weaker : Bool → Bool → Bool → Prop
  | true,a,b => a=true → b=true
  | false,a,b => b=true → a=true

theorem Weaker.not {pos a b : Bool} (h : Weaker (!pos) a b) : Weaker pos (!a) (!b) := by
  cases pos <;> cases a <;> cases b <;> simp_all [Weaker]

theorem Weaker.all {pos : Bool} {f g : Condition → Bool} {cs : List Condition}
    (h : ∀ c ∈ cs, Weaker pos (f c) (g c)) : Weaker pos (cs.all f) (cs.all g) := by
  cases pos with
  | true =>
    intro hall
    rw [List.all_eq_true] at hall ⊢
    exact fun c hc => h c hc (hall c hc)
  | false =>
    intro hall
    rw [List.all_eq_true] at hall ⊢
    exact fun c hc => h c hc (hall c hc)

theorem Weaker.any {pos : Bool} {f g : Condition → Bool} {cs : List Condition}
    (h : ∀ c ∈ cs, Weaker pos (f c) (g c)) : Weaker pos (cs.any f) (cs.any g) := by
  cases pos with
  | true =>
    intro hany
    rw [List.any_eq_true] at hany ⊢
    obtain ⟨c,hc,hf⟩ := hany
    exact ⟨c,hc,h c hc hf⟩
  | false =>
    intro hany
    rw [List.any_eq_true] at hany ⊢
    obtain ⟨c,hc,hf⟩ := hany
    exact ⟨c,hc,h c hc hf⟩

section

variable {rt : Runtime} {row : EndpointRow} {base : PolicyContext}

/-- What holds of the leaves at their signs holds of the tree at its own. -/
theorem signed_weaker {L : Bool → BlindLeaf → Prop} {p : PostureColumns}
    (hL : ∀ pos l, L pos l → Weaker pos (matchesCondition rt (row.facts base) l.condition)
      (conditionMatches rt (row.reporting p) l.condition))
    {pos : Bool} {c : Condition} (hc : Signed L pos c) :
    Weaker pos (matchesCondition rt (row.facts base) c)
      (conditionMatches rt (row.reporting p) c) := by
  induction hc with
  | leaf h => exact hL _ _ h
  | and h ih =>
    rw [matchesCondition,conditionMatches,allMatch_eq,allMatches_eq]
    exact Weaker.all ih
  | or h ih =>
    rw [matchesCondition,conditionMatches,anyMatch_eq,anyMatches_eq]
    exact Weaker.any ih
  | not h ih =>
    rw [matchesCondition,conditionMatches]
    exact ih.not

/-- A leaf that the two evaluators cannot be told apart by, where it stands. Below an odd number of
negations it is no leaf on posture data, but for the one that no version is below. -/
def BlindLeaf.safe (rt : Runtime) (mac : MacAddr) : Bool → BlindLeaf → Prop
  | true,macList macs => sameAddress rt mac macs
  | true,macBlacklist macs => sameAddress rt mac macs
  | true,_ => True
  | false,macList _ => True
  | false,macBlacklist _ => True
  | false,osVersionBelow version => ∀ n ∈ versionParts version, n=0
  | false,_ => False

theorem textContains_self (s : String) : textContains s s=true := by
  unfold textContains
  rw [List.any_eq_true]
  exact ⟨s.toList,by simp,by simp⟩

/-- Before any report. -/
def PostureColumns.unreported : PostureColumns := ⟨none,0,none,none,none,none⟩

/-- Addresses are compared with the stored one, whatever has been reported. -/
theorem macs_weaker_iff (pos : Bool) (mac : MacAddr) (macs : List String) :
    Weaker pos (macs.any fun m => rt.toUppercase m==rt.toUppercase mac.text)
        (macs.any fun m => eqIgnoreAsciiCase m mac.text) ↔
      (pos=true → sameAddress rt mac macs) := by
  cases pos with
  | true =>
    simp only [Weaker,List.any_eq_true,beq_iff_eq,sameAddress,forall_const]
  | false =>
    simp only [Weaker,List.any_eq_true,beq_iff_eq,Bool.false_eq_true,false_imp_iff,iff_true]
    intro given
    obtain ⟨m,hm,hcase⟩ := given
    exact ⟨m,hm,upper_eq_of_ignoreCase rt.toUppercase_ascii mac.text_ascii hcase⟩

/-- Nothing but zeros is as low as no version at all. -/
theorem cmp_nil_cases (bs : List Nat) :
    Padded.cmp 0 [] bs=.eq ∧ (∀ n ∈ bs, n=0) ∨ Padded.cmp 0 [] bs=.lt ∧ ∃ n ∈ bs, n≠0 := by
  induction bs with
  | nil => exact .inl ⟨rfl,by simp⟩
  | cons b bs ih =>
    have hcons : Padded.cmp 0 [] (b::bs)=(compare 0 b).then (Padded.cmp 0 [] bs) := rfl
    rw [hcons]
    by_cases hb : b=0
    · rw [hb,Nat.compare_eq_eq.mpr rfl,Ordering.eq_then]
      rcases ih with ⟨heq,hzero⟩ | ⟨hlt,n,hn,hne⟩
      · exact .inl ⟨heq,by simpa using hzero⟩
      · exact .inr ⟨hlt,n,by simp [hn],hne⟩
    · rw [Nat.compare_eq_lt.mpr (Nat.pos_of_ne_zero hb)]
      exact .inr ⟨rfl,b,by simp,hb⟩

/-- The version that no version is below. -/
theorem never_below_iff (rt : Runtime) (row : EndpointRow) (v : String) :
    (∀ p : PostureColumns, conditionMatches rt (row.reporting p) (.osVersionBelow v)=false) ↔
      ∀ n ∈ versionParts v, n=0 := by
  have below (p : PostureColumns) :
      conditionMatches rt (row.reporting p) (.osVersionBelow v)=false ↔
        Padded.cmp 0 (versionParts (reportedOsVersion (row.reporting p))) (versionParts v)≠.lt := by
    rw [conditionMatches,compareOsVersion_eq,beq_eq_false_iff_ne]
  simp only [below]
  constructor
  · intro h
    have hempty : versionParts ""=[] := by decide
    have hno : Padded.cmp 0 (versionParts "") (versionParts v)≠.lt :=
      h {PostureColumns.unreported with osVersion := some ""}
    rw [hempty] at hno
    rcases cmp_nil_cases (versionParts v) with ⟨_,hzero⟩ | ⟨hlt,_⟩
    · exact hzero
    · exact absurd hlt hno
  · intro hzero p
    have heq : Padded.cmp 0 [] (versionParts v)=.eq := by
      rcases cmp_nil_cases (versionParts v) with ⟨heq,_⟩ | ⟨_,n,hn,hne⟩
      · exact heq
      · exact absurd (hzero n hn) hne
    rw [← Std.TransCmp.congr_right heq,Padded.cmp_swap]
    rcases cmp_nil_cases (versionParts (reportedOsVersion (row.reporting p))) with
      ⟨hnil,_⟩ | ⟨hnil,_⟩
    · rw [hnil]
      decide
    · rw [hnil]
      decide

/-- Every other leaf on posture data holds for some report. -/
theorem posture_leaf_holds {l : BlindLeaf} (hsafe : ¬ l.safe rt row.macAddress false) :
    ∃ p, conditionMatches rt (row.reporting p) l.condition=true := by
  cases l with
  | osVersionBelow v =>
    by_contra h
    refine hsafe ((never_below_iff rt row v).mp fun p => ?_)
    exact Bool.eq_false_iff.mpr fun hp => h ⟨p,hp⟩
  | osVersionAtLeast v =>
    refine ⟨{PostureColumns.unreported with osVersion := some v},?_⟩
    change (compareOsVersion v v != .lt)=true
    rw [(compareOsVersion_total_preorder rt).1 v]
    rfl
  | softwareInstalled name =>
    refine ⟨{PostureColumns.unreported with
      sw := some (.array [.array [.string name,.string ""]])},?_⟩
    change ([(⟨name,""⟩ : PostureSoftwareItem)].any fun s =>
      textContains (rt.toLowercase s.name) (rt.toLowercase name))=true
    rw [List.any_cons,textContains_self,Bool.true_or]
  | softwareNotInstalled name => exact ⟨.unreported,rfl⟩
  | hasMissingPatches =>
    refine ⟨{PostureColumns.unreported with missingPatches := 1},?_⟩
    change decide ((0 : Int32)<1)=true
    decide
  | usbEnabled => exact ⟨{PostureColumns.unreported with usbEnabled := some true},rfl⟩
  | bluetoothEnabled => exact ⟨{PostureColumns.unreported with bluetooth := some true},rfl⟩
  | folderSharingEnabled =>
    exact ⟨{PostureColumns.unreported with folderSharing := some true},rfl⟩
  | macList macs => exact absurd trivial hsafe
  | macBlacklist macs => exact absurd trivial hsafe

/-- A leaf that is not safe at its sign is enough to tell the evaluators apart. -/
theorem leaf_weaker_iff (base : PolicyContext) (pos : Bool) (l : BlindLeaf) :
    (∀ p, Weaker pos (matchesCondition rt (row.facts base) l.condition)
        (conditionMatches rt (row.reporting p) l.condition)) ↔
      l.safe rt row.macAddress pos := by
  have macs (kind : List String → Condition) (listed : List String)
      (hevent : matchesCondition rt (row.facts base) (kind listed)=
        listed.any fun m => rt.toUppercase m==rt.toUppercase row.macAddress.text)
      (hbatch : ∀ p, conditionMatches rt (row.reporting p) (kind listed)=
        listed.any fun m => eqIgnoreAsciiCase m row.macAddress.text) :
      (∀ p, Weaker pos (matchesCondition rt (row.facts base) (kind listed))
        (conditionMatches rt (row.reporting p) (kind listed))) ↔
        (pos=true → sameAddress rt row.macAddress listed) := by
    have : Nonempty PostureColumns := ⟨.unreported⟩
    simp only [hevent,hbatch,macs_weaker_iff]
    exact forall_const _
  cases pos with
  | true =>
    cases l with
    | macList listed =>
      exact (macs .macList listed rfl fun _ => rfl).trans (by simp [BlindLeaf.safe])
    | macBlacklist listed =>
      exact (macs .macBlacklist listed rfl fun _ => rfl).trans (by simp [BlindLeaf.safe])
    | _ => exact iff_of_true (fun p h => nomatch h) trivial
  | false =>
    constructor
    · intro h
      by_contra hsafe
      obtain ⟨p,hp⟩ := posture_leaf_holds hsafe
      have hevent := h p hp
      cases l with
      | macList listed => exact hsafe trivial
      | macBlacklist listed => exact hsafe trivial
      | _ => cases hevent
    · intro hsafe p hp
      cases l with
      | osVersionBelow v =>
        have hno := (never_below_iff rt row v).mpr hsafe p
        exact absurd hp (by rw [BlindLeaf.condition,hno]; decide)
      | macList listed => exact (macs .macList listed rfl fun _ => rfl).mpr nofun p hp
      | macBlacklist listed => exact (macs .macBlacklist listed rfl fun _ => rfl).mpr nofun p hp
      | _ => exact hsafe.elim

end

/-- Over a set of leaves with signs, a tree that the event path answers with yes is one that the
batch run says yes to, whatever posture is reported, exactly when every leaf is safe at its sign. -/
theorem unknown_posture_sound_iff (rt : Runtime) (L : Bool → BlindLeaf → Prop) (row : EndpointRow)
    (base : PolicyContext) :
    (∀ c, Signed L true c → matchesCondition rt (row.facts base) c=true →
      ∀ p : PostureColumns, conditionMatches rt (row.reporting p) c=true) ↔
      ∀ pos l, L pos l → l.safe rt row.macAddress pos := by
  constructor
  · intro h pos l hl
    rw [← leaf_weaker_iff base]
    intro p
    cases pos with
    | true => exact fun hevent => h _ (.leaf hl) hevent p
    | false =>
      intro hbatch
      by_contra hevent
      have hyes : matchesCondition rt (row.facts base) (.not l.condition)=true := by
        rw [matchesCondition]
        simpa using hevent
      have hno := h _ (.not (.leaf hl)) hyes p
      rw [conditionMatches,hbatch] at hno
      cases hno
  · intro h c hc hevent p
    exact signed_weaker (fun pos l hl => (leaf_weaker_iff base pos l).mpr (h pos l hl) p) hc hevent

/-- A rule for devices without USB takes one that has reported USB. -/
theorem negated_usb_fires :
    matchesCondition Runtime.ascii (windowsRow.facts {}) (.not .usbEnabled)=true ∧
      conditionMatches Runtime.ascii
        (windowsRow.reporting {PostureColumns.unreported with usbEnabled := some true})
        (.not .usbEnabled)=false := by
  decide +kernel

end NacPlatform
