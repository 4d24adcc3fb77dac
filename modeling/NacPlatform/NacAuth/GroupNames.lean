import NacPlatform.Framework.Url
import NacPlatform.NacAuth.Ldap

namespace NacPlatform.NacAuth

/-! Distinguished names as a directory writes them. -/

/-- The characters that never stand for themselves in an attribute value. -/
def special (c : Char) : Bool := c ∈ ['"','+',',',';','<','>','\\']

/-- One character of an attribute value: a number sign needs a backslash at its beginning, a space
at its beginning and its end. -/
def escapeDnChar (first last : Bool) (c : Char) : List Char :=
  if c = '\x00' then ['\\','0','0']
  else if special c || (c = ' ' && (first || last)) || (c = '#' && first) then ['\\',c]
  else [c]

def escapeDnGo : Bool → List Char → List Char
  | _, [] => []
  | first, c::cs => escapeDnChar first cs.isEmpty c++escapeDnGo false cs

/-- The attribute value in the string form of a name. -/
def escapeDn (g : List Char) : List Char := escapeDnGo true g

/-- A name that is written as it is, and that does not end in a blank of any kind. -/
structure Bare (g : List Char) : Prop where
  plain : ∀ c ∈ g, c ≠ '\x00' ∧ special c=false
  begins : g.head?≠some ' ' ∧ g.head?≠some '#'
  ends : ∀ c, g.getLast?=some c → isWhitespace c=false

/-- An escape only adds backslashes. -/
theorem escapeDnChar_cases (first last : Bool) (c : Char) :
    escapeDnChar first last c=[c] ∨
      (escapeDnChar first last c).count '\\'=[c].count '\\'+1 := by
  unfold escapeDnChar
  split
  · next h =>
    subst h
    exact .inr (by decide)
  · split
    · exact .inr (by rw [List.count_cons_self])
    · exact .inl rfl

theorem count_first (c : Char) (g : List Char) :
    (c::g).count '\\'=[c].count '\\'+g.count '\\' := by
  rw [← List.count_append,List.singleton_append]

theorem escapeDnGo_cases (first : Bool) (g : List Char) :
    escapeDnGo first g=g ∨ g.count '\\'<(escapeDnGo first g).count '\\' := by
  induction g generalizing first with
  | nil => exact .inl rfl
  | cons c g ih =>
    rw [escapeDnGo,List.count_append,count_first]
    rcases escapeDnChar_cases first g.isEmpty c with hc|hc
    · rcases ih false with hg|hg
      · exact .inl (by rw [hc,hg]; rfl)
      · exact .inr (by rw [hc]; omega)
    · rcases ih false with hg|hg
      · exact .inr (by rw [hc,hg]; omega)
      · exact .inr (by omega)

theorem escapeDnChar_eq_self {first last : Bool} {c : Char} : escapeDnChar first last c=[c] ↔
    (c ≠ '\x00' ∧ special c=false) ∧ (first=true → c ≠ ' ' ∧ c ≠ '#') ∧ (last=true → c ≠ ' ') := by
  unfold escapeDnChar
  constructor
  · intro h
    split at h
    · cases h
    · next hnul =>
      split at h
      · cases h
      · next hplain =>
        simp only [Bool.or_eq_true,Bool.and_eq_true,decide_eq_true_eq,not_or,not_and,
          Bool.not_eq_true] at hplain
        obtain ⟨⟨hspecial,hspace⟩,hnumber⟩ := hplain
        refine ⟨⟨hnul,hspecial⟩,?_,?_⟩
        · intro hfirst
          refine ⟨fun hc => ?_,fun hc => ?_⟩
          · exact absurd hfirst (by simp [(hspace hc).1])
          · exact absurd hfirst (by simp [hnumber hc])
        · intro hlast hc
          exact absurd hlast (by simp [(hspace hc).2])
  · intro h
    obtain ⟨⟨hnul,hspecial⟩,hfirst,hlast⟩ := h
    rw [if_neg hnul,if_neg]
    simp only [Bool.or_eq_true,Bool.and_eq_true,decide_eq_true_eq,hspecial,Bool.false_eq_true,
      false_or]
    rintro (⟨hc,hf|hl⟩|⟨hc,hf⟩)
    · exact (hfirst hf).1 hc
    · exact hlast hl hc
    · exact (hfirst hf).2 hc

theorem escapeDnGo_cons_eq_self {first : Bool} {c : Char} {g : List Char} :
    escapeDnGo first (c::g)=c::g ↔
      escapeDnChar first g.isEmpty c=[c] ∧ escapeDnGo false g=g := by
  constructor
  · intro h
    have hcount := congrArg (List.count '\\') h
    rw [escapeDnGo,List.count_append,count_first] at hcount
    have hc : escapeDnChar first g.isEmpty c=[c] := by
      rcases escapeDnChar_cases first g.isEmpty c with hc|hc
      · exact hc
      · rcases escapeDnGo_cases false g with hg|hg
        · rw [hg] at hcount
          omega
        · omega
    rw [escapeDnGo,hc] at h
    exact ⟨hc,(List.cons.inj h).2⟩
  · intro h
    rw [escapeDnGo,h.1,h.2]
    rfl

theorem escapeDnGo_eq_self {first : Bool} {g : List Char} : escapeDnGo first g=g ↔
    (∀ c ∈ g, c ≠ '\x00' ∧ special c=false) ∧
      (first=true → g.head?≠some ' ' ∧ g.head?≠some '#') ∧ g.getLast?≠some ' ' := by
  induction g generalizing first with
  | nil => simp [escapeDnGo]
  | cons c g ih =>
    rw [escapeDnGo_cons_eq_self,escapeDnChar_eq_self,ih]
    cases g with
    | nil => simp
    | cons d g =>
      rw [List.getLast?_cons_cons,List.forall_mem_cons]
      simp
      tauto

/-- The names that extraction can keep are written as they are. -/
theorem bare_iff {g : List Char} :
    Bare g ↔ escapeDn g=g ∧ g.rdropWhile isWhitespace=g := by
  have hends : g.rdropWhile isWhitespace=g ↔
      ∀ c, g.getLast?=some c → isWhitespace c=false := by
    rw [List.rdropWhile_eq_self_iff]
    cases g using List.reverseRecOn with
    | nil => simp
    | append_singleton g c => simp
  rw [hends,escapeDn,escapeDnGo_eq_self]
  constructor
  · intro h
    refine ⟨⟨h.plain,fun _ => h.begins,?_⟩,h.ends⟩
    intro hlast
    exact absurd (h.ends ' ' hlast) (by decide)
  · intro h
    exact ⟨h.1.1,h.1.2.1 rfl,h.2⟩

theorem mem_escapeDnGo {first : Bool} {g : List Char} {c : Char} (h : c ∈ escapeDnGo first g) :
    c ∈ g ∨ c = '\\' ∨ c = '0' := by
  induction g generalizing first with
  | nil => cases h
  | cons d g ih =>
    rw [escapeDnGo,List.mem_append] at h
    rcases h with h|h
    · unfold escapeDnChar at h
      split_ifs at h
      all_goals
        simp only [List.mem_cons,List.not_mem_nil,or_false] at h ⊢
        tauto
    · rcases ih h with h|h
      · exact .inl (List.mem_cons_of_mem d h)
      · exact .inr h

/-- Without a comma in the name there is none in the attribute value. -/
theorem takeWhile_escapeDn {g : List Char} (h : ',' ∉ g) :
    (escapeDn g).takeWhile (· != ',')=escapeDn g := by
  rw [List.takeWhile_eq_self_iff]
  intro c hc
  rcases mem_escapeDnGo hc with hg|rfl|rfl
  · exact bne_iff_ne.mpr fun e => h (e ▸ hg)
  · decide
  · decide

/-- Cutting off blanks undoes no escape, for it loses no backslash. -/
theorem escapeDn_of_rdropWhile {g : List Char}
    (h : (escapeDn g).rdropWhile isWhitespace=g) : escapeDn g=g := by
  have hcut : ((escapeDn g).rtakeWhile isWhitespace).count '\\'=0 := by
    rw [List.count_eq_zero]
    intro hin
    exact absurd (List.mem_rtakeWhile_imp hin) (by decide)
  have hcount := congrArg (List.count '\\')
    (List.rdropWhile_append_rtakeWhile (p := isWhitespace) (l := escapeDn g))
  rw [List.count_append,hcut,h] at hcount
  rcases escapeDnGo_cases true g with hself|hmore
  · exact hself
  · rw [escapeDn] at hcount
    omega

theorem trim_component (x : List Char) : trim (String.ofList ("CN=".toList++x))=
    String.ofList ("CN=".toList++x.rdropWhile isWhitespace) := by
  have hcn : "CN=".toList=['C','N']++['='] := by decide
  have hbegin : (['C','N','=']++x).dropWhile isWhitespace=['C','N','=']++x :=
    List.dropWhile_cons_of_neg (by decide)
  have hend := Url.rdropWhile_append_cons (p := isWhitespace) (a := '=') (by decide) ['C','N'] x
  rw [trim,String.toList_ofList,hcn]
  exact congrArg String.ofList ((congrArg (List.rdropWhile isWhitespace) hbegin).trans hend)

/-- What stands before the first comma, without the blanks at its end. -/
theorem extractCnFromDn_component (rt : Runtime) (x : List Char) (suffix : String) :
    extractCnFromDn rt ("CN="++String.ofList x++","++suffix)=
      String.ofList ((x.takeWhile (· != ',')).rdropWhile isWhitespace) := by
  have hpart : takeUntil ',' ("CN="++String.ofList x++","++suffix)=
      String.ofList ("CN=".toList++x.takeWhile (· != ',')) := by
    have hcomma : ",".toList=[','] := by decide
    have hx : (String.ofList x).toList=x := String.toList_ofList
    rw [takeUntil,String.toList_append,String.toList_append,String.toList_append,hx,hcomma,
      List.append_assoc,List.append_assoc,
      List.takeWhile_append_of_pos (List.all_eq_true.mp (by decide)),List.singleton_append,
      List.takeWhile_append]
    split
    · next hall =>
      rw [List.takeWhile_cons_of_neg (by decide),List.append_nil,
        (List.takeWhile_prefix _).eq_of_length hall]
    · rfl
  have hupper (y : List Char) : "CN=".toList.isPrefixOf
      (rt.toUppercase (String.ofList ("CN=".toList++y))).toList=true := by
    have hascii : rt.toUppercase "CN="="CN=" := by
      rw [rt.toUppercase_ascii _ (List.all_iff_forall_prop.mp (by decide))]
      decide
    rw [String.ofList_append,String.ofList_toList,rt.toUppercase_append,hascii,
      String.toList_append]
    exact List.isPrefixOf_iff_prefix.mpr (List.prefix_append _ _)
  have hthree : "CN=".toList.length=3 := by decide
  rw [extractCnFromDn,hpart,trim_component]
  simp only [if_pos (hupper _)]
  rw [String.toList_ofList,← hthree,List.drop_left]

/-- The name of a group, with whatever follows it. -/
def groupDn (g suffix : String) : String :=
  "CN="++String.ofList (escapeDn g.toList)++","++suffix

theorem extractCnFromDn_groupDn (rt : Runtime) (g suffix : String) :
    extractCnFromDn rt (groupDn g suffix)=g ↔ Bare g.toList := by
  rw [groupDn,extractCnFromDn_component,bare_iff]
  constructor
  · intro h
    have hg := congrArg String.toList h
    rw [String.toList_ofList] at hg
    have hcomma : ',' ∉ g.toList := by
      intro hin
      rw [← hg] at hin
      have hkept := List.mem_takeWhile_imp ((List.rdropWhile_prefix _ _).mem hin)
      exact absurd hkept (by decide)
    rw [takeWhile_escapeDn hcomma] at hg
    have hescape := escapeDn_of_rdropWhile hg
    rw [hescape] at hg
    exact ⟨hescape,hg⟩
  · intro h
    obtain ⟨hescape,hends⟩ := h
    have hplain := (bare_iff.mpr ⟨hescape,hends⟩).plain
    have hcomma : ',' ∉ g.toList := by
      intro hin
      exact absurd (hplain ',' hin).2 (by decide)
    rw [takeWhile_escapeDn hcomma,hescape,hends,String.ofList_toList]

/-- Extraction gives the name of a group back exactly if no character of it is escaped and it
does not end in a blank. Such groups do not collapse. -/
theorem extractCnFromDn_round_trip (rt : Runtime) :
    (∀ g suffix, extractCnFromDn rt (groupDn g suffix)=g ↔ Bare g.toList) ∧
    ∀ g h suffix suffix', Bare g.toList → Bare h.toList →
      extractCnFromDn rt (groupDn g suffix)=extractCnFromDn rt (groupDn h suffix') → g=h := by
  refine ⟨extractCnFromDn_groupDn rt,?_⟩
  intro g h suffix suffix' hg hh heq
  have hleft := (extractCnFromDn_groupDn rt g suffix).mpr hg
  have hright := (extractCnFromDn_groupDn rt h suffix').mpr hh
  exact (hleft.symm.trans heq).trans hright

theorem extractCnFromDn_round_trip_staff :
    let extracted := extractCnFromDn Runtime.ascii (groupDn "Staff 1" "OU=Groups,DC=corp")
    Bare "Staff 1".toList ∧ Bare extracted.toList ∧ extracted="Staff 1" := by
  intro extracted
  have hbare : Bare "Staff 1".toList := by
    refine bare_iff.mpr ?_
    decide +kernel
  obtain ⟨round,inj⟩ := extractCnFromDn_round_trip Runtime.ascii
  have hround : extracted="Staff 1" := (round "Staff 1" "OU=Groups,DC=corp").mpr hbare
  have hbare' : Bare extracted.toList := by rwa [hround]
  have hagain : extractCnFromDn Runtime.ascii (groupDn extracted "DC=corp")=
      extractCnFromDn Runtime.ascii (groupDn "Staff 1" "DC=corp") := by rw [hround]
  exact ⟨hbare,hbare',inj _ _ _ _ hbare' hbare hagain⟩

/-- Two groups with a comma in their names. -/
theorem extractCnFromDn_commas :
    groupDn "Sales, EU" "DC=corp"="CN=Sales\\, EU,DC=corp" ∧
    extractCnFromDn Runtime.ascii (groupDn "Sales, EU" "DC=corp")="Sales\\" ∧
    extractCnFromDn Runtime.ascii (groupDn "Sales, US" "DC=corp")="Sales\\" ∧
    ¬∀ g suffix, extractCnFromDn Runtime.ascii (groupDn g suffix)=g := by
  have hcut : extractCnFromDn Runtime.ascii (groupDn "Sales, EU" "DC=corp")="Sales\\" := by
    decide +kernel
  refine ⟨by decide +kernel,hcut,by decide +kernel,?_⟩
  intro h
  have heq := h "Sales, EU" "DC=corp"
  rw [hcut] at heq
  exact absurd heq (by decide)

end NacPlatform.NacAuth
