import NacPlatform.AdminConsole.BlacklistEdits

namespace NacPlatform.AdminConsole

/-! What the edits come to for the devices. -/

theorem eqIgnoreAsciiCase_text {m : String} {mac : MacAddr} :
    eqIgnoreAsciiCase m mac.text=true ↔ asciiLower m=mac.text := by
  rw [eqIgnoreAsciiCase_iff]
  have hlower : asciiLower mac.text=mac.text := Runtime.ascii.toLowercase_text mac
  rw [hlower]

theorem eqIgnoreAsciiCase_texts {m mac : MacAddr} :
    eqIgnoreAsciiCase m.text mac.text=true ↔ m=mac := by
  have hlower : asciiLower m.text=m.text := Runtime.ascii.toLowercase_text m
  rw [eqIgnoreAsciiCase_text,hlower,MacAddr.text_inj]

/-- A spelling of an address that differs in case has the address as its lower case. -/
theorem toLowercase_of_spelling (rt : Runtime) {m : String} {mac : MacAddr}
    (h : eqIgnoreAsciiCase m mac.text=true) : rt.toLowercase m=mac.text := by
  have hlower := eqIgnoreAsciiCase_text.mp h
  rw [rt.toLowercase_ascii,hlower]
  intro c hc
  apply ascii_of_toLower
  apply mac.text_ascii
  rw [← hlower,toList_asciiLower]
  exact List.mem_map_of_mem hc

/-- The rule that is made of the policy matches the device, whatever else is known of it. -/
def Blocks (rt : Runtime) (id : Uuid) (t : PolicyTable) (mac : MacAddr) : Prop :=
  ∃ row rule, t.findById id=some row ∧ toPolicyRule row.toPolicyRow=.ok rule ∧
    ∀ ep : EndpointRow, ep.macAddress=mac → conditionMatches rt ep rule.condition=true

/-- A text of the list is the address in some case. -/
def named (texts : List String) (mac : MacAddr) : Bool :=
  texts.any fun m => eqIgnoreAsciiCase m mac.text

theorem named_iff {texts : List String} {mac : MacAddr} :
    named texts mac=true ↔ ∃ m ∈ texts, eqIgnoreAsciiCase m mac.text=true := List.any_eq_true

theorem Sole.blocks_iff {rt : Runtime} {id : Uuid} {texts : List String} {t : PolicyTable}
    {mac : MacAddr} (h : Sole id texts t.rows) : Blocks rt id t mac ↔ named texts mac=true := by
  obtain ⟨row,hfind,-,hlists⟩ := h.find
  have hrule := toPolicyRule_listsOnly hlists
  have hmatch (ep : EndpointRow) (hep : ep.macAddress=mac) :
      conditionMatches rt ep (.macBlacklist texts)=named texts mac := by
    rw [← hep]
    rfl
  constructor
  · intro given
    obtain ⟨row',rule,hfind',hrule',hall⟩ := given
    cases hfind.symm.trans hfind'
    cases hrule.symm.trans hrule'
    rw [← hmatch { windowsRow with macAddress := mac } rfl]
    exact hall _ rfl
  · intro hnamed
    refine ⟨row,_,hfind,hrule,?_⟩
    intro ep hep
    rw [hmatch ep hep,hnamed]

theorem named_listed {texts : List String} {text : String} {mac : MacAddr} :
    named (Change.apply texts (.listed text)) mac=
      (named texts mac || eqIgnoreAsciiCase text mac.text) := by
  simp [named,Change.apply]

section Visits

variable {Tab : Type} [DecidableEq Tab] (rt : Runtime) (pg : Postgres)
  (refuses : PolicyCall → Bool) (id : Uuid)

/-- One visit of the device page: it is given the policies once; then devices are clicked on, and
other clients send requests. -/
structure Visit (Tab : Type) where
  tab : Tab
  clicks : List (MacAddr ⊕ PolicyRequest)

def Visit.click (tab : Tab) : MacAddr ⊕ PolicyRequest → Act Tab
  | .inl mac => .edit tab (.device mac)
  | .inr r => .other r

def Visit.acts (v : Visit Tab) : List (Act Tab) := .load v.tab::v.clicks.map (click v.tab)

/-- The device that the visit blacklists last: of those that the page says have been added. -/
def Visit.last (s : Consoles Tab) (v : Visit Tab) : Option Change :=
  (s.changes rt pg refuses id v.acts).getLast?

variable {rt pg refuses id}

variable (rt pg refuses id) in
/-- The clicks of a visit are changes to the one copy that the page was given. -/
theorem trace_clicks (s : Consoles Tab) (tab : Tab) (clicks : List (MacAddr ⊕ PolicyRequest)) :
    ∃ macs : List MacAddr,
      trace (Consoles.step rt pg refuses id) (Consoles.moves rt refuses id) s
        (clicks.map (Visit.click tab))=(macs.map fun m => .listed m.text).map (.change tab) := by
  induction clicks generalizing s with
  | nil => exact ⟨[],rfl⟩
  | cons click clicks ih =>
    rw [List.map_cons,trace]
    obtain ⟨macs,hmacs⟩ := ih (s.step rt pg refuses id (Visit.click tab click))
    rw [hmacs]
    cases click with
    | inr r => exact ⟨macs,rfl⟩
    | inl mac =>
      cases hw : s.wentThrough rt refuses id tab (.device mac) with
      | false =>
        refine ⟨macs,?_⟩
        rw [Visit.click,Consoles.moves,hw]
        rfl
      | true =>
        refine ⟨mac::macs,?_⟩
        rw [Visit.click,Consoles.moves,hw]
        rfl

omit [DecidableEq Tab] in
theorem changes_clicks (tab : Tab) (cs : List Change) :
    Copies.changes (.load tab::cs.map (.change tab))=cs := by
  induction cs with
  | nil => rfl
  | cons c cs ih =>
    show c::Copies.changes (.load tab::cs.map (.change tab))=c::cs
    rw [ih]

variable (rt pg refuses) in
theorem shows_visit {s : Consoles Tab} {c : Copies Tab (List String)} {v : Visit Tab}
    (hv : ∀ r, .inr r ∈ v.clicks → Leaves id r) (h : Shows id s c) (mac : MacAddr) :
    ∃ c', Shows id (runs (Consoles.step rt pg refuses id) s v.acts) c' ∧
      (named c'.stored mac=true ↔
        named c.stored mac=true ∨ v.last rt pg refuses id s=some (.listed mac.text)) := by
  obtain ⟨macs,hmacs⟩ := trace_clicks rt pg refuses id
    (s.step rt pg refuses id (.load v.tab)) v.tab v.clicks
  have htrace : trace (Consoles.step rt pg refuses id) (Consoles.moves rt refuses id) s v.acts=
      .load v.tab::(macs.map fun m => .listed m.text).map (.change v.tab) := by
    rw [Visit.acts,trace,hmacs]
    rfl
  have hlast : v.last rt pg refuses id s=(macs.map fun m => Change.listed m.text).getLast? := by
    rw [Visit.last,Consoles.changes,htrace,changes_clicks]
  have hothers : ∀ r, .other r ∈ v.acts → Leaves id r := by
    intro r hr
    rcases List.mem_cons.mp hr with hr|hr
    · cases hr
    · obtain ⟨click,hclick,he⟩ := List.mem_map.mp hr
      cases click with
      | inl mac => cases he
      | inr r' =>
        cases he
        exact hv r hclick
  refine ⟨_,runs_simulate rt pg refuses hothers h,?_⟩
  rw [htrace,Copies.stored_of_visit,hlast,List.getLast?_map]
  cases macs.getLast? with
  | none => simp
  | some m =>
    have htext : eqIgnoreAsciiCase m.text mac.text=true ↔ m.text=mac.text := by
      rw [eqIgnoreAsciiCase_texts,MacAddr.text_inj]
    rw [Option.map_some,Option.toList_some,runs_cons,runs_nil,named_listed,Bool.or_eq_true,htext,
      Option.some.injEq,Change.listed.injEq]

variable (rt pg refuses) in
theorem shows_visits {s : Consoles Tab} {c : Copies Tab (List String)} {visits : List (Visit Tab)}
    (hv : ∀ v ∈ visits, ∀ r, .inr r ∈ v.clicks → Leaves id r) (h : Shows id s c) (mac : MacAddr) :
    ∃ c', Shows id (runs (Consoles.step rt pg refuses id) s (visits.flatMap Visit.acts)) c' ∧
      (named c'.stored mac=true ↔ named c.stored mac=true ∨
        ∃ pre v post, visits=pre++v::post ∧
          v.last rt pg refuses id
            (runs (Consoles.step rt pg refuses id) s (pre.flatMap Visit.acts))=
              some (.listed mac.text)) := by
  induction visits generalizing s c with
  | nil => exact ⟨c,h,by simp⟩
  | cons v visits ih =>
    obtain ⟨hhere,hthere⟩ := List.forall_mem_cons.mp hv
    obtain ⟨c₁,h₁,hnamed₁⟩ := shows_visit rt pg refuses hhere h mac
    obtain ⟨c',h',hnamed'⟩ := ih hthere h₁
    refine ⟨c',by rw [List.flatMap_cons,runs_append]; exact h',?_⟩
    rw [hnamed',hnamed₁,or_assoc]
    refine or_congr_right ?_
    constructor
    · intro given
      rcases given with hlast|⟨pre,w,post,rfl,hlast⟩
      · exact ⟨[],v,visits,rfl,hlast⟩
      · refine ⟨v::pre,w,post,rfl,?_⟩
        rw [List.flatMap_cons,runs_append]
        exact hlast
    · intro given
      obtain ⟨pre,w,post,same,hlast⟩ := given
      cases pre with
      | nil =>
        obtain ⟨rfl,rfl⟩ := List.cons.inj same
        exact .inl hlast
      | cons u pre =>
        obtain ⟨rfl,rfl⟩ := List.cons.inj same
        rw [List.flatMap_cons,runs_append] at hlast
        exact .inr ⟨pre,w,post,rfl,hlast⟩

end Visits

theorem Sole.shows {Tab : Type} {id : Uuid} {texts : List String} {s : Consoles Tab}
    (h : Sole id texts s.table.rows) (hdata : ∀ tab, s.data tab=none) :
    Shows id s ⟨texts,fun _ => texts⟩ := by
  refine ⟨h,?_⟩
  intro tab rows hrows
  rw [hdata tab] at hrows
  cases hrows

/-- A group of the console among the policies of the migrations. -/
def withGroup (bulk : String) : PolicyTable :=
  runs (PolicyRequest.step fun _ => false) (PolicyTable.seeded serialIds 0)
    [.create (handleCreateBlacklistPolicy "mac-blacklist" bulk)]

theorem withGroup_sole (bulk : String) : Sole 5 (bulkLines bulk) (withGroup bulk).rows := by
  obtain ⟨row,hrows,hid,hlists⟩ : ∃ row,
      (withGroup bulk).rows=PolicyTable.seedRows serialIds 0++[row] ∧ row.id=5 ∧
        ListsOnly row.conditions (bulkLines bulk) :=
    ⟨_,rfl,rfl,_,rfl,rfl,rfl⟩
  refine ⟨(withGroup bulk).ids,⟨row,by rw [hrows]; simp,hid,hlists⟩,?_⟩
  intro r hr hne
  rw [hrows,List.mem_append,List.mem_singleton] at hr
  rcases hr with hr|rfl
  · simp only [PolicyTable.seedRows,List.mem_cons,List.not_mem_nil,or_false] at hr
    rcases hr with rfl|rfl|rfl|rfl
    · exact unlisted_nil
    · exact ⟨_,rfl,fun e he => by cases List.mem_singleton.mp he; rfl⟩
    · exact ⟨_,rfl,fun e he => by cases List.mem_singleton.mp he; rfl⟩
    · exact unlisted_nil
  · exact absurd hid hne

def consoles (bulk : String) : Consoles Unit := ⟨withGroup bulk,fun _ => none⟩

/-- The device page is given the policies once. Of the devices that it puts on the blacklist, and
says have been put there, each visit keeps the last one and takes the others off again. -/
theorem visits_keep_last {Tab : Type} [DecidableEq Tab] (rt : Runtime) (pg : Postgres)
    (refuses : PolicyCall → Bool) (id : Uuid) (texts : List String) (s : Consoles Tab)
    (hs : Sole id texts s.table.rows) (hdata : ∀ tab, s.data tab=none) (visits : List (Visit Tab))
    (hv : ∀ v ∈ visits, ∀ r, .inr r ∈ v.clicks → Leaves id r) (mac : MacAddr) :
    Blocks rt id (runs (Consoles.step rt pg refuses id) s (visits.flatMap Visit.acts)).table mac ↔
      Blocks rt id s.table mac ∨ ∃ pre v post, visits=pre++v::post ∧
        v.last rt pg refuses id
          (runs (Consoles.step rt pg refuses id) s (pre.flatMap Visit.acts))=
            some (.listed mac.text) := by
  obtain ⟨c,hshows,hnamed⟩ := shows_visits rt pg refuses hv (hs.shows hdata) mac
  rw [hshows.table.blocks_iff,hs.blocks_iff,hnamed]

/-- Two devices are clicked on in one visit. -/
def twoClicks : Visit Unit := ⟨(),[.inl ⟨1,2,3,4,5,6⟩,.inl ⟨1,2,3,4,5,7⟩]⟩

/-- Both are put on the blacklist with success, and the first one is not blocked. -/
theorem visits_keep_last_two :
    (consoles "").changes Runtime.ascii .plain (fun _ => false) 5 twoClicks.acts=
      [.listed "01:02:03:04:05:06",.listed "01:02:03:04:05:07"] ∧
    ¬Blocks Runtime.ascii 5 (runs (Consoles.step Runtime.ascii .plain (fun _ => false) 5)
      (consoles "") ([twoClicks].flatMap Visit.acts)).table ⟨1,2,3,4,5,6⟩ := by
  have hchanges : (consoles "").changes Runtime.ascii .plain (fun _ => false) 5 twoClicks.acts=
      [.listed "01:02:03:04:05:06",.listed "01:02:03:04:05:07"] := by
    rfl
  have hothers : ∀ v ∈ [twoClicks], ∀ r, .inr r ∈ v.clicks → Leaves 5 r := by
    intro v hv r hr
    cases List.mem_singleton.mp hv
    simp [twoClicks] at hr
  have hbefore : ¬Blocks Runtime.ascii 5 (withGroup "") ⟨1,2,3,4,5,6⟩ := by
    rw [(withGroup_sole "").blocks_iff]
    decide
  refine ⟨hchanges,?_⟩
  rw [visits_keep_last Runtime.ascii .plain (fun _ => false) 5 (bulkLines "") (consoles "")
    (withGroup_sole "") (fun _ => rfl) [twoClicks] hothers]
  intro given
  rcases given with hnamed|⟨pre,v,post,same,hlast⟩
  · exact hbefore hnamed
  · obtain ⟨rfl,rfl⟩ : pre=[] ∧ v=twoClicks := by
      cases pre with
      | nil => exact ⟨rfl,(List.cons.inj same).1.symm⟩
      | cons w pre => simp at same
    have hsame : some (Change.listed "01:02:03:04:05:07")=
        some (.listed (MacAddr.text ⟨1,2,3,4,5,6⟩)) :=
      (congrArg List.getLast? hchanges).symm.trans hlast
    exact absurd hsame (by decide)

section Following

/-- What an edit means for the device. -/
def Change.marks (c : Change) (mac : MacAddr) : Option Bool :=
  match c with
  | listed text => if eqIgnoreAsciiCase text mac.text then some true else none
  | unlisted text => if eqIgnoreAsciiCase text mac.text then some false else none

/-- No address is listed in two spellings. -/
def OneSpelling (texts : List String) : Prop :=
  ∀ mac : MacAddr, ∀ m ∈ texts, ∀ m' ∈ texts, eqIgnoreAsciiCase m mac.text=true →
    eqIgnoreAsciiCase m' mac.text=true → m=m'

variable {rt : Runtime} {texts : List String}

/-- The page looks for an address before it lists it, and takes it off as it is written. -/
theorem apply_follows {c : Change} (h : OneSpelling texts) (hfits : Fits rt texts c) :
    OneSpelling (c.apply texts) ∧
      ∀ mac, named (c.apply texts) mac=(c.marks mac).getD (named texts mac) := by
  cases c with
  | listed text =>
    refine ⟨?_,?_⟩
    · intro mac m hm m' hm' hcase hcase'
      have hnew {t : String} (ht : t ∈ texts) (hsame : eqIgnoreAsciiCase t mac.text=true)
          (htext : eqIgnoreAsciiCase text mac.text=true) : False :=
        hfits t ht ((toLowercase_of_spelling rt hsame).trans
          (toLowercase_of_spelling rt htext).symm)
      simp only [Change.apply,List.mem_append,List.mem_singleton] at hm hm'
      rcases hm with hm|rfl
      · rcases hm' with hm'|rfl
        · exact h mac m hm m' hm' hcase hcase'
        · exact (hnew hm hcase hcase').elim
      · rcases hm' with hm'|rfl
        · exact (hnew hm' hcase' hcase).elim
        · rfl
    · intro mac
      rw [named_listed,Change.marks]
      split_ifs with hcase
      · simp [hcase]
      · simp [hcase]
  | unlisted text =>
    have hmem {m : String} : m ∈ Change.apply texts (.unlisted text) ↔ m ∈ texts ∧ m≠text := by
      simp [Change.apply]
    refine ⟨?_,?_⟩
    · intro mac m hm m' hm' hcase hcase'
      exact h mac m (hmem.mp hm).1 m' (hmem.mp hm').1 hcase hcase'
    · intro mac
      rw [Change.marks]
      split_ifs with hcase
      · -- the text that is taken off is the only one that spells the address
        rw [Option.getD_some,← Bool.not_eq_true,named_iff]
        intro given
        obtain ⟨m,hm,hcase'⟩ := given
        obtain ⟨hm,hne⟩ := hmem.mp hm
        exact hne (h mac m hm text hfits hcase' hcase)
      · rw [Option.getD_none,Bool.eq_iff_iff,named_iff,named_iff]
        constructor
        · intro given
          obtain ⟨m,hm,hcase'⟩ := given
          exact ⟨m,(hmem.mp hm).1,hcase'⟩
        · intro given
          obtain ⟨m,hm,hcase'⟩ := given
          exact ⟨m,hmem.mpr ⟨hm,fun e => hcase (e ▸ hcase')⟩,hcase'⟩

theorem runs_follow {cs : List Change} (h : OneSpelling texts)
    (hfits : Guarded Change.apply (Fits rt) texts cs) (mac : MacAddr) :
    named (runs Change.apply texts cs) mac=
      (lastWrite Change.marks mac cs).getD (named texts mac) := by
  induction cs generalizing texts with
  | nil => rfl
  | cons c cs ih =>
    obtain ⟨hc,hcs⟩ := hfits
    obtain ⟨hone,hnamed⟩ := apply_follows h hc
    rw [runs_cons,ih hone hcs,hnamed,lastWrite]
    cases lastWrite Change.marks mac cs <;> rfl

variable {Tab : Type} [DecidableEq Tab] {pg : Postgres} {refuses : PolicyCall → Bool} {id : Uuid}

/-- An edit is made on a page that shows the group as it is. -/
def Fresh (id : Uuid) (s : Consoles Tab) : Act Tab → Prop
  | .edit tab _ => ∀ rows, s.data tab=some rows →
    (rows.find? (·.id==id)).map (·.conditions)=(s.table.findById id).map (·.conditions)
  | _ => True

theorem listsOnly_unique {conditions : Json} {texts texts' : List String}
    (h : ListsOnly conditions texts) (h' : ListsOnly conditions texts') : texts=texts' := by
  obtain ⟨fields,rfl,-,hmacs⟩ := h
  obtain ⟨fields',he,-,hmacs'⟩ := h'
  cases he
  have hsame : texts.map Json.string=texts'.map Json.string := by
    have hboth := hmacs.symm.trans hmacs'
    simpa using hboth
  exact (List.map_injective_iff.mpr fun _ _ he => Json.string.inj he) hsame

/-- Two listings of the group in the same conditions list the same texts. -/
theorem Sole.unique {rows rows' : List PolicyRecord} {texts texts' : List String}
    (h : Sole id texts rows) (h' : Sole id texts' rows')
    (hsame : (rows.find? (·.id==id)).map (·.conditions)=
      (rows'.find? (·.id==id)).map (·.conditions)) : texts=texts' := by
  obtain ⟨row,hfind,-,hlists⟩ := h.find
  obtain ⟨row',hfind',-,hlists'⟩ := h'.find
  rw [hfind,hfind',Option.map_some,Option.map_some,Option.some.injEq] at hsame
  rw [hsame] at hlists
  exact listsOnly_unique hlists hlists'

variable (rt refuses) in
theorem moves_current {s : Consoles Tab} {c : Copies Tab (List String)} {a : Act Tab}
    (h : Shows id s c) (hfresh : Fresh id s a) :
    Guarded (Copies.step Change.apply) (Copies.Current (Fits rt)) c
      (s.moves rt refuses id a) := by
  cases a with
  | load tab => exact ⟨trivial,trivial⟩
  | other r => trivial
  | edit tab e =>
    rw [Consoles.moves]
    split_ifs with hw
    · refine ⟨?_,trivial⟩
      obtain ⟨hfits,-⟩ := went_edit .plain h hw
      cases hdata : s.data tab with
      | none =>
        obtain ⟨id',body,hsent,-⟩ := exists_sends hw
        obtain ⟨u,hu⟩ : ∃ u, e.sends rt id []=.error u := sends_nil e
        rw [Consoles.sends,hdata,Option.getD_none,hu] at hsent
        cases hsent
      | some rows =>
        have hcopy : c.copy tab=c.stored :=
          (h.data tab rows hdata).unique h.table (hfresh rows hdata)
        exact ⟨hcopy,hcopy ▸ hfits⟩
    · trivial

theorem named_of_fresh {s : Consoles Tab} {c : Copies Tab (List String)} {as : List (Act Tab)}
    (has : ∀ r, .other r ∈ as → Leaves id r) (h : Shows id s c) (hone : OneSpelling c.stored)
    (hfresh : Guarded (Consoles.step rt pg refuses id) (Fresh id) s as) (mac : MacAddr) :
    Blocks rt id (runs (Consoles.step rt pg refuses id) s as).table mac ↔
      (lastWrite Change.marks mac (s.changes rt pg refuses id as)).getD (named c.stored mac)=
        true := by
  have hguarded := hfresh.trace (Consoles.moves rt refuses id) (Shows id)
    (fun s c a ha hs => step_simulates (fun r hr => has r (hr ▸ ha)) hs)
    (fun s c a _ hs hf => moves_current rt refuses hs hf) h
  obtain ⟨hfits,hstored⟩ := Copies.stored_of_current Change.apply hguarded
  rw [(runs_simulate rt pg refuses has h).table.blocks_iff,hstored,runs_follow hone hfits mac]
  rfl

theorem find_listAll (pg : Postgres) (id : Uuid) (t : PolicyTable) :
    (listAll pg t).find? (·.id==id)=t.findById id := by
  have hperm : (listAll pg t).Perm t.rows :=
    (List.perm_insertionSort _ _).trans (pg.scan_perm _)
  cases hfind : t.findById id with
  | none =>
    rw [List.find?_eq_none]
    intro r hr
    exact List.find?_eq_none.mp hfind r (hperm.mem_iff.mp hr)
  | some row =>
    obtain ⟨hrow,hid⟩ := PolicyTable.mem_of_findById hfind
    refine find?_unique (((hperm.map _).nodup_iff).mpr t.ids) (hperm.mem_iff.mpr hrow)
      (by simpa using hid) ?_
    intro r _ hr
    rw [hid]
    simpa using hr

/-- A server that takes what keeps its constraints takes new conditions for a policy it has. -/
theorem accepts_conditions {t : PolicyTable} {row : PolicyRecord} (hfind : t.findById id=some row)
    (c : Json) :
    (PolicyRequest.update id (conditionsUpdate c)).accepted (fun _ => false) t=true := by
  obtain ⟨hrow,hid⟩ := PolicyTable.mem_of_findById hfind
  rw [PolicyRequest.accepted_eq_passes,PolicyRequest.passes,hfind,Option.any_some]
  simp only [Bool.not_false,Bool.true_and,PolicyTable.takesFor,Bool.and_eq_true]
  constructor
  · show (PolicyAction.parse row.action.text).isSome=true
    rw [PolicyAction.parse_text]
    rfl
  · rw [List.all_eq_true]
    intro r hr
    rw [Bool.or_eq_true,beq_iff_eq,bne_iff_ne]
    by_contra hnot
    obtain ⟨hother,hsame⟩ := not_or.mp hnot
    have he : r=row := List.inj_on_of_nodup_map t.names hr hrow (not_not.mp hsame)
    exact hother (he ▸ hid)

omit [DecidableEq Tab] in
theorem remove_goes {s : Consoles Tab} {tab : Tab} {rows : List PolicyRecord} {m : String}
    (hs : Sole id texts s.table.rows) (hdata : s.data tab=some rows) (hrows : Sole id texts rows)
    (hm : m ∈ texts) : s.wentThrough rt (fun _ => false) id tab (.remove m)=true := by
  obtain ⟨row,hfind,-⟩ := hs.find
  obtain ⟨c,hsent⟩ := hrows.sends_remove rt hm
  rw [Consoles.wentThrough,Consoles.sends,hdata,Option.getD_some,hsent]
  exact accepts_conditions hfind c

/-- A page is opened and an address of the group taken off. -/
def removal (tab : Tab) (m : String) : List (Act Tab) := [.load tab,.edit tab (.remove m)]

omit [DecidableEq Tab] in
theorem removal_others (tab : Tab) (m : String) :
    ∀ r, .other r ∈ removal tab m → Leaves id r := by
  intro r hr
  rcases List.mem_cons.mp hr with hr|hr
  · cases hr
  · cases List.mem_singleton.mp hr

variable (rt) in
theorem removal_goes (pg : Postgres) (tab : Tab) {s : Consoles Tab} {m : String}
    (hs : Sole id texts s.table.rows) (hm : m ∈ texts) :
    Guarded (Consoles.step rt pg (fun _ => false) id) (Fresh id) s (removal tab m) ∧
      trace (Consoles.step rt pg (fun _ => false) id) (Consoles.moves rt (fun _ => false) id) s
        (removal tab m)=[.load tab,.change tab (.unlisted m)] := by
  let opened : Consoles Tab :=
    { s with data := Function.update s.data tab (some (listAll pg s.table)) }
  have hopened : opened.data tab=some (listAll pg s.table) := Function.update_self ..
  have hgoes : opened.wentThrough rt (fun _ => false) id tab (.remove m)=true :=
    remove_goes hs hopened hs.listAll hm
  constructor
  · refine ⟨trivial,?_,trivial⟩
    intro rows hrows
    have hgiven : listAll pg s.table=rows := Option.some.inj (hopened.symm.trans hrows)
    rw [← hgiven,find_listAll]
    rfl
  · have hedit : opened.moves rt (fun _ => false) id (.edit tab (.remove m))=
        [.change tab (.unlisted m)] := if_pos hgoes
    show [.load tab]++(opened.moves rt (fun _ => false) id (.edit tab (.remove m))++[])=_
    rw [hedit]
    rfl

end Following

/-- Where every edit is made on a page that shows the group as it is, each edit of each page that
goes through comes true for the device it is about, until another one about that device. -/
def EditsComeTrue {Tab : Type} [DecidableEq Tab] (rt : Runtime) (pg : Postgres) (id : Uuid)
    (s : Consoles Tab) : Prop :=
  ∀ refuses as, (∀ r, .other r ∈ as → Leaves id r) →
    Guarded (Consoles.step rt pg refuses id) (Fresh id) s as → ∀ mac,
      (Blocks rt id (runs (Consoles.step rt pg refuses id) s as).table mac ↔
        lastWrite Change.marks mac (s.changes rt pg refuses id as)=some true ∨
        lastWrite Change.marks mac (s.changes rt pg refuses id as)=none ∧
          Blocks rt id s.table mac)

/-- That is so exactly when the group does not list an address in two spellings. -/
theorem edits_come_true_iff {Tab : Type} [DecidableEq Tab] (tab : Tab) (rt : Runtime)
    (pg : Postgres) (id : Uuid) (texts : List String) (s : Consoles Tab)
    (hs : Sole id texts s.table.rows) (hdata : ∀ tab, s.data tab=none) :
    EditsComeTrue rt pg id s ↔ OneSpelling texts := by
  constructor
  · intro h mac m hm m' hm' hcase hcase'
    by_contra hne
    obtain ⟨hfresh,htrace⟩ := removal_goes rt pg tab hs hm
    have hstored : (runs (Copies.step Change.apply) ⟨texts,fun _ => texts⟩
        [.load tab,.change tab (.unlisted m)]).stored=Change.apply texts (.unlisted m) :=
      Copies.stored_of_visit Change.apply ⟨texts,fun _ => texts⟩ tab [.unlisted m]
    have hafter := (runs_simulate rt pg (fun _ => false) (removal_others tab m)
      (hs.shows hdata)).table
    rw [htrace,hstored] at hafter
    have hblocks := h (fun _ => false) (removal tab m) (removal_others tab m) hfresh mac
    have hmark : lastWrite Change.marks mac (s.changes rt pg (fun _ => false) id
        (removal tab m))=some false := by
      rw [Consoles.changes,htrace]
      show (none : Option Bool).or (Change.marks (.unlisted m) mac)=some false
      rw [Option.none_or,Change.marks,if_pos hcase]
    rw [hafter.blocks_iff,hmark,named_iff] at hblocks
    have hstill : ∃ t ∈ Change.apply texts (.unlisted m), eqIgnoreAsciiCase t mac.text=true :=
      ⟨m',by simpa [Change.apply] using ⟨hm',fun e => hne e.symm⟩,hcase'⟩
    rcases hblocks.mp hstill with h|⟨h,-⟩
    · cases h
    · cases h
  · intro hone refuses as has hfresh mac
    rw [named_of_fresh has (hs.shows hdata) hone hfresh mac,hs.blocks_iff]
    cases lastWrite Change.marks mac (s.changes rt pg refuses id as) with
    | none => simp
    | some b => simp

/-- A group whose form was filled with one address, and one whose form had it in two spellings. -/
theorem edits_come_true_iff_bulk :
    EditsComeTrue Runtime.ascii .plain 5 (consoles "aa:bb:cc:dd:ee:01") ∧
      ¬EditsComeTrue Runtime.ascii .plain 5
        (consoles "aa:bb:cc:dd:ee:01\nAA:BB:CC:DD:EE:01") := by
  constructor
  · refine (edits_come_true_iff () Runtime.ascii .plain 5 _ _ (withGroup_sole _)
      (fun _ => rfl)).mpr ?_
    intro mac m hm m' hm' _ _
    have hlines : bulkLines "aa:bb:cc:dd:ee:01"=["aa:bb:cc:dd:ee:01"] := by rfl
    rw [hlines,List.mem_singleton] at hm hm'
    rw [hm,hm']
  · intro h
    have hone := (edits_come_true_iff () Runtime.ascii .plain 5 _ _ (withGroup_sole _)
      (fun _ => rfl)).mp h
    have hlines : bulkLines "aa:bb:cc:dd:ee:01\nAA:BB:CC:DD:EE:01"=
        ["aa:bb:cc:dd:ee:01","AA:BB:CC:DD:EE:01"] := by rfl
    rw [hlines] at hone
    have hsame := hone ⟨0xaa,0xbb,0xcc,0xdd,0xee,1⟩ "aa:bb:cc:dd:ee:01" (by simp)
      "AA:BB:CC:DD:EE:01" (by simp) (by decide) (by decide)
    exact absurd hsame (by decide)

end NacPlatform.AdminConsole
