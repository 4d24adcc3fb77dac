import NacPlatform.Framework.FirstMax
import NacPlatform.PolicyManager.ArpSync

namespace NacPlatform.Background

/-- The lines under the heading. -/
def dataLines (content : String) : List (List Char) := (lines content).drop 1

/-- The MAC column of a line with at least four columns, in lower case. -/
def lineMac (rt : Runtime) (line : List Char) : Option String :=
  match splitWhitespace line with
  | _::_::_::mac::_ => some (rt.toLowercase (String.ofList mac))
  | _ => none

/-- A line that counts, and what it says: it has four columns, the flags can be read and are not
zero, the MAC is not zero and the address is neither of Docker nor local. -/
structure Shows (rt : Runtime) (line : List Char) (mac ip : String) (flags : Nat) : Prop where
  columns : ∃ hw flagText macText rest,
    splitWhitespace line=ip.toList::hw::flagText::macText::rest ∧
      (fromHex 256 (trimHexPrefix flagText)).getD 0=flags ∧
      rt.toLowercase (String.ofList macText)=mac
  flags : flags≠0
  mac : mac≠"00:00:00:00:00:00"
  docker : ¬"172.".toList <+: ip.toList
  loopback : ¬"127.".toList <+: ip.toList
  linkLocal : ¬"169.254.".toList <+: ip.toList

variable {rt : Runtime}

theorem arpLine_eq_some {line : List Char} {mac ip : String} {flags : Nat} :
    arpLine rt line=some (mac,ip,flags) ↔ Shows rt line mac ip flags := by
  unfold arpLine
  constructor
  · intro h
    split at h
    · next ip' hw flagText macText rest hline =>
      simp only [Bool.or_eq_true,beq_iff_eq,List.any_cons,List.any_nil,Bool.or_false,
        List.isPrefixOf_iff_prefix] at h
      split_ifs at h with hzero hlocal
      obtain ⟨rfl,rfl,rfl⟩ : _ ∧ _ ∧ _ := by simpa using h
      simp only [not_or] at hzero hlocal
      refine ⟨⟨hw,flagText,macText,rest,?_,rfl,rfl⟩,hzero.2,hzero.1,?_,?_,?_⟩
      · rw [String.toList_ofList,hline]
      · simpa only [String.toList_ofList] using hlocal.1
      · simpa only [String.toList_ofList] using hlocal.2.1
      · simpa only [String.toList_ofList] using hlocal.2.2
    · cases h
  · intro h
    obtain ⟨hw,flagText,macText,rest,hline,hflags,hmac⟩ := h.columns
    rw [hline]
    simp only [hflags,hmac,Bool.or_eq_true,beq_iff_eq,List.any_cons,List.any_nil,Bool.or_false,
      List.isPrefixOf_iff_prefix]
    rw [if_neg (not_or.mpr ⟨h.mac,h.flags⟩),
      if_neg (not_or.mpr ⟨h.docker,not_or.mpr ⟨h.loopback,h.linkLocal⟩⟩),String.ofList_toList]

theorem Shows.lineMac {line : List Char} {mac ip : String} {flags : Nat}
    (h : Shows rt line mac ip flags) : lineMac rt line=some mac := by
  obtain ⟨hw,flagText,macText,rest,hline,-,hmac⟩ := h.columns
  rw [Background.lineMac,hline]
  exact congrArg some hmac

/-- What a line says of one MAC. -/
def shownFor (rt : Runtime) (mac : String) (line : List Char) : Option (String × Nat) :=
  (arpLine rt line).bind fun e => if e.1=mac then some e.2 else none

theorem shownFor_eq_some {line : List Char} {mac : String} {e : String × Nat} :
    shownFor rt mac line=some e ↔ Shows rt line mac e.1 e.2 := by
  rw [← arpLine_eq_some,shownFor,Option.bind_eq_some_iff]
  constructor
  · intro given
    obtain ⟨⟨mac',ip,flags⟩,hline,hmac⟩ := given
    split at hmac
    · next same =>
      obtain rfl := Option.some.inj hmac
      rw [hline]
      exact congrArg (fun m => some (m,ip,flags)) same
    · cases hmac
  · intro h
    exact ⟨_,h,if_pos rfl⟩

/-- The entry that a MAC keeps when there is a new one. -/
def keepArp (known : Option (String × Nat)) (new : String × Nat) : Option (String × Nat) :=
  match known with
  | none => some new
  | some old => if old.2<new.2 then some new else some old

theorem lookup_replaced (table : List (String × String × Nat)) (entry : String × String × Nat)
    (mac : String) : (table.map fun known =>
      if known.1=entry.1 ∧ known.2.2<entry.2.2 then entry else known).lookup mac=
        (table.lookup mac).map fun old =>
          if entry.1=mac ∧ old.2<entry.2.2 then entry.2 else old := by
  induction table with
  | nil => rfl
  | cons known table ih =>
    obtain ⟨key,old⟩ := known
    rw [List.map_cons,List.lookup_cons]
    by_cases hkey : mac=key
    · subst hkey
      by_cases hnew : mac=entry.1 ∧ old.2<entry.2.2
      · obtain ⟨rfl,hlt⟩ := hnew
        simp [hlt]
      · have hnew' : ¬(entry.1=mac ∧ old.2<entry.2.2) := fun h => hnew ⟨h.1.symm,h.2⟩
        simp [hnew,hnew']
    · have hrest : (if key=entry.1 ∧ old.2<entry.2.2 then entry else (key,old)).1≠mac := by
        split
        · next h => exact fun e => hkey (e.symm.trans h.1.symm)
        · exact fun e => hkey e.symm
      rw [List.lookup_cons,beq_false_of_ne hrest.symm,beq_false_of_ne hkey]
      exact ih

/-- An entry is noted for its own MAC. -/
theorem lookup_noteArp (table : List (String × String × Nat)) (entry : String × String × Nat)
    (mac : String) : (noteArp table entry).lookup mac=
      if entry.1=mac then keepArp (table.lookup mac) entry.2 else table.lookup mac := by
  have missing (h : entry.1 ∉ table.map Prod.fst) : table.lookup entry.1=none := by
    rw [List.lookup_eq_none_iff]
    intro known hknown
    have hne : entry.1≠known.1 := by
      intro same
      rw [same] at h
      exact h (List.mem_map_of_mem hknown)
    exact bne_iff_ne.mpr hne
  unfold noteArp
  by_cases hin : entry.1 ∈ table.map Prod.fst
  · rw [if_pos hin,lookup_replaced]
    by_cases same : entry.1=mac
    · subst same
      cases hold : table.lookup entry.1 with
      | none =>
        obtain ⟨known,hknown,heq⟩ := List.mem_map.mp hin
        have hne := List.lookup_eq_none_iff.mp hold known hknown
        simp [heq] at hne
      | some old => by_cases hlt : old.2<entry.2.2 <;> simp [keepArp,hlt]
    · simp [same]
  · rw [if_neg hin,List.lookup_append,List.lookup_cons,List.lookup_nil]
    by_cases same : entry.1=mac
    · subst same
      rw [missing hin]
      simp [keepArp]
    · rw [beq_false_of_ne fun e => same e.symm,if_neg same]
      simp

/-- What is noted of a MAC is the first of what the lines say of it with the highest flags. -/
theorem lookup_foldl_noteArp (data : List (List Char)) (mac : String) :
    ((data.filterMap (arpLine rt)).foldl noteArp []).lookup mac=
      (data.filterMap (shownFor rt mac)).argmax Prod.snd := by
  induction data using List.reverseRecOn with
  | nil => rfl
  | append_singleton data line ih =>
    rw [List.filterMap_append,List.filterMap_append,List.foldl_append]
    cases hline : arpLine rt line with
    | none => simp [hline,shownFor,ih]
    | some entry =>
      rw [List.filterMap_cons_some hline,List.filterMap_nil,List.foldl_cons,List.foldl_nil,
        lookup_noteArp,ih]
      by_cases same : entry.1=mac
      · have hshown : shownFor rt mac line=some entry.2 := by simp [shownFor,hline,same]
        rw [if_pos same,List.filterMap_cons_some hshown,List.filterMap_nil,List.argmax_concat]
        cases List.argmax Prod.snd (data.filterMap (shownFor rt mac)) <;> rfl
      · have hshown : shownFor rt mac line=none := by simp [shownFor,hline,same]
        rw [if_neg same,List.filterMap_cons_none hshown,List.filterMap_nil,List.append_nil]

theorem lookup_arpTable (content mac : String) : (arpTable rt content).lookup mac=
    (((dataLines content).filterMap (shownFor rt mac)).argmax Prod.snd).map Prod.fst := by
  have addresses (table : List (String × String × Nat)) :
      (table.map fun e => (e.1,e.2.1)).lookup mac=(table.lookup mac).map Prod.fst := by
    induction table with
    | nil => rfl
    | cons known table ih =>
      rw [List.map_cons,List.lookup_cons,List.lookup_cons,ih]
      cases mac==known.1 <;> rfl
  rw [arpTable,addresses]
  exact congrArg (Option.map Prod.fst) (lookup_foldl_noteArp _ mac)

theorem mem_arpTable_iff (content mac : String) : mac ∈ (arpTable rt content).map Prod.fst ↔
    ∃ line ∈ dataLines content, ∃ ip flags, Shows rt line mac ip flags := by
  have found : mac ∈ (arpTable rt content).map Prod.fst ↔
      (arpTable rt content).lookup mac≠none := by
    rw [Ne,List.lookup_eq_none_iff,List.mem_map]
    constructor
    · intro given hnone
      obtain ⟨known,hknown,rfl⟩ := given
      simpa using hnone known hknown
    · intro h
      by_contra hnone
      refine h fun known hknown => bne_iff_ne.mpr ?_
      intro same
      exact hnone ⟨known,hknown,same.symm⟩
  rw [found,lookup_arpTable,Ne,Option.map_eq_none_iff,List.argmax_eq_none,
    List.filterMap_eq_nil_iff]
  constructor
  · intro h
    by_contra hnone
    refine h fun line hline => Option.eq_none_iff_forall_ne_some.mpr ?_
    intro e he
    exact hnone ⟨line,hline,e.1,e.2,shownFor_eq_some.mp he⟩
  · intro given hnone
    obtain ⟨line,hline,ip,flags,hshows⟩ := given
    have he : shownFor rt mac line=some (ip,flags) := shownFor_eq_some.mpr hshows
    rw [hnone line hline] at he
    cases he

/-- The first of the highest flags, by where its line stands. -/
theorem lookup_arpTable_iff (content mac ip : String) :
    (arpTable rt content).lookup mac=some ip ↔
      ∃ pre line post flags, dataLines content=pre++line::post ∧ Shows rt line mac ip flags ∧
        (∀ l ∈ pre, ∀ ip' flags', Shows rt l mac ip' flags' → flags'<flags) ∧
        ∀ l ∈ post, ∀ ip' flags', Shows rt l mac ip' flags' → flags' ≤ flags := by
  rw [lookup_arpTable,Option.map_eq_some_iff]
  constructor
  · intro given
    obtain ⟨⟨_,flags⟩,hmax,rfl⟩ := given
    obtain ⟨pre,line,post,heq,hline,hpre,hpost⟩ := argmax_filterMap_iff.mp hmax
    refine ⟨pre,line,post,flags,heq,shownFor_eq_some.mp hline,?_,?_⟩
    · intro l hl ip' flags' hshows
      exact hpre l hl (ip',flags') (shownFor_eq_some.mpr hshows)
    · intro l hl ip' flags' hshows
      exact hpost l hl (ip',flags') (shownFor_eq_some.mpr hshows)
  · intro given
    obtain ⟨pre,line,post,flags,heq,hline,hpre,hpost⟩ := given
    refine ⟨(ip,flags),argmax_filterMap_iff.mpr ⟨pre,line,post,heq,?_,?_,?_⟩,rfl⟩
    · exact shownFor_eq_some.mpr hline
    · intro l hl e he
      exact hpre l hl e.1 e.2 (shownFor_eq_some.mp he)
    · intro l hl e he
      exact hpost l hl e.1 e.2 (shownFor_eq_some.mp he)

/-- The lines of each MAC are the same, in the same order. -/
def SameByMac (rt : Runtime) (data data' : List (List Char)) : Prop :=
  ∀ mac, (data.filter fun line => lineMac rt line==some mac)=
    data'.filter fun line => lineMac rt line==some mac

/-- Two lines of different MACs change places. -/
theorem SameByMac.swap {a b : List Char} (h : lineMac rt a≠lineMac rt b)
    (pre post : List (List Char)) : SameByMac rt (pre++a::b::post) (pre++b::a::post) := by
  intro mac
  rw [List.filter_append,List.filter_append]
  congr 1
  by_cases ha : lineMac rt a=some mac
  · have hb : lineMac rt b≠some mac := fun e => h (ha.trans e.symm)
    simp [ha,hb]
  · simp [List.filter_cons,ha]

theorem shownFor_ofMac (data : List (List Char)) (mac : String) :
    (data.filter fun line => lineMac rt line==some mac).filterMap (shownFor rt mac)=
      data.filterMap (shownFor rt mac) := by
  rw [List.filterMap_filter]
  apply List.filterMap_congr
  intro line _
  split
  · rfl
  · next hother =>
    cases hshown : shownFor rt mac line with
    | none => rfl
    | some e =>
      have hmac := (shownFor_eq_some.mp hshown).lineMac
      rw [hmac] at hother
      simp at hother

/-- The ARP table has a MAC exactly if a line shows it, with the address of the first of the lines
that show it with the highest flags. Lines of different MACs may change places. -/
theorem arpTable_first_max (rt : Runtime) (content : String) :
    (∀ mac, mac ∈ (arpTable rt content).map Prod.fst ↔
      ∃ line ∈ dataLines content, ∃ ip flags, Shows rt line mac ip flags) ∧
    (∀ mac ip, (arpTable rt content).lookup mac=some ip ↔
      ∃ pre line post flags, dataLines content=pre++line::post ∧ Shows rt line mac ip flags ∧
        (∀ l ∈ pre, ∀ ip' flags', Shows rt l mac ip' flags' → flags'<flags) ∧
        ∀ l ∈ post, ∀ ip' flags', Shows rt l mac ip' flags' → flags' ≤ flags) ∧
    ∀ content', SameByMac rt (dataLines content') (dataLines content) →
      ∀ mac, (arpTable rt content').lookup mac=(arpTable rt content).lookup mac := by
  refine ⟨mem_arpTable_iff content,lookup_arpTable_iff content,?_⟩
  intro content' same mac
  rw [lookup_arpTable,lookup_arpTable,← shownFor_ofMac (dataLines content'),same mac,
    shownFor_ofMac]

/-- Two devices in one order and in the other. -/
theorem arpTable_first_max_swapped :
    let row (ip mac : String) := ip++" 0x1 0x2 "++mac++" * eth0\n"
    let content (first second : String) := "IP address\n"++first++second
    let printer := row "10.0.0.5" "AA:BB:CC:DD:EE:01"
    let camera := row "10.0.0.6" "AA:BB:CC:DD:EE:02"
    (arpTable Runtime.ascii (content printer camera)).lookup "aa:bb:cc:dd:ee:01"=
        some "10.0.0.5" ∧
      (arpTable Runtime.ascii (content camera printer)).lookup "aa:bb:cc:dd:ee:01"=
        some "10.0.0.5" := by
  intro row content printer camera
  have hcamera : dataLines (content camera printer)=[camera.toList.dropLast,
      printer.toList.dropLast] := by decide +kernel
  have hprinter : dataLines (content printer camera)=[printer.toList.dropLast,
      camera.toList.dropLast] := by decide +kernel
  have hdiffer : lineMac Runtime.ascii camera.toList.dropLast≠
      lineMac Runtime.ascii printer.toList.dropLast := by decide +kernel
  have hsame : SameByMac Runtime.ascii (dataLines (content camera printer))
      (dataLines (content printer camera)) := by
    rw [hcamera,hprinter]
    exact SameByMac.swap hdiffer [] []
  have hfirst : (arpTable Runtime.ascii (content printer camera)).lookup "aa:bb:cc:dd:ee:01"=
      some "10.0.0.5" := by decide +kernel
  obtain ⟨-,-,hmove⟩ := arpTable_first_max Runtime.ascii (content printer camera)
  exact ⟨hfirst,(hmove _ hsame _).trans hfirst⟩

end NacPlatform.Background
