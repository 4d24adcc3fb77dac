import Mathlib.Data.List.DropRight
import Mathlib.Data.List.Forall2
import NacPlatform.Framework.Ascii

namespace NacPlatform.Url

/-! Absolute URLs of the schemes `http` and `https`, as the URL standard reads them. -/

/-- C0 controls and the space, which are dropped at both ends. -/
def isEdge (c : Char) : Bool := decide (c.toNat ≤ 0x20)

/-- Tabs and line ends, which are dropped everywhere. -/
def isIgnored (c : Char) : Bool := c == '\t' || c == '\n' || c == '\r'

def isSlash (c : Char) : Bool := c == '/' || c == '\\'

def endsAuthority (c : Char) : Bool := isSlash c || c == '?' || c == '#'

/-- Without the edge at the end and what is ignored. -/
def trim (cs : List Char) : List Char := (cs.rdropWhile isEdge).filter (!isIgnored ·)

/-- The path and the query, from the first slash after the authority on. -/
def target (url : List Char) : List Char :=
  let rest := ((trim (url.dropWhile isEdge)).dropWhile (· != ':')).drop 1
  ((rest.dropWhile isSlash).dropWhile (!endsAuthority ·)).takeWhile (· != '#')

/-- The spellings of a dot. -/
def dots : List (List Char) := [['.'],['%','2','e'],['%','2','E']]

def isSingleDot (seg : List Char) : Bool := dots.contains seg

def isDoubleDot (seg : List Char) : Bool := dots.any fun a => dots.any fun b => seg==a++b

def isDot (seg : List Char) : Bool := isSingleDot seg || isDoubleDot seg

/-- The segments so far, the last one first. -/
def step (before : List (List Char)) (seg : List Char) : List (List Char) :=
  if isDoubleDot seg then before.tail else if isSingleDot seg then before else seg::before

/-- A dot segment at the end leaves an empty segment behind. -/
def resolve : List (List Char) → List (List Char) → List (List Char)
  | before, [] => before.reverse
  | before, [seg] => (if isDot seg then []::step before seg else step before seg).reverse
  | before, seg::segs => resolve (step before seg) segs

/-- The bytes that the path percent-encode set leaves out. -/
def pathByte (b : UInt8) : Bool :=
  0x20<b && b<0x7f && !([0x22,0x23,0x3c,0x3e,0x3f,0x5e,0x60,0x7b,0x7d] : List UInt8).contains b

/-- The bytes that the special-query percent-encode set leaves out. -/
def queryByte (b : UInt8) : Bool :=
  0x20<b && b<0x7f && !([0x22,0x23,0x27,0x3c,0x3e] : List UInt8).contains b

def encodePath (seg : List Char) : String :=
  String.ofList (Percent.encodeWith pathByte (Utf8.encode seg))

def encodeQuery (query : List Char) : String :=
  String.ofList (Percent.encodeWith queryByte (Utf8.encode query))

structure Parsed where
  path : List String
  query : Option String
  deriving DecidableEq, Repr

def ofTarget (cs : List Char) : Parsed where
  path := (resolve [] (((cs.takeWhile (· != '?')).drop 1).splitOnP isSlash)).map encodePath
  query := match cs.dropWhile (· != '?') with
    | [] => none
    | _::query => some (encodeQuery query)

def parse (url : List Char) : Parsed := ofTarget (target url)

/-- The text that a segment of an encoded path stands for. -/
def decodeSegment (raw : String) : Option (List Char) :=
  Utf8.decode (Percent.decode (Utf8.encode raw.toList))

/-- A scheme and an authority, and nothing after them. -/
structure Origin where
  scheme : List Char
  authority : List Char
  scheme_plain : ∀ c ∈ scheme, isEdge c=false ∧ c ≠ ':'
  authority_plain : ∀ c ∈ authority, isEdge c=false ∧ endsAuthority c=false
  authority_nonempty : authority≠[]

def Origin.text (o : Origin) : List Char := o.scheme++[':','/','/']++o.authority

/-- Every segment after a slash. -/
def join (segs : List (List Char)) : List Char := segs.flatMap fun seg => '/'::seg

/-- What is left of the text after the first slash. -/
def kept (cs : List Char) : List Char := (trim cs).takeWhile (· != '#')

theorem isEdge_of_ignored {c : Char} (h : isIgnored c=true) : isEdge c=true := by
  simp only [isIgnored,Bool.or_eq_true,beq_iff_eq] at h
  rcases h with (rfl|rfl)|rfl <;> rfl

theorem dropWhile_append_cons {α : Type _} {p : α → Bool} {a : α} (ha : p a=false)
    (xs ys : List α) : (xs++a::ys).dropWhile p=xs.dropWhile p++a::ys := by
  induction xs with
  | nil => simp [ha]
  | cons x xs ih =>
    rw [List.cons_append,List.dropWhile_cons,List.dropWhile_cons]
    split
    · exact ih
    · rfl

theorem rdropWhile_append_cons {α : Type _} {p : α → Bool} {a : α} (ha : p a=false)
    (xs ys : List α) : (xs++a::ys).rdropWhile p=xs++a::ys.rdropWhile p := by
  have hr : (xs++a::ys).reverse=ys.reverse++a::xs.reverse := by simp
  rw [List.rdropWhile,hr,dropWhile_append_cons ha]
  simp [List.rdropWhile]

theorem isIgnored_of_not_edge {c : Char} (h : isEdge c=false) : isIgnored c=false := by
  cases hi : isIgnored c with
  | false => rfl
  | true => rw [isEdge_of_ignored hi] at h; cases h

/-- Nothing before a character that stays is trimmed. -/
theorem trim_append {before : List Char} (hb : ∀ c ∈ before, isIgnored c=false) {c : Char}
    (hc : isEdge c=false) (cs : List Char) : trim (before++c::cs)=before++c::trim cs := by
  have hf : before.filter (!isIgnored ·)=before := by
    rw [List.filter_eq_self]
    intro d hd
    rw [hb d hd]
    rfl
  rw [trim,rdropWhile_append_cons hc,List.filter_append,hf,
    List.filter_cons_of_pos (by simp [isIgnored_of_not_edge hc]),trim]

theorem kept_append {before : List Char} (hb : ∀ c ∈ before, isIgnored c=false ∧ c ≠ '#')
    {c : Char} (hc : isEdge c=false) (hh : c ≠ '#') (cs : List Char) :
    kept (before++c::cs)=before++c::kept cs := by
  have hn : ∀ d ∈ before, (d != '#')=true := by
    intro d hd
    simpa using (hb d hd).2
  rw [kept,trim_append (fun d hd => (hb d hd).1) hc,List.takeWhile_append_of_pos hn,
    List.takeWhile_cons_of_pos (by simpa using hh),kept]

theorem isMark_edge {c : Char} (h : isEdge c=true) : Percent.isMark c.toNat=true := by
  have hle : c.toNat ≤ 0x20 := of_decide_eq_true h
  have all : ∀ n : Fin 0x21, Percent.isMark n=true := by decide
  exact all ⟨c.toNat,by omega⟩

theorem marks_filter (cs : List Char) :
    Percent.marks (cs.filter (!isIgnored ·)) ≤ Percent.marks cs ∧
      (Percent.marks cs ≤ Percent.marks (cs.filter (!isIgnored ·)) →
        ∀ c ∈ cs, isIgnored c=false) := by
  induction cs with
  | nil => exact ⟨le_refl _,fun _ c hc => (nomatch hc)⟩
  | cons c cs ih =>
    cases hc : isIgnored c with
    | false =>
      rw [List.filter_cons_of_pos (by simp [hc]),Percent.marks_cons,Percent.marks_cons]
      refine ⟨by omega,?_⟩
      intro h d hd
      rcases List.mem_cons.mp hd with rfl|hd
      · exact hc
      · exact ih.2 (by omega) d hd
    | true =>
      rw [List.filter_cons_of_neg (by simp [hc]),Percent.marks_cons,
        if_pos (isMark_edge (isEdge_of_ignored hc))]
      exact ⟨by omega,fun h => absurd h (by omega)⟩

theorem marks_rdropWhile (cs : List Char) :
    Percent.marks (cs.rdropWhile isEdge) ≤ Percent.marks cs ∧
      (Percent.marks cs ≤ Percent.marks (cs.rdropWhile isEdge) → cs.rdropWhile isEdge=cs) := by
  induction cs using List.reverseRecOn with
  | nil => exact ⟨le_refl _,fun _ => rfl⟩
  | append_singleton cs c ih =>
    cases hc : isEdge c with
    | false =>
      rw [List.rdropWhile_concat_neg isEdge cs c (by simp [hc])]
      exact ⟨le_refl _,fun _ => rfl⟩
    | true =>
      rw [List.rdropWhile_concat_pos isEdge cs c hc,Percent.marks_append,Percent.marks_cons,
        if_pos (isMark_edge hc)]
      exact ⟨by omega,fun h => absurd h (by omega)⟩

theorem marks_takeWhile {x : Char} (hx : Percent.isMark x.toNat=true) (cs : List Char) :
    Percent.marks (cs.takeWhile (· != x)) ≤ Percent.marks cs ∧
      (Percent.marks cs ≤ Percent.marks (cs.takeWhile (· != x)) → x ∉ cs) := by
  induction cs with
  | nil => exact ⟨le_refl _,fun _ h => (nomatch h)⟩
  | cons c cs ih =>
    by_cases hc : c=x
    · subst hc
      rw [List.takeWhile_cons_of_neg (by simp),Percent.marks_cons,if_pos hx,Percent.marks_nil]
      exact ⟨by omega,fun h => absurd h (by omega)⟩
    · rw [List.takeWhile_cons_of_pos (by simpa using hc),Percent.marks_cons,Percent.marks_cons]
      refine ⟨by omega,?_⟩
      intro h hm
      rcases List.mem_cons.mp hm with h'|hm
      · exact hc h'.symm
      · exact ih.2 (by omega) hm

theorem takeWhile_of_notMem {x : Char} {cs : List Char} (h : x ∉ cs) :
    cs.takeWhile (· != x)=cs := by
  rw [List.takeWhile_eq_self_iff]
  intro c hc
  have hne : c≠x := fun hh => h (hh ▸ hc)
  simpa using hne

/-- Everything that is dropped takes a mark with it. -/
theorem marks_kept (cs : List Char) : Percent.marks (kept cs) ≤ Percent.marks cs ∧
    (Percent.marks cs ≤ Percent.marks (kept cs) → kept cs=cs) := by
  have hr := marks_rdropWhile cs
  have hf := marks_filter (cs.rdropWhile isEdge)
  have ht := marks_takeWhile (x := '#') (by decide) (trim cs)
  have hle : Percent.marks (trim cs) ≤ Percent.marks (cs.rdropWhile isEdge) := hf.1
  refine ⟨le_trans ht.1 (le_trans hle hr.1),?_⟩
  intro h
  have h' : Percent.marks cs ≤ Percent.marks ((trim cs).takeWhile (· != '#')) := h
  have hcs := hr.2 (by omega)
  have htrim : trim cs=cs := by
    rw [trim,List.filter_eq_self.mpr]
    · exact hcs
    · intro c hc
      rw [hf.2 (le_trans hr.1 (le_trans h' ht.1)) c hc]
      rfl
  rw [kept,takeWhile_of_notMem (ht.2 (by omega))]
  exact htrim

theorem rdropWhile_eq_self (cs : List Char) :
    cs.rdropWhile isEdge=cs ↔ ∀ c ∈ cs.getLast?, isEdge c=false := by
  rw [List.rdropWhile_eq_self_iff]
  constructor
  · intro h c hc
    obtain ⟨hne,hl⟩ := List.mem_getLast?_eq_getLast hc
    simpa [← hl] using h hne
  · intro h hne
    simpa using h (cs.getLast hne) (List.getLast?_eq_some_getLast hne)

theorem kept_eq_self_iff (cs : List Char) : kept cs=cs ↔
    (∀ c ∈ cs, isIgnored c=false ∧ c ≠ '#') ∧ ∀ c ∈ cs.getLast?, isEdge c=false := by
  constructor
  · intro h
    have inside : ∀ c ∈ kept cs, isIgnored c=false ∧ c ≠ '#' := by
      intro c hc
      have hn : (c != '#')=true := List.mem_takeWhile_imp (p := (· != '#')) hc
      have ht : c ∈ trim cs := (List.takeWhile_sublist _).subset hc
      rw [trim,List.mem_filter] at ht
      exact ⟨by simpa using ht.2,by simpa using hn⟩
    have length : cs.length ≤ (cs.rdropWhile isEdge).length := by
      have h1 := (List.takeWhile_sublist (l := trim cs) (· != '#')).length_le
      have h2 := List.length_filter_le (!isIgnored ·) (cs.rdropWhile isEdge)
      have h3 := congrArg List.length h
      rw [kept,trim] at h3
      rw [trim] at h1
      omega
    refine ⟨h ▸ inside,(rdropWhile_eq_self cs).mp ?_⟩
    exact (List.rdropWhile_prefix isEdge cs).eq_of_length_le length
  · intro given
    obtain ⟨hin,hlast⟩ := given
    have htrim : trim cs=cs := by
      rw [trim,(rdropWhile_eq_self cs).mpr hlast,List.filter_eq_self]
      intro c hc
      rw [(hin c hc).1]
      rfl
    rw [kept,htrim,List.takeWhile_eq_self_iff]
    intro c hc
    simpa using (hin c hc).2

/-- Parsing starts at the first slash after the authority. -/
theorem parse_origin (o : Origin) (cs : List Char) :
    parse (o.text ++ '/'::cs)=ofTarget ('/'::kept cs) := by
  obtain ⟨scheme,authority,hs,ha,hne⟩ := o
  have front : ∀ c ∈ scheme++[':','/','/']++authority, isEdge c=false := by
    intro c hc
    simp only [List.mem_append,List.mem_cons,List.not_mem_nil,or_false] at hc
    rcases hc with (hc|rfl|rfl|rfl)|hc
    · exact (hs c hc).1
    · rfl
    · rfl
    · rfl
    · exact (ha c hc).1
  have start : (scheme++[':','/','/']++authority ++ '/'::cs).dropWhile isEdge=
      scheme++[':','/','/']++authority ++ '/'::cs := by
    rw [dropWhile_append_cons rfl]
    congr 1
    cases hf : scheme++[':','/','/']++authority with
    | nil => rfl
    | cons c rest =>
      have hc := front c (by rw [hf]; exact List.mem_cons_self)
      rw [List.dropWhile_cons_of_neg (by simp [hc])]
  have hcolon : ∀ c ∈ scheme, (c != ':')=true := by
    intro c hc
    simpa using (hs c hc).2
  have hauth : ∀ c ∈ authority, (!endsAuthority c)=true := by
    intro c hc
    rw [(ha c hc).2]
    rfl
  obtain ⟨a,rest,rfl⟩ := List.exists_cons_of_ne_nil hne
  have hslash : isSlash a=false := by
    have := (ha a List.mem_cons_self).2
    simp only [endsAuthority,Bool.or_eq_false_iff] at this
    exact this.1.1
  have htrim : trim (scheme++[':','/','/']++(a::rest) ++ '/'::cs)=
      scheme ++ ':' :: '/' :: '/' :: ((a::rest) ++ '/'::trim cs) := by
    rw [trim_append (fun c hc => isIgnored_of_not_edge (front c hc)) rfl]
    simp
  have htarget : target (scheme++[':','/','/']++(a::rest) ++ '/'::cs) = '/'::kept cs := by
    rw [target,start,htrim,List.dropWhile_append_of_pos hcolon,
      List.dropWhile_cons_of_neg (by simp)]
    simp only [List.drop_one,List.tail_cons]
    rw [List.dropWhile_cons_of_pos rfl,List.dropWhile_cons_of_pos rfl,List.cons_append,
      List.dropWhile_cons_of_neg (by simp [hslash]),← List.cons_append,
      List.dropWhile_append_of_pos hauth,
      List.dropWhile_cons_of_neg (by simp [endsAuthority,isSlash]),
      List.takeWhile_cons_of_pos (by simp),kept]
  rw [parse,Origin.text,htarget]

theorem marks_join (segs : List (List Char)) :
    Percent.marks (join segs)=(segs.map fun seg => Percent.marks seg+1).sum := by
  have hs : Percent.isMark '/'.toNat=true := by decide
  induction segs with
  | nil => rfl
  | cons seg segs ih =>
    rw [join,List.flatMap_cons,Percent.marks_append,Percent.marks_cons,if_pos hs,List.map_cons,
      List.sum_cons,← ih,join]

/-- Splitting takes a mark away at every separator. -/
theorem marks_splitOnP {p : Char → Bool} (hp : ∀ c, p c=true → Percent.isMark c.toNat=true)
    (cs : List Char) :
    ((cs.splitOnP p).map fun seg => Percent.marks seg+1).sum=Percent.marks cs+1 := by
  induction cs with
  | nil => rfl
  | cons c cs ih =>
    rw [List.splitOnP_cons_eq_if_modifyHead,Percent.marks_cons]
    split
    · next hc => rw [List.map_cons,List.sum_cons,ih,if_pos (hp c hc),Percent.marks_nil]; omega
    · obtain ⟨x,xs,hx⟩ := List.exists_cons_of_ne_nil (List.splitOnP_ne_nil p cs)
      rw [hx] at ih ⊢
      rw [List.modifyHead_cons,List.map_cons,List.sum_cons,Percent.marks_cons]
      rw [List.map_cons,List.sum_cons] at ih
      omega

/-- Single or double, it begins with a dot. -/
theorem exists_dots_prefix {seg : List Char} (h : isDot seg=true) : ∃ d ∈ dots, d <+: seg := by
  rw [isDot,Bool.or_eq_true] at h
  rcases h with h|h
  · exact ⟨seg,by simpa [isSingleDot] using h,List.prefix_rfl⟩
  · simp only [isDoubleDot,List.any_eq_true,beq_iff_eq] at h
    obtain ⟨a,ha,b,hb,rfl⟩ := h
    exact ⟨a,ha,List.prefix_append a b⟩

theorem marks_dot {seg : List Char} (h : isDot seg=true) : 1 ≤ Percent.marks seg := by
  have hd : ∀ d ∈ dots, 1 ≤ Percent.marks d := by decide
  obtain ⟨d,hdots,rest,rfl⟩ := exists_dots_prefix h
  rw [Percent.marks_append]
  exact le_trans (hd d hdots) (Nat.le_add_right _ _)

theorem step_of_not_dot {seg : List Char} (h : isDot seg=false) (before : List (List Char)) :
    step before seg=seg::before := by
  rw [isDot,Bool.or_eq_false_iff] at h
  rw [step,h.2,h.1]
  rfl

theorem marks_step (before : List (List Char)) {seg : List Char} (h : isDot seg=true) :
    Percent.marks (join (step before seg)) ≤ Percent.marks (join before) := by
  rw [step]
  split
  · cases before with
    | nil => exact le_refl _
    | cons s before =>
      rw [marks_join,marks_join,List.tail_cons,List.map_cons,List.sum_cons]
      omega
  · next hd =>
    have hs : isSingleDot seg=true := by
      rw [isDot,Bool.or_eq_true] at h
      exact h.resolve_right hd
    rw [if_pos hs]

/-- A dot segment takes its own marks away. -/
theorem marks_resolve (segs : List (List Char)) : ∀ before : List (List Char),
    Percent.marks (join (resolve before segs)) ≤
        Percent.marks (join before)+Percent.marks (join segs) ∧
      (Percent.marks (join before)+Percent.marks (join segs) ≤
        Percent.marks (join (resolve before segs)) → ∀ seg ∈ segs, isDot seg=false) := by
  have rev : ∀ l : List (List Char), Percent.marks (join l.reverse)=Percent.marks (join l) := by
    intro l
    rw [marks_join,marks_join,List.map_reverse,List.sum_reverse]
  have cons : ∀ (s : List Char) (l : List (List Char)),
      Percent.marks (join (s::l))=Percent.marks s+1+Percent.marks (join l) := by
    intro s l
    rw [marks_join,marks_join,List.map_cons,List.sum_cons]
  induction segs with
  | nil =>
    intro before
    rw [resolve,rev]
    exact ⟨Nat.le_add_right _ _,fun _ s hs => (nomatch hs)⟩
  | cons seg segs ih =>
    intro before
    rw [cons seg segs]
    cases hd : isDot seg with
    | true =>
      have hstep := marks_step before hd
      have hmark := marks_dot hd
      cases segs with
      | nil =>
        rw [resolve,if_pos hd,rev,cons,Percent.marks_nil]
        have hj : Percent.marks (join [])=0 := rfl
        rw [hj]
        exact ⟨by omega,fun h => absurd h (by omega)⟩
      | cons s segs =>
        rw [resolve]
        · have hi := (ih (step before seg)).1
          exact ⟨by omega,fun h => absurd h (by omega)⟩
        · intro h
          cases h
    | false =>
      have hstep := step_of_not_dot hd before
      cases segs with
      | nil =>
        rw [resolve,if_neg (by simp [hd]),rev,hstep,cons]
        refine ⟨by omega,?_⟩
        intro _ s hs
        rw [List.mem_singleton.mp hs]
        exact hd
      | cons s segs =>
        rw [resolve]
        · have hi := ih (step before seg)
          rw [hstep,cons seg before] at hi
          rw [hstep]
          refine ⟨by omega,?_⟩
          intro h s' hs'
          rcases List.mem_cons.mp hs' with rfl|hs'
          · exact hd
          · exact hi.2 (by omega) s' hs'
        · intro h
          cases h

theorem resolve_of_no_dot {segs : List (List Char)} (h : ∀ seg ∈ segs, isDot seg=false) :
    ∀ before : List (List Char), resolve before segs=before.reverse++segs := by
  induction segs with
  | nil => simp [resolve]
  | cons seg segs ih =>
    intro before
    have hd := h seg List.mem_cons_self
    have hstep := step_of_not_dot hd before
    have hi := ih (fun s hs => h s (List.mem_cons_of_mem seg hs)) (seg::before)
    cases segs with
    | nil => rw [resolve,if_neg (by simp [hd]),hstep,List.reverse_cons]
    | cons s segs =>
      rw [resolve,hstep,hi,List.reverse_cons,List.append_assoc,List.singleton_append]
      intro h
      cases h

theorem pathByte_ok (b : UInt8) : (Percent.special b=true → pathByte b=true) ∧
    (pathByte b=true → b.toNat<0x80) := by
  have all : ∀ n : Fin 256, (Percent.special (.ofNat n)=true → pathByte (.ofNat n)=true) ∧
      (pathByte (.ofNat n)=true → (UInt8.ofNat n).toNat<0x80) := by
    decide +kernel
  have hb := all ⟨b.toNat,b.toNat_lt⟩
  rwa [UInt8.ofNat_toNat] at hb

theorem decodeSegment_encodePath (seg : List Char) :
    decodeSegment (encodePath seg)=Utf8.decode (Percent.decode (Utf8.encode seg)) := by
  have hs := Percent.spells_encodeWith (fun b => (pathByte_ok b).1) (fun b => (pathByte_ok b).2)
    (Utf8.encode seg)
  rw [decodeSegment,encodePath,String.toList_ofList,hs.decode_eq]

/-- A text that nothing in a URL is made of. -/
structure Plain (seg : List Char) : Prop where
  chars : ∀ c ∈ seg, isIgnored c=false ∧ endsAuthority c=false
  ungrouped : Percent.grouped (Utf8.encode seg)=false
  notDot : isDot seg=false

theorem decodeSegment_of_ungrouped {seg : List Char}
    (h : Percent.grouped (Utf8.encode seg)=false) : decodeSegment (encodePath seg)=some seg := by
  rw [decodeSegment_encodePath,Percent.decode_of_not_grouped h,Utf8.decode_encode]

/-- A segment is read as no more than stands in it, and as itself when as much is read. -/
theorem marks_decodeSegment {u seg : List Char} (h : decodeSegment (encodePath u)=some seg) :
    Percent.marks seg ≤ Percent.marks u ∧ (Percent.marks u ≤ Percent.marks seg →
      seg=u ∧ Percent.grouped (Utf8.encode u)=false) := by
  rw [decodeSegment_encodePath] at h
  have hm : Percent.marks seg=Percent.byteMarks (Percent.decode (Utf8.encode u)) := by
    rw [← Utf8.lossy_of_decode h,Percent.marks_lossy]
  have hd := Percent.byteMarks_decode (Utf8.encode u)
  rw [Percent.byteMarks_encode,← hm] at hd
  refine ⟨hd.1,?_⟩
  intro hle
  have hg := hd.2 hle
  rw [Percent.decode_of_not_grouped hg,Utf8.decode_encode] at h
  exact ⟨(Option.some.inj h).symm,hg⟩

theorem splitOnP_join {seg : List Char} {segs : List (List Char)}
    (h : ∀ s ∈ seg::segs, ∀ c ∈ s, isSlash c=false) :
    (seg++join segs).splitOnP isSlash=seg::segs := by
  induction segs generalizing seg with
  | nil =>
    rw [join,List.flatMap_nil,List.append_nil]
    exact List.splitOnP_eq_singleton (h seg List.mem_cons_self)
  | cons s segs ih =>
    have hj : join (s::segs) = '/'::(s++join segs) := rfl
    rw [hj,List.splitOnP_append_cons_of_forall_mem (h seg List.mem_cons_self) '/' rfl,
      ih fun t ht => h t (List.mem_cons_of_mem seg ht)]

theorem endsAuthority_eq_false {c : Char} :
    endsAuthority c=false ↔ isSlash c=false ∧ c ≠ '?' ∧ c ≠ '#' := by
  simp only [endsAuthority,Bool.or_eq_false_iff,beq_eq_false_iff_ne,and_assoc]

theorem mem_join {segs : List (List Char)} {c : Char} (h : c ∈ join segs) :
    c = '/' ∨ ∃ seg ∈ segs, c ∈ seg := by
  rw [join,List.mem_flatMap] at h
  obtain ⟨seg,hs,hc⟩ := h
  rcases List.mem_cons.mp hc with rfl|hc
  · exact .inl rfl
  · exact .inr ⟨seg,hs,hc⟩

/-- Nothing after the first slash is dropped or ends the path. -/
theorem plain_chars {seg : List Char} {segs : List (List Char)} (h : ∀ s ∈ seg::segs, Plain s) :
    ∀ c ∈ seg++join segs, isIgnored c=false ∧ c ≠ '#' ∧ c ≠ '?' := by
  intro c hc
  have hj : join (seg::segs) = '/'::(seg++join segs) := rfl
  rcases mem_join (hj ▸ List.mem_cons_of_mem _ hc) with rfl|⟨s,hs,hc⟩
  · exact ⟨rfl,by decide,by decide⟩
  · have := (h s hs).chars c hc
    rw [endsAuthority_eq_false] at this
    exact ⟨this.1,this.2.2.2,this.2.2.1⟩

/-- No query begins in them. -/
theorem plain_no_query {seg : List Char} {segs : List (List Char)}
    (h : ∀ s ∈ seg::segs, Plain s) : ∀ c ∈ '/'::(seg++join segs), (c != '?')=true := by
  intro c hc
  rcases List.mem_cons.mp hc with rfl|hc
  · rfl
  · simpa using (plain_chars h c hc).2.2

/-- Plain segments are the path of the URL. -/
theorem parse_join (o : Origin) {seg : List Char} {segs : List (List Char)}
    (h : ∀ s ∈ seg::segs, Plain s)
    (hlast : ∀ c ∈ (join (seg::segs)).getLast?, isEdge c=false) :
    parse (o.text++join (seg::segs))=⟨(seg::segs).map encodePath,none⟩ := by
  have hj : join (seg::segs) = '/'::(seg++join segs) := rfl
  have hchars := plain_chars h
  have hkept : kept (seg++join segs)=seg++join segs := by
    rw [kept_eq_self_iff]
    refine ⟨fun c hc => ⟨(hchars c hc).1,(hchars c hc).2.1⟩,?_⟩
    intro c hc
    apply hlast c
    rw [hj]
    exact List.mem_getLast?_cons hc
  have htake := List.takeWhile_eq_self_iff.mpr (plain_no_query h)
  have hdrop := List.dropWhile_eq_nil_iff.mpr (plain_no_query h)
  have hsplit := splitOnP_join fun s hs c hc =>
    (endsAuthority_eq_false.mp ((h s hs).chars c hc).2).1
  have hres := resolve_of_no_dot (fun s hs => (h s hs).notDot) []
  rw [hj,parse_origin,hkept,ofTarget,htake,hdrop,List.drop_one,List.tail_cons,hsplit,hres,
    List.reverse_nil,List.nil_append]

theorem marks_read {us segs : List (List Char)}
    (h : List.Forall₂ (fun u s => decodeSegment (encodePath u)=some s) us segs) :
    Percent.marks (join segs) ≤ Percent.marks (join us) ∧
      (Percent.marks (join us) ≤ Percent.marks (join segs) →
        segs=us ∧ ∀ u ∈ us, Percent.grouped (Utf8.encode u)=false) := by
  induction h with
  | nil => exact ⟨le_refl _,fun _ => ⟨rfl,fun _ hu => (nomatch hu)⟩⟩
  | @cons u s us segs hu _ ih =>
    obtain ⟨hle,heq⟩ := marks_decodeSegment hu
    simp only [marks_join,List.map_cons,List.sum_cons] at ih ⊢
    refine ⟨by omega,?_⟩
    intro h
    obtain ⟨rfl,hg⟩ := heq (by omega)
    obtain ⟨rfl,hgs⟩ := ih.2 (by omega)
    refine ⟨rfl,?_⟩
    intro v hv
    rcases List.mem_cons.mp hv with rfl|hv
    · exact hg
    · exact hgs v hv

theorem splitOnP_clear {α : Type _} {p : α → Bool} (cs : List α) :
    ∀ seg ∈ cs.splitOnP p, ∀ c ∈ seg, p c=false := by
  induction cs with
  | nil =>
    intro seg hs c hc
    rw [List.splitOnP_nil,List.mem_singleton] at hs
    rw [hs] at hc
    cases hc
  | cons d cs ih =>
    intro seg hs c hc
    rw [List.splitOnP_cons_eq_if_modifyHead] at hs
    split at hs
    · rcases List.mem_cons.mp hs with rfl|hs
      · cases hc
      · exact ih seg hs c hc
    · next hd =>
      obtain ⟨x,xs,hx⟩ := List.exists_cons_of_ne_nil (List.splitOnP_ne_nil p cs)
      rw [hx] at ih hs
      rw [List.modifyHead_cons] at hs
      rcases List.mem_cons.mp hs with rfl|hs
      · rcases List.mem_cons.mp hc with rfl|hc
        · simpa using hd
        · exact ih x List.mem_cons_self c hc
      · exact ih seg (List.mem_cons_of_mem x hs) c hc

theorem isMark_slash {c : Char} (h : isSlash c=true) : Percent.isMark c.toNat=true := by
  simp only [isSlash,Bool.or_eq_true,beq_iff_eq] at h
  rcases h with rfl|rfl <;> decide

/-- Segments are read back from a URL only if they are plain: what is dropped, cut off or decoded
takes marks away, and nothing brings one. -/
theorem plain_of_read (o : Origin) {seg : List Char} {segs : List (List Char)}
    (h : List.Forall₂ (fun raw s => decodeSegment raw=some s)
      (parse (o.text++join (seg::segs))).path (seg::segs)) :
    (∀ s ∈ seg::segs, Plain s) ∧ ∀ c ∈ (join (seg::segs)).getLast?, isEdge c=false := by
  have hj : join (seg::segs) = '/'::(seg++join segs) := rfl
  have hm : Percent.marks (join (seg::segs))=Percent.marks (seg++join segs)+1 := by
    rw [hj,Percent.marks_cons,if_pos (by decide)]
  rw [hj,parse_origin,ofTarget,List.takeWhile_cons_of_pos (by decide),List.drop_one,List.tail_cons,
    List.forall₂_map_left_iff] at h
  have hkept := marks_kept (seg++join segs)
  have htake := marks_takeWhile (x := '?') (by decide) (kept (seg++join segs))
  have hsplit := marks_splitOnP (fun c hc => isMark_slash hc)
    ((kept (seg++join segs)).takeWhile (· != '?'))
  rw [← marks_join] at hsplit
  have hres := marks_resolve
    (((kept (seg++join segs)).takeWhile (· != '?')).splitOnP isSlash) []
  have hnil : Percent.marks (join [])=0 := rfl
  have hread := marks_read h
  have hk := hkept.2 (by omega)
  have hquery := htake.2 (by omega)
  have hdots := hres.2 (by omega)
  obtain ⟨hsegs,hungrouped⟩ := hread.2 (by omega)
  rw [resolve_of_no_dot hdots,List.reverse_nil,List.nil_append] at hsegs hungrouped
  rw [hk] at hquery
  rw [hk,takeWhile_of_notMem hquery] at hsegs hungrouped hdots
  obtain ⟨hchars,hlast⟩ := (kept_eq_self_iff _).mp hk
  constructor
  · intro s hs
    rw [hsegs] at hs
    refine ⟨?_,hungrouped s hs,hdots s hs⟩
    intro c hc
    have hslash := splitOnP_clear _ s hs c hc
    have hmem : c ∈ seg++join segs := by
      have hc' : c ∈ join (seg::segs) := by
        rw [hsegs,join,List.mem_flatMap]
        exact ⟨s,hs,List.mem_cons_of_mem _ hc⟩
      rw [hj] at hc'
      rcases List.mem_cons.mp hc' with rfl|hc'
      · cases hslash
      · exact hc'
    have hne : c ≠ '?' := fun hh => hquery (hh ▸ hmem)
    exact ⟨(hchars c hmem).1,endsAuthority_eq_false.mpr ⟨hslash,hne,(hchars c hmem).2⟩⟩
  · intro c hc
    rw [hj] at hc
    cases ht : seg++join segs with
    | nil =>
      rw [ht] at hc
      obtain rfl : '/'=c := by simpa using hc
      rfl
    | cons d ds =>
      rw [ht,List.getLast?_cons_cons] at hc
      exact hlast c (ht ▸ hc)

/-- ASCII letters, digits and the hyphen. -/
def isWordChar (c : Char) : Bool := decide (c.toNat<0x80) && (c.isAlphanum || c == '-')

theorem isWordChar_ok {c : Char} (h : isWordChar c=true) : c.toNat<0x80 ∧
    isIgnored c=false ∧ endsAuthority c=false ∧ c ≠ '.' ∧ Percent.byte c≠Percent.byte '%' ∧
      pathByte (Percent.byte c)=true := by
  have hlt : c.toNat<0x80 := by
    rw [isWordChar,Bool.and_eq_true,decide_eq_true_eq] at h
    exact h.1
  have all : ∀ n : Fin 0x80, isWordChar (Char.ofNat n)=true →
      isIgnored (Char.ofNat n)=false ∧ endsAuthority (Char.ofNat n)=false ∧ Char.ofNat n ≠ '.' ∧
        Percent.byte (Char.ofNat n)≠Percent.byte '%' ∧
          pathByte (Percent.byte (Char.ofNat n))=true := by
    decide +kernel
  have hc := all ⟨c.toNat,hlt⟩
  rw [Char.ofNat_toNat] at hc
  exact ⟨hlt,hc h⟩

theorem exists_of_isDot {seg : List Char} (h : isDot seg=true) : '.' ∈ seg ∨ '%' ∈ seg := by
  have hd : ∀ d ∈ dots, '.' ∈ d ∨ '%' ∈ d := by decide
  obtain ⟨d,hdots,hpre⟩ := exists_dots_prefix h
  exact (hd d hdots).imp (hpre.mem ·) (hpre.mem ·)

/-- A word is plain and stands in a URL as it is. -/
theorem plain_word {cs : List Char} (h : ∀ c ∈ cs, isWordChar c=true) :
    Plain cs ∧ encodePath cs=String.ofList cs := by
  have hdot : isDot cs=false := by
    cases hd : isDot cs with
    | false => rfl
    | true =>
      rcases exists_of_isDot hd with hm|hm
      · exact absurd rfl (isWordChar_ok (h _ hm)).2.2.2.1
      · exact absurd rfl (isWordChar_ok (h _ hm)).2.2.2.2.1
  have hchars : ∀ c ∈ cs, isIgnored c=false ∧ endsAuthority c=false := fun c hc =>
    ⟨(isWordChar_ok (h c hc)).2.1,(isWordChar_ok (h c hc)).2.2.1⟩
  have hbytes : Percent.grouped (Utf8.encode cs)=false ∧
      Percent.encodeWith pathByte (Utf8.encode cs)=cs := by
    clear hdot hchars
    induction cs with
    | nil => exact ⟨rfl,rfl⟩
    | cons c cs ih =>
      obtain ⟨hlt,-,-,-,hp,hb⟩ := isWordChar_ok (h c List.mem_cons_self)
      obtain ⟨hg,he⟩ := ih fun d hd => h d (List.mem_cons_of_mem c hd)
      have hc : String.utf8EncodeChar c=[Percent.byte c] := Utf8.utf8EncodeChar_ascii hlt
      have hofNat : Char.ofNat (Percent.byte c).toNat=c := by
        rw [Percent.byte,Utf8.toNat_ofNat (by omega),Char.ofNat_toNat]
      rw [Utf8.encode_cons,hc,List.singleton_append]
      constructor
      · rw [Percent.grouped,beq_false_of_ne hp,hg,Bool.false_and,Bool.false_or]
      · rw [Percent.encodeWith,List.flatMap_cons,if_pos hb,hofNat,List.singleton_append]
        exact congrArg (c::·) he
  exact ⟨⟨hchars,hbytes.1,hdot⟩,congrArg String.ofList hbytes.2⟩

/-- No other plain text is written as a word. -/
theorem encodePath_eq_iff {cs : List Char} (h : Plain cs) {s : String}
    (hs : ∀ c ∈ s.toList, isWordChar c=true) : encodePath cs=s ↔ cs=s.toList := by
  obtain ⟨hplain,hword⟩ := plain_word hs
  rw [String.ofList_toList] at hword
  constructor
  · intro he
    have h1 := decodeSegment_of_ungrouped h.ungrouped
    have h2 := decodeSegment_of_ungrouped hplain.ungrouped
    rw [he] at h1
    rw [hword,h1] at h2
    exact Option.some.inj h2
  · intro same
    subst same
    exact hword

end NacPlatform.Url
