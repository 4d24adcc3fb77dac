import NacPlatform.Framework.Url

namespace NacPlatform.Url

/-! The query of a URL, from the text it is built of to the pairs that are read from it. -/

theorem flatMap_intercalate {α β : Type _} {f : α → List β} {a : α} {b : β} (ha : f a=[b])
    (pieces : List (List α)) :
    ([a].intercalate pieces).flatMap f=[b].intercalate (pieces.map (·.flatMap f)) := by
  induction pieces with
  | nil => rfl
  | cons piece pieces ih =>
    cases pieces with
    | nil => simp
    | cons next pieces =>
      rw [List.intercalate_cons_cons,List.map_cons,List.map_cons,List.intercalate_cons_cons,
        ← List.map_cons,← ih,List.flatMap_append,List.flatMap_append,List.flatMap_singleton,ha]

section

variable {α β : Type _} [BEq α] [LawfulBEq α] [BEq β] [LawfulBEq β] {f : α → List β} {a : α} {b : β}

theorem splitOn_notMem {xs piece : List α} (h : piece ∈ xs.splitOn a) : a ∉ piece := by
  rw [List.splitOn_eq_splitOnP] at h
  intro ha
  have := splitOnP_clear xs piece h a ha
  rw [beq_self_eq_true] at this
  cases this

variable (ha : f a=[b]) (hn : ∀ x, x≠a → b ∉ f x)
include ha hn

/-- Splitting at a character that is written as itself, and no other with it. -/
theorem splitOn_flatMap (xs : List α) :
    (xs.flatMap f).splitOn b=(xs.splitOn a).map (·.flatMap f) := by
  have hback : [a].intercalate (xs.splitOn a)=xs := List.intercalate_splitOn a
  conv_lhs => rw [← hback,flatMap_intercalate ha]
  apply List.splitOn_intercalate
  · intro piece hp hb
    rw [List.mem_map] at hp
    obtain ⟨x,hx,rfl⟩ := hp
    rw [List.mem_flatMap] at hb
    obtain ⟨y,hy,hb⟩ := hb
    exact hn y (fun h => splitOn_notMem hx (h ▸ hy)) hb
  · rw [Ne,List.map_eq_nil_iff]
    exact List.splitOn_ne_nil a xs

theorem span_flatMap (xs : List α) :
    (xs.flatMap f).takeWhile (· != b)=(xs.takeWhile (· != a)).flatMap f ∧
      (xs.flatMap f).dropWhile (· != b)=(xs.dropWhile (· != a)).flatMap f := by
  induction xs with
  | nil => exact ⟨rfl,rfl⟩
  | cons x xs ih =>
    rw [List.flatMap_cons]
    by_cases hx : x=a
    · subst hx
      rw [ha,List.takeWhile_cons_of_neg (by simp),List.dropWhile_cons_of_neg (by simp),
        List.flatMap_cons,ha,List.singleton_append,List.takeWhile_cons_of_neg (by simp),
        List.dropWhile_cons_of_neg (by simp)]
      exact ⟨rfl,rfl⟩
    · have hf : ∀ y ∈ f x, (y != b)=true := by
        intro y hy
        have hne : y≠b := fun h => hn x hx (h ▸ hy)
        simpa using hne
      rw [List.takeWhile_append_of_pos hf,List.dropWhile_append_of_pos hf,ih.1,ih.2,
        List.takeWhile_cons_of_pos (by simpa using hx),
        List.dropWhile_cons_of_pos (by simpa using hx),List.flatMap_cons]
      exact ⟨rfl,rfl⟩

end

/-- What is written for a character of a query. -/
def wire (c : Char) : List UInt8 :=
  Utf8.encode (Percent.encodeWith queryByte (String.utf8EncodeChar c))

theorem encode_encodeQuery (cs : List Char) :
    Utf8.encode (encodeQuery cs).toList=cs.flatMap wire := by
  rw [encodeQuery,String.toList_ofList]
  induction cs with
  | nil => rfl
  | cons c cs ih =>
    rw [Utf8.encode_cons,Percent.encodeWith,List.flatMap_append,Utf8.encode_append,
      List.flatMap_cons,← ih,wire,Percent.encodeWith,Percent.encodeWith]

theorem queryByte_ok (b : UInt8) : (Percent.special b=true → queryByte b=true) ∧
    (queryByte b=true → b.toNat<0x80) := by
  have all : ∀ n : Fin 256, (Percent.special (.ofNat n)=true → queryByte (.ofNat n)=true) ∧
      (queryByte (.ofNat n)=true → (UInt8.ofNat n).toNat<0x80) := by
    decide +kernel
  have hb := all ⟨b.toNat,b.toNat_lt⟩
  rwa [UInt8.ofNat_toNat] at hb

/-- An ASCII byte stands for the character with its number. -/
theorem mem_utf8EncodeChar {c : Char} {b : UInt8} (h : b ∈ String.utf8EncodeChar c)
    (hb : b.toNat<0x80) : c.toNat=b.toNat := by
  have hq : Utf8.Low fun n => n==b.toNat := by
    intro n hn
    rw [beq_iff_eq] at hn
    omega
  have hcount := Utf8.countP_encode hq [c]
  rw [Utf8.encode_cons,Utf8.encode_nil,List.append_nil,List.countP_singleton] at hcount
  have hpos : 0<(String.utf8EncodeChar c).countP fun x => x.toNat==b.toNat :=
    List.countP_pos_iff.mpr ⟨b,h,beq_self_eq_true _⟩
  rw [hcount] at hpos
  split at hpos
  · next hc => exact beq_iff_eq.mp hc
  · omega

/-- A separator is written for itself only. -/
theorem wire_separator {x : Char} (hx : x.toNat<0x80)
    (hs : Percent.special (Percent.byte x)=false) {c : Char} (hc : c≠x) :
    Percent.byte x ∉ wire c := by
  have hb : (Percent.byte x).toNat=x.toNat := Utf8.toNat_ofNat (by omega)
  intro hm
  obtain ⟨hhex,hpercent⟩ := Percent.hex_of_not_special hs
  rcases Percent.mem_encodeWith hm fun b => (queryByte_ok b).2 with ⟨hin,-⟩|h|h
  · have := mem_utf8EncodeChar hin (by omega)
    exact hc (Char.toNat_inj.mp (this.trans hb))
  · exact hpercent h
  · rw [hhex] at h
    cases h

theorem wire_ne_nil (c : Char) : wire c≠[] := by
  intro h
  have hs := Percent.spells_encodeWith (fun b => (queryByte_ok b).1) (fun b => (queryByte_ok b).2)
    (String.utf8EncodeChar c)
  rw [← wire,h] at hs
  have hchunks := Utf8.chunks_utf8EncodeChar c []
  generalize String.utf8EncodeChar c=bs at hs hchunks
  cases hs
  cases hchunks

/-- A plus sign stands for a space, in bytes and in characters. -/
def plusByte (b : UInt8) : UInt8 := if b=Percent.byte '+' then Percent.byte ' ' else b

def plusChar (c : Char) : Char := if c = '+' then ' ' else c

theorem plusByte_ok (b : UInt8) : Percent.special (plusByte b)=Percent.special b ∧
    Percent.isMark (plusByte b).toNat=Percent.isMark b.toNat ∧
    (queryByte b=false → plusByte b=b) := by
  by_cases hb : b=Percent.byte '+'
  · subst hb
    decide
  · rw [plusByte,if_neg hb]
    exact ⟨rfl,rfl,fun _ => rfl⟩

theorem plusByte_percent (b : UInt8) :
    (plusByte b==Percent.byte '%')=(b==Percent.byte '%') ∧
      Percent.isHex (plusByte b)=Percent.isHex b := by
  by_cases hb : b=Percent.byte '+'
  · subst hb
    decide
  · rw [plusByte,if_neg hb]
    exact ⟨rfl,rfl⟩

theorem grouped_map_plus (bs : List UInt8) :
    Percent.grouped (bs.map plusByte)=Percent.grouped bs := by
  have hstart : ∀ bs : List UInt8,
      Percent.startsHex (bs.map plusByte)=Percent.startsHex bs := by
    intro bs
    cases bs with
    | nil => rfl
    | cons b bs => exact (plusByte_percent b).2
  have htwo : ∀ bs : List UInt8, Percent.twoHex (bs.map plusByte)=Percent.twoHex bs := by
    intro bs
    cases bs with
    | nil => rfl
    | cons b bs => rw [List.map_cons,Percent.twoHex,Percent.twoHex,(plusByte_percent b).2,hstart]
  induction bs with
  | nil => rfl
  | cons b bs ih =>
    rw [List.map_cons,Percent.grouped,Percent.grouped,(plusByte_percent b).1,htwo,ih]

theorem byteMarks_map_plus (bs : List UInt8) :
    Percent.byteMarks (bs.map plusByte)=Percent.byteMarks bs := by
  induction bs with
  | nil => rfl
  | cons b bs ih =>
    rw [List.map_cons,Percent.byteMarks_cons,Percent.byteMarks_cons,(plusByte_ok b).2.1,ih]

theorem map_plus_encode (cs : List Char) :
    (Utf8.encode cs).map plusByte=Utf8.encode (cs.map plusChar) := by
  induction cs with
  | nil => rfl
  | cons c cs ih =>
    rw [Utf8.encode_cons,List.map_append,List.map_cons,Utf8.encode_cons,ih]
    congr 1
    by_cases hc : c = '+'
    · subst hc
      decide
    · rw [plusChar,if_neg hc]
      conv_rhs => rw [← List.map_id (String.utf8EncodeChar c)]
      apply List.map_congr_left
      intro b hb
      apply if_neg
      intro same
      subst same
      exact hc (Char.toNat_inj.mp (mem_utf8EncodeChar hb (by decide)))

/-- The groups of the wire have no plus sign of their own. -/
theorem spells_plus (bs : List UInt8) :
    Percent.Spells ((Utf8.encode (Percent.encodeWith queryByte bs)).map plusByte)
      (bs.map plusByte) := by
  induction bs with
  | nil => exact .nil
  | cons b bs ih =>
    rw [Percent.encodeWith,List.flatMap_cons,Utf8.encode_append,List.map_append,List.map_cons]
    by_cases hb : queryByte b=true
    · have ha := Percent.byte_ofNat ((queryByte_ok b).2 hb)
      rw [if_pos hb,Percent.encode_byte ha.1,ha.2]
      exact .plain (plusByte b) ih
    · have hn : queryByte b=false := by simpa using hb
      have hs : Percent.special b=false := by
        cases hs : Percent.special b with
        | false => rfl
        | true => exact absurd ((queryByte_ok b).1 hs) hb
      have hg : (Utf8.encode (Percent.group b)).map plusByte=Utf8.encode (Percent.group b) := by
        have hlt := b.toNat_lt
        rw [Percent.encode_group]
        simp only [List.map_cons,List.map_nil,plusByte]
        rw [if_neg (by decide),if_neg (Percent.hexUpper_digit (by omega)).2.2.2.2,
          if_neg (Percent.hexUpper_digit (by omega)).2.2.2.2]
      rw [if_neg hb,hg,(plusByte_ok b).2.2 hn]
      exact .group hs ih

def readComponent (cs : List Char) : List Char := Percent.component (cs.flatMap wire)

theorem readComponent_eq (cs : List Char) : readComponent cs=
    Utf8.lossy (Percent.decode ((Utf8.encode cs).map plusByte)) := by
  have hs := spells_plus (Utf8.encode cs)
  rw [readComponent,← encode_encodeQuery,encodeQuery,String.toList_ofList,Percent.component]
  exact congrArg Utf8.lossy hs.decode_eq

theorem readComponent_of_ungrouped {cs : List Char}
    (h : Percent.grouped (Utf8.encode cs)=false) : readComponent cs=cs.map plusChar := by
  rw [← grouped_map_plus] at h
  rw [readComponent_eq,Percent.decode_of_not_grouped h,map_plus_encode,Utf8.lossy_encode]

theorem marks_readComponent (cs : List Char) :
    Percent.marks (readComponent cs) ≤ Percent.marks cs ∧
      (Percent.marks cs ≤ Percent.marks (readComponent cs) →
        Percent.grouped (Utf8.encode cs)=false) := by
  have hd := Percent.byteMarks_decode ((Utf8.encode cs).map plusByte)
  rw [byteMarks_map_plus,Percent.byteMarks_encode,grouped_map_plus] at hd
  rw [readComponent_eq,Percent.marks_lossy]
  exact hd

def readPair (cs : List Char) : List Char × List Char :=
  (readComponent (cs.takeWhile (· != '=')),readComponent ((cs.dropWhile (· != '=')).drop 1))

/-- What the receiver reads from the query of a URL. -/
def readPairs (query : List Char) : List (List Char × List Char) :=
  Percent.pairs (Utf8.encode (encodeQuery query).toList)

theorem dropWhile_bne (x : Char) (cs : List Char) :
    cs.dropWhile (· != x)=[] ∨ ∃ rest, cs.dropWhile (· != x)=x::rest := by
  induction cs with
  | nil => exact .inl rfl
  | cons c cs ih =>
    by_cases hc : c=x
    · subst hc
      exact .inr ⟨cs,List.dropWhile_cons_of_neg (by simp)⟩
    · rw [List.dropWhile_cons_of_pos (by simpa using hc)]
      exact ih

theorem readPairs_eq (query : List Char) :
    readPairs query=((query.splitOn '&').filter (!·.isEmpty)).map readPair := by
  have hamp : wire '&'=[Percent.byte '&'] := by decide
  have heq : wire '='=[Percent.byte '='] := by decide
  have hampn : ∀ c, c ≠ '&' → Percent.byte '&' ∉ wire c := fun c =>
    wire_separator (by decide) (by decide)
  have heqn : ∀ c, c ≠ '=' → Percent.byte '=' ∉ wire c := fun c =>
    wire_separator (by decide) (by decide)
  have hempty : ∀ cs : List Char, (!(cs.flatMap wire).isEmpty)=(!cs.isEmpty) := by
    intro cs
    cases cs with
    | nil => rfl
    | cons c cs =>
      rw [List.flatMap_cons,List.isEmpty_cons]
      cases hw : wire c with
      | nil => exact absurd hw (wire_ne_nil c)
      | cons b bs => rfl
  rw [readPairs,encode_encodeQuery,Percent.pairs,splitOn_flatMap hamp hampn,List.filter_map,
    List.map_map]
  have hfilter : (fun x : List UInt8 => !x.isEmpty) ∘ (fun cs : List Char => cs.flatMap wire)=
      fun cs => !cs.isEmpty := funext hempty
  rw [hfilter]
  apply List.map_congr_left
  intro cs _
  obtain ⟨ht,hd⟩ := span_flatMap heq heqn cs
  rw [Function.comp_apply,Percent.pair,ht,hd,readPair,readComponent,readComponent]
  congr 2
  rcases dropWhile_bne '=' cs with hc|⟨rest,hc⟩
  · rw [hc]
    rfl
  · rw [hc,List.flatMap_cons,heq]
    rfl

/-- A pair as it stands in a query when nothing is encoded. -/
def pairText (p : List Char × List Char) : List Char := p.1 ++ '='::p.2

def joinPairs (ps : List (List Char × List Char)) : List Char := ['&'].intercalate (ps.map pairText)

/-- A name and a value that nothing in a query is made of; the value may have equals signs. -/
structure PlainPair (p : List Char × List Char) : Prop where
  name : ∀ c ∈ p.1, isIgnored c=false ∧ c ≠ '#' ∧ c ≠ '&' ∧ c ≠ '+'
  value : ∀ c ∈ p.2, isIgnored c=false ∧ c ≠ '#' ∧ c ≠ '&' ∧ c ≠ '+'
  noEquals : '=' ∉ p.1
  ungrouped : Percent.grouped (Utf8.encode p.1)=false ∧ Percent.grouped (Utf8.encode p.2)=false

theorem map_plusChar_eq_self_iff (cs : List Char) : cs.map plusChar=cs ↔ '+' ∉ cs := by
  induction cs with
  | nil => simp
  | cons c cs ih =>
    rw [List.map_cons,List.cons.injEq,ih,List.mem_cons,not_or,plusChar]
    apply and_congr_left'
    split
    · next h => simp [h]
    · next h => exact ⟨fun _ h' => h h'.symm,fun _ => rfl⟩

theorem span_pairText {p : List Char × List Char} (h : '=' ∉ p.1) :
    (pairText p).takeWhile (· != '=')=p.1 ∧ ((pairText p).dropWhile (· != '=')).drop 1=p.2 := by
  have hn : ∀ c ∈ p.1, (c != '=')=true := by
    intro c hc
    have hne : c ≠ '=' := fun hh => h (hh ▸ hc)
    simpa using hne
  rw [pairText,List.takeWhile_append_of_pos hn,List.dropWhile_append_of_pos hn,
    List.takeWhile_cons_of_neg (by simp),List.dropWhile_cons_of_neg (by simp),List.append_nil]
  exact ⟨rfl,rfl⟩

theorem readPair_pairText {p : List Char × List Char} (h : PlainPair p) :
    readPair (pairText p)=p := by
  obtain ⟨hname,hvalue⟩ := span_pairText h.noEquals
  rw [readPair,hname,hvalue,
    readComponent_of_ungrouped h.ungrouped.1,readComponent_of_ungrouped h.ungrouped.2,
    (map_plusChar_eq_self_iff _).mpr fun hc => (h.name _ hc).2.2.2 rfl,
    (map_plusChar_eq_self_iff _).mpr fun hc => (h.value _ hc).2.2.2 rfl]

theorem mem_joinPairs {ps : List (List Char × List Char)} {c : Char} (h : c ∈ joinPairs ps) :
    c = '&' ∨ ∃ p ∈ ps, c ∈ pairText p := by
  induction ps with
  | nil => cases h
  | cons p ps ih =>
    cases ps with
    | nil =>
      rw [joinPairs,List.map_singleton,List.intercalate_singleton] at h
      exact .inr ⟨p,List.mem_cons_self,h⟩
    | cons p' ps =>
      have hj : joinPairs (p::p'::ps)=pairText p++['&']++joinPairs (p'::ps) :=
        List.intercalate_cons_cons
      rw [hj,List.mem_append,List.mem_append,List.mem_singleton] at h
      rcases h with (h|h)|h
      · exact .inr ⟨p,List.mem_cons_self,h⟩
      · exact .inl h
      · rcases ih h with h|⟨p'',hp,hc⟩
        · exact .inl h
        · exact .inr ⟨p'',List.mem_cons_of_mem p hp,hc⟩

theorem mem_joinPairs_of_mem {ps : List (List Char × List Char)} {p : List Char × List Char}
    (hp : p ∈ ps) {c : Char} (hc : c ∈ pairText p) : c ∈ joinPairs ps := by
  induction ps with
  | nil => cases hp
  | cons p' ps ih =>
    cases ps with
    | nil =>
      obtain rfl := List.mem_singleton.mp hp
      rwa [joinPairs,List.map_singleton,List.intercalate_singleton]
    | cons p'' ps =>
      have hj : joinPairs (p'::p''::ps)=pairText p'++['&']++joinPairs (p''::ps) :=
        List.intercalate_cons_cons
      rw [hj,List.mem_append,List.mem_append]
      rcases List.mem_cons.mp hp with rfl|hp
      · exact .inl (.inl hc)
      · exact .inr (ih hp)

theorem splitOn_joinPairs {ps : List (List Char × List Char)} (hne : ps≠[])
    (h : ∀ p ∈ ps, '&' ∉ pairText p) : (joinPairs ps).splitOn '&'=ps.map pairText := by
  apply List.splitOn_intercalate
  · intro cs hcs
    rw [List.mem_map] at hcs
    obtain ⟨p,hp,rfl⟩ := hcs
    exact h p hp
  · rw [Ne,List.map_eq_nil_iff]
    exact hne

theorem PlainPair.text {p : List Char × List Char} (h : PlainPair p) :
    ∀ c ∈ pairText p, isIgnored c=false ∧ c ≠ '#' ∧ c ≠ '&' := by
  intro c hc
  rw [pairText,List.mem_append,List.mem_cons] at hc
  rcases hc with hc|rfl|hc
  · have := h.name c hc
    exact ⟨this.1,this.2.1,this.2.2.1⟩
  · exact ⟨rfl,by decide,by decide⟩
  · have := h.value c hc
    exact ⟨this.1,this.2.1,this.2.2.1⟩

section

variable {ps : List (List Char × List Char)} (hne : ps≠[])
include hne

theorem readPairs_joinPairs (h : ∀ p ∈ ps, PlainPair p)
    (hlast : ∀ c ∈ (joinPairs ps).getLast?, isEdge c=false) :
    readPairs (kept (joinPairs ps))=ps := by
  have hkept : kept (joinPairs ps)=joinPairs ps := by
    rw [kept_eq_self_iff]
    refine ⟨?_,hlast⟩
    intro c hc
    rcases mem_joinPairs hc with rfl|⟨p,hp,hc⟩
    · exact ⟨rfl,by decide⟩
    · have := (h p hp).text c hc
      exact ⟨this.1,this.2.1⟩
  have hsplit := splitOn_joinPairs hne fun p hp hamp => ((h p hp).text _ hamp).2.2 rfl
  have hfull : (ps.map pairText).filter (!·.isEmpty)=ps.map pairText := by
    rw [List.filter_eq_self]
    intro cs hcs
    rw [List.mem_map] at hcs
    obtain ⟨p,-,rfl⟩ := hcs
    cases hp : p.1 <;> simp [pairText,hp]
  rw [hkept,readPairs_eq,hsplit,hfull,List.map_map]
  conv_rhs => rw [← List.map_id ps]
  apply List.map_congr_left
  intro p hp
  exact readPair_pairText (h p hp)

theorem marks_joinPairs :
    Percent.marks (joinPairs ps)+1=(ps.map fun p => Percent.marks (pairText p)+1).sum := by
  have hm : Percent.isMark '&'.toNat=true := by decide
  induction ps with
  | nil => exact absurd rfl hne
  | cons p ps ih =>
    cases ps with
    | nil => simp [joinPairs]
    | cons p' ps =>
      have hj : joinPairs (p::p'::ps)=pairText p++['&']++joinPairs (p'::ps) :=
        List.intercalate_cons_cons
      have hi := ih (List.cons_ne_nil p' ps)
      rw [List.map_cons,List.sum_cons,← hi,hj,Percent.marks_append,Percent.marks_append,
        Percent.marks_cons,if_pos hm,Percent.marks_nil]
      omega

end

/-- A pair is read as no more than stands in its text. -/
theorem marks_readPair (cs : List Char) :
    Percent.marks (pairText (readPair cs)) ≤ Percent.marks cs ∧
      (Percent.marks cs ≤ Percent.marks (pairText (readPair cs)) →
        Percent.grouped (Utf8.encode (cs.takeWhile (· != '=')))=false ∧
          Percent.grouped (Utf8.encode ((cs.dropWhile (· != '=')).drop 1))=false) := by
  have hm : ¬Percent.isMark '='.toNat=true := by decide
  have h1 := marks_readComponent (cs.takeWhile (· != '='))
  have h2 := marks_readComponent ((cs.dropWhile (· != '=')).drop 1)
  have hsum : Percent.marks cs=Percent.marks (cs.takeWhile (· != '='))+
      Percent.marks ((cs.dropWhile (· != '=')).drop 1) := by
    conv_lhs => rw [← List.takeWhile_append_dropWhile (p := (· != '=')) (l := cs)]
    rw [Percent.marks_append]
    congr 1
    rcases dropWhile_bne '=' cs with hc|⟨rest,hc⟩
    · rw [hc]
      rfl
    · rw [hc,Percent.marks_cons,if_neg hm]
      rfl
  have ht : Percent.marks (pairText (readPair cs))=
      Percent.marks (readComponent (cs.takeWhile (· != '=')))+
        Percent.marks (readComponent ((cs.dropWhile (· != '=')).drop 1)) := by
    rw [pairText,Percent.marks_append,Percent.marks_cons,if_neg hm]
    rfl
  refine ⟨by omega,?_⟩
  intro h
  exact ⟨h1.2 (by omega),h2.2 (by omega)⟩

theorem sum_marks_filter (pieces : List (List Char)) :
    ((pieces.filter (!·.isEmpty)).map fun cs => Percent.marks cs+1).sum ≤
        (pieces.map fun cs => Percent.marks cs+1).sum ∧
      ((pieces.map fun cs => Percent.marks cs+1).sum ≤
        ((pieces.filter (!·.isEmpty)).map fun cs => Percent.marks cs+1).sum →
          pieces.filter (!·.isEmpty)=pieces) := by
  induction pieces with
  | nil => exact ⟨le_refl _,fun _ => rfl⟩
  | cons cs pieces ih =>
    cases cs with
    | nil =>
      rw [List.filter_cons_of_neg (by simp),List.map_cons,List.sum_cons]
      exact ⟨by omega,fun h => absurd h (by omega)⟩
    | cons c cs =>
      rw [List.filter_cons_of_pos (by simp),List.map_cons,List.map_cons,List.sum_cons,
        List.sum_cons]
      refine ⟨by omega,?_⟩
      intro h
      rw [ih.2 (by omega)]

theorem sum_marks_readPair (pieces : List (List Char)) :
    ((pieces.map readPair).map fun p => Percent.marks (pairText p)+1).sum ≤
        (pieces.map fun cs => Percent.marks cs+1).sum ∧
      ((pieces.map fun cs => Percent.marks cs+1).sum ≤
        ((pieces.map readPair).map fun p => Percent.marks (pairText p)+1).sum →
          ∀ cs ∈ pieces, Percent.marks cs ≤ Percent.marks (pairText (readPair cs))) := by
  induction pieces with
  | nil => exact ⟨le_refl _,fun _ _ h => (nomatch h)⟩
  | cons cs pieces ih =>
    have hp := (marks_readPair cs).1
    simp only [List.map_cons,List.sum_cons]
    refine ⟨by omega,?_⟩
    intro h cs' hcs'
    rcases List.mem_cons.mp hcs' with rfl|hcs'
    · omega
    · exact ih.2 (by omega) cs' hcs'

/-- Where a piece is read in full, only its plus signs change. -/
theorem readPair_of_marks {cs : List Char}
    (h : Percent.marks cs ≤ Percent.marks (pairText (readPair cs))) :
    readPair cs=((cs.takeWhile (· != '=')).map plusChar,
      ((cs.dropWhile (· != '=')).drop 1).map plusChar) := by
  obtain ⟨h1,h2⟩ := (marks_readPair cs).2 h
  rw [readPair,readComponent_of_ungrouped h1,readComponent_of_ungrouped h2]

theorem mem_map_plusChar {cs : List Char} {x : Char} (hx : x ≠ ' ') (h : x ∈ cs.map plusChar) :
    x ∈ cs := by
  rw [List.mem_map] at h
  obtain ⟨c,hc,rfl⟩ := h
  rw [plusChar] at hx ⊢
  split at hx
  · exact absurd rfl hx
  · next hn => rwa [if_neg hn]

/-- Pairs are read back from a query only if they are plain: as in a path, every change takes
marks away. -/
theorem plain_of_readPairs {ps : List (List Char × List Char)} (hne : ps≠[])
    (h : readPairs (kept (joinPairs ps))=ps) :
    (∀ p ∈ ps, PlainPair p) ∧ ∀ c ∈ (joinPairs ps).getLast?, isEdge c=false := by
  have hkept := marks_kept (joinPairs ps)
  have hsplit := marks_splitOnP (p := (· == '&'))
    (fun c hc => by rw [beq_iff_eq] at hc; subst hc; decide) (kept (joinPairs ps))
  rw [← List.splitOn_eq_splitOnP] at hsplit
  have hfilter := sum_marks_filter ((kept (joinPairs ps)).splitOn '&')
  have hread := sum_marks_readPair (((kept (joinPairs ps)).splitOn '&').filter (!·.isEmpty))
  rw [readPairs_eq] at h
  rw [h,← marks_joinPairs hne] at hread
  have hk := hkept.2 (by omega)
  have hf := hfilter.2 (by omega)
  have hp := hread.2 (by omega)
  rw [hk] at h hf hp
  rw [hf] at h hp
  have clear : ∀ p ∈ ps, '&' ∉ pairText p ∧ '=' ∉ p.1 := by
    intro p hps
    rw [← h,List.mem_map] at hps
    obtain ⟨cs,hcs,rfl⟩ := hps
    have hamp := splitOn_notMem hcs
    rw [readPair_of_marks (hp cs hcs),pairText]
    refine ⟨?_,fun hm => ?_⟩
    · rw [List.mem_append,List.mem_cons]
      intro given
      rcases given with hm|hm|hm
      · exact hamp ((List.takeWhile_sublist _).subset (mem_map_plusChar (by decide) hm))
      · exact absurd hm (by decide)
      · exact hamp ((List.dropWhile_sublist _).subset
          (List.mem_of_mem_drop (mem_map_plusChar (by decide) hm)))
    · have := List.mem_takeWhile_imp (p := (· != '=')) (mem_map_plusChar (by decide) hm)
      simp at this
  rw [splitOn_joinPairs hne fun p hps => (clear p hps).1] at h hp
  obtain ⟨hchars,hlast⟩ := (kept_eq_self_iff _).mp hk
  refine ⟨?_,hlast⟩
  intro p hps
  have hin : ∀ c ∈ pairText p, isIgnored c=false ∧ c ≠ '#' ∧ c ≠ '&' := by
    intro c hc
    have := hchars c (mem_joinPairs_of_mem hps hc)
    exact ⟨this.1,this.2,fun hh => (clear p hps).1 (hh ▸ hc)⟩
  have hmarks := hp (pairText p) (List.mem_map_of_mem hps)
  have hself : readPair (pairText p)=p := by
    rw [List.map_map] at h
    conv_rhs at h => rw [← List.map_id ps]
    exact List.map_inj_left.mp h p hps
  have hungrouped := (marks_readPair (pairText p)).2 hmarks
  have hplus := readPair_of_marks hmarks
  obtain ⟨hname,hvalue⟩ := span_pairText (clear p hps).2
  rw [hname,hvalue] at hungrouped hplus
  rw [hself] at hplus
  have h1 := (map_plusChar_eq_self_iff p.1).mp (congrArg Prod.fst hplus).symm
  have h2 := (map_plusChar_eq_self_iff p.2).mp (congrArg Prod.snd hplus).symm
  refine ⟨?_,?_,(clear p hps).2,hungrouped⟩
  · intro c hc
    have := hin c (List.mem_append_left _ hc)
    exact ⟨this.1,this.2.1,this.2.2,fun hh => h1 (hh ▸ hc)⟩
  · intro c hc
    have := hin c (List.mem_append_right _ (List.mem_cons_of_mem _ hc))
    exact ⟨this.1,this.2.1,this.2.2,fun hh => h2 (hh ▸ hc)⟩

/-- A text ends the way what follows its last fixed character does. -/
theorem edge_getLast {c : Char} (hc : isEdge c=false) (before after : List Char) :
    (∀ d ∈ (before++c::after).getLast?, isEdge d=false) ↔
      ∀ d ∈ after.getLast?, isEdge d=false := by
  rw [List.getLast?_append]
  cases after with
  | nil => simp [hc]
  | cons d ds =>
    rw [List.getLast?_cons_cons,List.getLast?_eq_some_getLast (List.cons_ne_nil d ds)]
    simp

theorem joinPairs_concat (ps : List (List Char × List Char)) (p : List Char × List Char) :
    ∃ before, joinPairs (ps++[p])=before ++ '='::p.2 := by
  induction ps with
  | nil => exact ⟨p.1,by rw [List.nil_append,joinPairs,List.map_singleton,
      List.intercalate_singleton,pairText]⟩
  | cons p' ps ih =>
    obtain ⟨before,hb⟩ := ih
    obtain ⟨p'',ps',hps⟩ := List.exists_cons_of_ne_nil (l := ps++[p]) (by simp)
    have hj : joinPairs (p'::p''::ps')=pairText p'++['&']++joinPairs (p''::ps') :=
      List.intercalate_cons_cons
    refine ⟨pairText p'++['&']++before,?_⟩
    rw [List.cons_append,hps,hj,← hps,hb]
    simp only [List.append_assoc]

theorem edge_joinPairs (ps : List (List Char × List Char)) :
    (∀ c ∈ (joinPairs ps).getLast?, isEdge c=false) ↔
      ∀ p ∈ ps.getLast?, ∀ c ∈ p.2.getLast?, isEdge c=false := by
  rcases List.eq_nil_or_concat ps with rfl|⟨init,p,rfl⟩
  · simp [joinPairs]
  · rw [List.concat_eq_append]
    obtain ⟨before,hb⟩ := joinPairs_concat init p
    rw [hb,edge_getLast (by decide)]
    simp

theorem edge_join (segs : List (List Char)) :
    (∀ c ∈ (join segs).getLast?, isEdge c=false) ↔
      ∀ s ∈ segs.getLast?, ∀ c ∈ s.getLast?, isEdge c=false := by
  rcases List.eq_nil_or_concat segs with rfl|⟨init,seg,rfl⟩
  · simp [join]
  · have hj : join (init++[seg])=join init ++ '/'::seg := by simp [join]
    rw [List.concat_eq_append,hj,edge_getLast (by decide)]
    simp

/-- A question mark after plain segments begins the query. -/
theorem parse_query (o : Origin) {seg : List Char} {segs : List (List Char)}
    (h : ∀ s ∈ seg::segs, Plain s) (query : List Char) :
    parse (o.text++(join (seg::segs) ++ '?'::query))=
      ⟨(seg::segs).map encodePath,some (encodeQuery (kept query))⟩ := by
  have hj : join (seg::segs) ++ '?'::query = '/'::((seg++join segs) ++ '?'::query) := by
    simp [join]
  have hchars := plain_chars h
  have htake := plain_no_query h
  have hsplit := splitOnP_join fun s hs c hc =>
    (endsAuthority_eq_false.mp ((h s hs).chars c hc).2).1
  have hres := resolve_of_no_dot (fun s hs => (h s hs).notDot) []
  rw [hj,parse_origin,kept_append (fun c hc => ⟨(hchars c hc).1,(hchars c hc).2.1⟩) rfl (by decide),
    ← List.cons_append,ofTarget,List.takeWhile_append_of_pos htake,
    List.dropWhile_append_of_pos htake,List.takeWhile_cons_of_neg (by simp),
    List.dropWhile_cons_of_neg (by simp),List.append_nil,List.drop_one,List.tail_cons,hsplit,hres,
    List.reverse_nil,List.nil_append]

end NacPlatform.Url
