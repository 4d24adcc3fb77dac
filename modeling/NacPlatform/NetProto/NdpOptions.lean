import NacPlatform.NetProto.Icmpv6

namespace NacPlatform.NetProto

/-- Options one after another: the second byte of each is its whole length in units of eight bytes,
which is not zero. -/
inductive SplitsInto : List UInt8 → List TlvItem → Prop where
  | nil : SplitsInto [] []
  | cons {tag len : UInt8} {value rest : List UInt8} {items : List TlvItem} (hlen : len≠0)
      (hsize : value.length+2=len.toNat*8) (hrest : SplitsInto rest items) :
      SplitsInto (tag::len::(value++rest)) (⟨tag,value⟩::items)

/-- The longest beginning of an area that splits into options. -/
structure LongestSplit (area front : List UInt8) (items : List TlvItem) : Prop where
  begins : front <+: area
  splits : SplitsInto front items
  longest : ∀ front' items', front' <+: area → SplitsInto front' items' →
    front'.length ≤ front.length

/-- The first six bytes. -/
def firstSix : List UInt8 → MacAddr
  | a::b::c::d::e::f::_ => ⟨a,b,c,d,e,f⟩
  | _ => .zero

/-- The first six value bytes of the last option of type 1 or 2. -/
def lastLinkLayer (items : List TlvItem) : Option MacAddr :=
  (items.filter fun o => o.tag==1 || o.tag==2).getLast?.map fun o => firstSix o.value

def ndpOption (o : TlvItem) : NdpOption := ⟨o.tag,firstSix o.value⟩

theorem lastLinkLayer_eq (items : List TlvItem) :
    lastLinkLayer items=(lastOf NdpOption.isLink (items.map ndpOption)).map NdpOption.address := by
  rw [lastOf,List.filter_map,List.getLast?_map,Option.map_map]
  rfl

theorem exists_six {value : List UInt8} (h : 6 ≤ value.length) :
    ∃ a b c d e f rest, value=a::b::c::d::e::f::rest := by
  match value,h with
  | a::b::c::d::e::f::rest,_ => exact ⟨a,b,c,d,e,f,rest,rfl⟩

section Reading

variable {tag len : UInt8} {value rest : List UInt8} (hlen : len≠0)
  (hsize : value.length+2=len.toNat*8)
include hlen hsize

theorem ndpOptions_item : (ndpOptions (tag::len::(value++rest))).1=
    ndpOption ⟨tag,value⟩::(ndpOptions rest).1 := by
  have hpos := toNat_pos hlen
  obtain ⟨a,b,c,d,e,f,more,rfl⟩ := exists_six (show 6 ≤ value.length by omega)
  simp only [List.length_cons] at hsize
  have hdrop : (more++rest).drop (len.toNat*8-8)=rest := by
    rw [show len.toNat*8-8=more.length by omega,List.drop_left]
  have hmore : len.toNat*8 ≤ (more++rest).length+8 := by
    rw [List.length_append]
    omega
  have hwhole := ndpOptions_whole (t := tag) (a := a) (b := b) (c := c) (d := d) (e := e) (f := f)
    hlen hmore
  rw [hdrop] at hwhole
  exact congrArg Prod.fst hwhole

end Reading

/-- The options at the beginning are read, whatever follows them. -/
theorem SplitsInto.read {front : List UInt8} {items : List TlvItem} (h : SplitsInto front items)
    (rest : List UInt8) : (ndpOptions (front++rest)).1=
      items.map ndpOption++(ndpOptions rest).1 := by
  induction h with
  | nil => rfl
  | cons hlen hsize _ ih =>
    rw [List.cons_append,List.cons_append,List.append_assoc,ndpOptions_item hlen hsize,ih]
    rfl

/-- Where nothing is read no option begins. -/
theorem read_nil_or_item (area : List UInt8) : (ndpOptions area).1=[] ∨
    ∃ tag len value rest, area=tag::len::(value++rest) ∧ len≠0 ∧
      value.length+2=len.toNat*8 := by
  match area with
  | [] | [_] => exact .inl (by rw [ndpOptions_short (by simp)])
  | tag::len::data =>
    by_cases hlen : len=0
    · subst hlen
      exact .inl (by rw [ndpOptions_zero])
    · by_cases hbeyond : data.length+2<len.toNat*8
      · exact .inl (ndpOptions_beyond hlen hbeyond)
      · have hpos := toNat_pos hlen
        refine .inr ⟨tag,len,data.take (len.toNat*8-2),data.drop (len.toNat*8-2),?_,hlen,?_⟩
        · rw [List.take_append_drop]
        · rw [List.length_take]
          omega

/-- Of two beginnings of one area that split, the shorter one's options begin the other's, and what
is more splits too. -/
theorem SplitsInto.compare {front front' rest rest' : List UInt8} {items items' : List TlvItem}
    (h : SplitsInto front items) (h' : SplitsInto front' items')
    (same : front++rest=front'++rest') (hle : front.length ≤ front'.length) :
    ∃ more moreItems, front'=front++more ∧ items'=items++moreItems ∧
      SplitsInto more moreItems := by
  induction h generalizing front' items' with
  | nil => exact ⟨front',items',rfl,rfl,h'⟩
  | @cons tag len value tail items hlen hsize _ ih =>
    cases h' with
    | nil => simp at hle
    | @cons tag' len' value' tail' items' hlen' hsize' hrest' =>
      simp only [List.cons_append,List.append_assoc,List.cons.injEq] at same
      obtain ⟨rfl,rfl,hdata⟩ := same
      obtain ⟨rfl,htail⟩ := List.append_inj hdata (by omega)
      simp only [List.length_cons,List.length_append] at hle
      obtain ⟨more,moreItems,rfl,rfl,hmore⟩ := ih hrest' htail (by omega)
      exact ⟨more,moreItems,by simp,rfl,hmore⟩

theorem SplitsInto.read_ne_nil {front : List UInt8} {items : List TlvItem}
    (h : SplitsInto front items) (hne : front≠[]) (rest : List UInt8) :
    (ndpOptions (front++rest)).1≠[] := by
  cases h with
  | nil => exact absurd rfl hne
  | cons hlen hsize hrest =>
    rw [(SplitsInto.cons hlen hsize hrest).read]
    simp

/-- A beginning that splits is the longest exactly when nothing is read behind it. -/
theorem longestSplit_iff {front rest : List UInt8} {items : List TlvItem}
    (h : SplitsInto front items) :
    LongestSplit (front++rest) front items ↔ (ndpOptions rest).1=[] := by
  constructor
  · intro hlongest
    rcases read_nil_or_item rest with hnil|⟨tag,len,value,tail,rfl,hlen,hsize⟩
    · exact hnil
    · have hmore : SplitsInto (front++(tag::len::(value++[]))) (items++[⟨tag,value⟩]) := by
        clear hlongest
        induction h with
        | nil => exact .cons hlen hsize .nil
        | cons hlen' hsize' _ ih =>
          rw [List.cons_append,List.cons_append,List.append_assoc,List.cons_append]
          exact .cons hlen' hsize' ih
      have hle := hlongest.longest _ _ ⟨tail,by simp⟩ hmore
      simp only [List.append_nil,List.length_append,List.length_cons] at hle
      omega
  · intro hnil
    refine ⟨List.prefix_append front rest,h,?_⟩
    intro front' items' hbegins h'
    obtain ⟨rest',same⟩ := hbegins
    by_contra hlt
    obtain ⟨more,moreItems,rfl,_,hmore⟩ := h.compare h' same.symm (by omega)
    rw [List.append_assoc,List.append_cancel_left_eq] at same
    have hne : more≠[] := by
      rintro rfl
      simp at hlt
    exact hmore.read_ne_nil hne rest' (same ▸ hnil)

theorem exists_longestSplit (area : List UInt8) : ∃ front items, LongestSplit area front items := by
  have split : ∃ front items rest, area=front++rest ∧ SplitsInto front items ∧
      (ndpOptions rest).1=[] := by
    induction hn : area.length using Nat.strong_induction_on generalizing area with
    | _ n ih =>
      rcases read_nil_or_item area with hnil|⟨tag,len,value,tail,rfl,hlen,hsize⟩
      · exact ⟨[],[],area,rfl,.nil,hnil⟩
      · simp only [List.length_cons,List.length_append] at hn
        obtain ⟨front,items,rest,rfl,hsplits,hnil⟩ := ih tail.length (by omega) tail rfl
        refine ⟨tag::len::(value++front),⟨tag,value⟩::items,rest,by simp,?_,hnil⟩
        exact .cons hlen hsize hsplits
  obtain ⟨front,items,rest,rfl,hsplits,hnil⟩ := split
  exact ⟨front,items,(longestSplit_iff hsplits).mpr hnil⟩

/-- The loop finds the address of the last link-layer option of the longest beginning. -/
theorem ndpResult_longest {payload front : List UInt8} {items : List TlvItem}
    (h : LongestSplit (payload.drop 24) front items) :
    ndpResult payload ⟨24,none⟩=lastLinkLayer items := by
  obtain ⟨rest,same⟩ := h.begins
  rw [← same] at h
  have hread := h.splits.read rest
  rw [(longestSplit_iff h.splits).mp h,List.append_nil,same] at hread
  rw [ndpResult,hread,foldl_noteAddress,lastLinkLayer_eq]

/-- The options of the longest beginning come from its bytes alone. -/
theorem LongestSplit.unique {area area' front : List UInt8} {items items' : List TlvItem}
    (h : LongestSplit area front items) (h' : LongestSplit area' front items') :
    items'=items := by
  have hself : front++[]=front++[] := rfl
  obtain ⟨more,moreItems,hmore,rfl,hsplits⟩ := h.splits.compare h'.splits hself (Nat.le_refl _)
  obtain rfl := List.self_eq_append_right.mp hmore
  cases hsplits
  rw [List.append_nil]

/-- For every payload with a header `parse_ndp` ends without a fault. It answers with the bytes 8 to
24 and with the address of the last link-layer option of the longest beginning that splits into
options, and the bytes behind that beginning do not matter. -/
theorem parseNdp_longest (payload : List UInt8) (hlen : 24 ≤ payload.length) :
    (∃ front items, LongestSplit (payload.drop 24) front items) ∧
    (∀ front items, LongestSplit (payload.drop 24) front items → ∀ fuel, payload.length<fuel →
      ∃ (kind : UInt8) (target : Vector UInt8 16), payload.head?=some kind ∧
        target.toList=(payload.drop 8).take 16 ∧
        parseNdp payload fuel=.ok (.ok ⟨.ofByte kind,⟨target⟩,lastLinkLayer items⟩)) ∧
    ∀ (payload' : List UInt8) front items items', LongestSplit (payload.drop 24) front items →
      LongestSplit (payload'.drop 24) front items' → items'=items := by
  refine ⟨exists_longestSplit _,?_,fun _ _ _ _ h h' => h.unique h'⟩
  intro front items hlongest fuel hfuel
  obtain ⟨kind,hbyte,hhead⟩ := byteAt_head (by omega : 0<payload.length)
  have hsixteen : ((payload.drop 8).take 16).length=16 := by
    rw [List.length_take,List.length_drop]
    omega
  obtain ⟨s,hloop,hfound⟩ := whileLoop_ends (fun s _ => ndpTurn_turns payload s)
    (s := ⟨24,none⟩) trivial (by omega : payload.length-24<fuel)
  refine ⟨kind,⟨((payload.drop 8).take 16).toArray,by simpa using hsixteen⟩,hhead,by simp,?_⟩
  unfold parseNdp
  rw [if_neg (by omega),hbyte,ok_bind,slice_ok (by decide) hlen,ok_bind,toArray,dif_pos hsixteen,
    ok_bind,hloop,ok_bind,hfound,ndpResult_longest hlongest]
  rfl

/-- A header and one source link-layer option. -/
theorem parseNdp_longest_source : ∃ kind target,
    parseNdp (advertisementHeader++[1,1,2,0,0,0,0,5]) 40=
      .ok (.ok ⟨.ofByte kind,target,lastLinkLayer [⟨1,[2,0,0,0,0,5]⟩]⟩) := by
  have whole : SplitsInto [1,1,2,0,0,0,0,5] [⟨1,[2,0,0,0,0,5]⟩] :=
    @SplitsInto.cons 1 1 [2,0,0,0,0,5] [] [] (by decide) (by decide) .nil
  have hlongest : LongestSplit ((advertisementHeader++[1,1,2,0,0,0,0,5]).drop 24)
      [1,1,2,0,0,0,0,5] [⟨1,[2,0,0,0,0,5]⟩] :=
    ⟨List.prefix_rfl,whole,fun _ _ hbegins _ => hbegins.length_le⟩
  obtain ⟨kind,target,_,_,hparse⟩ := (parseNdp_longest _ (by decide)).2.1 _ _ hlongest 40
    (by decide)
  exact ⟨kind,⟨target⟩,hparse⟩

end NacPlatform.NetProto
