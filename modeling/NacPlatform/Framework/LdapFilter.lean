import Mathlib.Data.List.Induction
import NacPlatform.Framework.Text
import NacPlatform.Framework.Utf8

namespace NacPlatform.LdapFilter

/-! The string form of LDAP search filters. A tree has the values as they are written, so that it
is what a parser makes of a text. -/

/-- The characters that stand for themselves in a value. -/
def normal (c : Char) : Bool := c ∉ ['\x00','(',')','*','\\']

/-- A value as it is written, and its bytes: UTF-8, or a backslash with two digits. -/
inductive ValueEncoding : List Char → List UInt8 → Prop where
  | nil : ValueEncoding [] []
  | normal (c : Char) (cs : List Char) (bs : List UInt8) (plain : normal c=true)
      (rest : ValueEncoding cs bs) : ValueEncoding (c::cs) (String.utf8EncodeChar c++bs)
  | escaped (a b : Char) (cs : List Char) (bs : List UInt8) (high : isHexDigit a=true)
      (low : isHexDigit b=true) (rest : ValueEncoding cs bs) :
      ValueEncoding ('\\'::a::b::cs) (.ofNat (16*hexValue a+hexValue b)::bs)

def keychar (c : Char) : Bool := c.isAlphanum || c = '-'

structure IsNumber (n : List Char) : Prop where
  nonempty : n≠[]
  digits : ∀ c ∈ n, c.isDigit=true
  leading : n.head?=some '0' → n=['0']

inductive Oid : List Char → Prop where
  | descr (c : Char) (cs : List Char) (letter : c.isAlpha=true)
      (keychars : ∀ d ∈ cs, keychar d=true) : Oid (c::cs)
  | numeric (n : List Char) (ns : List (List Char)) (first : IsNumber n)
      (numbers : ∀ m ∈ ns, IsNumber m) (more : ns≠[]) : Oid (n++ns.flatMap ('.'::·))

/-- A type with its options. -/
inductive AttributeDescription : List Char → Prop where
  | options (oid : List Char) (os : List (List Char)) (type : Oid oid)
      (keychars : ∀ o ∈ os, o≠[] ∧ ∀ c ∈ o, keychar c=true) :
      AttributeDescription (oid++os.flatMap (';'::·))

/-- What stands before an assertion value. -/
inductive AssertionLhs : List Char → Prop where
  | simple (attr type : List Char) (description : AttributeDescription attr)
      (types : type ∈ [['='],['~','='],['>','='],['<','=']]) : AssertionLhs (attr++type)
  | extensible (attr dn rule : List Char) (description : AttributeDescription attr)
      (dnattrs : dn=[] ∨ dn.map Char.toLower=[':','d','n'])
      (matching : rule=[] ∨ ∃ oid, Oid oid ∧ rule = ':'::oid) :
      AssertionLhs (attr++(dn++(rule++[':','='])))
  | rule (dn oid : List Char) (dnattrs : dn=[] ∨ dn.map Char.toLower=[':','d','n'])
      (matching : Oid oid) : AssertionLhs (dn++(':'::oid++[':','=']))

inductive Filter where
  | and (fs : List Filter)
  | or (fs : List Filter)
  | not (f : Filter)
  | assertion (lhs value : List Char)
  | present (attr : List Char)
  | substrings (attr : List Char) (pieces : List (List Char))

mutual

def Filter.text : Filter → List Char
  | .and fs => '(':: '&'::(texts fs++[')'])
  | .or fs => '(':: '|'::(texts fs++[')'])
  | .not f => '(':: '!'::(f.text++[')'])
  | .assertion lhs value => '('::(lhs++(value++[')']))
  | .present attr => '('::(attr++['=','*',')'])
  | .substrings attr pieces => '('::(attr++ '='::(['*'].intercalate pieces++[')']))

def texts : List Filter → List Char
  | [] => []
  | f::fs => f.text++texts fs

end

/-- Only an asterisk after the equals sign is for presence. -/
inductive Filter.Valid : Filter → Prop where
  | and (fs : List Filter) (nonempty : fs≠[]) (valid : ∀ f ∈ fs, f.Valid) : Valid (.and fs)
  | or (fs : List Filter) (nonempty : fs≠[]) (valid : ∀ f ∈ fs, f.Valid) : Valid (.or fs)
  | not (f : Filter) (valid : f.Valid) : Valid (.not f)
  | assertion (lhs value : List Char) (bs : List UInt8) (left : AssertionLhs lhs)
      (right : ValueEncoding value bs) : Valid (.assertion lhs value)
  | present (attr : List Char) (left : AttributeDescription attr) : Valid (.present attr)
  | substrings (attr : List Char) (pieces : List (List Char)) (left : AttributeDescription attr)
      (asterisk : 2 ≤ pieces.length) (right : ∀ p ∈ pieces, ∃ bs, ValueEncoding p bs)
      (text : pieces≠[[],[]]) : Valid (.substrings attr pieces)

/-- The grammar makes a filter of a text. -/
def Parses (s : List Char) (f : Filter) : Prop := f.Valid ∧ f.text=s

/-! The grammar is unambiguous. -/

/-- The characters that stand before the equals sign of an item. -/
def nameChar (c : Char) : Bool :=
  keychar c || c = '.' || c = ';' || c = ':' || c = '~' || c = '>' || c = '<'

theorem nameChar_of_keychar {c : Char} (h : keychar c=true) : nameChar c=true := by
  simp [nameChar,h]

theorem keychar_of_isDigit {c : Char} (h : c.isDigit=true) : keychar c=true := by
  simp [keychar,Char.isAlphanum,h]

theorem Oid.nameChars {oid : List Char} (h : Oid oid) : oid≠[] ∧ ∀ c ∈ oid, nameChar c=true := by
  cases h with
  | descr c cs letter keychars =>
    refine ⟨by simp,List.forall_mem_cons.mpr ⟨?_,?_⟩⟩
    · exact nameChar_of_keychar (by simp [keychar,Char.isAlphanum,letter])
    · exact fun d hd => nameChar_of_keychar (keychars d hd)
  | numeric n ns first numbers more =>
    refine ⟨fun e => first.nonempty (List.append_eq_nil_iff.mp e).1,?_⟩
    intro c hc
    rcases List.mem_append.mp hc with hc|hc
    · exact nameChar_of_keychar (keychar_of_isDigit (first.digits c hc))
    · obtain ⟨m,hm,hc⟩ := List.mem_flatMap.mp hc
      rcases List.mem_cons.mp hc with rfl|hc
      · decide
      · exact nameChar_of_keychar (keychar_of_isDigit ((numbers m hm).digits c hc))

theorem AttributeDescription.nameChars {attr : List Char} (h : AttributeDescription attr) :
    attr≠[] ∧ ∀ c ∈ attr, nameChar c=true := by
  obtain ⟨oid,os,type,keychars⟩ := h
  obtain ⟨hne,hoid⟩ := type.nameChars
  refine ⟨fun e => hne (List.append_eq_nil_iff.mp e).1,?_⟩
  intro c hc
  rcases List.mem_append.mp hc with hc|hc
  · exact hoid c hc
  · obtain ⟨o,ho,hc⟩ := List.mem_flatMap.mp hc
    rcases List.mem_cons.mp hc with rfl|hc
    · decide
    · exact nameChar_of_keychar ((keychars o ho).2 c hc)

/-- The name of an item: nothing in it can be taken for another part of a filter. -/
structure IsName (name : List Char) : Prop where
  nonempty : name≠[]
  chars : ∀ c ∈ name, nameChar c=true

theorem AttributeDescription.isName {attr : List Char} (h : AttributeDescription attr) :
    IsName attr := ⟨h.nameChars.1,h.nameChars.2⟩

theorem IsName.append {name rest : List Char} (h : IsName name)
    (hrest : ∀ c ∈ rest, nameChar c=true) : IsName (name++rest) := by
  refine ⟨fun e => h.nonempty (List.append_eq_nil_iff.mp e).1,?_⟩
  intro c hc
  rcases List.mem_append.mp hc with hc|hc
  · exact h.chars c hc
  · exact hrest c hc

theorem nameChar_of_dnattrs {dn : List Char} (h : dn=[] ∨ dn.map Char.toLower=[':','d','n']) :
    ∀ c ∈ dn, nameChar c=true := by
  intro c hc
  rcases h with rfl|h
  · cases hc
  · have hlower : c.toLower ∈ [':','d','n'] := h ▸ List.mem_map_of_mem hc
    have hcase : c.toLower ∈ [':','d','n'] → nameChar c=true := by
      apply ascii_forall (P := fun c => c.toLower ∈ [':','d','n'] → nameChar c=true)
      · decide +kernel
      · apply ascii_of_toLower
        simp only [List.mem_cons,List.not_mem_nil,or_false] at hlower
        rcases hlower with h|h|h
        · rw [h]
          decide
        · rw [h]
          decide
        · rw [h]
          decide
    exact hcase hlower

theorem AssertionLhs.name {lhs : List Char} (h : AssertionLhs lhs) :
    ∃ name, IsName name ∧ lhs=name++['='] := by
  cases h with
  | simple attr type description types =>
    have hattr := description.isName
    simp only [List.mem_cons,List.not_mem_nil,or_false] at types
    rcases types with rfl|rfl|rfl|rfl
    · exact ⟨attr,hattr,rfl⟩
    · exact ⟨attr++['~'],hattr.append (List.all_eq_true.mp (by decide)),by simp⟩
    · exact ⟨attr++['>'],hattr.append (List.all_eq_true.mp (by decide)),by simp⟩
    · exact ⟨attr++['<'],hattr.append (List.all_eq_true.mp (by decide)),by simp⟩
  | extensible attr dn rule description dnattrs matching =>
    have hattr := description.isName
    have hrule : ∀ c ∈ rule, nameChar c=true := by
      rcases matching with rfl|⟨oid,hoid,rfl⟩
      · simp
      · exact List.forall_mem_cons.mpr ⟨by decide,hoid.nameChars.2⟩
    refine ⟨((attr++dn)++rule)++[':'],?_,by simp⟩
    exact ((hattr.append (nameChar_of_dnattrs dnattrs)).append hrule).append
      (List.all_eq_true.mp (by decide))
  | rule dn oid dnattrs matching =>
    have hoid : ∀ c ∈ ':'::oid, nameChar c=true :=
      List.forall_mem_cons.mpr ⟨by decide,matching.nameChars.2⟩
    refine ⟨(dn++ ':'::oid)++[':'],⟨by simp,?_⟩,by simp⟩
    intro c hc
    simp only [List.mem_append] at hc
    rcases hc with (hc|hc)|hc
    · exact nameChar_of_dnattrs dnattrs c hc
    · exact hoid c hc
    · rw [List.mem_singleton.mp hc]
      decide

theorem ne_of_normal {c d : Char} (h : normal c=true)
    (hd : d ∈ ['\x00','(',')','*','\\']) : c≠d := by
  rintro rfl
  exact of_decide_eq_true h hd

theorem ne_of_isHexDigit {c d : Char} (h : isHexDigit c=true) (hd : isHexDigit d=false) : c≠d := by
  rintro rfl
  rw [h] at hd
  cases hd

namespace ValueEncoding

variable {cs ds : List Char} {bs : List UInt8}

/-- How a value can begin. -/
theorem of_cons {c : Char} (h : ValueEncoding (c::cs) bs) :
    (∃ bs', LdapFilter.normal c=true ∧ bs=String.utf8EncodeChar c++bs' ∧ ValueEncoding cs bs') ∨
    ∃ a b rest bs', c = '\\' ∧ cs=a::b::rest ∧ isHexDigit a=true ∧ isHexDigit b=true ∧
      bs=.ofNat (16*hexValue a+hexValue b)::bs' ∧ ValueEncoding rest bs' := by
  cases h with
  | normal _ _ bs plain rest => exact .inl ⟨bs,plain,rfl,rest⟩
  | escaped a b rest bs high low hrest => exact .inr ⟨a,b,rest,bs,rfl,rfl,high,low,rfl,hrest⟩

/-- A value has neither parentheses nor asterisks. -/
theorem chars (h : ValueEncoding cs bs) : ∀ c ∈ cs, c ≠ '(' ∧ c ≠ ')' ∧ c ≠ '*' := by
  induction h with
  | nil => simp
  | normal c cs bs plain rest ih =>
    refine List.forall_mem_cons.mpr ⟨?_,ih⟩
    exact ⟨ne_of_normal plain (by decide),ne_of_normal plain (by decide),
      ne_of_normal plain (by decide)⟩
  | escaped a b cs bs high low rest ih =>
    have digit {c : Char} (hc : isHexDigit c=true) : c ≠ '(' ∧ c ≠ ')' ∧ c ≠ '*' :=
      ⟨ne_of_isHexDigit hc (by decide),ne_of_isHexDigit hc (by decide),
        ne_of_isHexDigit hc (by decide)⟩
    exact List.forall_mem_cons.mpr ⟨by decide,List.forall_mem_cons.mpr ⟨digit high,
      List.forall_mem_cons.mpr ⟨digit low,ih⟩⟩⟩

theorem append {bs' : List UInt8} (h : ValueEncoding cs bs) (h' : ValueEncoding ds bs') :
    ValueEncoding (cs++ds) (bs++bs') := by
  induction h with
  | nil => exact h'
  | normal c cs bs plain rest ih =>
    rw [List.cons_append,List.append_assoc]
    exact .normal c _ _ plain ih
  | escaped a b cs bs high low rest ih => exact .escaped a b _ _ high low ih

/-- A text of normal characters is its own value. -/
theorem of_normal (h : ∀ c ∈ cs, LdapFilter.normal c=true) : ValueEncoding cs (Utf8.encode cs) := by
  induction cs with
  | nil => exact .nil
  | cons c cs ih =>
    obtain ⟨hc,hcs⟩ := List.forall_mem_cons.mp h
    exact .normal c cs _ hc (ih hcs)

/-- What follows a value in a value is one, too. -/
theorem of_append (h : ValueEncoding cs bs) {all : List UInt8} (hall : ValueEncoding (cs++ds) all) :
    ∃ bs', all=bs++bs' ∧ ValueEncoding ds bs' := by
  induction h generalizing all with
  | nil => exact ⟨all,rfl,hall⟩
  | normal c cs bs plain rest ih =>
    rw [List.cons_append] at hall
    rcases of_cons hall with ⟨more,-,rfl,hmore⟩|⟨a,b,rest',more,rfl,-⟩
    · obtain ⟨bs',rfl,hds⟩ := ih hmore
      exact ⟨bs',by rw [List.append_assoc],hds⟩
    · exact absurd plain (by decide)
  | escaped a b cs bs high low rest ih =>
    rw [List.cons_append] at hall
    rcases of_cons hall with ⟨more,plain,-⟩|⟨a',b',rest',more,-,heq,-,-,rfl,hmore⟩
    · exact absurd plain (by decide)
    · simp only [List.cons_append,List.cons.injEq] at heq
      obtain ⟨rfl,rfl,rfl⟩ := heq
      obtain ⟨bs',rfl,hds⟩ := ih hmore
      exact ⟨bs',rfl,hds⟩

/-- A value can be cut before a character that is no digit. -/
theorem cut {c : Char} (hhex : isHexDigit c=false) (h : ValueEncoding (cs++c::ds) bs) :
    ∃ bs', ValueEncoding cs bs' := by
  induction n : cs.length using Nat.strong_induction_on generalizing cs bs with
  | _ n ih =>
    subst n
    rcases cs with _|⟨d,cs⟩
    · exact ⟨[],.nil⟩
    · rw [List.cons_append] at h
      rcases of_cons h with ⟨bs,plain,-,hrest⟩|⟨a,b,rest,bs,rfl,heq,ha,hb,-,hrest⟩
      · obtain ⟨bs',hbs'⟩ := ih cs.length (by simp) hrest rfl
        exact ⟨_,.normal d cs bs' plain hbs'⟩
      -- the two digits of an escape are both before the cut
      · rcases cs with _|⟨x,_|⟨y,cs⟩⟩
        · obtain ⟨rfl,-⟩ := List.cons.inj heq
          exact absurd rfl (ne_of_isHexDigit ha hhex)
        · simp only [List.cons_append,List.nil_append,List.cons.injEq] at heq
          obtain ⟨-,rfl,-⟩ := heq
          exact absurd rfl (ne_of_isHexDigit hb hhex)
        · simp only [List.cons_append,List.cons.injEq] at heq
          obtain ⟨rfl,rfl,rfl⟩ := heq
          obtain ⟨bs',hbs'⟩ := ih cs.length (by simp; omega) hrest rfl
          exact ⟨_,.escaped x y cs bs' ha hb hbs'⟩

/-- Every escape makes the bytes two fewer. -/
theorem length_add (h : ValueEncoding cs bs) :
    bs.length+2*cs.count '\\'=(Utf8.encode cs).length := by
  induction h with
  | nil => rfl
  | normal c cs bs plain rest ih =>
    have hc : c ≠ '\\' := ne_of_normal plain (by decide)
    rw [List.count_cons_of_ne hc,Utf8.encode_cons,List.length_append,List.length_append]
    omega
  | escaped a b cs bs high low rest ih =>
    have digit {c : Char} (hc : isHexDigit c=true) :
        c ≠ '\\' ∧ String.utf8EncodeChar c=[c.toNat.toUInt8] := by
      refine ⟨ne_of_isHexDigit hc (by decide),Utf8.utf8EncodeChar_ascii ?_⟩
      have hlt := isHexDigit_lt hc
      omega
    have slash : String.utf8EncodeChar '\\'=[0x5c] := by decide
    rw [List.count_cons_self,List.count_cons_of_ne (digit high).1,
      List.count_cons_of_ne (digit low).1,Utf8.encode_cons,Utf8.encode_cons,Utf8.encode_cons,
      slash,(digit high).2,(digit low).2]
    simp only [List.length_cons,List.length_append,List.length_nil]
    omega

/-- A value without a backslash has normal characters only. -/
theorem normal_of_notMem (h : ValueEncoding (cs++ds) bs) (hcs : '\\' ∉ cs) :
    ∀ c ∈ cs, LdapFilter.normal c=true := by
  induction cs generalizing bs with
  | nil => simp
  | cons c cs ih =>
    rw [List.cons_append] at h
    rcases of_cons h with ⟨bs,plain,-,hrest⟩|⟨a,b,rest,bs,rfl,-⟩
    · exact List.forall_mem_cons.mpr ⟨plain,ih hrest fun h => hcs (List.mem_cons_of_mem c h)⟩
    · exact absurd List.mem_cons_self hcs

end ValueEncoding

/-- The item of a name and of what stands behind its equals sign. -/
def itemOf (name value : List Char) : Filter :=
  if '*' ∉ value then .assertion (name++['=']) value
  else if value=['*'] then .present name
  else .substrings name (value.splitOn '*')

structure IsItem (f : Filter) (name value : List Char) : Prop where
  isName : IsName name
  unclosed : ')' ∉ value
  item : f=itemOf name value
  text : f.text = '('::(name++ '='::(value++[')']))

/-- Pieces with asterisks between them: one before each but the first. -/
theorem intercalate_first (p : List Char) (pieces : List (List Char)) :
    ['*'].intercalate (p::pieces)=p++pieces.flatMap ('*'::·) := by
  induction pieces generalizing p with
  | nil => simp
  | cons q pieces ih =>
    rw [List.intercalate_cons_cons,ih]
    simp

/-- The same from one of the pieces on. -/
theorem intercalate_append (before : List (List Char)) (p : List Char)
    (behind : List (List Char)) : ['*'].intercalate (before++p::behind)=
      before.flatMap (·++['*'])++(p++behind.flatMap ('*'::·)) := by
  induction before with
  | nil => exact intercalate_first p behind
  | cons b before ih =>
    rw [List.cons_append,List.intercalate_cons_of_ne_nil (by simp),ih]
    simp

theorem mem_intercalate {c : Char} {pieces : List (List Char)}
    (h : c ∈ ['*'].intercalate pieces) : c = '*' ∨ ∃ p ∈ pieces, c ∈ p := by
  cases pieces with
  | nil => cases h
  | cons p pieces =>
    rw [intercalate_first] at h
    rcases List.mem_append.mp h with h|h
    · exact .inr ⟨p,List.mem_cons_self,h⟩
    · obtain ⟨q,hq,h⟩ := List.mem_flatMap.mp h
      rcases List.mem_cons.mp h with h|h
      · exact .inl h
      · exact .inr ⟨q,List.mem_cons_of_mem p hq,h⟩

theorem isItem_assertion {lhs value : List Char} {bs : List UInt8} (left : AssertionLhs lhs)
    (right : ValueEncoding value bs) : ∃ name, IsItem (.assertion lhs value) name value := by
  obtain ⟨name,hname,rfl⟩ := left.name
  refine ⟨name,hname,fun h => (right.chars _ h).2.1 rfl,?_,?_⟩
  · rw [itemOf,if_pos fun h => (right.chars _ h).2.2 rfl]
  · simp [Filter.text]

theorem isItem_present {attr : List Char} (left : AttributeDescription attr) :
    IsItem (.present attr) attr ['*'] := by
  refine ⟨left.isName,by decide,?_,?_⟩
  · rw [itemOf,if_neg (by decide),if_pos rfl]
  · simp [Filter.text]

theorem isItem_substrings {attr : List Char} {pieces : List (List Char)}
    (left : AttributeDescription attr) (asterisk : 2 ≤ pieces.length)
    (right : ∀ p ∈ pieces, ∃ bs, ValueEncoding p bs) (text : pieces≠[[],[]]) :
    IsItem (.substrings attr pieces) attr (['*'].intercalate pieces) := by
  have hne : pieces≠[] := by
    rintro rfl
    cases asterisk
  have hsplit : (['*'].intercalate pieces).splitOn '*'=pieces := by
    refine List.splitOn_intercalate '*' ?_ hne
    intro p hp h
    obtain ⟨bs,hbs⟩ := right p hp
    exact (hbs.chars _ h).2.2 rfl
  have hclose : ')' ∉ ['*'].intercalate pieces := by
    intro h
    rcases mem_intercalate h with h|⟨p,hp,h⟩
    · exact absurd h (by decide)
    · obtain ⟨bs,hbs⟩ := right p hp
      exact (hbs.chars _ h).2.1 rfl
  have hasterisk : '*' ∈ ['*'].intercalate pieces := by
    rcases pieces with _|⟨p,_|⟨q,rest⟩⟩
    · exact absurd rfl hne
    · exact absurd asterisk (by simp)
    · rw [intercalate_first]
      simp
  refine ⟨left.isName,hclose,?_,?_⟩
  · rw [itemOf,if_neg (not_not.mpr hasterisk),if_neg,hsplit]
    intro h
    rw [h] at hsplit
    exact text (hsplit.symm.trans (by decide))
  · simp [Filter.text]

theorem text_begin (f : Filter) : ∃ s, f.text = '('::s := by
  cases f with
  | and fs => exact ⟨_,by rw [Filter.text]⟩
  | or fs => exact ⟨_,by rw [Filter.text]⟩
  | not f => exact ⟨_,by rw [Filter.text]⟩
  | assertion lhs value => exact ⟨_,by rw [Filter.text]⟩
  | present attr => exact ⟨_,by rw [Filter.text]⟩
  | substrings attr pieces => exact ⟨_,by rw [Filter.text]⟩

/-- The second character says what kind of filter it is. -/
structure Begins (f : Filter) (c : Char) (s : List Char) : Prop where
  text : f.text = '('::c::s
  and : c = '&' → ∃ fs, f=.and fs ∧ ∀ g ∈ fs, g.Valid
  or : c = '|' → ∃ fs, f=.or fs ∧ ∀ g ∈ fs, g.Valid
  not : c = '!' → ∃ g, f=.not g ∧ g.Valid
  item : nameChar c=true → ∃ name value, IsItem f name value

/-- Texts that begin alike are of the same kind. -/
theorem Begins.second_eq {f : Filter} {c d : Char} {s t r : List Char} (h : Begins f c s)
    (heq : '('::d::t=f.text++r) : c=d := by
  rw [h.text,List.cons_append,List.cons_append] at heq
  exact (List.cons.inj (List.cons.inj heq).2).1.symm

theorem IsItem.begins {f : Filter} {name value : List Char} (h : IsItem f name value) :
    ∃ c s, Begins f c s ∧ nameChar c=true := by
  have hname := h.isName
  have htext := h.text
  cases name with
  | nil => exact absurd rfl hname.nonempty
  | cons c name =>
    have hc := hname.chars c List.mem_cons_self
    have hne {d : Char} (hd : nameChar d=false) : c≠d := by
      rintro rfl
      rw [hc] at hd
      cases hd
    refine ⟨c,_,⟨htext,?_,?_,?_,fun _ => ⟨_,_,h⟩⟩,hc⟩
    · exact fun e => absurd e (hne (by decide))
    · exact fun e => absurd e (hne (by decide))
    · exact fun e => absurd e (hne (by decide))

theorem Filter.Valid.begins {f : Filter} (h : f.Valid) : ∃ c s, Begins f c s := by
  cases h with
  | and fs nonempty valid =>
    exact ⟨'&',_,by rw [text],fun _ => ⟨fs,rfl,valid⟩,by simp,by simp,fun e => absurd e (by decide)⟩
  | or fs nonempty valid =>
    exact ⟨'|',_,by rw [text],by simp,fun _ => ⟨fs,rfl,valid⟩,by simp,fun e => absurd e (by decide)⟩
  | not g valid =>
    exact ⟨'!',_,by rw [text],by simp,by simp,fun _ => ⟨g,rfl,valid⟩,fun e => absurd e (by decide)⟩
  | assertion lhs value bs left right =>
    obtain ⟨name,hitem⟩ := isItem_assertion left right
    obtain ⟨c,s,hbegins,-⟩ := hitem.begins
    exact ⟨c,s,hbegins⟩
  | present attr left =>
    obtain ⟨c,s,hbegins,-⟩ := (isItem_present left).begins
    exact ⟨c,s,hbegins⟩
  | substrings attr pieces left asterisk right text =>
    obtain ⟨c,s,hbegins,-⟩ := (isItem_substrings left asterisk right text).begins
    exact ⟨c,s,hbegins⟩

/-- A text is cut at the first separator in one way. -/
theorem cut_unique {c : Char} {x y r r' : List Char} (hx : c ∉ x) (hy : c ∉ y)
    (heq : x++c::r=y++c::r') : x=y ∧ r=r' := by
  induction x generalizing y with
  | nil =>
    cases y with
    | nil => exact ⟨rfl,(List.cons.inj heq).2⟩
    | cons d y => exact absurd ((List.cons.inj heq).1 ▸ List.mem_cons_self) hy
  | cons d x ih =>
    cases y with
    | nil => exact absurd ((List.cons.inj heq).1 ▸ List.mem_cons_self) hx
    | cons e y =>
      obtain ⟨rfl,htail⟩ := List.cons.inj heq
      obtain ⟨rfl,hr⟩ := ih (fun h => hx (List.mem_cons_of_mem d h))
        (fun h => hy (List.mem_cons_of_mem d h)) htail
      exact ⟨rfl,hr⟩

/-- A filter that is the beginning of a text where an item is, is the item. -/
theorem IsItem.text_inj {f f' : Filter} {name value : List Char} (h : IsItem f name value)
    (h' : f'.Valid) {r r' : List Char} (heq : f.text++r=f'.text++r') : f=f' ∧ r=r' := by
  obtain ⟨c,s,hbegins,hc⟩ := h.begins
  obtain ⟨c',s',hbegins'⟩ := h'.begins
  have hsame : c'=c := by
    rw [hbegins.text] at heq
    exact hbegins'.second_eq heq
  obtain ⟨name',value',hitem⟩ := hbegins'.item (hsame ▸ hc)
  have equals {n v : List Char} {g : Filter} (hg : IsItem g n v) : '=' ∉ n := by
    intro hin
    exact absurd (hg.isName.chars _ hin) (by decide)
  rw [h.text,hitem.text] at heq
  simp only [List.cons_append,List.append_assoc,List.nil_append,List.cons.injEq,
    true_and] at heq
  obtain ⟨rfl,hvalues⟩ := cut_unique (equals h) (equals hitem) heq
  obtain ⟨rfl,rfl⟩ := cut_unique h.unclosed hitem.unclosed hvalues
  exact ⟨h.item.trans hitem.item.symm,rfl⟩

theorem texts_inj {fs : List Filter} (ih : ∀ f ∈ fs, ∀ {f' : Filter}, f'.Valid →
    ∀ {r r' : List Char}, f.text++r=f'.text++r' → f=f' ∧ r=r') {fs' : List Filter}
    (h' : ∀ f' ∈ fs', f'.Valid) {r r' : List Char}
    (heq : texts fs++ ')'::r=texts fs'++ ')'::r') : fs=fs' ∧ r=r' := by
  induction fs generalizing fs' with
  | nil =>
    cases fs' with
    | nil => exact ⟨rfl,(List.cons.inj heq).2⟩
    | cons f' fs' =>
      obtain ⟨s,hs⟩ := text_begin f'
      rw [texts,texts,hs] at heq
      exact absurd (List.cons.inj heq).1 (by decide)
  | cons f fs ihfs =>
    cases fs' with
    | nil =>
      obtain ⟨s,hs⟩ := text_begin f
      rw [texts,texts,hs] at heq
      exact absurd (List.cons.inj heq).1 (by decide)
    | cons f' fs' =>
      obtain ⟨hf',hfs'⟩ := List.forall_mem_cons.mp h'
      rw [texts,texts,List.append_assoc,List.append_assoc] at heq
      obtain ⟨rfl,hrest⟩ := ih f List.mem_cons_self hf' heq
      obtain ⟨rfl,hr⟩ := ihfs (fun g hg => ih g (List.mem_cons_of_mem f hg)) hfs' hrest
      exact ⟨rfl,hr⟩

theorem Filter.Valid.text_inj {f : Filter} (h : f.Valid) {f' : Filter} (h' : f'.Valid)
    {r r' : List Char} (heq : f.text++r=f'.text++r') : f=f' ∧ r=r' := by
  induction h generalizing f' r r' with
  | and fs nonempty valid ih =>
    obtain ⟨c,s,hbegins⟩ := h'.begins
    rw [text] at heq
    obtain ⟨fs',rfl,hfs'⟩ := hbegins.and (hbegins.second_eq heq)
    rw [text] at heq
    obtain ⟨rfl,hr⟩ := texts_inj ih hfs' (by simpa using heq)
    exact ⟨rfl,hr⟩
  | or fs nonempty valid ih =>
    obtain ⟨c,s,hbegins⟩ := h'.begins
    rw [text] at heq
    obtain ⟨fs',rfl,hfs'⟩ := hbegins.or (hbegins.second_eq heq)
    rw [text] at heq
    obtain ⟨rfl,hr⟩ := texts_inj ih hfs' (by simpa using heq)
    exact ⟨rfl,hr⟩
  | not g valid ih =>
    obtain ⟨c,s,hbegins⟩ := h'.begins
    rw [text] at heq
    obtain ⟨g',rfl,hg'⟩ := hbegins.not (hbegins.second_eq heq)
    rw [text] at heq
    have hinner : g.text++(')'::r)=g'.text++(')'::r') := by simpa using heq
    obtain ⟨rfl,hr⟩ := ih hg' hinner
    exact ⟨rfl,(List.cons.inj hr).2⟩
  | assertion lhs value bs left right =>
    obtain ⟨name,hitem⟩ := isItem_assertion left right
    exact hitem.text_inj h' heq
  | present attr left => exact (isItem_present left).text_inj h' heq
  | substrings attr pieces left asterisk right text =>
    exact (isItem_substrings left asterisk right text).text_inj h' heq

/-- The grammar makes one filter of a text at most. -/
theorem Parses.unique {s : List Char} {f f' : Filter} (h : Parses s f) (h' : Parses s f') :
    f=f' := by
  have heq : f.text++[]=f'.text++[] := by rw [h.2,h'.2]
  exact (h.1.text_inj h'.1 heq).1

end NacPlatform.LdapFilter
