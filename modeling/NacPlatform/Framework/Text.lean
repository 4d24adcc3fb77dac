import Mathlib.Data.List.DropRight
import Mathlib.Data.List.TakeWhile
import Mathlib.Data.List.Infix

namespace NacPlatform

/-! Text as the Rust standard library reads it, on the characters of a string. -/

/-- `str::to_ascii_lowercase`. -/
def asciiLower (s : String) : String := String.ofList (s.toList.map Char.toLower)

/-- `str::to_ascii_uppercase`. -/
def asciiUpper (s : String) : String := String.ofList (s.toList.map Char.toUpper)

/-- `str::eq_ignore_ascii_case`. -/
def eqIgnoreAsciiCase (a b : String) : Bool := asciiLower a == asciiLower b

/-- What stands before the first `sep`; the whole text when there is none. -/
def takeUntil (sep : Char) (s : String) : String := String.ofList (s.toList.takeWhile (· != sep))

/-- `str::contains`. -/
def textContains (s pat : String) : Bool := s.toList.tails.any fun t => pat.toList.isPrefixOf t

/-- `str::lines`: a line ends at a line feed, and a carriage return before it is dropped. -/
def linesGo : List Char → List Char → List (List Char)
  | acc, [] => if acc.isEmpty then [] else [acc.reverse]
  | acc, c::cs =>
    if c == '\n' then
      (match acc with | '\r'::acc' => acc'.reverse | acc => acc.reverse) :: linesGo [] cs
    else linesGo (c::acc) cs

def lines (s : String) : List (List Char) := linesGo [] s.toList

/-- `char::is_whitespace`, the Unicode property White_Space. -/
def isWhitespace (c : Char) : Bool :=
  let n := c.toNat
  (0x09 ≤ n && n ≤ 0x0d) || n==0x20 || n==0x85 || n==0xa0 || n==0x1680 ||
    (0x2000 ≤ n && n ≤ 0x200a) || n==0x2028 || n==0x2029 || n==0x202f || n==0x205f || n==0x3000

/-- `str::trim`. -/
def trim (s : String) : String :=
  String.ofList ((s.toList.dropWhile isWhitespace).reverse.dropWhile isWhitespace).reverse

/-- `str::split_whitespace`. -/
def splitWhitespace (cs : List Char) : List (List Char) :=
  (cs.splitOnP isWhitespace).filter (!·.isEmpty)

/-- `str::splitn`. -/
def splitn (sep : Char) : Nat → List Char → List (List Char)
  | 0,_ => []
  | 1,cs => [cs]
  | n+2,cs =>
    match cs.dropWhile (· != sep) with
    | [] => [cs]
    | _::rest => cs.takeWhile (· != sep)::splitn sep (n+1) rest

/-- `str::split_once`. -/
def splitOnce (sep : Char) (cs : List Char) : Option (List Char × List Char) :=
  match cs.dropWhile (· != sep) with
  | [] => none
  | _::rest => some (cs.takeWhile (· != sep),rest)

/-- `char::is_ascii_hexdigit`. -/
def isHexDigit (c : Char) : Bool :=
  ('0' ≤ c && c ≤ '9') || ('a' ≤ c && c ≤ 'f') || ('A' ≤ c && c ≤ 'F')

def hexValue (c : Char) : Nat :=
  if '0' ≤ c && c ≤ '9' then c.toNat- '0'.toNat
  else if 'a' ≤ c && c ≤ 'f' then c.toNat- 'a'.toNat+10
  else c.toNat- 'A'.toNat+10

/-- `from_str_radix(_,16)` of an unsigned type with `bound` values: one leading plus sign may
stand, at least one digit must, and a value that does not fit is an error. -/
def fromHex (bound : Nat) (cs : List Char) : Option Nat :=
  let ds := match cs with | '+'::d::ds => d::ds | ds => ds
  if ds.isEmpty || !ds.all isHexDigit then none
  else
    let n := ds.foldl (fun n c => 16*n+hexValue c) 0
    if n<bound then some n else none

/-- The hexadecimal digits of a text, in order. -/
def hexDigits (s : String) : List Char := s.toList.filter isHexDigit

@[simp] theorem toList_asciiLower (s : String) :
    (asciiLower s).toList=s.toList.map Char.toLower := by
  simp [asciiLower]

@[simp] theorem toList_takeUntil (sep : Char) (s : String) :
    (takeUntil sep s).toList=s.toList.takeWhile (· != sep) := by
  simp [takeUntil]

theorem eqIgnoreAsciiCase_iff (a b : String) :
    eqIgnoreAsciiCase a b=true ↔ asciiLower a=asciiLower b := by
  simp [eqIgnoreAsciiCase]

theorem takeUntil_append {sep : Char} {s : String} (h : sep ∉ s.toList) (t : String) :
    takeUntil sep (s++String.ofList (sep::t.toList))=s := by
  have hs : ∀ c ∈ s.toList, (c != sep)=true := by
    intro c hc
    simpa using fun e : c=sep => h (e ▸ hc)
  rw [takeUntil,String.toList_append,String.toList_ofList,List.takeWhile_append_of_pos hs]
  simp

theorem takeUntil_self {sep : Char} {s : String} (h : sep ∉ s.toList) : takeUntil sep s=s := by
  have hs : ∀ c ∈ s.toList, (c != sep)=true := by
    intro c hc
    simpa using fun e : c=sep => h (e ▸ hc)
  rw [takeUntil,List.takeWhile_eq_self_iff.mpr hs,String.ofList_toList]

/-- Cutting a text at a separator twice cuts nothing more. -/
theorem takeUntil_idem (sep : Char) (s : String) :
    takeUntil sep (takeUntil sep s)=takeUntil sep s := by
  apply takeUntil_self
  intro h
  rw [toList_takeUntil] at h
  simpa using List.mem_takeWhile_imp h

/-- A trimmed text has nothing left to trim. -/
theorem trim_trim (s : String) : trim (trim s)=trim s := by
  rw [trim,trim,String.toList_ofList]
  congr 1
  let inner := s.toList.dropWhile isWhitespace
  have hhead : (inner.rdropWhile isWhitespace).dropWhile isWhitespace=
      inner.rdropWhile isWhitespace := by
    rw [List.dropWhile_eq_self_iff]
    intro hl
    have hpre := List.rdropWhile_prefix isWhitespace (l := inner)
    have hlong : 0 < inner.length := Nat.lt_of_lt_of_le hl hpre.length_le
    rw [hpre.getElem hl]
    exact List.dropWhile_get_zero_not isWhitespace s.toList hlong
  show ((inner.rdropWhile isWhitespace).dropWhile isWhitespace).rdropWhile isWhitespace=
    inner.rdropWhile isWhitespace
  rw [hhead,List.rdropWhile_idempotent]

theorem splitn_append {sep : Char} {cs : List Char} (h : sep ∉ cs) (n : Nat) (rest : List Char) :
    splitn sep (n+2) (cs++sep::rest)=cs::splitn sep (n+1) rest := by
  have hs : ∀ c ∈ cs, (c != sep)=true := by
    intro c hc
    simpa using fun e : c=sep => h (e ▸ hc)
  rw [splitn,List.dropWhile_append_of_pos hs,List.takeWhile_append_of_pos hs]
  simp

/-- What a separator was found in is the part before it and the rest. -/
theorem splitn_cons {sep : Char} {n : Nat} {cs part next : List Char} {parts : List (List Char)}
    (h : splitn sep (n+2) cs=part::next::parts) :
    ∃ rest, cs=part++sep::rest ∧ sep ∉ part ∧ splitn sep (n+1) rest=next::parts := by
  rw [splitn] at h
  cases hd : cs.dropWhile (· != sep) with
  | nil => simp [hd] at h
  | cons c rest =>
    rw [hd] at h
    simp only [List.cons.injEq] at h
    obtain ⟨rfl,hrest⟩ := h
    have hc : c=sep := by simpa [hd] using List.head?_dropWhile_not (· != sep) cs
    subst c
    refine ⟨rest,?_,?_,hrest⟩
    · rw [← hd,List.takeWhile_append_dropWhile]
    · intro hm
      simpa using List.mem_takeWhile_imp hm

theorem isHexDigit_lt {c : Char} (h : isHexDigit c=true) : c.toNat<103 := by
  simp only [isHexDigit,Bool.or_eq_true,Bool.and_eq_true,decide_eq_true_eq,Char.le_def,
    UInt32.le_iff_toNat_le] at h
  change c.val.toNat<103
  rcases h with (⟨_,h⟩|⟨_,h⟩)|⟨_,h⟩
  · exact lt_of_le_of_lt h (by decide)
  · exact lt_of_le_of_lt h (by decide)
  · exact lt_of_le_of_lt h (by decide)

/-- A fact about hexadecimal digits is checked on the finitely many candidates. -/
theorem hexDigit_forall {P : Char → Prop}
    (h : ∀ n : Fin 103, isHexDigit (Char.ofNat n)=true → P (Char.ofNat n))
    {c : Char} (hc : isHexDigit c=true) : P c := by
  have hn := h ⟨c.toNat,isHexDigit_lt hc⟩
  rw [Char.ofNat_toNat] at hn
  exact hn hc

/-- The lower-case digit of a value below sixteen. -/
def hexChar (n : Nat) : Char :=
  if n<10 then Char.ofNat ('0'.toNat+n) else Char.ofNat ('a'.toNat+n-10)

theorem hexValue_lt {c : Char} (hc : isHexDigit c=true) : hexValue c<16 :=
  hexDigit_forall (P := fun c => hexValue c<16) (by decide) hc

theorem toLower_hexDigit {c : Char} (hc : isHexDigit c=true) :
    c.toLower=hexChar (hexValue c) :=
  hexDigit_forall (P := fun c => c.toLower=hexChar (hexValue c)) (by decide) hc

theorem hexChar_hexValue (n : Nat) (hn : n<16) :
    isHexDigit (hexChar n)=true ∧ hexValue (hexChar n)=n := by
  have h : ∀ n : Fin 16, isHexDigit (hexChar n)=true ∧ hexValue (hexChar n)=n := by decide
  exact h ⟨n,hn⟩

/-- Folding ASCII case neither makes nor loses a hexadecimal digit. -/
theorem isHexDigit_toLower (c : Char) : isHexDigit c.toLower=isHexDigit c := by
  by_cases hn : c.toNat<103
  · have h : ∀ n : Fin 103, isHexDigit (Char.ofNat n).toLower=isHexDigit (Char.ofNat n) := by
      decide
    have hc := h ⟨c.toNat,hn⟩
    rwa [Char.ofNat_toNat] at hc
  · have hz : ¬c ≤ 'Z' := fun h => hn (lt_of_le_of_lt (UInt32.le_iff_toNat_le.mp h) (by decide))
    have hl : c.toLower=c := by
      unfold Char.toLower
      exact dif_neg fun h => hz h.2
    rw [hl]

theorem hexDigits_asciiLower (s : String) :
    hexDigits (asciiLower s)=(hexDigits s).map Char.toLower := by
  unfold hexDigits
  rw [toList_asciiLower]
  induction s.toList with
  | nil => rfl
  | cons c cs ih =>
    by_cases h : isHexDigit c=true
    · simp [isHexDigit_toLower,h,ih]
    · simp [isHexDigit_toLower,h,ih]

/-- A fact about ASCII characters is checked on all of them. -/
theorem ascii_forall {P : Char → Prop} (h : ∀ n : Fin 128, P (Char.ofNat n)) {c : Char}
    (hc : c.toNat<128) : P c := by
  have hn := h ⟨c.toNat,hc⟩
  rwa [Char.ofNat_toNat] at hn

/-- Only an ASCII character has an ASCII character as its lower case. -/
theorem ascii_of_toLower {c : Char} (h : c.toLower.toNat<128) : c.toNat<128 := by
  by_cases hz : c ≤ 'Z'
  · have hc : c.toNat ≤ 'Z'.toNat := UInt32.le_iff_toNat_le.mp hz
    exact lt_of_le_of_lt hc (by decide)
  · have hl : c.toLower=c := by
      unfold Char.toLower
      exact dif_neg fun h => hz h.2
    rwa [hl] at h

/-- Texts equal up to ASCII case have the same upper case, if one of them is ASCII. -/
theorem upper_eq_of_ignoreCase {upper : String → String}
    (hupper : ∀ s, (∀ c ∈ s.toList, c.toNat<128) → upper s=asciiUpper s) {s t : String}
    (ht : ∀ c ∈ t.toList, c.toNat<128) (h : eqIgnoreAsciiCase s t=true) : upper s=upper t := by
  have lower : ∀ n : Fin 128, (Char.ofNat n).toLower.toNat<128 := by decide
  have fold : ∀ n : Fin 128, (Char.ofNat n).toLower.toUpper=(Char.ofNat n).toUpper := by decide
  have hl : s.toList.map Char.toLower=t.toList.map Char.toLower := by
    have hl := congrArg String.toList ((eqIgnoreAsciiCase_iff s t).mp h)
    rwa [toList_asciiLower,toList_asciiLower] at hl
  have hs : ∀ c ∈ s.toList, c.toNat<128 := by
    intro c hc
    have hm : c.toLower ∈ t.toList.map Char.toLower := hl ▸ List.mem_map_of_mem hc
    obtain ⟨d,hd,hdc⟩ := List.mem_map.mp hm
    have hdl := ascii_forall (P := fun c => c.toLower.toNat<128) lower (ht d hd)
    rw [hdc] at hdl
    exact ascii_of_toLower hdl
  have folded {u : String} (hu : ∀ c ∈ u.toList, c.toNat<128) :
      u.toList.map Char.toUpper=(u.toList.map Char.toLower).map Char.toUpper := by
    rw [List.map_map]
    apply List.map_congr_left
    intro c hc
    exact (ascii_forall (P := fun c => c.toLower.toUpper=c.toUpper) fold (hu c hc)).symm
  rw [hupper s hs,hupper t ht,asciiUpper,asciiUpper,folded hs,folded ht,hl]

end NacPlatform
