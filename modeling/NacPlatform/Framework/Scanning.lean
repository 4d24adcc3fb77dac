import Mathlib.Data.List.Basic

namespace NacPlatform

/-! Loops that read a buffer by position, and what can go wrong with them. -/

inductive Fault where
  | outOfBounds
  | outOfFuel
  deriving DecidableEq, Repr

/-- `buf[i]`. -/
def byteAt (buf : List UInt8) (i : Nat) : Except Fault UInt8 :=
  (buf[i]?).elim (.error .outOfBounds) .ok

/-- `&buf[start..stop]`. -/
def slice (buf : List UInt8) (start stop : Nat) : Except Fault (List UInt8) :=
  if start ≤ stop ∧ stop ≤ buf.length then .ok ((buf.drop start).take (stop-start))
  else .error .outOfBounds

/-- `array.copy_from_slice(bytes)`. -/
def toArray (n : Nat) (bytes : List UInt8) : Except Fault (Vector UInt8 n) :=
  if h : bytes.length=n then .ok ⟨bytes.toArray,by simpa using h⟩ else .error .outOfBounds

/-- A turn says whether there is another one. -/
def whileLoop {S : Type} (turn : S → Except Fault (S × Bool)) : Nat → S → Except Fault S
  | 0,_ => .error .outOfFuel
  | fuel+1,s =>
    match turn s with
    | .ok (s',true) => whileLoop turn fuel s'
    | .ok (s',false) => .ok s'
    | .error fault => .error fault

section

variable {S R : Type}

/-- A turn that keeps what is to come out and comes closer to the end, or ends with it. -/
inductive Turns (inv : S → Prop) (measure : S → Nat) (result final : S → R) (s : S) :
    Except Fault (S × Bool) → Prop where
  | again {s' : S} (keeps : inv s') (closer : measure s' < measure s)
      (same : result s'=result s) : Turns inv measure result final s (.ok (s',true))
  | stop {s' : S} (ends : final s'=result s) : Turns inv measure result final s (.ok (s',false))

/-- A loop of such turns ends, without a fault, with what is to come out. -/
theorem whileLoop_ends {turn : S → Except Fault (S × Bool)} {inv : S → Prop} {measure : S → Nat}
    {result final : S → R} (h : ∀ s, inv s → Turns inv measure result final s (turn s))
    {fuel : Nat} {s : S} (hs : inv s) (hfuel : measure s < fuel) :
    ∃ t, whileLoop turn fuel s=.ok t ∧ final t=result s := by
  induction fuel generalizing s with
  | zero => omega
  | succ fuel ih =>
    have hturn := h s hs
    rw [whileLoop]
    generalize turn s=r at hturn
    cases hturn with
    | again hkeep hcloser hsame =>
      obtain ⟨t,ht,hres⟩ := ih hkeep (by omega)
      exact ⟨t,ht,hres.trans hsame⟩
    | stop hend => exact ⟨_,rfl,hend⟩

end

@[simp] theorem ok_bind {α β : Type} (a : α) (f : α → Except Fault β) :
    (Except.ok a >>= f)=f a := rfl

theorem byteAt_of_drop {buf : List UInt8} {i : Nat} {b : UInt8} {rest : List UInt8}
    (h : buf.drop i=b::rest) : byteAt buf i=.ok b := by
  have hget := congrArg List.head? h
  rw [List.head?_drop,List.head?_cons] at hget
  rw [byteAt,hget,Option.elim_some]

theorem slice_ok {buf : List UInt8} {start stop : Nat} (hle : start ≤ stop)
    (hend : stop ≤ buf.length) : slice buf start stop=.ok ((buf.drop start).take (stop-start)) := by
  rw [slice,if_pos ⟨hle,hend⟩]

theorem drop_next {buf : List UInt8} {i : Nat} {b : UInt8} {rest : List UInt8}
    (h : buf.drop i=b::rest) : buf.drop (i+1)=rest ∧ buf.length=i+1+rest.length := by
  constructor
  · rw [← List.drop_drop,h,List.drop_one,List.tail_cons]
  · have hlen := congrArg List.length h
    rw [List.length_drop,List.length_cons] at hlen
    omega

/-- Four bytes in a row. -/
theorem byteAt_four {buf : List UInt8} {i : Nat} (h : i+4 ≤ buf.length) :
    ∃ a b c d rest, buf.drop i=a::b::c::d::rest ∧ byteAt buf i=.ok a ∧
      byteAt buf (i+1)=.ok b ∧ byteAt buf (i+2)=.ok c ∧ byteAt buf (i+3)=.ok d := by
  have hlen : (buf.drop i).length=buf.length-i := List.length_drop
  match hd : buf.drop i,hlen with
  | a::b::c::d::rest,_ =>
    have h1 := (drop_next hd).1
    have h2 := (drop_next h1).1
    have h3 := (drop_next h2).1
    exact ⟨a,b,c,d,rest,rfl,byteAt_of_drop hd,byteAt_of_drop h1,byteAt_of_drop h2,
      byteAt_of_drop h3⟩
  | [],hlen | [_],hlen | [_,_],hlen | [_,_,_],hlen =>
    simp only [List.length_cons,List.length_nil] at hlen
    omega

/-- Where too little is left of the buffer. -/
theorem no_room_of_drop {buf tail : List UInt8} {i n : Nat} (h : buf.drop i=tail)
    (hshort : tail.length<n) : ¬ i+n ≤ buf.length := by
  have hlen := congrArg List.length h
  rw [List.length_drop] at hlen
  omega

end NacPlatform
