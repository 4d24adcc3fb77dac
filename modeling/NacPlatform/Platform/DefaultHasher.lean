import Mathlib.Data.List.Basic

namespace NacPlatform

/-! `std::collections::hash_map::DefaultHasher`: SipHash-1-3 with a key of zeros. -/

namespace DefaultHasher

structure SipState where
  v0 : UInt64
  v1 : UInt64
  v2 : UInt64
  v3 : UInt64
  deriving DecidableEq, Repr

def initial : SipState :=
  ⟨0x736f6d6570736575,0x646f72616e646f6d,0x6c7967656e657261,0x7465646279746573⟩

def rotateLeft (x n : UInt64) : UInt64 := (x <<< n) ||| (x >>> (64-n))

def sipRound (s : SipState) : SipState :=
  let v0 := s.v0+s.v1
  let v1 := rotateLeft s.v1 13 ^^^ v0
  let v0 := rotateLeft v0 32
  let v2 := s.v2+s.v3
  let v3 := rotateLeft s.v3 16 ^^^ v2
  let v0 := v0+v3
  let v3 := rotateLeft v3 21 ^^^ v0
  let v2 := v2+v1
  let v1 := rotateLeft v1 17 ^^^ v2
  ⟨v0,v1,rotateLeft v2 32,v3⟩

def compress (s : SipState) (m : UInt64) : SipState :=
  let s := sipRound { s with v3 := s.v3 ^^^ m }
  { s with v0 := s.v0 ^^^ m }

/-- `u64::from_le_bytes`. -/
def fromLeBytes (bytes : List UInt8) : UInt64 :=
  bytes.foldr (fun b n => n*256+b.toUInt64) 0

/-- `u64::to_le_bytes`. -/
def toLeBytes (n : UInt64) : List UInt8 :=
  (List.range 8).map fun i => (n >>> (8*UInt64.ofNat i)).toUInt8

/-- The words of eight bytes, and the last one with the length in its top byte. -/
def absorb (length : Nat) : SipState → List UInt8 → SipState
  | s,b0::b1::b2::b3::b4::b5::b6::b7::rest =>
    absorb length (compress s (fromLeBytes [b0,b1,b2,b3,b4,b5,b6,b7])) rest
  | s,tail => compress s (fromLeBytes tail ||| (UInt64.ofNat length <<< 56))

/-- What `finish` returns after all of `bytes` were written. -/
def finish (bytes : List UInt8) : UInt64 :=
  let s := absorb bytes.length initial bytes
  let s := sipRound (sipRound (sipRound { s with v2 := s.v2 ^^^ 0xff }))
  s.v0 ^^^ s.v1 ^^^ s.v2 ^^^ s.v3

/-- What `<[u8] as Hash>::hash` writes: the length as a `usize`, then the bytes. -/
def hashed (bytes : List UInt8) : List UInt8 := toLeBytes (.ofNat bytes.length)++bytes

end DefaultHasher

end NacPlatform
