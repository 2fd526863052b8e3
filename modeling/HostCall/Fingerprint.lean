import HostCall.Xxh64
import HostCall.Hex

/-!
# Fingerprints of types and overloads

A host type is described by its name, and a fingerprint is the 64-bit identity computed from it.
Compound fingerprints mix their components in order: each component is marked with its position,
and the accumulated word is multiplied by an odd constant in between.  An odd multiple loses
nothing, so a change of one component always shows.  An exchange of two neighbours need not: those
that differ in their highest bit alone can change places without a trace.
-/

namespace HostCall

/-- A 64-bit identity; zero stands for "no identity". -/
structure Fingerprint where
  value : UInt64
deriving DecidableEq

namespace Fingerprint

/-- Multiplier between successive components, and seed for member names. -/
def separator : UInt64 := 0x4bc94d6bd06053ad

def typeDomain : UInt64 := 0x2fac10b63a6cc57c

/-- Domain of overloads, so that a type and a member of one name stay apart. -/
def overloadDomain : UInt64 := 0x7d3c8b4a92e15f6d

def positionMarkers : List UInt64 :=
  [0x9e3779b97f4a7c15, 0xbf58476d1ce4e5b9, 0x94d049bb133111eb, 0xd6e8feb86659fd93,
   0xe7037ed1a0b428db, 0xc6a4a7935bd1e995, 0x8648dbbc94d49b8d, 0xa2b48b2c69e0d657,
   0x7c3e9f2a5b8d1403, 0x5d8c7b4a3e9f2106, 0x3f1e9d8c7b5a4203, 0x1a2b3c4d5e6f7089,
   0x9f8e7d6c5b4a3210, 0x2468ace013579bdf, 0xfdb97531eca86420, 0x123456789abcdef0]

/-- The mark of a position; past the fixed ones it is counted on from the first. -/
def positionMarker (i : Nat) : UInt64 :=
  positionMarkers.getD i (positionMarkers.headD 0 + UInt64.ofNat i)

def empty : Fingerprint := ⟨0⟩

instance : Inhabited Fingerprint := ⟨empty⟩

def isEmpty (f : Fingerprint) : Bool := f.value == 0

/-- One component, at position `i`, mixed into an accumulated word. -/
def mixOne (acc : UInt64) (i : Nat) (part : Fingerprint) : UInt64 :=
  acc * separator + (positionMarker i ^^^ part.value)

def mixFrom : (i : Nat) → (acc : UInt64) → List Fingerprint → UInt64
  | _, acc, [] => acc
  | i, acc, part :: rest => mixFrom (i + 1) (mixOne acc i part) rest

def ofName (name : String) : Fingerprint := ⟨typeDomain ^^^ Xxh64.digestText 0 name⟩

def ofGeneric (base : Fingerprint) (args : List Fingerprint) : Fingerprint :=
  ⟨mixFrom 0 base.value args⟩

/-- The word that the parameters of an overload are mixed into. -/
def overloadSeed (owner member : String) : UInt64 :=
  overloadDomain ^^^ Xxh64.digestText 0 owner ^^^ Xxh64.digestText separator member

def ofOverload (owner member : String) (params : List Fingerprint) : Fingerprint :=
  ⟨mixFrom 0 (overloadSeed owner member) params⟩

instance : Ord Fingerprint := ⟨fun f g => compare f.value g.value⟩

def text (f : Fingerprint) : String := "0x" ++ Hex.fixedText 16 f.value.toNat

instance : ToString Fingerprint := ⟨text⟩

def describe (f : Fingerprint) : String := "TypeHash(" ++ f.text ++ ")"

end Fingerprint

end HostCall
