import Reshape.Value.Basic

namespace Reshape.Value

/-- The hash functions for scalars, and for what holds further hashes. -/
structure Hashing (H : Type) where
  null : H
  bool : Bool → H
  integer : Int → H
  float : ExtendedDouble → H
  string : String → H
  sequence : List H → H
  /-- Hashes pairs of a key and a hash. The order of the pairs should not matter. -/
  collection : List (String × H) → H

variable {H : Type}

/-- The two zeros have one hash. -/
def Hashing.number (h : Hashing H) : Number → H
  | .int i => h.integer i
  | .float x => if x.isZero then h.float (.finite (.zero false)) else h.float (.finite x)

def Hashing.bare (h : Hashing H) : Bare → H
  | .integer i => h.integer i
  | .real (.finite x) => h.number (.float x)
  | .real x => h.float x

mutual

/-- The entries of an object are hashed as a collection without an order. -/
def hash (h : Hashing H) : Value → H
  | null => h.null
  | bool b => h.bool b
  | number n => h.number n
  | string s => h.string s
  | array items => h.sequence (hashItems h items)
  | object entries => h.collection (hashEntries h entries)
  | bare x => h.bare x

def hashItems (h : Hashing H) : List Value → List H
  | [] => []
  | v :: vs => hash h v :: hashItems h vs

def hashEntries (h : Hashing H) : List (String × Value) → List (String × H)
  | [] => []
  | (k, v) :: rest => (k, hash h v) :: hashEntries h rest

end

namespace Hashing

/-- The number of hashes, which is prime. -/
def modulus : Nat :=
  twoTo 61 - 1

/-- Adds a hash to those before it. -/
def mix (before next : Nat) : Nat :=
  (before * 1000003 + next + 1) % modulus

def ofChars (cs : List Char) : Nat :=
  cs.foldl (fun n c => mix n c.toNat) 3

def ofInt (i : Int) : Nat :=
  (i % (modulus : Int)).toNat

/-- Hashes modulo a prime. A collection is hashed by a sum. -/
def modular : Hashing Nat where
  null := 11
  bool b := if b then 13 else 17
  integer i := mix 5 (ofInt i)
  float
    | .finite x => mix 7 (ofInt x.ordinal)
    | .infinite negative => if negative then 27 else 29
    | .undefined => 31
  string s := ofChars s.toList
  sequence hs := hs.foldl mix 19
  collection pairs :=
    pairs.foldl (fun n e => (n + mix (ofChars e.1.toList) e.2) % modulus) 23

/-- The hash modulo a prime of a number by itself. -/
def ofNumber : Number → Nat :=
  modular.number

end Hashing

end Reshape.Value
