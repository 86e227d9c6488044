import Datum.Convert
import Datum.Value.Describe

/-!
# The value cache

A direct-mapped table of values: the hash of a value names its only slot, and a value that finds
another there takes its place. The table is made when it is first needed, and again after it has
been cleared.
-/

set_option autoImplicit false

namespace Datum

inductive Retention where
  | weak
  | strong
  deriving DecidableEq

def Retention.name : Retention → Text
  | .weak => "weak"
  | .strong => "strong"

structure Cache where
  size : Int
  enabled : Bool
  retention : Retention
  /-- The occupied slots of the table, if there is a table. -/
  table : Option (List (Nat × Value))
  hits : Nat
  misses : Nat
  allocations : Nat

namespace Cache

def defaultSize : Int := 1024

/-- Whether a number and the next smaller one have no bit in common in their low 32 bits. For
numbers below `2 ^ 32` it tells the powers of two. -/
def bitsApart (n pred : Int) : Bool :=
  (n.emod 0x100000000).toNat &&& (pred.emod 0x100000000).toNat == 0

def size? (n : Num) : Option Int :=
  match n.toInt? with
  | some i => if 0 < i && bitsApart i (Number.round53 (i - 1)) then some i else none
  | none => none

def make (size : Num) (enabled : Bool) (retention : Retention) : Outcome Cache :=
  match size? size with
  | some n => .ok ⟨n, enabled, retention, none, 0, 0, 0⟩
  | none => fail (.invalidValue "cache size" size.text)

def maxSlots : Int := 0xFFFFFFFF

def slot (c : Cache) (hash : Int) : Nat := (hash.emod c.size).toNat

def lookup? (n : Nat) : List (Nat × Value) → Option Value
  | [] => none
  | (m, v) :: rest => if m = n then some v else lookup? n rest

def put (n : Nat) (v : Value) : List (Nat × Value) → List (Nat × Value)
  | [] => [(n, v)]
  | (m, w) :: rest => if m = n then (n, v) :: rest else (m, w) :: put n v rest

def internAt (c : Cache) (slots : List (Nat × Value)) (n : Nat) (v : Value) : Value × Cache :=
  match lookup? n slots with
  | some w =>
    if w.equals v then (w, { c with hits := c.hits + 1 })
    else (v, { c with misses := c.misses + 1, table := some (put n v slots) })
  | none => (v, { c with misses := c.misses + 1, table := some (put n v slots) })

/-- The cache with a table, and its slots. A table of too many slots cannot be made. -/
def withTable (c : Cache) : Outcome (List (Nat × Value)) × Cache :=
  match c.table with
  | some slots => (.ok slots, c)
  | none =>
    let c := { c with allocations := c.allocations + 1 }
    if maxSlots < c.size then (.error .tooLarge, c)
    else (.ok [], { c with table := some [] })

/-- The cached value that equals a value, or the value itself, which is then cached. A cache that is
not enabled gives the value back. -/
def intern (c : Cache) (v : Value) : Outcome Value × Cache :=
  if !c.enabled then (.ok v, c)
  else
    match c.withTable with
    | (.error f, c) => (.error f, c)
    | (.ok slots, c) =>
      match v.hash with
      | .error f => (.error f, c)
      | .ok hash =>
        let (found, c) := c.internAt slots (c.slot hash) v
        (.ok found, c)

def clear (c : Cache) : Cache := { c with table := none }

def convert (c : Cache) (v : Value) (target : Kind) (context : ConvertContext) :
    Outcome Value × Cache :=
  match Datum.convert v target context with
  | .error f => (.error f, c)
  | .ok w => if Convert.needsRule v target then c.intern w else (.ok w, c)

end Cache

end Datum
