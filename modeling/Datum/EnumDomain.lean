import Datum.Failure
import Datum.Json.Quoted
import Datum.Text.Case

/-!
# Domains of enumerators

A domain is a list of labels, and the ordinal of a label is its position. Labels are looked up
without regard to case and to blanks around them.
-/

set_option autoImplicit false

namespace Datum

/-- Labels in order, without blanks around them and with different keys. -/
structure EnumDomain where
  labels : List Text
  deriving DecidableEq

structure Enumerator where
  label : Text
  ordinal : Nat
  domain : EnumDomain
  deriving DecidableEq

inductive EnumKey where
  | ordinal (n : Num)
  | label (t : Text)

namespace EnumKey

def kind : EnumKey → Kind
  | .ordinal _ => .integer .integer
  | .label _ => .string .varchar

def text : EnumKey → Text
  | .ordinal n => if n.toDouble.isFinite then n.text else "null"
  | .label t => Json.quote t

end EnumKey

namespace EnumDomain

def key (label : Text) : Text := label.trim.upper

def keys (d : EnumDomain) : List Text := d.labels.map key

/-- Adds labels one by one; the keys of those before are given. -/
def addLabels : List Text → List Text → Outcome (List Text)
  | _, [] => .ok []
  | seen, raw :: rest =>
    if raw.trim.isEmpty || seen.contains (key raw) then fail (.invalidValue "ENUM" raw)
    else do return raw.trim :: (← addLabels (key raw :: seen) rest)

def ofLabels (labels : List Text) : Outcome EnumDomain :=
  if labels.isEmpty then fail (.invalidValue "ENUM" "()")
  else do return ⟨← addLabels [] labels⟩

def size (d : EnumDomain) : Nat := d.labels.length

def sql (d : EnumDomain) : Text :=
  ("ENUM(" : Text) ++ Text.join ", " (d.labels.map Text.quoteSql) ++ (")" : Text)

/-- The ordinal that a key names, which may lie outside the domain. -/
def ordinal? (d : EnumDomain) : EnumKey → Option Int
  | .ordinal n => n.toInt?
  | .label t => (d.keys.idxOf? (key t)).map Int.ofNat

def enumerator? (d : EnumDomain) (ordinal : Int) : Option Enumerator :=
  if ordinal < 0 then none
  else d.labels[ordinal.toNat]?.map fun label => ⟨label, ordinal.toNat, d⟩

/-- The enumerator of a key. A failure names the kind of the value that the key came from. -/
def lookup (d : EnumDomain) (k : EnumKey) (source : Kind) : Outcome Enumerator :=
  match (d.ordinal? k).bind d.enumerator? with
  | some e => .ok e
  | none =>
    fail (.dataConversion source .enum (k.text ++ (" is not an enumerator of " : Text) ++ d.sql))

def union (d other : EnumDomain) : Outcome EnumDomain :=
  let added := other.labels.filter fun label => !d.keys.contains (key label)
  if added.isEmpty then .ok d else ofLabels (d.labels ++ added)

/-- The domain in which enumerators of two domains are compared. The texts of the domains tell which
one is extended, whatever the order of the operands. -/
def shared (l r : EnumDomain) : Outcome EnumDomain :=
  if l = r then .ok l
  else if l.sql.compare r.sql = .lt then l.union r
  else r.union l

end EnumDomain

end Datum
