import Datum.Cache

/-!
# Settings

The settings of the value cache are read from named texts, such as the environment of a process.
Everything that is wrong with them is reported at once.
-/

set_option autoImplicit false

namespace Datum

structure Settings where
  objectCache : Bool
  objectCacheSize : Int
  objectCacheRetention : Retention
  deriving DecidableEq

namespace Settings

def namePrefix : Text := "SQL_VALUES_"

def cacheName : Text := "SQL_VALUES_OBJECT_CACHE"

def sizeName : Text := "SQL_VALUES_OBJECT_CACHE_SIZE"

def retentionName : Text := "SQL_VALUES_OBJECT_CACHE_RETENTION"

def names : List Text := [cacheName, sizeName, retentionName]

def warnings (env : List (Text × Text)) : List Text :=
  (env.filter fun e => (Text.stripStart? namePrefix e.1).isSome && !names.contains e.1).map
    fun e => ("ignoring unknown setting " : Text) ++ e.1

def find? (env : List (Text × Text)) (name : Text) : Option Text :=
  (env.find? fun e => e.1 == name).map Prod.snd

def inBase? (base : Nat) (t : Text) : Option Double :=
  let value? (u : UInt16) : Option Nat :=
    (Text.Hex.value? u).bind fun n => if n < base then some n else none
  match t.mapM value? with
  | some (d :: ds) => some (Double.ofInt ((d :: ds).foldl (fun n d => n * base + d) 0 : Nat))
  | _ => none

def base? : Text → Option (Nat × Text)
  | zero :: mark :: rest =>
    if zero != Text.unit '0' then none
    else if mark = Text.unit 'x' || mark = Text.unit 'X' then some (16, rest)
    else if mark = Text.unit 'o' || mark = Text.unit 'O' then some (8, rest)
    else if mark = Text.unit 'b' || mark = Text.unit 'B' then some (2, rest)
    else none
  | _ => none

/-- A number: blanks around it do not count, nothing is zero, and what is no number is NaN. -/
def number (t : Text) : Double :=
  let t := t.trim
  if t.isEmpty then Double.zero
  else match base? t with
    | some (base, digits) => (inBase? base digits).getD .nan
    | none =>
      let (negative, word) := Text.takeSign t
      if word = ("Infinity" : Text) then
        (if negative then Double.negInfinity else Double.infinity)
      else (Decimal.parseDouble? t).getD .nan

def pred (x : Double) : Double :=
  match x with
  | .nan => .nan
  | .number negative magnitude =>
    let (num, den) := Double.ratio magnitude.val
    let n := Double.signed negative num - den
    Double.ofRatio (n < 0) n.natAbs den

def isPowerOfTwo (x : Double) : Bool :=
  match x.trunc?, (pred x).trunc? with
  | some n, some m => Cache.bitsApart n m
  | _, _ => true

def issueUnless (condition : Bool) (issue : Text) : List Text := if condition then [] else [issue]

def sizeIssues (x : Double) : List Text :=
  if x.isNaN then ["Expected number, received nan"]
  else
    issueUnless x.toInt?.isSome "Expected integer, received float"
      ++ issueUnless (Double.zero.rank < x.rank) "Number must be greater than 0"
      ++ issueUnless (isPowerOfTwo x) "must be a power of two"

def notAllowed (allowed : List Text) (t : Text) : Text :=
  let quoted (t : Text) : Text := ("'" : Text) ++ t ++ ("'" : Text)
  ("Invalid enum value. Expected " : Text) ++ Text.join " | " (allowed.map quoted)
    ++ (", received " : Text) ++ quoted t

def flags : List (Text × Bool) :=
  [("true", true), ("false", false), ("TRUE", true), ("FALSE", false), ("1", true), ("0", false)]

def retentions : List (Text × Retention) := [("weak", .weak), ("strong", .strong)]

def choice {α : Type} (table : List (Text × α)) (default : α) : Option Text → Except (List Text) α
  | none => .ok default
  | some t =>
    match table.find? fun entry => entry.1 == t with
    | some entry => .ok entry.2
    | none => .error [notAllowed (table.map Prod.fst) t]

def sizeOf? : Option Text → Except (List Text) Int
  | none => .ok Cache.defaultSize
  | some t =>
    let x := number t
    match sizeIssues x, x.toInt? with
    | [], some n => .ok n
    | issues, _ => .error issues

def issuesOf {α : Type} (name : Text) : Except (List Text) α → List Text
  | .ok _ => []
  | .error issues => issues.map fun issue => name ++ (": " : Text) ++ issue

/-- The settings of an environment; those that are missing have defaults. -/
def read (env : List (Text × Text)) : Outcome Settings :=
  let cache := choice flags true (find? env cacheName)
  let size := sizeOf? (find? env sizeName)
  let retention := choice retentions .weak (find? env retentionName)
  match cache, size, retention with
  | .ok cache, .ok size, .ok retention => .ok ⟨cache, size, retention⟩
  | _, _, _ =>
    fail (.configuration (issuesOf cacheName cache ++ issuesOf sizeName size
      ++ issuesOf retentionName retention))

def makeCache (s : Settings) : Outcome Cache :=
  Cache.make (.int s.objectCacheSize) s.objectCache s.objectCacheRetention

end Settings

end Datum
