import Datum.Calendar
import Datum.Value.Make
import Datum.Value.Text

/-!
# Sessions and conversion contexts

What a conversion of times needs to know: the current time, and the time zone, which gives the
offset at an instant and at a local time. Zones are collaborators, and their offsets may be any
number. A context holds the session beside all else that a conversion needs to know.
-/

set_option autoImplicit false

namespace Datum

structure Zone where
  id : Text
  /-- The offset at a second since the epoch. -/
  atInstant : Int → Num
  /-- The offset at a local day and nanosecond of the day. -/
  atLocal : Int → Int → Num

structure ZonedTime where
  day : Whole
  nanos : Int
  offset : Whole
  deriving DecidableEq

structure Session where
  now : ZonedTime
  zone : Zone

namespace Zone

def offsetText (offset : Num) : Text :=
  match offset.toInt? with
  | some o => Calendar.formatOffset o
  | none => Calendar.formatFractionalOffset offset.toDouble

def fixed (offset : Num) : Zone where
  id := if offset.sameNumber (.int 0) then "UTC" else ("UTC" : Text) ++ offsetText offset
  atInstant _ := offset
  atLocal _ _ := offset

/-- The last second, before and after the epoch, that a clock of milliseconds reaches: a hundred
million days. -/
def clockLimit : Int := 100000000 * secondsPerDay

def clockOffset (seconds : Int) : Num :=
  if (seconds.natAbs : Int) ≤ clockLimit then .int 0 else .nan

/-- The zone of a system that runs in UTC and keeps times as milliseconds. -/
def system : Zone where
  id := "SYSTEM"
  atInstant := clockOffset
  atLocal day nanos :=
    let seconds := nanos.tdiv nanosPerSecond
    let hours := seconds.fdiv 3600
    let minutes := (seconds.fdiv 60).tmod 60
    if clockLimit < (day * secondsPerDay).natAbs then .nan
    else clockOffset (day * secondsPerDay + hours * 3600 + minutes * 60 + seconds.tmod 60)

def stepAt (base : Num) (steps : List (Int × Num)) (place : Int) : Num :=
  steps.foldl (fun found step => if step.1 ≤ place then step.2 else found) base

def steps (base : Num) (utc wall : List (Int × Num)) : Zone where
  id := "STEPS"
  atInstant := stepAt base utc
  atLocal day nanos := stepAt base wall (day * secondsPerDay + nanos.tdiv nanosPerSecond)

end Zone

namespace Session

def atOffset (now : ZonedTime) : Session := ⟨now, .fixed now.offset.toNum⟩

def system (day nanos : Int) : Session := ⟨⟨.int day, nanos, .int 0⟩, .system⟩

end Session

structure ConvertContext where
  /-- The domain or the constraint of the target. -/
  extension : Option Extension
  session : Session
  /-- The target column in messages; empty if there is none. -/
  column : Text
  store : LobStore
  codec : Option GeometryCodec
  /-- The mark of a result set that the conversion makes. -/
  mark : Nat

namespace ConvertContext

def ofSession (s : Session) : ConvertContext := ⟨none, s, [], Lob.mk, none, 0⟩

end ConvertContext

namespace Convert

def unsupported {α : Type} (v : Value) (target : Kind) (detail : Text) : Outcome α :=
  fail (.dataConversion v.kind target detail)

def malformed {α : Type} (v : Value) (target : Kind) : Outcome α := do
  fail (.malformedLiteral v.kind target (← v.text))

end Convert

end Datum
