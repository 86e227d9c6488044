import Datum.Calendar

/-!
# Interval qualifiers

The thirteen qualifiers of SQL intervals: their names, their family, and the lengths of their
leading field and of their remainder in months or nanoseconds.
-/

set_option autoImplicit false

namespace Datum

inductive Qualifier where
  | year
  | month
  | day
  | hour
  | minute
  | second
  | yearToMonth
  | dayToHour
  | dayToMinute
  | dayToSecond
  | hourToMinute
  | hourToSecond
  | minuteToSecond
  deriving DecidableEq, Inhabited

namespace Qualifier

def yearMonth : List Qualifier := [.year, .month, .yearToMonth]

def dayTime : List Qualifier :=
  [.day, .hour, .minute, .second, .dayToHour, .dayToMinute, .dayToSecond, .hourToMinute,
    .hourToSecond, .minuteToSecond]

def all : List Qualifier := yearMonth ++ dayTime

def words : Qualifier → List String
  | .year => ["YEAR"]
  | .month => ["MONTH"]
  | .day => ["DAY"]
  | .hour => ["HOUR"]
  | .minute => ["MINUTE"]
  | .second => ["SECOND"]
  | .yearToMonth => ["YEAR", "TO", "MONTH"]
  | .dayToHour => ["DAY", "TO", "HOUR"]
  | .dayToMinute => ["DAY", "TO", "MINUTE"]
  | .dayToSecond => ["DAY", "TO", "SECOND"]
  | .hourToMinute => ["HOUR", "TO", "MINUTE"]
  | .hourToSecond => ["HOUR", "TO", "SECOND"]
  | .minuteToSecond => ["MINUTE", "TO", "SECOND"]

def name (q : Qualifier) : Text := Text.join "_" (q.words.map Text.ofString)

def sql (q : Qualifier) : Text := Text.join " " (q.words.map Text.ofString)

def ofWords? (ws : List Text) : Option Qualifier :=
  all.find? fun q => q.words.map Text.ofString == ws

def isYearMonth : Qualifier → Bool
  | .year | .month | .yearToMonth => true
  | _ => false

def endsInSecond : Qualifier → Bool
  | .second | .dayToSecond | .hourToSecond | .minuteToSecond => true
  | _ => false

def hasRemainder : Qualifier → Bool
  | .year | .month | .day | .hour | .minute => false
  | _ => true

/-- The length of the leading field, in months or nanoseconds. -/
def leadingUnit : Qualifier → Int
  | .year | .yearToMonth => 12
  | .month => 1
  | .day | .dayToHour | .dayToMinute | .dayToSecond => nanosPerDay
  | .hour | .hourToMinute | .hourToSecond => nanosPerHour
  | .minute | .minuteToSecond => nanosPerMinute
  | .second => nanosPerSecond

/-- The length of one unit of the remainder, in months or nanoseconds; zero if there is none. -/
def remainderUnit : Qualifier → Int
  | .year | .month | .day | .hour | .minute => 0
  | .yearToMonth => 1
  | .second | .dayToSecond | .hourToSecond | .minuteToSecond => 1
  | .dayToHour => nanosPerHour
  | .dayToMinute | .hourToMinute => nanosPerMinute

/-- The number of units of the remainder in one leading unit; one if there is no remainder. -/
def remainderLimit : Qualifier → Int
  | .year | .month | .day | .hour | .minute => 1
  | .second => nanosPerSecond
  | .yearToMonth => 12
  | .dayToHour => 24
  | .dayToMinute => 24 * 60
  | .dayToSecond => nanosPerDay
  | .hourToMinute => 60
  | .hourToSecond => nanosPerHour
  | .minuteToSecond => nanosPerMinute

end Qualifier

end Datum
