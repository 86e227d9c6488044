import Datum.Interval.Qualifier

/-!
# Kinds

The closed set of kinds that a value can have, their names, their families, and the rank by which
the common kind of two operands is chosen.
-/

set_option autoImplicit false

namespace Datum

inductive IntegerKind where
  | tinyint
  | smallint
  | integer
  | bigint
  deriving DecidableEq, Inhabited

inductive FloatKind where
  | real
  | double
  deriving DecidableEq, Inhabited

inductive StringKind where
  | varchar
  | varcharIgnoreCase
  | char
  deriving DecidableEq, Inhabited

inductive LobKind where
  | blob
  | clob
  deriving DecidableEq, Inhabited

inductive Kind where
  | null
  | boolean
  | integer (k : IntegerKind)
  | numeric
  | float (k : FloatKind)
  | time
  | timeTz
  | date
  | timestamp
  | timestampTz
  | varbinary
  | string (k : StringKind)
  | lob (k : LobKind)
  | array
  | row
  | resultSet
  | javaObject
  | uuid
  | geometry
  | enum
  | json
  | interval (q : Qualifier)
  deriving DecidableEq, Inhabited

namespace IntegerKind

def all : List IntegerKind := [.tinyint, .smallint, .integer, .bigint]

def width : IntegerKind → Nat
  | .tinyint => 1
  | .smallint => 2
  | .integer => 4
  | .bigint => 8

/-- The magnitude of the least integer of a kind, half the count of its binary forms. -/
def bound : IntegerKind → Int
  | .tinyint => 0x80
  | .smallint => 0x8000
  | .integer => 0x80000000
  | .bigint => 0x8000000000000000

def least (k : IntegerKind) : Int := -k.bound

def greatest (k : IntegerKind) : Int := k.bound - 1

def holds (k : IntegerKind) (n : Int) : Bool := k.least ≤ n && n ≤ k.greatest

def name : IntegerKind → String
  | .tinyint => "TINYINT"
  | .smallint => "SMALLINT"
  | .integer => "INTEGER"
  | .bigint => "BIGINT"

end IntegerKind

def FloatKind.name : FloatKind → String
  | .real => "REAL"
  | .double => "DOUBLE"

namespace StringKind

def all : List StringKind := [.varchar, .varcharIgnoreCase, .char]

def name : StringKind → String
  | .varchar => "VARCHAR"
  | .varcharIgnoreCase => "VARCHAR_IGNORECASE"
  | .char => "CHAR"

end StringKind

def LobKind.name : LobKind → String
  | .blob => "BLOB"
  | .clob => "CLOB"

namespace Kind

def all : List Kind :=
  [.null, .boolean] ++ IntegerKind.all.map .integer
    ++ [.numeric, .float .real, .float .double, .time, .timeTz, .date, .timestamp, .timestampTz,
      .varbinary]
    ++ StringKind.all.map .string
    ++ [.lob .blob, .lob .clob, .array, .row, .resultSet, .javaObject, .uuid, .geometry, .enum,
      .json]
    ++ Qualifier.all.map .interval

def name : Kind → Text
  | .null => "NULL"
  | .boolean => "BOOLEAN"
  | .integer k => k.name
  | .numeric => "NUMERIC"
  | .float k => k.name
  | .time => "TIME"
  | .timeTz => "TIME_TZ"
  | .date => "DATE"
  | .timestamp => "TIMESTAMP"
  | .timestampTz => "TIMESTAMP_TZ"
  | .varbinary => "VARBINARY"
  | .string k => k.name
  | .lob k => k.name
  | .array => "ARRAY"
  | .row => "ROW"
  | .resultSet => "RESULT_SET"
  | .javaObject => "JAVA_OBJECT"
  | .uuid => "UUID"
  | .geometry => "GEOMETRY"
  | .enum => "ENUM"
  | .json => "JSON"
  | .interval q => ("INTERVAL_" : Text) ++ q.name

def ofName? (t : Text) : Option Kind := all.find? fun k => k.name == t

def isInteger : Kind → Bool
  | .integer _ => true
  | _ => false

def isFloat : Kind → Bool
  | .float _ => true
  | _ => false

def isNumeric (k : Kind) : Bool := k.isInteger || k.isFloat || k == .numeric

def isString : Kind → Bool
  | .string _ => true
  | _ => false

def isInterval : Kind → Bool
  | .interval _ => true
  | _ => false

def isYearMonthInterval : Kind → Bool
  | .interval q => q.isYearMonth
  | _ => false

def isDayTimeInterval : Kind → Bool
  | .interval q => !q.isYearMonth
  | _ => false

/-- The promotion rank. Families have bands of their own. -/
def rank : Kind → Nat
  | .null => 2000
  | .string .varchar => 10000
  | .lob .clob => 11000
  | .string .char => 12000
  | .string .varcharIgnoreCase => 13000
  | .boolean => 20000
  | .integer .tinyint => 21000
  | .integer .smallint => 22000
  | .integer .integer => 23000
  | .integer .bigint => 24000
  | .numeric => 25000
  | .float .real => 26000
  | .float .double => 27000
  | .interval .year => 28000
  | .interval .month => 28100
  | .interval .yearToMonth => 28200
  | .interval .day => 29000
  | .interval .hour => 29100
  | .interval .dayToHour => 29200
  | .interval .minute => 29300
  | .interval .hourToMinute => 29400
  | .interval .dayToMinute => 29500
  | .interval .second => 29600
  | .interval .minuteToSecond => 29700
  | .interval .hourToSecond => 29800
  | .interval .dayToSecond => 29900
  | .time => 30000
  | .timeTz => 30500
  | .date => 31000
  | .timestamp => 32000
  | .timestampTz => 34000
  | .varbinary => 40000
  | .lob .blob => 41000
  | .javaObject => 42000
  | .uuid => 43000
  | .geometry => 44000
  | .enum => 45000
  | .json => 46000
  | .array => 50000
  | .row => 51000
  | .resultSet => 52000

end Kind

/-- The kind of an operand, or none where the type is not known yet. -/
abbrev OperandKind := Option Kind

namespace OperandKind

def name : OperandKind → Text
  | some k => k.name
  | none => "UNKNOWN"

def rank : OperandKind → Nat
  | some k => k.rank
  | none => 1000

def placeholder : OperandKind → Text
  | some k => k.name
  | none => "?"

end OperandKind

end Datum
