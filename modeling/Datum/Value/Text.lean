import Datum.Value

/-!
# Texts of values

The canonical text of a value and its SQL literal. Only geometries, whose text their codec writes,
can fail.
-/

set_option autoImplicit false

namespace Datum.Value

open Calendar

def enclosed (first last : Text) (pieces : List Text) : Text :=
  first ++ Text.join ", " pieces ++ last

def dateTime (day : Whole) (nanos : Int) : Text :=
  formatDate day.val ++ [Text.unit ' '] ++ formatTime nanos

mutual

def text : Value → Outcome Text
  | .null => .ok "NULL"
  | .boolean b => .ok (if b then "TRUE" else "FALSE")
  | .integer _ n => .ok (Text.ofInt n.val)
  | .numeric d => .ok d.text
  | .float .real x => .ok x.singleText
  | .float .double x => .ok x.sqlText
  | .date day => .ok (formatDate day.val)
  | .time nanos => .ok (formatTime nanos)
  | .timeTz nanos offset => .ok (formatTime nanos ++ formatOffset offset.val)
  | .timestamp day nanos => .ok (dateTime day nanos)
  | .timestampTz day nanos offset => .ok (dateTime day nanos ++ formatOffset offset.val)
  | .varbinary data => .ok (Text.Hex.encode data)
  | .string _ t => .ok t
  | .lob l => .ok l.text
  | .array items => do return enclosed "[" "]" (← texts items)
  | .row items => do return enclosed "ROW (" ")" (← texts items)
  | .resultSet _ _ rows => do return enclosed "(" ")" (← rowTexts rows)
  | .object data _ => .ok (Text.Hex.encode data)
  | .uuid u => .ok u.text
  | .geometry g => g.text
  | .enum e => .ok e.label
  | .json data => .ok (Text.Utf8.decode data)
  | .interval q f => .ok (f.literal q)

def texts : List Value → Outcome (List Text)
  | [] => .ok []
  | v :: rest => do return (← text v) :: (← texts rest)

def rowTexts : List (List Value) → Outcome (List Text)
  | [] => .ok []
  | fields :: rest => do return enclosed "(" ")" (← texts fields) :: (← rowTexts rest)

end

def castSql (t type : Text) : Text :=
  ("CAST(" : Text) ++ t ++ (" AS " : Text) ++ type ++ (")" : Text)

def keywordSql (keyword t : Text) : Text := keyword ++ (" '" : Text) ++ t ++ ("'" : Text)

def hexSql (data : Bytes) : Text := ("X'" : Text) ++ Text.Hex.encode data ++ ("'" : Text)

def integerSql (k : IntegerKind) (n : Int) : Text :=
  let t := Text.ofInt n
  match k with
  | .tinyint => castSql t "TINYINT"
  | .smallint => castSql t "SMALLINT"
  | .integer => t
  | .bigint => if IntegerKind.integer.holds n then castSql t "BIGINT" else t

def decimalSql (d : Decimal) : Text :=
  if d.scale = 0 then
    castSql d.text (("NUMERIC(" : Text) ++ Text.ofNat d.precision ++ (")" : Text))
  else d.text

def floatSql (k : FloatKind) (x : Double) : Text :=
  let t := match k with
    | .real => x.singleText
    | .double => x.sqlText
  castSql (if x.isFinite then t else ("'" : Text) ++ t ++ ("'" : Text))
    (match k with
      | .real => "REAL"
      | .double => "DOUBLE PRECISION")

def stringSql (k : StringKind) (t : Text) : Text :=
  match k with
  | .varchar => t.quoteSql
  | .varcharIgnoreCase => castSql t.quoteSql "VARCHAR_IGNORECASE"
  | .char =>
    castSql t.quoteSql (("CHAR(" : Text) ++ Text.ofNat (max t.length 1) ++ (")" : Text))

def lobSql (l : Lob) : Text :=
  match l.kind with
  | .clob => castSql l.text.quoteSql "CLOB"
  | .blob => castSql (hexSql l.data) "BLOB"

mutual

def sql : Value → Outcome Text
  | .null => .ok "NULL"
  | .boolean b => .ok (if b then "TRUE" else "FALSE")
  | .integer k n => .ok (integerSql k n.val)
  | .numeric d => .ok (decimalSql d)
  | .float k x => .ok (floatSql k x)
  | .date day => .ok (keywordSql "DATE" (formatDate day.val))
  | .time nanos => .ok (keywordSql "TIME" (formatTime nanos))
  | .timeTz nanos offset =>
    .ok (keywordSql "TIME WITH TIME ZONE" (formatTime nanos ++ formatOffset offset.val))
  | .timestamp day nanos => .ok (keywordSql "TIMESTAMP" (dateTime day nanos))
  | .timestampTz day nanos offset =>
    .ok (keywordSql "TIMESTAMP WITH TIME ZONE" (dateTime day nanos ++ formatOffset offset.val))
  | .varbinary data => .ok (hexSql data)
  | .string k t => .ok (stringSql k t)
  | .lob l => .ok (lobSql l)
  | .array items => do return enclosed "ARRAY [" "]" (← sqls items)
  | .row items => do return enclosed "ROW (" ")" (← sqls items)
  | .resultSet _ _ rows => do return enclosed "(VALUES " ")" (← rowSqls rows)
  | .object data _ => .ok (castSql (hexSql data) "JAVA_OBJECT")
  | .uuid u => .ok (keywordSql "UUID" u.text)
  | .geometry g => do return ("GEOMETRY " : Text) ++ (← g.text).quoteSql
  | .enum e => .ok e.label.quoteSql
  | .json data => .ok (("JSON " : Text) ++ (Text.Utf8.decode data).quoteSql)
  | .interval q f => .ok (f.literal q)

def sqls : List Value → Outcome (List Text)
  | [] => .ok []
  | v :: rest => do return (← sql v) :: (← sqls rest)

def rowSqls : List (List Value) → Outcome (List Text)
  | [] => .ok []
  | fields :: rest => do return enclosed "(" ")" (← sqls fields) :: (← rowSqls rest)

end

end Datum.Value
