import Datum.Kind
import Datum.Number.Num

/-!
# Failures

`ValueError` is what can be wrong with values, conversions and settings; conversions and comparisons
return it. `Fault` adds what is raised instead: misuse of a cursor or a number, and whatever a
collaborator raises. The wording of every error is in `ValueError.message` and `Fault.detail`.
-/

set_option autoImplicit false

namespace Datum

inductive ValueError where
  /-- No rule connects the two kinds; the detail may be empty. -/
  | dataConversion (source target : Kind) (detail : Text)
  /-- The text is no literal of the target kind. -/
  | malformedLiteral (source target : Kind) (text : Text)
  /-- A number outside the range of its kind; the column may be empty. -/
  | numericOverflow (value column : Text)
  | invalidInterval (qualifier : Qualifier) (text : Text)
  /-- A result of more than one row stands for a row. -/
  | scalarCardinality
  | unknownType (description : Text)
  | invalidValue (parameter value : Text)
  | unsupported (kind : Kind) (operation : Text)
  | configuration (issues : List Text)

namespace ValueError

def unknownPair (left right : OperandKind) : ValueError :=
  .unknownType (left.placeholder ++ (", " : Text) ++ right.placeholder)

def conversionMessage (source target : Kind) (detail : Text) : Text :=
  ("data conversion error converting " : Text) ++ source.name ++ (" to " : Text) ++ target.name
    ++ if detail.isEmpty then [] else (": " : Text) ++ detail

def message : ValueError → Text
  | .dataConversion source target detail => conversionMessage source target detail
  | .malformedLiteral source target text =>
    conversionMessage source target (("malformed literal \"" : Text) ++ text ++ ("\"" : Text))
  | .numericOverflow value column =>
    ("numeric value out of range: \"" : Text) ++ value ++ ("\"" : Text)
      ++ if column.isEmpty then [] else (" (column " : Text) ++ column ++ (")" : Text)
  | .invalidInterval qualifier text =>
    ("cannot parse INTERVAL " : Text) ++ qualifier.sql ++ (" constant \"" : Text) ++ text
      ++ ("\"" : Text)
  | .scalarCardinality => "scalar subquery contains more than one row"
  | .unknownType description => ("unknown data type: \"" : Text) ++ description ++ ("\"" : Text)
  | .invalidValue parameter value =>
    ("invalid value \"" : Text) ++ value ++ ("\" for parameter \"" : Text) ++ parameter
      ++ ("\"" : Text)
  | .unsupported kind operation =>
    ("feature not supported: \"" : Text) ++ kind.name ++ (" " : Text) ++ operation ++ ("\"" : Text)
  | .configuration issues => ("invalid configuration: " : Text) ++ Text.join "; " issues

def name : ValueError → String
  | .dataConversion .. => "DataConversionError"
  | .malformedLiteral .. => "MalformedLiteralError"
  | .numericOverflow .. => "NumericOverflowError"
  | .invalidInterval .. => "InvalidIntervalLiteralError"
  | .scalarCardinality => "ScalarSubqueryCardinalityError"
  | .unknownType .. => "UnknownTypeError"
  | .invalidValue .. => "InvalidValueError"
  | .unsupported .. => "UnsupportedOperationError"
  | .configuration .. => "ConfigurationError"

def code : ValueError → String
  | .dataConversion .. => "DATA_CONVERSION"
  | .malformedLiteral .. => "MALFORMED_LITERAL"
  | .numericOverflow .. => "NUMERIC_OVERFLOW"
  | .invalidInterval .. => "INVALID_INTERVAL"
  | .scalarCardinality => "SCALAR_SUBQUERY_CARDINALITY"
  | .unknownType .. => "UNKNOWN_TYPE"
  | .invalidValue .. => "INVALID_VALUE"
  | .unsupported .. => "UNSUPPORTED_OPERATION"
  | .configuration .. => "INVALID_CONFIGURATION"

def fields : ValueError → List (String × Text)
  | .dataConversion source target _ => [("fromKind", source.name), ("toKind", target.name)]
  | .malformedLiteral source target text =>
    [("fromKind", source.name), ("toKind", target.name), ("text", text)]
  | .numericOverflow value column => [("value", value), ("column", column)]
  | .invalidInterval qualifier text => [("qualifier", qualifier.name), ("text", text)]
  | .scalarCardinality => []
  | .unknownType description => [("description", description)]
  | .invalidValue parameter value => [("parameter", parameter), ("value", value)]
  | .unsupported kind operation => [("kind", kind.name), ("operation", operation)]
  | .configuration _ => []

end ValueError

inductive Fault where
  | value (e : ValueError)
  | divisionByZero
  | rowWidth (values columns : Nat)
  | noCurrentRow
  | columnOutOfRange (index : Num)
  /-- An exact integer or a power was asked of a number that does not give one. -/
  | notAnInteger
  /-- A table of more slots, or a number of more digits, than can be made. -/
  | tooLarge
  /-- A text that is no JSON document was taken for one. -/
  | notJson (text : Text)
  /-- A collaborator failed with a message. -/
  | foreign (message : Text)
  /-- A collaborator raised what is no error, of which this is the text. -/
  | foreignText (text : Text)

namespace Fault

def jsonMessage (text : Text) : Text :=
  match text with
  | [] => "Unexpected end of JSON input"
  | u :: _ =>
    if u = Text.unit '-' then "No number after minus sign in JSON at position 1 (line 1 column 2)"
    else ("Unexpected token '" : Text) ++ [u] ++ ("', \"" : Text) ++ text
      ++ ("\" is not valid JSON" : Text)

def detail : Fault → Text
  | .value e => e.message
  | .divisionByZero => "division by zero"
  | .rowWidth values columns =>
    ("row has " : Text) ++ Text.ofNat values ++ (" values, result has " : Text)
      ++ Text.ofNat columns ++ (" columns" : Text)
  | .noCurrentRow => "no current row"
  | .columnOutOfRange index =>
    ("column index " : Text) ++ index.text ++ (" out of range" : Text)
  | .notAnInteger => "not an integer"
  | .tooLarge => "too large"
  | .notJson text => jsonMessage text
  | .foreign message => message
  | .foreignText text => text

end Fault

abbrev Outcome (α : Type) := Except Fault α

def fail {α : Type} (e : ValueError) : Outcome α := .error (.value e)

end Datum
