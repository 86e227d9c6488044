import Datum.Json.Token

/-!
# JSON documents

Documents are read by a machine that takes one token at a time and keeps the lists and records that
are still open on a stack, so that any depth can be read.
-/

set_option autoImplicit false

namespace Datum.Json

inductive Document where
  | null
  | bool (b : Bool)
  | number (x : Double)
  | text (t : Text)
  | list (items : List Document)
  /-- Fields in the order of their names, each name once. -/
  | record (fields : List (Text × Document))

/-- A list or record that is still open; items are kept last first. -/
inductive Frame where
  | list (items : List Document)
  | record (fields : List (Text × Document)) (name : Text)

inductive Reading where
  | value
  | itemOrClose
  | nameOrClose
  | name (fields : List (Text × Document))
  | colon (fields : List (Text × Document)) (name : Text)
  | after (v : Document)

/-- Sets a field; an earlier one of the same name is lost. -/
def setField (name : Text) (v : Document) : List (Text × Document) → List (Text × Document)
  | [] => [(name, v)]
  | (n, w) :: rest =>
    match name.compare n with
    | .lt => (name, v) :: (n, w) :: rest
    | .eq => (name, v) :: rest
    | .gt => (n, w) :: setField name v rest

def beginValue? : Token → List Frame → Option (Reading × List Frame)
  | .null, stack => some (.after .null, stack)
  | .bool b, stack => some (.after (.bool b), stack)
  | .number x, stack => some (.after (.number x), stack)
  | .text t, stack => some (.after (.text t), stack)
  | .openList, stack => some (.itemOrClose, .list [] :: stack)
  | .openRecord, stack => some (.nameOrClose, stack)
  | _, _ => none

def afterValue? (v : Document) : Token → List Frame → Option (Reading × List Frame)
  | .comma, .list items :: stack => some (.value, .list (v :: items) :: stack)
  | .closeList, .list items :: stack => some (.after (.list (v :: items).reverse), stack)
  | .comma, .record fields name :: stack => some (.name (setField name v fields), stack)
  | .closeRecord, .record fields name :: stack =>
    some (.after (.record (setField name v fields)), stack)
  | _, _ => none

def step? : Reading → List Frame → Token → Option (Reading × List Frame)
  | .value, stack, token => beginValue? token stack
  | .itemOrClose, .list _ :: stack, .closeList => some (.after (.list []), stack)
  | .itemOrClose, stack, token => beginValue? token stack
  | .nameOrClose, stack, .closeRecord => some (.after (.record []), stack)
  | .nameOrClose, stack, .text t => some (.colon [] t, stack)
  | .nameOrClose, _, _ => none
  | .name fields, stack, .text t => some (.colon fields t, stack)
  | .name _, _, _ => none
  | .colon fields name, stack, .colon => some (.value, .record fields name :: stack)
  | .colon _ _, _, _ => none
  | .after v, stack, token => afterValue? v token stack

def read? : Reading → List Frame → List Token → Option Document
  | .after v, [], [] => some v
  | _, _, [] => none
  | reading, stack, token :: rest =>
    match step? reading stack token with
    | some (reading, stack) => read? reading stack rest
    | none => none

def parse? (t : Text) : Option Document :=
  match tokens? t with
  | some ts => read? .value [] ts
  | none => none

def isValid (t : Text) : Bool := (parse? t).isSome

namespace Document

def field? (name : Text) : Document → Option Document
  | .record fields => (fields.find? fun f => f.1 == name).map Prod.snd
  | _ => none

end Document

end Datum.Json
