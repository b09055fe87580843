/-! JSON documents, as far as settings and instructions can tell them apart: of numbers only the integers
have a value, and a text has none when an escape in it stands for half a character. -/

namespace Arm32

inductive Document where
  | null
  | flag (value : Bool)
  | number (value : Option Int)
  | text (value : Option String)
  | list (items : List Document)
  /-- Members in the order written; one name may come more than once. -/
  | record (members : List (Option String × Document))

namespace Document

/-- One of several alternatives: its name alone, or a record with its content under its name. -/
def alternative? : Document → Option (String × Option Document)
  | text name => name.map (·, none)
  | record [(name, content)] => name.map (·, some content)
  | _ => none

/-- An alternative without content, which may be written as null. -/
def plain? (document : Document) : Option String :=
  match document.alternative? with
  | some (name, none) => name
  | some (name, some null) => name
  | _ => none

/-- The only member of this name. -/
def member? (members : List (Option String × Document)) (name : String) : Option Document :=
  match members.filter (·.1 == some name) with
  | [(_, value)] => some value
  | _ => none

/-- The parts of a record, in the order of their names. Members of other names are left out. The parts may
also be written as a list, in this order and without others. -/
def parts? (names : List String) : Document → Option (List Document)
  | list items => if items.length = names.length then some items else none
  | record members =>
    if members.all (·.1.isSome) then names.mapM (member? members) else none
  | _ => none

end Document

end Arm32
