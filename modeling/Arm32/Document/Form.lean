import Arm32.Description
import Arm32.Document.Basic

/-! Which documents stand for a description. A form names the parts and bounds the numbers; a document that
fits it is read as the description it stands for. -/

namespace Arm32.Document

mutual

inductive Form where
  | flag
  /-- An integer within bounds, both of them allowed. -/
  | number (low high : Int)
  | record (name : String) (fields : List (String × Form))
  | oneOf (alternatives : List Alternative)

inductive Alternative where
  | choice (name : String)
  | tagged (name : String) (content : Form)
  | variant (name : String) (fields : List (String × Form))

end

def Form.names (fields : List (String × Form)) : List String := fields.map (·.1)

mutual

def Form.read? : Form → Document → Option Description
  | .flag, .flag value => some (.flag value)
  | .number low high, .number (some value) => if low ≤ value ∧ value ≤ high then some (.number value) else none
  | .record name fields, document => do
    return .record name (← readFields? fields (← document.parts? (Form.names fields)))
  | .oneOf alternatives, document => do readFirst? alternatives document (← document.alternative?)
  | _, _ => none

def readFields? : List (String × Form) → List Document → Option (List (String × Description))
  | [], [] => some []
  | (name, form) :: fields, part :: parts => do
    return (name, ← form.read? part) :: (← readFields? fields parts)
  | _, _ => none

/-- The alternative of this name decides, whether or not its content fits. -/
def readFirst? : List Alternative → Document → String × Option Document → Option Description
  | [], _, _ => none
  | .choice name :: others, document, (found, content) =>
    if name = found then document.plain?.map .choice
    else readFirst? others document (found, content)
  | .tagged name form :: others, document, (found, content) =>
    if name = found then do return .tagged name (← form.read? (← content))
    else readFirst? others document (found, content)
  | .variant name fields :: others, document, (found, content) =>
    if name = found then do
      return .variant name (← readFields? fields (← (← content).parts? (Form.names fields)))
    else readFirst? others document (found, content)

end

end Arm32.Document
