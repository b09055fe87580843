import Arm32.Document.Basic
import Arm32.Document.Token

/-! Documents from their tokens. The lists and records that are open stand in a stack, the innermost on top,
so that a document may be nested to any depth. -/

namespace Arm32.Document

/-- A list or record part way through, its latest part first. -/
inductive Frame where
  | list (items : List Document)
  /-- The name is that of the member to come. -/
  | record (members : List (Option String × Document)) (name : Option String)

/-- Which token may come next. -/
inductive Awaiting where
  | value (stack : List Frame)
  | firstItem (stack : List Frame)
  | firstName (stack : List Frame)
  | name (members : List (Option String × Document)) (stack : List Frame)
  | colon (members : List (Option String × Document)) (name : Option String) (stack : List Frame)
  /-- A value is complete; a comma or the end of what holds it may come. -/
  | after (value : Document) (stack : List Frame)

namespace Awaiting

/-- The first token of a value. -/
def opened? (stack : List Frame) : Token → Option Awaiting
  | .null => some (after .null stack)
  | .flag b => some (after (.flag b) stack)
  | .number n => some (after (.number n) stack)
  | .text t => some (after (.text t) stack)
  | .mark '[' => some (firstItem stack)
  | .mark '\x7b' => some (firstName stack)
  | .mark _ => none

def step? (awaiting : Awaiting) (token : Token) : Option Awaiting :=
  match awaiting, token with
  | value stack, token => opened? stack token
  | firstItem stack, .mark ']' => some (after (.list []) stack)
  | firstItem stack, token => opened? (.list [] :: stack) token
  | firstName stack, .mark '\x7d' => some (after (.record []) stack)
  | firstName stack, .text key => some (colon [] key stack)
  | name members stack, .text key => some (colon members key stack)
  | colon members key stack, .mark ':' => some (value (.record members key :: stack))
  | after item (.list items :: stack), .mark ',' => some (value (.list (item :: items) :: stack))
  | after item (.list items :: stack), .mark ']' => some (after (.list (item :: items).reverse) stack)
  | after item (.record members key :: stack), .mark ',' => some (name ((key, item) :: members) stack)
  | after item (.record members key :: stack), .mark '\x7d' =>
    some (after (.record ((key, item) :: members).reverse) stack)
  | _, _ => none

/-- The document, when nothing is left open. -/
def finish? : Awaiting → Option Document
  | after document [] => some document
  | _ => none

end Awaiting

def ofTokens? (tokens : List Token) : Option Document := do
  (← tokens.foldlM Awaiting.step? (.value [])).finish?

/-- Exactly one document, with white space around it. -/
def parse? (text : String) : Option Document := do
  ofTokens? (← Token.scan? text.toList)

end Arm32.Document
