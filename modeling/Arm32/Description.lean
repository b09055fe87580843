/-! A value laid open as a tree of named parts, ready to be printed or written to a document. -/

namespace Arm32

inductive Description where
  | flag (value : Bool)
  | number (value : Int)
  /-- One of a few alternatives, without parts. -/
  | choice (name : String)
  /-- One of a few alternatives, around a single part. -/
  | tagged (name : String) (content : Description)
  /-- One of a few alternatives, with named parts. -/
  | variant (name : String) (fields : List (String × Description))
  | record (name : String) (fields : List (String × Description))

namespace Description

mutual

/-- One line: tagged parts in parentheses, named parts in braces. -/
def text : Description → String
  | flag value => toString value
  | number value => toString value
  | choice name => name
  | tagged name content => name ++ "(" ++ content.text ++ ")"
  | variant name fields => name ++ " \x7b " ++ ", ".intercalate (fieldTexts fields) ++ " \x7d"
  | record name fields => name ++ " \x7b " ++ ", ".intercalate (fieldTexts fields) ++ " \x7d"

def fieldTexts : List (String × Description) → List String
  | [] => []
  | (name, value) :: rest => (name ++ ": " ++ value.text) :: fieldTexts rest

end

end Description

/-- A field of bits, read as a number without sign. -/
def Description.ofBits {width : Nat} (bits : BitVec width) : Description := .number bits.toNat

end Arm32
