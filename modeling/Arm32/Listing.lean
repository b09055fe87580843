import Arm32.Disassembly.Basic

/-! Listings of whole programs. Every branch whose target lies in the program names it by a label;
labels are numbered by the branches, in order, and branches to one target share the number of the
first. Comments stand above the instruction at their offset, below its label. Offsets count bytes from
the first word. -/

namespace Arm32

structure Comment where
  offset : Word
  text : String
  deriving DecidableEq, Repr

namespace Listing

inductive Line where
  | label (number : Nat)
  | comment (text : String)
  /-- An instruction, with the label of its target if it is a branch with one. -/
  | instruction (disassembly : Disassembly) (target : Option Nat)
  deriving DecidableEq, Repr

def labelName (number : Nat) : String := s!".label{number}"

namespace Line

def text : Line → String
  | label number => labelName number ++ ":"
  | comment text => "  ;" ++ text
  | instruction disassembly target =>
    "\t" ++ disassembly.text ++ (target.map labelName).getD "" ++ "\t\t" ++ disassembly.noteLine

end Line

/-- Offset of the word with this index. -/
def offsetOf (index : Nat) : Int := 4 * index

/-- The target of the branch with this index, which may lie outside the program. -/
def target? (index : Nat) (word : Word) : Option Int :=
  ((Instruction.decode word).branchOffset? prefetch).map (offsetOf index + ·)

/-- Targets of the branches of a program that starts at an index, in program order. -/
def targetsFrom (index : Nat) : List Word → List Int
  | [] => []
  | word :: rest =>
    match target? index word with
    | some target => target :: targetsFrom (index + 1) rest
    | none => targetsFrom (index + 1) rest

def targets (words : List Word) : List Int := targetsFrom 0 words

/-- The number of the first branch with this target. -/
def labelAt? (targets : List Int) (address : Int) : Option Nat := targets.findIdx? (· == address)

/-- The label above an instruction. -/
def labelLines (targets : List Int) (address : Int) : List Line :=
  match labelAt? targets address with
  | some number => [.label number]
  | none => []

def commentOffset (comment : Comment) : Int := comment.offset.toNat

/-- Comments for offsets already passed match no instruction and are dropped. -/
def pending (comments : List Comment) (address : Int) : List Comment :=
  comments.dropWhile (commentOffset · < address)

/-- Comments are taken in the order given, so they are expected sorted by offset. -/
def linesFrom (settings : ListingSettings) (targets : List Int) (index : Nat) (comments : List Comment) :
    List Word → List Line
  | [] => []
  | word :: rest =>
    let address := offsetOf index
    let waiting := pending comments address
    let target := (target? index word).bind (labelAt? targets)
    labelLines targets address ++
      (waiting.takeWhile (commentOffset · == address)).map (Line.comment ·.text) ++
      Line.instruction (disassemble settings word) target ::
        linesFrom settings targets (index + 1) (waiting.dropWhile (commentOffset · == address)) rest

def lines (settings : ListingSettings) (words : List Word) (comments : List Comment) : List Line :=
  linesFrom settings (targets words) 0 comments words

/-- Every line ends in a line break. -/
def text (settings : ListingSettings) (words : List Word) (comments : List Comment) : String :=
  String.join ((lines settings words comments).map (·.text ++ "\n"))

end Listing

end Arm32
