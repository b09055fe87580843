import Arm32.Document.Form
import Arm32.Document.Nesting
import Arm32.Instruction.Description

/-! Which documents stand for instructions. Register numbers and fields of bits are not held to the widths that
they have in a word, so that an instruction may be written down that no word decodes to. -/

namespace Arm32.Document

namespace Form

def word : Form := .number 0 0xffffffff
def halfword : Form := .number 0 0xffff
/-- The number of a register. -/
def index : Form := .number 0 0xffffffffffffffff
def signedWord : Form := .number (-0x80000000) 0x7fffffff

def choices (names : List String) : List Alternative := names.map .choice

def shiftKind : Form := .oneOf (choices ([ShiftKind.lsl, .lsr, .asr, .ror].map (·.name)))
def quantity : Form := .oneOf (choices ([Quantity.word, .byte].map (·.name)))
def transfer : Form := .oneOf (choices ([Transfer.store, .load].map (·.name)))
def indexing : Form := .oneOf (choices ([Indexing.post, .pre].map (·.name)))
def direction : Form := .oneOf (choices ([Direction.down, .up].map (·.name)))
def multiplyOp : Form := .oneOf (choices ([MultiplyOp.mul, .mla].map (·.name)))

def multiplyLongOp : Form :=
  .oneOf (choices ([MultiplyLongOp.umull, .umlal, .smull, .smlal].map (·.name)))

def halfwordKind : Form :=
  .oneOf (choices ([HalfwordKind.swap, .unsignedHalfword, .signedByte, .signedHalfword].map (·.name)))

def aluOp : Form := .oneOf (choices ((List.range 16).map fun code => (AluOp.ofCode (BitVec.ofNat 4 code)).name))

def shiftedRegister : Form :=
  .record "ShiftedRegister"
    [("rm", index), ("shift_kind", shiftKind),
      ("amount", .oneOf [.tagged "Immediate" word, .variant "Register" [("rs", index), ("reserved_bit", .flag)]])]

def operand : Form :=
  .oneOf [.variant "Immediate" [("base", word), ("rotate", word)], .tagged "Register" shiftedRegister]

def psrOp : Form :=
  .oneOf
    [.variant "Mrs" [("rd", index)], .variant "Msr" [("rm", index)],
      .variant "MsrFlags" [("operand", .oneOf [.tagged "Immediate" word, .tagged "Register" index])],
      .choice "Undefined"]

def precision : Form := .oneOf (choices ([Vfp.Precision.single, .double].map (·.name)))

def extensionOp : Form :=
  .oneOf
    (choices ([Vfp.UnaryOp.fcpy, .fabs, .fneg, .fsqrt].map (·.name)) ++
      choices ([Vfp.ScalarOp.fcmp, .fcmpe, .fcmpz, .fcmpez, .fcvt, .fuito, .fsito, .ftoui, .ftouiz, .ftosi,
        .ftosiz].map (·.name)) ++
      [.tagged "Undefined" word])

def dataOp : Form :=
  .oneOf
    (choices ([Vfp.ArithmeticOp.fmac, .fnmac, .fmsc, .fnmsc, .fmul, .fnmul, .fadd, .fsub, .fdiv].map (·.name)) ++
      [.tagged "Extension" extensionOp, .tagged "Undefined" word])

def addressMode : Form :=
  .oneOf
    (choices ["Unindexed", "Increment", "Decrement", "PositiveOffset", "NegativeOffset"] ++
      [.tagged "Undefined" word])

def transferOp : Form :=
  .oneOf
    (choices ([Vfp.TransferOp.fmsr, .fmrs, .fmxr, .fmrx, .fmdlr, .fmrdl, .fmdhr, .fmrdh].map
      (·.mnemonic.capitalize)) ++
      [.tagged "Undefined" word])

def vfp : Form :=
  .oneOf
    [.variant "DataProcessing"
        [("precision", precision), ("op", dataOp), ("fd", index), ("fn_reg", index), ("fm", index)],
      .variant "LoadStore"
        [("precision", precision), ("addressing", addressMode), ("load_store", transfer), ("rn", index),
          ("fd", index), ("offset", word)],
      .variant "RegisterTransfer"
        [("precision", precision), ("op", transferOp), ("fn_reg", index), ("rd", index)]]

def instruction : Form :=
  .oneOf
    [.variant "DataProcessing"
        [("alu_instruction", aluOp), ("set_conditions", .flag), ("rn", index), ("destination", index),
          ("op2", operand)],
      .variant "PsrTransfer" [("spsr", .flag), ("kind", psrOp)],
      .variant "Multiply"
        [("variant", multiplyOp), ("set_conditions", .flag), ("rd", index), ("rn", index), ("rs", index),
          ("rm", index)],
      .variant "MultiplyLong"
        [("variant", multiplyLongOp), ("set_conditions", .flag), ("rd_hi", index), ("rd_lo", index), ("rs", index),
          ("rm", index)],
      .variant "CountLeadingZeros" [("rd", index), ("rm", index)],
      .variant "SingleDataSwap" [("quantity", quantity), ("rn", index), ("rd", index), ("rm", index)],
      .variant "HalfwordDataTransfer"
        [("indexing", indexing), ("offsetting", direction), ("write_back", .flag), ("load_store", transfer),
          ("transfer_kind", halfwordKind), ("rn", index), ("rd", index),
          ("offset", .oneOf [.variant "Immediate" [("offset", word)], .variant "Register" [("rm", index)]])],
      .variant "SingleDataTransfer"
        [("indexing", indexing), ("offsetting", direction), ("quantity", quantity), ("write_back", .flag),
          ("load_store", transfer), ("rn", index), ("rd", index),
          ("offset", .oneOf [.variant "Immediate" [("offset", word)], .tagged "Register" shiftedRegister])],
      .variant "BlockDataTransfer"
        [("indexing", indexing), ("offsetting", direction), ("load_psr", .flag), ("write_back", .flag),
          ("load_store", transfer), ("rn", index), ("register_list", halfword)],
      .variant "Branch" [("link", .flag), ("offset", signedWord)],
      .choice "Undefined",
      .choice "Coprocessor",
      .tagged "Vfp" vfp]

end Form

/-- The instruction that a document stands for, as a description. -/
def instruction? (document : Document) : Option Description := Form.instruction.read? document

end Arm32.Document

namespace Arm32.Description

/-- The name of the alternative; for an instruction, its class. -/
def name? : Description → Option String
  | choice name => some name
  | tagged name _ => some name
  | variant name _ => some name
  | record name _ => some name
  | _ => none

def isBranch (description : Description) : Bool := description.name? == some "Branch"

/-- How far a described branch goes, counted from itself. -/
def branchOffset? (ahead : Word) : Description → Option Int
  | variant "Branch" fields =>
    match fields.lookup "offset" with
    | some (number offset) => some (BitVec.ofInt 32 offset + ahead).toInt
    | _ => none
  | _ => none

end Arm32.Description
