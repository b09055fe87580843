import Arm32.Disassembly.Operand
import Arm32.Vfp.Registers

/-! Text and notes of the floating-point instructions. -/

namespace Arm32.Vfp

/-- Stands for every encoding without a meaning. -/
def undefinedText : String := "undefined VFP instruction (not emulated)"

/-- A slot by the name of the register of either precision that covers it. -/
def Precision.register (precision : Precision) (slot : Nat) : String :=
  match precision with
  | single => s!"s{slot}"
  | double => s!"d{slot / 2}"

namespace DataProcessing

/-- Conversions have one operand of each precision; an integer lies in a single. -/
def renderScalar (fields : DataProcessing) (op : ScalarOp) (condition : Condition) : Layout :=
  let mnemonic := op.mnemonic ++ fields.precision.suffix ++ condition.suffix
  let register := fields.precision.register
  let fd := fields.fd.toNat
  let fm := fields.fm.toNat
  match op with
  | .fcmp | .fcmpe => .columns mnemonic (register fd ++ ", " ++ register fm)
  | .fcmpz | .fcmpez => .columns mnemonic (register fd)
  | .fcvt =>
    match fields.precision with
    | .single =>
      .columns ("fcvtds" ++ condition.suffix) (Precision.double.register fd ++ ", " ++ Precision.single.register fm)
    | .double =>
      .columns ("fcvtsd" ++ condition.suffix) (Precision.single.register fd ++ ", " ++ Precision.double.register fm)
  | .fuito | .fsito => .columns mnemonic (register fd ++ ", " ++ Precision.single.register fm)
  | .ftoui | .ftouiz | .ftosi | .ftosiz =>
    .columns mnemonic (Precision.single.register fd ++ ", " ++ register fm)

def render (fields : DataProcessing) (condition : Condition) : Layout :=
  let register := fields.precision.register
  let suffix := fields.precision.suffix ++ condition.suffix
  match fields.op with
  | .undefined _ | .extension (.undefined _) => .plain undefinedText
  | .extension (.scalar op) => fields.renderScalar op condition
  | .extension (.unary op) =>
    .columns (op.mnemonic ++ suffix) (register fields.fd.toNat ++ ", " ++ register fields.fm.toNat)
  | .arithmetic op =>
    .columns (op.mnemonic ++ suffix)
      (register fields.fd.toNat ++ ", " ++ register fields.fn.toNat ++ ", " ++ register fields.fm.toNat)

def notes (fields : DataProcessing) (condition : Condition) : List Note :=
  match fields.op with
  | .undefined _ | .extension (.undefined _) => [.undefinedVfpOperation]
  | _ => condition.notes

end DataProcessing

namespace LoadStore

def mnemonic (fields : LoadStore) : String :=
  match fields.transfer with
  | .load => "fld"
  | .store => "fst"

def printed (fields : LoadStore) (direction : Direction) : Word :=
  printedOffset direction fields.rn prefetch (fields.offset.setWidth 32 * 4)

/-- The slot that a list starts at. -/
def firstSlot (fields : LoadStore) : Nat := (fields.fd.aligned fields.precision).toNat

/-- Whole registers in a list. -/
def registerCount (fields : LoadStore) : Nat := fields.offset.toNat / fields.precision.words

/-- The listed registers, first and last. -/
def renderList (fields : LoadStore) : String :=
  let first := fields.precision.register fields.firstSlot
  match fields.registerCount with
  | 0 => ""
  | 1 => first
  | count =>
    first ++ "-" ++ fields.precision.register (fields.firstSlot + (count - 1) * fields.precision.words)

def renderOffset (fields : LoadStore) (direction : Direction) (style : ImmediateStyle) (condition : Condition) :
    Layout :=
  let offset := fields.printed direction
  .columns (fields.mnemonic ++ fields.precision.suffix ++ condition.suffix)
    (fields.precision.register fields.fd.toNat ++ ", [" ++ fields.rn.name ++
      (if offset = 0 then "" else ", " ++ style.write offset) ++ "]")

def renderMultiple (fields : LoadStore) (suffix : String) (writeBack : Bool) (condition : Condition) : Layout :=
  .columns (fields.mnemonic ++ "m" ++ suffix ++ fields.precision.suffix ++ condition.suffix)
    (fields.rn.name ++ (if writeBack then "!" else "") ++ ", \x7b" ++ fields.renderList ++ "\x7d")

def render (fields : LoadStore) (style : ImmediateStyle) (condition : Condition) : Layout :=
  match fields.mode with
  | .positiveOffset => fields.renderOffset .up style condition
  | .negativeOffset => fields.renderOffset .down style condition
  | .unindexed => fields.renderMultiple "ia" false condition
  | .increment => fields.renderMultiple "ia" true condition
  | .decrement => fields.renderMultiple "db" true condition
  | .undefined _ => .plain undefinedText

def multipleNotes (fields : LoadStore) (writeBack : Bool) (condition : Condition) : List Note :=
  Note.when (writeBack && fields.rn == Reg.pc) .writeBackToProgramCounter ++ condition.notes ++
    Note.when (32 < fields.firstSlot + fields.offset.toNat) .listPastLastSlot ++
    Note.when (fields.registerCount == 0) .emptyList

def notes (fields : LoadStore) (condition : Condition) : List Note :=
  match fields.mode with
  | .positiveOffset | .negativeOffset => condition.notes
  | .unindexed => fields.multipleNotes false condition
  | .increment | .decrement => fields.multipleNotes true condition
  | .undefined _ => [.undefinedVfpAddressing]

end LoadStore

namespace RegisterTransfer

/-- Moving a system register to the program counter moves the comparison flags instead. -/
def isFlagMove (fields : RegisterTransfer) : Bool := fields.op == .fmrx && fields.rd == Reg.pc

def system (fields : RegisterTransfer) : SystemRegister := SystemRegister.ofIndex fields.fn.toNat

def render (fields : RegisterTransfer) (condition : Condition) : Layout :=
  let single := Precision.single.register fields.fn.toNat
  let double := Precision.double.register fields.fn.toNat
  let core := fields.rd.name
  let mnemonic := fields.op.mnemonic ++ condition.suffix
  if fields.isFlagMove then .plain ("fmstat" ++ condition.suffix)
  else
    match fields.op with
    | .fmsr => .columns mnemonic (single ++ ", " ++ core)
    | .fmrs => .columns mnemonic (core ++ ", " ++ single)
    | .fmxr => .columns mnemonic (fields.system.mnemonic ++ ", " ++ core)
    | .fmrx => .columns mnemonic (core ++ ", " ++ fields.system.mnemonic)
    | .fmdlr | .fmdhr => .columns mnemonic (double ++ ", " ++ core)
    | .fmrdl | .fmrdh => .columns mnemonic (core ++ ", " ++ double)
    | .undefined _ => .plain undefinedText

def isUnknownSystem (fields : RegisterTransfer) : Bool :=
  match fields.op, fields.system with
  | .fmxr, .unknown _ => true
  | .fmrx, .unknown _ => true
  | _, _ => false

def notes (fields : RegisterTransfer) (condition : Condition) : List Note :=
  if fields.isFlagMove then Note.when (fields.system != .fpscr) .flagsFromOtherRegister ++ condition.notes
  else
    Note.when (fields.rd == Reg.pc) .vfpTransferWithProgramCounter ++
      Note.when fields.isUnknownSystem .unknownSystemRegister ++
      match fields.op with
      | .undefined _ => [.undefinedVfpTransfer]
      | _ => condition.notes

end RegisterTransfer

namespace Instruction

def render (style : ImmediateStyle) (condition : Condition) : Instruction → Layout
  | dataProcessing fields => fields.render condition
  | loadStore fields => fields.render style condition
  | registerTransfer fields => fields.render condition

def notes (condition : Condition) : Instruction → List Note
  | dataProcessing fields => fields.notes condition
  | loadStore fields => fields.notes condition
  | registerTransfer fields => fields.notes condition

end Instruction

end Arm32.Vfp
