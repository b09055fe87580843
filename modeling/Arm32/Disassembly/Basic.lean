import Arm32.Disassembly.Core
import Arm32.Disassembly.Vfp
import Arm32.Instruction.Decode
import Arm32.Settings

/-! The text of any word. No word is without one; what is wrong with an encoding goes into the notes. -/

namespace Arm32

structure Disassembly where
  layout : Layout
  notes : List Note
  classOf : InstructionClass
  deriving DecidableEq, Repr

namespace Instruction

/-- The target of a branch is left to the listing. -/
def render (style : ImmediateStyle) (condition : Condition) : Instruction → Layout
  | dataProcessing fields => fields.render style condition
  | psrTransfer _ op => op.render style condition
  | multiply fields => fields.render condition
  | multiplyLong fields => fields.render condition
  | countLeadingZeros rd rm => .columns ("clz" ++ condition.suffix) (rd.name ++ ", " ++ rm.name)
  | swap fields => fields.render condition
  | halfwordTransfer fields => fields.render style condition
  | singleTransfer fields => fields.render style condition
  | blockTransfer fields => fields.render condition
  | branch link _ => .columns ((if link then "bl" else "b") ++ condition.suffix) ""
  | undefined => .plain "undefined instruction (not emulated)"
  | coprocessor => .plain "coprocessor or SWI (not emulated)"
  | vfp instruction => instruction.render style condition

def notes (condition : Condition) : Instruction → List Note
  | dataProcessing fields => fields.notes condition
  | psrTransfer saved op => op.notes saved condition
  | multiply fields => fields.notes condition
  | multiplyLong fields => fields.notes condition
  | countLeadingZeros rd rm =>
    Note.when (rd == Reg.pc || rm == Reg.pc) .countWithProgramCounter ++ condition.notes
  | swap fields => fields.notes condition
  | halfwordTransfer fields => fields.notes condition
  | singleTransfer fields => fields.notes condition
  | blockTransfer fields => fields.notes condition
  | branch _ _ => condition.notes
  | undefined => []
  | coprocessor => []
  | vfp instruction => instruction.notes condition

end Instruction

def ListingSettings.style (settings : ListingSettings) : ImmediateStyle :=
  if settings.hexImmediates then .hex else .decimal

/-- Only the style of immediates among the settings has a say. -/
def disassemble (settings : ListingSettings) (word : Word) : Disassembly :=
  let instruction := Instruction.decode word
  let condition := Condition.ofWord word
  { layout := instruction.render settings.style condition
    notes := instruction.notes condition
    classOf := instruction.classOf }

namespace Disassembly

def text (disassembly : Disassembly) : String := disassembly.layout.text

def noteLine (disassembly : Disassembly) : String := Note.line disassembly.notes

end Disassembly

end Arm32
