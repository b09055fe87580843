import Arm32.Condition
import Arm32.Instruction.Decode
import Arm32.Instruction.Description

/-! A picture of an instruction word: its fields as a tree, a ruler of bit positions, the bits, and the
layout of the class they belong to. -/

namespace Arm32

/-- The layout of a class, two characters a bit, drawn under the ruler. -/
def InstructionClass.bitLayout : InstructionClass → String
  | dataProcessing => "|_Cond__|0_0|I|_code__|S|__Rn___|__Rd___|_______operand2________|"
  | psrTransfer => "|_Cond__|0_0|I|1_0|P|x_0|_Field_|__Rd___|_______operand2________|"
  | multiply => "|_Cond__|0_0_0_0_0_0|A|S|__Rd___|__Rn___|__Rs___|1_0_0_1|__Rm___|"
  | multiplyLong => "|_Cond__|0_0_0_0_1|U|A|S|_RdHi__|_RdLo__|__Rs___|1_0_0_1|__Rm___|"
  | countLeadingZeros => "|_Cond__|0_0_0_1_0_1_1_0|1_1_1_1|__Rd___|1_1_1_1|0_0_0_1|__Rm___|"
  | swap => "|_Cond__|0_0_0_1_0|B|0_0|__Rn___|__Rd___|0_0_0_0|1_0_0_1|__Rm___|"
  | halfwordTransfer => "|_Cond__|0_0_0|P|U|I|W|L|__Rn___|__Rd___|_Offset|1|S|H|1|_Offset|"
  | singleTransfer => "|_Cond__|0_1|I|P|U|B|W|L|__Rn___|__Rd___|________Offset_________|"
  | blockTransfer => "|_Cond__|1_0_0|P|U|S|W|L|__Rn___|_____________Reg_List__________|"
  | branch => "|_Cond__|1_0_1|L|______________________Offset___________________|"
  | undefined => "|_Cond__|0_1_1|___________________xxx___________________|1|_xxx___|"
  | coprocessor => "|_Cond__|1_1|"
  | vfp => "|_Cond__|1_1_1_0|p|D|q|r|__Fn___|__Fd___|1_0_1|z|N|s|M|0|__Fm___|"

namespace Instruction

def ruler : List String :=
  ["POS: |..3 ..................2 ..................1 ..................0|",
   "     |1_0_9_8_7_6_5_4_3_2_1_0_9_8_7_6_5_4_3_2_1_0_9_8_7_6_5_4_3_2_1_0|"]

/-- The bits from the top down, joined by underscores. -/
def bitRow (word : Word) : String :=
  "_".intercalate ((List.range 32).map fun place => if word.getMsbD place then "1" else "0")

/-- The lines of the picture. -/
def picture (word : Word) : List String :=
  let instruction := decode word
  ["INS: " ++ instruction.describe.text] ++ ruler ++
    ["RAW: |" ++ bitRow word ++ "|", "FMT: " ++ instruction.classOf.bitLayout]

end Instruction

end Arm32
