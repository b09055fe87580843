import Mathlib.Data.Nat.Find
import Arm32.Proofs.Emulation.Steps
import Arm32.Proofs.Encoding.Execution
import Arm32.Proofs.Listing.Text
import Arm32.Proofs.Memory.Words

/-! The labels of a listing. A branch goes by the number of the first branch with its target; the label is defined once,
above the instruction at the target, if there is one; and the target is where execution of the branch goes. -/

namespace Arm32

namespace Listing

variable {settings : ListingSettings} {words : List Word} {comments : List Comment} {destinations : List Int}
  {notes : Nat → List Comment} {start index number : Nat} {word : Word} {target : Int}

/-- The target of the word with an index, if that is a branch. -/
def targetAt? (words : List Word) (index : Nat) : Option Int := words[index]?.bind (target? index)

def isBranch (word : Word) : Bool := (Instruction.decode word).classOf == .branch

/-- How many branches come before the word with an index. -/
def branchNumber (words : List Word) (index : Nat) : Nat := (words.take index).countP isBranch

/-- The word with this index is a branch to the target, and no word before it is. -/
structure FirstBranch (words : List Word) (target : Int) (index : Nat) : Prop where
  leads : targetAt? words index = some target
  earliest : ∀ earlier < index, targetAt? words earlier ≠ some target

/-! ### Targets -/

theorem isSome_target? (index : Nat) : (target? index word).isSome = isBranch word := by
  unfold target? isBranch
  cases Instruction.decode word <;> rfl

theorem targetsFrom_eq_filterMap :
    targetsFrom start words = (words.zipIdx start).filterMap fun (word, index) => target? index word := by
  induction words generalizing start with
  | nil => rfl
  | cons word rest ih =>
      rw [targetsFrom, List.zipIdx_cons, List.filterMap_cons, ih]
      cases leads : target? start word <;> simp only [leads]

theorem mem_targets_iff : target ∈ targets words ↔ ∃ index, targetAt? words index = some target := by
  simp only [targets, targetsFrom_eq_filterMap, List.mem_filterMap, Prod.exists, List.mem_zipIdx_iff_getElem?]
  constructor
  · rintro ⟨word, index, placed, leads⟩
    exact ⟨index, by rw [targetAt?, placed]; exact leads⟩
  · rintro ⟨index, leads⟩
    obtain ⟨word, placed, leads⟩ := Option.bind_eq_some_iff.mp leads
    exact ⟨word, index, placed, leads⟩

theorem targetsFrom_append {rest : List Word} :
    targetsFrom start (words ++ rest) = targetsFrom start words ++ targetsFrom (start + words.length) rest := by
  simp only [targetsFrom_eq_filterMap, List.zipIdx_append, List.filterMap_append]

theorem length_targetsFrom : (targetsFrom start words).length = words.countP isBranch := by
  induction words generalizing start with
  | nil => rfl
  | cons word rest ih =>
      rw [targetsFrom, List.countP_cons, ← isSome_target? start]
      cases target? start word <;> simp [ih]

theorem exists_firstBranch (leads : targetAt? words index = some target) :
    ∃ first ≤ index, FirstBranch words target first := by
  have branches : ∃ index, targetAt? words index = some target := ⟨index, leads⟩
  exact ⟨Nat.find branches, Nat.find_min' branches leads, Nat.find_spec branches,
    fun earlier before => Nat.find_min branches before⟩

theorem FirstBranch.labelAt? {first : Nat} (branch : FirstBranch words target first) :
    labelAt? (targets words) target = some (branchNumber words first) := by
  obtain ⟨word, placed, leads⟩ := Option.bind_eq_some_iff.mp branch.leads
  obtain ⟨within, rfl⟩ := List.getElem?_eq_some_iff.mp placed
  have length : (words.take first).length = first := List.length_take_of_le (Nat.le_of_lt within)
  have cut : targets words =
      targets (words.take first) ++ target :: targetsFrom (first + 1) (words.drop (first + 1)) := by
    calc targets words
      _ = targetsFrom 0 (words.take first ++ words[first] :: words.drop (first + 1)) := by
        rw [List.getElem_cons_drop, List.take_append_drop, targets]
      _ = _ := by
        rw [targetsFrom_append, targetsFrom, length, Nat.zero_add, leads]
        rfl
  have absent : target ∉ targets (words.take first) := by
    rw [mem_targets_iff]
    rintro ⟨earlier, leadsEarlier⟩
    obtain ⟨word, placedEarlier, leadsEarlier⟩ := Option.bind_eq_some_iff.mp leadsEarlier
    have before : earlier < first := by
      by_contra reached
      rw [List.getElem?_take, if_neg reached] at placedEarlier
      cases placedEarlier
    rw [List.getElem?_take, if_pos before] at placedEarlier
    exact branch.earliest earlier before (Option.bind_eq_some_iff.mpr ⟨word, placedEarlier, leadsEarlier⟩)
  rw [cut, Listing.labelAt?, List.findIdx?_append, List.findIdx?_eq_none_iff.mpr]
  · simp [branchNumber, targets, length_targetsFrom, List.findIdx?_cons]
  · intro other member
    simp only [beq_eq_false_iff_ne]
    rintro rfl
    exact absent member

theorem labelAt?_eq_some_iff :
    labelAt? (targets words) target = some number ↔
      ∃ first, FirstBranch words target first ∧ number = branchNumber words first := by
  constructor
  · intro labelled
    have member : target ∈ targets words := by
      obtain ⟨within, found, -⟩ := List.findIdx?_eq_some_iff_getElem.mp labelled
      exact beq_iff_eq.mp found ▸ List.getElem_mem within
    obtain ⟨index, leads⟩ := mem_targets_iff.mp member
    obtain ⟨first, -, branch⟩ := exists_firstBranch leads
    rw [branch.labelAt?] at labelled
    exact ⟨first, branch, (Option.some.inj labelled).symm⟩
  · rintro ⟨first, branch, rfl⟩
    exact branch.labelAt?

/-! ### Definition lines -/

/-- A number names one target. -/
theorem labelAt?_injective {address other : Int} (labelled : labelAt? destinations address = some number)
    (alike : labelAt? destinations other = some number) : address = other := by
  obtain ⟨_, first, -⟩ := List.findIdx?_eq_some_iff_getElem.mp labelled
  obtain ⟨_, second, -⟩ := List.findIdx?_eq_some_iff_getElem.mp alike
  exact (beq_iff_eq.mp first).symm.trans (beq_iff_eq.mp second)

theorem label_mem_block_iff :
    .label number ∈ block settings destinations comments index word ↔
      labelAt? destinations (offsetOf index) = some number := by
  cases labelled : labelAt? destinations (offsetOf index) <;> simp [block, labelLines, labelled, eq_comm]

theorem label_mem_blocks_iff :
    .label number ∈ blocks settings destinations notes start words ↔
      ∃ place < words.length, labelAt? destinations (offsetOf (start + place)) = some number := by
  induction words generalizing start with
  | nil => simp [blocks]
  | cons word rest ih =>
      rw [blocks_cons, List.mem_append, label_mem_block_iff, ih]
      constructor
      · rintro (here | ⟨place, within, there⟩)
        · exact ⟨0, Nat.succ_pos _, here⟩
        · exact ⟨place + 1, Nat.succ_lt_succ within, by rwa [← Nat.add_assoc, Nat.add_right_comm]⟩
      · rintro ⟨place, within, there⟩
        cases place with
        | zero => exact .inl there
        | succ place => exact .inr ⟨place, Nat.lt_of_succ_lt_succ within, by rwa [Nat.add_right_comm, Nat.add_assoc]⟩

theorem count_label_block (labelled : labelAt? destinations target = some number) :
    (block settings destinations comments index word).count (.label number) =
      if offsetOf index = target then 1 else 0 := by
  have above : (comments.map (Line.comment ·.text)).count (.label number) = 0 := by
    simp [List.count_eq_zero]
  split
  case isTrue here =>
    simp [block, labelLines, here, labelled, above]
  case isFalse elsewhere =>
    rw [List.count_eq_zero, label_mem_block_iff]
    exact fun alike => elsewhere (labelAt?_injective alike labelled)

/-- Only the word at the target has its label above it. -/
theorem count_label_blocks (labelled : labelAt? destinations target = some number) (wordwise : target % 4 = 0) :
    (blocks settings destinations notes start words).count (.label number) =
      if offsetOf start ≤ target ∧ target < offsetOf (start + words.length) then 1 else 0 := by
  induction words generalizing start with
  | nil =>
      rw [if_neg (by simp only [List.length_nil, Nat.add_zero]; omega)]
      rfl
  | cons word rest ih =>
      rw [blocks_cons, List.count_append, count_label_block labelled, ih, List.length_cons]
      simp only [offsetOf]
      grind

/-- A branch is printed with the number of its label. -/
theorem exists_reference (settings : ListingSettings) (comments : List Comment) (placed : words[index]? = some word)
    (leads : target? index word = some target) (labelled : labelAt? (targets words) target = some number) :
    ∃ before after,
      rows settings words comments =
        before ++ instructionRow settings word (".label" ++ toString number) :: after ∧
      before.countP (·.startsWith "\t") = index := by
  obtain ⟨before, after, cut, counted⟩ := exists_rows_eq_append settings comments placed
  have named : reference (targets words) index word = ".label" ++ toString number := by
    rw [reference, leads, Option.bind_some, labelled]
  refine ⟨before ++ (labelAt? (targets words) (offsetOf index)).toList.map definitionRow ++
    (attached comments index).map commentRow, after, ?_, ?_⟩
  · rw [cut, blockRows, named]
    simp only [List.append_assoc, List.cons_append, List.nil_append]
  · rw [List.countP_append, List.countP_append, counted]
    simp [List.countP_map, Function.comp_def]

/-- The label of a target in the program is defined right above the comments and the instruction there. -/
theorem exists_definition (settings : ListingSettings) (comments : List Comment)
    (labelled : labelAt? (targets words) target = some number) (wordwise : target % 4 = 0)
    (inside : 0 ≤ target ∧ target < 4 * words.length) :
    ∃ before after, ∃ (notes : List Comment) (there : Word) (reference : String),
      rows settings words comments =
        before ++ definitionRow number :: notes.map commentRow ++ instructionRow settings there reference :: after ∧
      (∀ note ∈ notes, note ∈ comments ∧ commentOffset note = target) ∧
      (before.countP (·.startsWith "\t") : Int) * 4 = target ∧
      words[before.countP (·.startsWith "\t")]? = some there := by
  obtain ⟨place, rfl⟩ : ∃ place, target = offsetOf place := ⟨(target / 4).toNat, by simp only [offsetOf]; omega⟩
  have within : place < words.length := by
    simp only [offsetOf] at inside
    omega
  have placed : words[place]? = some words[place] := List.getElem?_eq_getElem within
  obtain ⟨before, after, cut, counted⟩ := exists_rows_eq_append settings comments placed
  refine ⟨before, after, attached comments place, words[place], reference (targets words) place words[place], ?_,
    fun note => mem_of_mem_attached, ?_, by rw [counted]; exact placed⟩
  · rw [cut, blockRows, labelled]
    simp only [Option.toList_some, List.map_cons, List.map_nil, List.append_assoc, List.cons_append, List.nil_append]
  · rw [counted, offsetOf, Int.mul_comm]

/-! ### The target of a branch -/

theorem exists_branch_of_target? (leads : target? index word = some target) :
    ∃ link, Instruction.decode word = .branch link (Instruction.branchBytes word) ∧
      target = offsetOf index + (Instruction.branchBytes word + prefetch).toInt := by
  unfold target? at leads
  cases decoded : Instruction.decode word with
  | branch link offset =>
      obtain rfl := Instruction.offset_of_decode_branch decoded
      rw [decoded] at leads
      exact ⟨link, rfl, (Option.some.inj leads).symm⟩
  | _ => rw [decoded] at leads; cases leads

theorem target_mod_four (leads : target? index word = some target) : target % 4 = 0 := by
  obtain ⟨link, -, rfl⟩ := exists_branch_of_target? leads
  have wordwise := Instruction.branchBytes_mod_four word
  have ahead : (Instruction.branchBytes word + prefetch).toNat % 4 = 0 := by
    simp only [prefetch, BitVec.toNat_add, BitVec.reduceToNat]
    omega
  rw [offsetOf, BitVec.toInt_eq_toNat_cond]
  split <;> omega

end Listing

open Memory.Image (HoldsWords wordAddress)

variable {machine : Machine} {words : List Word} {base word : Word} {index : Nat} {target : Int}

/-- A branch leads as far from the first word in memory as the listing says. -/
theorem Machine.execute_branch (leads : Listing.target? index word = some target)
    (here : machine.registers.programCounter = wordAddress base index)
    (aligned : (wordAddress base index).toNat % 4 = 0)
    (holds : machine.status.holds (Condition.ofWord word) = true) :
    ∃ after, machine.execute word = .ok (after, .branched) ∧
      after.registers.programCounter = base + BitVec.ofInt 32 target := by
  obtain ⟨link, decoded, rfl⟩ := Listing.exists_branch_of_target? leads
  have lands : machine.registers.programCounter + Instruction.branchBytes word + prefetch =
      base + BitVec.ofInt 32 (Listing.offsetOf index + (Instruction.branchBytes word + prefetch).toInt) := by
    have first : BitVec.ofInt 32 (Listing.offsetOf index) = BitVec.ofNat 32 (4 * index) := by
      rw [← BitVec.ofInt_natCast]
      rfl
    rw [here, wordAddress, BitVec.ofInt_add, BitVec.ofInt_toInt, first]
    ac_rfl
  have wordwise : (machine.registers.programCounter + Instruction.branchBytes word + prefetch).toNat % 4 = 0 := by
    rw [target_mod_four decoded, here, aligned]
  rw [execute_of_holds holds, decoded, perform, branch, require_bind_of_true (beq_iff_eq.mpr wordwise), ← lands]
  refine ⟨_, rfl, ?_⟩
  simp only [write, Registers.programCounter, Registers.read_write, if_true]

namespace Emulator

variable {emulator : Emulator}

theorem step_branch (within : words[index]? = some word) (leads : Listing.target? index word = some target)
    (aligned : base.toNat % 4 = 0) (nonzero : base ≠ 0) (fits : base.toNat + 4 * words.length ≤ Word.bound)
    (loaded : emulator.machine.memory.HoldsWords base words) (here : emulator.programCounter = wordAddress base index)
    (holds : emulator.machine.status.holds (Condition.ofWord word) = true) :
    ∃ after, emulator.step = .ok (after, some .branch) ∧ after.programCounter = base + BitVec.ofInt 32 target := by
  obtain ⟨inside, rfl⟩ := List.getElem?_eq_some_iff.mp within
  have place : (wordAddress base index).toNat = base.toNat + 4 * index := Memory.Image.toNat_wordAddress (by omega)
  have aligned : (wordAddress base index).toNat % 4 = 0 := by omega
  have running : wordAddress base index ≠ 0 := by
    intro ended
    rw [ended] at place
    bv_omega
  have fetched : emulator.machine.fetch = .ok (some words[index]) := by
    rw [programCounter] at here
    rw [Machine.fetch, here, require_bind_of_true (beq_iff_eq.mpr aligned), if_neg running, Machine.loadWord,
      loaded index inside]
    rfl
  obtain ⟨link, decoded, -⟩ := Listing.exists_branch_of_target? leads
  obtain ⟨machine, executed, there⟩ := Machine.execute_branch leads here aligned holds
  have stepped : emulator.machine.step = .ok (machine, some .branch) := by
    simp [Machine.step, fetched, executed, decoded, Machine.advance, Instruction.classOf, bind, Except.bind, pure,
      Except.pure]
  exact ⟨{ emulator with machine, last := emulator.traced },
    by simp [step, stepped, bind, Except.bind, pure, Except.pure], there⟩

/-- The words are in the memory of an emulator made from their image. -/
theorem exists_ofWords_holdsWords (settings : EmulatorSettings) (some_word : words ≠ [])
    (aligned : base.toNat % 4 = 0) (fits : base.toNat + 4 * words.length ≤ Word.bound) :
    ∃ image, Memory.Image.ofWords base words settings.byteOrder = .ok image ∧
      (ofImage settings image).machine.memory.HoldsWords base words := by
  obtain ⟨image, made, -, -, order, loads⟩ := Memory.Image.exists_ofWords settings.byteOrder some_word aligned fits
  have same : (ofImage settings image).machine.memory = image := by
    rw [ofImage, ← order]
    rfl
  exact ⟨image, made, same ▸ loads⟩

end Emulator

namespace Listing

/-- What starts with a full stop defines the label of the first branch to some place in the program. -/
theorem exists_firstBranch_of_startsWith {row : String} (member : row ∈ rows settings words comments)
    (definition : row.startsWith "." = true) :
    ∃ target first, FirstBranch words target first ∧ 0 ≤ target ∧ target < 4 * words.length ∧
      row = definitionRow (branchNumber words first) := by
  obtain ⟨line, listed, rfl⟩ := List.mem_map.mp member
  obtain ⟨number, rfl⟩ := Line.exists_label_of_startsWith definition
  rw [lines_eq_blocks, label_mem_blocks_iff] at listed
  obtain ⟨place, within, labelled⟩ := listed
  obtain ⟨first, branch, rfl⟩ := labelAt?_eq_some_iff.mp labelled
  exact ⟨_, first, branch, by simp only [offsetOf]; omega, by simp only [offsetOf]; omega, rfl⟩

/-- A branch in the text of a listing: it names the label of the first branch with its target, that label is defined
once and right above what stands at the target if that is in the program, nothing else is defined, and from any memory
that holds the words the branch goes to the same place. -/
theorem text_branch {word : Word} (placed : words[index]? = some word) (leads : target? index word = some target)
    (settings : ListingSettings) (comments : List Comment) :
    ∃ first ≤ index, FirstBranch words target first ∧ ∃ rows : List String,
      text settings words comments = String.join (rows.map (· ++ "\n")) ∧
      (∀ row ∈ rows, Unbroken row ∨ ∃ comment ∈ comments, row = commentRow comment) ∧
      (∃ before after,
        rows = before ++ instructionRow settings word (".label" ++ toString (branchNumber words first)) :: after ∧
        before.countP (·.startsWith "\t") = index) ∧
      rows.count (definitionRow (branchNumber words first)) =
        (if 0 ≤ target ∧ target < 4 * words.length then 1 else 0) ∧
      (0 ≤ target ∧ target < 4 * words.length →
        ∃ before after, ∃ (notes : List Comment) (there : Word) (reference : String),
          rows = before ++ definitionRow (branchNumber words first) :: notes.map commentRow ++
            instructionRow settings there reference :: after ∧
          (∀ note ∈ notes, note ∈ comments ∧ commentOffset note = target) ∧
          (before.countP (·.startsWith "\t") : Int) * 4 = target ∧
          words[before.countP (·.startsWith "\t")]? = some there) ∧
      (∀ row ∈ rows, row.startsWith "." = true →
        ∃ target first, FirstBranch words target first ∧ 0 ≤ target ∧ target < 4 * words.length ∧
          row = definitionRow (branchNumber words first)) ∧
      ∀ base : Word, base.toNat % 4 = 0 → base ≠ 0 → base.toNat + 4 * words.length ≤ Word.bound →
        (∀ settings, ∃ image, Memory.Image.ofWords base words settings.byteOrder = .ok image ∧
          (Emulator.ofImage settings image).machine.memory.HoldsWords base words) ∧
        ∀ emulator : Emulator, emulator.machine.memory.HoldsWords base words →
          emulator.programCounter = wordAddress base index →
          emulator.machine.status.holds (Condition.ofWord word) = true →
          ∃ after, emulator.step = .ok (after, some .branch) ∧
            after.programCounter = base + BitVec.ofInt 32 target := by
  have some_word : words ≠ [] := by
    rintro rfl
    cases placed
  have wordwise := target_mod_four leads
  obtain ⟨first, before, branch⟩ := exists_firstBranch (Option.bind_eq_some_iff.mpr ⟨word, placed, leads⟩)
  have labelled := branch.labelAt?
  refine ⟨first, before, branch, rows settings words comments, text_eq_join, fun row => unbroken_of_mem_rows,
    exists_reference settings comments placed leads labelled, ?count,
    exists_definition settings comments labelled wordwise, fun row => exists_firstBranch_of_startsWith, ?execution⟩
  case count =>
    rw [rows, count_definitionRow, lines_eq_blocks, count_label_blocks labelled wordwise]
    simp only [offsetOf, Nat.zero_add]
    rfl
  case execution =>
    intro base aligned nonzero fits
    exact ⟨fun settings => Emulator.exists_ofWords_holdsWords settings some_word aligned fits,
      fun emulator => Emulator.step_branch placed leads aligned nonzero fits⟩

/-- A branch to itself and one back to it. -/
def twoLoops : List Word := [0xEAFFFFFE, 0xEAFFFFFD]

example : text ⟨.arm7, .little, false⟩ twoLoops [] = ".label0:\n\tb       .label0\t\t\n\tb       .label0\t\t\n" := by
  decide

/-- Both loops go by the one label, and from its place in memory the second goes to the first. -/
theorem text_twoLoops :
    twoLoops[1]? = some 0xEAFFFFFD ∧ target? 1 0xEAFFFFFD = some 0 ∧
      (∃ rows : List String,
        text ⟨.arm7, .little, false⟩ twoLoops [] = String.join (rows.map (· ++ "\n")) ∧
        (∃ before after, rows = before ++ "\tb       .label0\t\t" :: after ∧
          before.countP (·.startsWith "\t") = 1) ∧
        rows.count ".label0:" = 1 ∧
        (∃ before after reference, rows =
            before ++ ".label0:" :: instructionRow ⟨.arm7, .little, false⟩ 0xEAFFFFFE reference :: after ∧
          before.countP (·.startsWith "\t") = 0)) ∧
      ∃ image, Memory.Image.ofWords 0x1000 twoLoops .little = .ok image ∧
        ∃ after, ((Emulator.ofImage ⟨.arm7, .little, false⟩ image).startAt 0x1004).step = .ok (after, some .branch) ∧
          after.programCounter = 0x1000 := by
  have placed : twoLoops[1]? = some 0xEAFFFFFD := rfl
  have leads : target? 1 0xEAFFFFFD = some 0 := by decide
  obtain ⟨first, before, branch, rows, printed, -, ⟨above, below, named, counted⟩, once, definition, -, execution⟩ :=
    text_branch placed leads ⟨.arm7, .little, false⟩ []
  obtain rfl : first = 0 := by
    by_contra later
    exact branch.earliest 0 (Nat.pos_of_ne_zero later) (by decide)
  obtain ⟨front, back, notes, there, reference, defined, listed, place, word⟩ := definition ⟨by decide, by decide⟩
  have first_word : front.countP (·.startsWith "\t") = 0 := by omega
  have none : notes = [] := List.eq_nil_iff_forall_not_mem.mpr fun note member => by
    obtain ⟨comment, -⟩ := listed note member
    cases comment
  rw [first_word] at word
  cases word
  subst none
  obtain ⟨loads, steps⟩ := execution 0x1000 (by decide) (by decide) (by decide)
  obtain ⟨image, made, holds⟩ := loads ⟨.arm7, .little, false⟩
  have row : instructionRow ⟨.arm7, .little, false⟩ 0xEAFFFFFD (".label" ++ toString (branchNumber twoLoops 0)) =
      "\tb       .label0\t\t" := by decide
  have label : definitionRow (branchNumber twoLoops 0) = ".label0:" := by decide
  rw [row] at named
  rw [label] at once
  refine ⟨placed, leads, ⟨rows, printed, ⟨above, below, named, counted⟩, once, ?_⟩, image, made, ?_⟩
  · exact ⟨front, back, reference, by simpa [label] using defined, first_word⟩
  · exact steps _ holds rfl rfl

end Listing

end Arm32
