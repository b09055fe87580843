import Arm32.Machine

/-! How refusals pass through a computation: whether it ends in one, of which kind it can be, and what holds of the
answer if it does not. -/

namespace Arm32

variable {α β : Type} {allowed : Refusal → Prop}

/-- The computation has no answer. -/
def Refused (result : Except Refusal α) : Prop := ∃ refusal, result = .error refusal

/-- Any refusal that the computation ends in is an allowed one. -/
def RefusesOnly (allowed : Refusal → Prop) (result : Except Refusal α) : Prop :=
  ∀ refusal, result = .error refusal → allowed refusal

/-- A refusal by memory: the address is misaligned, or not mapped. -/
def Refusal.IsAccess (refusal : Refusal) : Prop := ∃ fault, refusal = .access fault

@[simp] theorem refused_error (refusal : Refusal) :
    Refused (.error refusal : Except Refusal α) := ⟨refusal, rfl⟩

@[simp] theorem not_refused_ok (value : α) : ¬ Refused (.ok value) := by
  rintro ⟨refusal, impossible⟩
  cases impossible

@[simp] theorem not_refused_pure (value : α) : ¬ Refused (pure value) := not_refused_ok value

@[simp] theorem refused_require {rule : Bool} {otherwise : Refusal} :
    Refused (require rule otherwise) ↔ rule = false := by
  cases rule <;> simp [require]

@[simp] theorem refused_functor_map {result : Except Refusal α} {function : α → β} :
    Refused (function <$> result) ↔ Refused result := by
  cases result <;> simp [Functor.map, Except.map]

@[simp] theorem refused_map {result : Except Refusal α} {function : α → β} :
    Refused (result.map function) ↔ Refused result := by
  cases result <;> simp [Except.map]

/-- The rest may depend on an answer, as long as whether it refuses does not. -/
theorem refused_bind_iff {result : Except Refusal α} {next : α → Except Refusal β} {rest : Prop}
    (refused : ∀ value, Refused (next value) ↔ rest) :
    Refused (result >>= next) ↔ Refused result ∨ rest := by
  cases result with
  | error refusal => simp [bind, Except.bind]
  | ok value => simpa [bind, Except.bind] using refused value

theorem refused_bind_of_answers {result : Except Refusal α} {next : α → Except Refusal β}
    (answers : ∀ value, ¬ Refused (next value)) : Refused (result >>= next) ↔ Refused result := by
  rw [refused_bind_iff fun value => iff_false_intro (answers value), or_false]

theorem Refused.bind_left {result : Except Refusal α} {next : α → Except Refusal β}
    (refused : Refused result) : Refused (result >>= next) := by
  obtain ⟨refusal, rfl⟩ := refused
  exact ⟨refusal, rfl⟩

/-- Whatever a computation answers, the rest refuses. -/
theorem Refused.bind_right {result : Except Refusal α} {next : α → Except Refusal β}
    (refused : ∀ value, Refused (next value)) : Refused (result >>= next) := by
  cases result with
  | error refusal => exact ⟨refusal, rfl⟩
  | ok value => exact refused value

@[simp] theorem refused_require_bind {rule : Bool} {otherwise : Refusal} {next : Unit → Except Refusal α} :
    Refused (require rule otherwise >>= next) ↔ rule = false ∨ Refused (next ()) := by
  cases rule <;> simp [require, bind, Except.bind]

theorem require_bind_of_true {rule : Bool} {otherwise : Refusal} {next : Unit → Except Refusal α}
    (kept : rule = true) : (require rule otherwise >>= next) = next () := by
  subst rule
  rfl

theorem require_bind_of_false {rule : Bool} {otherwise : Refusal} {next : Unit → Except Refusal α}
    (broken : rule = false) : (require rule otherwise >>= next) = .error otherwise := by
  subst rule
  rfl

theorem exists_ok_of_not_refused {result : Except Refusal α} (answered : ¬ Refused result) :
    ∃ value, result = .ok value := by
  cases result with
  | error refusal => exact absurd (refused_error refusal) answered
  | ok value => exact ⟨value, rfl⟩

theorem exists_ok_iff {result : Except Refusal α} : (∃ value, result = .ok value) ↔ ¬ Refused result := by
  refine ⟨?_, exists_ok_of_not_refused⟩
  rintro ⟨value, rfl⟩
  exact not_refused_ok value

theorem RefusesOnly.of_not_refused {result : Except Refusal α} (answered : ¬ Refused result) :
    RefusesOnly allowed result := by
  intro refusal refused
  exact absurd ⟨refusal, refused⟩ answered

/-- A computation whose only rule is kept. -/
theorem RefusesOnly.of_refused_iff {result : Except Refusal α} {forbidden : Bool}
    (iff : Refused result ↔ forbidden = true) (permitted : forbidden = false) : RefusesOnly allowed result :=
  .of_not_refused (by simp [iff, permitted])

@[simp] theorem refusesOnly_ok (value : α) : RefusesOnly allowed (.ok value) :=
  .of_not_refused (not_refused_ok value)

@[simp] theorem refusesOnly_pure (value : α) : RefusesOnly allowed (pure value) := refusesOnly_ok value

@[simp] theorem refusesOnly_error {refusal : Refusal} :
    RefusesOnly allowed (.error refusal : Except Refusal α) ↔ allowed refusal := by
  simp [RefusesOnly]

theorem RefusesOnly.bind {result : Except Refusal α} {next : α → Except Refusal β}
    (first : RefusesOnly allowed result) (rest : ∀ value, RefusesOnly allowed (next value)) :
    RefusesOnly allowed (result >>= next) := by
  cases result with
  | error refusal =>
      intro other refused
      cases refused
      exact first _ rfl
  | ok value => exact rest value

theorem RefusesOnly.map {result : Except Refusal α} {function : α → β}
    (only : RefusesOnly allowed result) : RefusesOnly allowed (result.map function) := by
  cases result with
  | error refusal => simpa [Except.map] using only
  | ok value => simp [Except.map]

/-- Any answer that the computation ends in has the property. -/
def Ensures {ε : Type} (property : α → Prop) (result : Except ε α) : Prop :=
  ∀ value, result = .ok value → property value

namespace Ensures

variable {ε : Type} {property : α → Prop} {other : β → Prop}

theorem answer {value : α} (holds : property value) : Ensures property (.ok value : Except ε α) := by
  intro answer same
  cases same
  exact holds

theorem pure {value : α} (holds : property value) : Ensures property (Pure.pure value : Except ε α) := answer holds

theorem error (error : ε) : Ensures property (.error error : Except ε α) := by
  intro answer impossible
  cases impossible

theorem bind {result : Except ε α} {next : α → Except ε β} (first : Ensures property result)
    (rest : ∀ value, property value → Ensures other (next value)) : Ensures other (result >>= next) := by
  cases result with
  | error refusal => exact error refusal
  | ok value => exact rest value (first value rfl)

/-- Nothing needs to be known of what the first part answers. -/
theorem bind_any {result : Except ε α} {next : α → Except ε β} (rest : ∀ value, Ensures other (next value)) :
    Ensures other (result >>= next) := by
  have first : Ensures (fun _ => True) result := fun _ _ => trivial
  exact first.bind fun value _ => rest value

/-- What follows a part may count on what the part has answered. -/
theorem bind_found {result : Except ε α} {next : α → Except ε β}
    (rest : ∀ value, result = .ok value → Ensures other (next value)) : Ensures other (result >>= next) := by
  have found : Ensures (fun value => result = .ok value) result := fun _ same => same
  exact found.bind rest

theorem map {result : Except ε α} {function : α → β} (first : Ensures property result)
    (rest : ∀ value, property value → other (function value)) : Ensures other (result.map function) := by
  cases result with
  | error refusal => exact error refusal
  | ok value => exact answer (rest value (first value rfl))

/-- What follows a rule may count on it. -/
theorem require_bind {rule : Bool} {otherwise : Refusal} {next : Unit → Except Refusal β}
    (rest : rule = true → Ensures other (next ())) : Ensures other (require rule otherwise >>= next) := by
  cases rule with
  | false => exact error otherwise
  | true => exact rest rfl

end Ensures

namespace Machine

variable (machine : Machine)

theorem refusesOnly_mapError_access (result : Except Memory.Fault α) :
    RefusesOnly Refusal.IsAccess (result.mapError .access) := by
  cases result with
  | error fault => exact refusesOnly_error.mpr ⟨fault, rfl⟩
  | ok value => exact refusesOnly_ok value

theorem withMemory_refuses_access (result : Except Memory.Fault Memory.Image) :
    RefusesOnly Refusal.IsAccess (machine.withMemory result) := by
  cases result with
  | error fault => simp [withMemory, Refusal.IsAccess]
  | ok memory => simp [withMemory]

theorem loadByte_refuses_access (address : Word) :
    RefusesOnly Refusal.IsAccess (machine.loadByte address) := refusesOnly_mapError_access _

theorem loadHalfword_refuses_access (address : Word) :
    RefusesOnly Refusal.IsAccess (machine.loadHalfword address) := refusesOnly_mapError_access _

theorem loadWord_refuses_access (address : Word) :
    RefusesOnly Refusal.IsAccess (machine.loadWord address) := refusesOnly_mapError_access _

theorem storeByte_refuses_access (address : Word) (value : Byte) :
    RefusesOnly Refusal.IsAccess (machine.storeByte address value) := machine.withMemory_refuses_access _

theorem storeHalfword_refuses_access (address : Word) (value : BitVec 16) :
    RefusesOnly Refusal.IsAccess (machine.storeHalfword address value) := machine.withMemory_refuses_access _

theorem storeWord_refuses_access (address value : Word) :
    RefusesOnly Refusal.IsAccess (machine.storeWord address value) := machine.withMemory_refuses_access _

end Machine

end Arm32
