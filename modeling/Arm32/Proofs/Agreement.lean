import Arm32.Refusal

/-! Two computations that come out alike: both end in the same error, or both in answers, and the answers are related. -/

namespace Arm32

variable {ε δ α β γ θ : Type}

inductive Agree (related : α → β → Prop) : Except ε α → Except ε β → Prop where
  | answers {first : α} {second : β} (same : related first second) : Agree related (.ok first) (.ok second)
  | errors (error : ε) : Agree related (.error error) (.error error)

namespace Agree

variable {related wider : α → β → Prop} {other : γ → θ → Prop}

theorem pure {first : α} {second : β} (same : related first second) :
    Agree related (Pure.pure first : Except ε α) (Pure.pure second) := .answers same

theorem of_eq {first second : Except ε α} (same : first = second) : Agree (· = ·) first second := by
  subst second
  cases first with
  | error error => exact .errors error
  | ok value => exact .answers rfl

theorem mono {first : Except ε α} {second : Except ε β} (agree : Agree related first second)
    (weaker : ∀ before after, related before after → wider before after) : Agree wider first second := by
  cases agree with
  | answers same => exact .answers (weaker _ _ same)
  | errors error => exact .errors error

theorem exists_answer {first : Except ε α} {second : Except ε β} {value : β} (agree : Agree related first second)
    (ended : second = .ok value) : ∃ answer, first = .ok answer ∧ related answer value := by
  cases agree with
  | answers same =>
      cases ended
      exact ⟨_, rfl, same⟩
  | errors error => cases ended

theorem bind {first : Except ε α} {second : Except ε β} {firstNext : α → Except ε γ} {secondNext : β → Except ε θ}
    (agree : Agree related first second)
    (rest : ∀ before after, related before after → Agree other (firstNext before) (secondNext after)) :
    Agree other (first >>= firstNext) (second >>= secondNext) := by
  cases agree with
  | answers same => exact rest _ _ same
  | errors error => exact .errors error

/-- Both computations go on from the same answer. -/
theorem bind_of_eq {first second : Except ε α} {firstNext : α → Except ε γ} {secondNext : α → Except ε θ}
    (same : first = second) (rest : ∀ value, Agree other (firstNext value) (secondNext value)) :
    Agree other (first >>= firstNext) (second >>= secondNext) := by
  refine (of_eq same).bind ?_
  intro before after equal
  subst after
  exact rest before

theorem require_bind {rule : Bool} {otherwise : Refusal} {firstNext : Unit → Except Refusal γ}
    {secondNext : Unit → Except Refusal θ} (rest : Agree other (firstNext ()) (secondNext ())) :
    Agree other (require rule otherwise >>= firstNext) (require rule otherwise >>= secondNext) :=
  bind_of_eq rfl fun _ => rest

theorem map {first : Except ε α} {second : Except ε β} {firstNext : α → γ} {secondNext : β → θ}
    (agree : Agree related first second)
    (rest : ∀ before after, related before after → other (firstNext before) (secondNext after)) :
    Agree other (first.map firstNext) (second.map secondNext) := by
  cases agree with
  | answers same => exact .answers (rest _ _ same)
  | errors error => exact .errors error

theorem mapError {first : Except ε α} {second : Except ε β} {function : ε → δ} (agree : Agree related first second) :
    Agree related (first.mapError function) (second.mapError function) := by
  cases agree with
  | answers same => exact .answers same
  | errors error => exact .errors (function error)

end Agree

end Arm32
