import Mathlib
import RequestFile.Resolution

/-!
# Expansion, segment by segment

`Scope.expand` resolves a text in one go. Here it is taken apart into what each segment of the text
contributes, which is the form that proofs about resolution work with. They go by induction over the
variables that are free.
-/

namespace RequestFile

open Placeholder

/-- Induction over the variables that are free: in the value of a variable, all others that are free
stay so. -/
@[elab_as_elim]
theorem free_induction {motive : List String → Prop}
    (step : ∀ free, (∀ name ∈ free, motive (free.erase name)) → motive free)
    (free : List String) : motive free := by
  induction size : free.length using Nat.strongRecOn generalizing free with
  | _ n ih => exact step free fun name avail => ih _ (size ▸ length_erase_lt avail) _ rfl

/-- What a segment of a text is expanded to. -/
def Scope.expandSegment (s : Scope) (clock : Clock) (free : List String) : Segment → List Part
  | .char c => [.text (unmaskChar c)]
  | .dollar content => [s.environmentPart (Text.trim content) (Segment.dollar content).source]
  | .braces content =>
    if (Text.trim content).head? == some '$' then
      [generatorPart clock (Text.trim content) (Segment.braces content).source]
    else
      match s.file.get? (String.ofList (Text.trim content)) with
      | none => [s.environmentPart (Text.trim content) (Segment.braces content).source]
      | some value =>
        if String.ofList (Text.trim content) ∈ free then
          s.expand clock (free.erase (String.ofList (Text.trim content))) value.toList
        else [.unresolved (Segment.braces content).source]

theorem Scope.expand_eq (s : Scope) (clock : Clock) (free : List String) (text : List Char) :
    s.expand clock free text = (segments (mask text)).flatMap (s.expandSegment clock free) := by
  rw [Scope.expand]
  congr 1
  funext segment
  cases segment with
  | char c => rfl
  | dollar content => rfl
  | braces content =>
    simp only [Scope.expandSegment]
    split
    · rfl
    · cases s.file.get? (String.ofList (Text.trim content)) with
      | none => rfl
      | some value => simp only [dite_eq_ite]

end RequestFile
