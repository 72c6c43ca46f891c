import Mathlib
import RequestFile.Proofs.Placeholder.Escape
import RequestFile.Proofs.Resolution.Circular

/-!
# Unresolved placeholders as written

A placeholder without a value is reported in the form in which it has been looked for, where escaped
braces stand behind their marks. With the marks put back it stands in the text, or in the value of a
file variable, as it is written there.
-/

namespace RequestFile

open Placeholder

/-! ## Where placeholders without a value come from -/

/-- What a segment leaves without a value is the segment itself, or something in the value of a
variable that is free. -/
theorem Scope.unresolved_mem_expandSegment {s : Scope} {clock : Clock} {free : List String}
    {segment : Segment} {source : List Char}
    (mem : .unresolved source ∈ s.expandSegment clock free segment) :
    source = segment.source ∨ ∃ name ∈ free, ∃ value, s.file.get? name = some value ∧
      .unresolved source ∈ s.expand clock (free.erase name) value.toList := by
  have ofEnvironment {name written : List Char}
      (mem : .unresolved source ∈ [s.environmentPart name written]) : source = written := by
    rw [List.mem_singleton, environmentPart] at mem
    split at mem
    · cases mem
    · exact Part.unresolved.inj mem
  have ofGenerator {expression written : List Char}
      (mem : .unresolved source ∈ [generatorPart clock expression written]) :
      source = written := by
    rw [List.mem_singleton, generatorPart] at mem
    split at mem
    · cases mem
    · exact Part.unresolved.inj mem
  cases segment with
  | char c => simp [expandSegment] at mem
  | dollar content => exact .inl (ofEnvironment mem)
  | braces content =>
    rw [expandSegment] at mem
    split at mem
    · exact .inl (ofGenerator mem)
    · split at mem
      · exact .inl (ofEnvironment mem)
      · next value found =>
        split at mem
        · next avail => exact .inr ⟨_, avail, value, found, mem⟩
        · exact .inl (Part.unresolved.inj (List.mem_singleton.1 mem))

/-- Whether something stands in a text or in the value of a file variable. -/
def Table.HasText (file : Table String) (text : String) (cs : List Char) : Prop :=
  ∃ origin, (origin = text ∨ ∃ name, file.get? name = some origin) ∧ cs <:+: origin.toList

/-- What is left without a value stands in the text or in the value of a file variable, when escaped
braces are hidden there. -/
theorem Scope.infix_of_unresolved_mem_expand {s : Scope} {clock : Clock} {free : List String}
    {text : String} {source : List Char}
    (mem : .unresolved source ∈ s.expand clock free text.toList) :
    ∃ origin, (origin = text ∨ ∃ name, s.file.get? name = some origin) ∧
      source <:+: mask origin.toList := by
  induction free using free_induction generalizing text with
  | step free ih =>
    rw [expand_eq, List.mem_flatMap] at mem
    obtain ⟨segment, memSegment, mem⟩ := mem
    rcases unresolved_mem_expandSegment mem with rfl | ⟨name, avail, value, found, mem⟩
    · exact ⟨text, .inl rfl, source_infix_of_mem_segments memSegment⟩
    · obtain ⟨origin, rfl | placed, inside⟩ := ih name avail mem
      · exact ⟨origin, .inr ⟨name, found⟩, inside⟩
      · exact ⟨origin, .inr placed, inside⟩

theorem hasText_restore_of_mem_unresolvedReferences {clock : Clock} {file : Table String}
    {text source : String} (unmarked : ∀ c ∈ text.toList, c ∉ marks)
    (values : ∀ name value, file.get? name = some value → ∀ c ∈ value.toList, c ∉ marks)
    (mem : source ∈ unresolvedReferences clock file text) :
    file.HasText text (restore source.toList) := by
  obtain ⟨part, mem, left⟩ := mem_unresolvedReferences.1 mem
  rw [unresolved?_eq_some] at left
  rw [left, Scope.parts] at mem
  split at mem
  · obtain ⟨origin, placed, inside⟩ := Scope.infix_of_unresolved_mem_expand mem
    have plain : restore origin.toList = origin.toList := by
      rw [restore_eq_self_iff]
      rcases placed with rfl | ⟨name, found⟩
      · exact unmarked
      · exact values name origin found
    refine ⟨origin, placed, ?_⟩
    rw [← plain, ← restore_mask origin.toList]
    exact inside.flatMap restoreChar
  · cases List.mem_singleton.1 mem

/-- Placeholders without a value are reported once each, and with their escapes put back they stand
in the text or in the value of a file variable. Exactly those without escapes in them are reported
as they are written. -/
theorem unresolvedReferences_written (clock : Clock) {file : Table String} {text : String}
    (unmarked : ∀ c ∈ text.toList, c ∉ marks)
    (values : ∀ name value, file.get? name = some value → ∀ c ∈ value.toList, c ∉ marks) :
    (unresolvedReferences clock file text).Nodup ∧
      ∀ source ∈ unresolvedReferences clock file text,
        file.HasText text (restore source.toList) ∧
          (file.HasText text source.toList ↔ ∀ c ∈ source.toList, c ∉ marks) := by
  refine ⟨nodup_eraseDups _, fun source mem => ?_⟩
  have restored := hasText_restore_of_mem_unresolvedReferences unmarked values mem
  refine ⟨restored, ?_, ?_⟩
  · rintro ⟨origin, rfl | ⟨name, found⟩, inside⟩ c mem
    · exact unmarked c (inside.subset mem)
    · exact values name origin found c (inside.subset mem)
  · intro plain
    rwa [restore_eq_self_iff.2 plain] at restored

/-- A placeholder with escaped braces in it. -/
def escapedBraces : String := "\x7b\x7ba\\\x7d\x7db\x7d\x7d"

/-- The placeholder in the form in which it is reported. -/
def markedBraces : String := "\x7b\x7ba\uE001b\x7d\x7d"

/-- A file variable with the placeholder in its value. -/
def escapedTable : Table String :=
  .ofList [("v", "/" ++ escapedBraces)]

theorem unresolvedReferences_written_escapedTable :
    (∀ c ∈ "{{v}}{{u}}{{u}}".toList, c ∉ marks) ∧
    (∀ name value, escapedTable.get? name = some value → ∀ c ∈ value.toList, c ∉ marks) ∧
    ∀ clock : Clock,
      unresolvedReferences clock escapedTable "{{v}}{{u}}{{u}}" = [markedBraces, "{{u}}"] ∧
      escapedTable.HasText "{{v}}{{u}}{{u}}" (restore markedBraces.toList) ∧
      ¬ escapedTable.HasText "{{v}}{{u}}{{u}}" markedBraces.toList ∧
      escapedTable.HasText "{{v}}{{u}}{{u}}" "{{u}}".toList := by
  have unmarked : ∀ c ∈ "{{v}}{{u}}{{u}}".toList, c ∉ marks := not_mem_marks_of_all (by decide)
  have values : ∀ name value, escapedTable.get? name = some value →
      ∀ c ∈ value.toList, c ∉ marks := by
    intro name value found
    have mem : (name, value) ∈ escapedTable.entries := Table.mem_entries_of_get? found
    cases List.mem_singleton.1 mem
    exact not_mem_marks_of_all (by decide)
  refine ⟨unmarked, values, fun clock => ?_⟩
  have reported : unresolvedReferences clock escapedTable "{{v}}{{u}}{{u}}" =
      [markedBraces, "{{u}}"] := by
    cbv
  obtain ⟨-, written⟩ := unresolvedReferences_written clock unmarked values
  simp only [reported, List.forall_mem_cons] at written
  obtain ⟨⟨restored, verbatim⟩, ⟨-, plain⟩, -⟩ := written
  refine ⟨reported, restored, fun placed => ?_, plain.2 (not_mem_marks_of_all (by decide))⟩
  exact verbatim.1 placed closeMark (by decide) (by decide)

/-- Escaped braces in a placeholder are reported as a mark, which stands nowhere in the text. -/
theorem unresolvedReferences_mark :
    (∀ c ∈ escapedBraces.toList, c ∉ marks) ∧
    (∀ clock : Clock, unresolvedReferences clock .empty escapedBraces = [markedBraces]) ∧
    ¬ Table.HasText .empty escapedBraces markedBraces.toList := by
  refine ⟨not_mem_marks_of_all (by decide), fun clock => by cbv, ?_⟩
  rintro ⟨origin, rfl | ⟨name, found⟩, inside⟩
  · exact absurd inside (by decide)
  · cases found

end RequestFile
