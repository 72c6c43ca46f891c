import Mathlib
import RequestFile.Proofs.Resolution.Expand

/-!
# Larger environments

A variable that is added to the environment gives a value to placeholders that had none. It changes
nothing else: names of file variables stay hidden, values that were found stay, and values that are
put in are not looked into. So an unresolved placeholder is the only place where environments can
make a difference.
-/

namespace RequestFile

open Placeholder

/-- One table has all entries of another one with the same values, and perhaps more. -/
def Table.IsWithin {α : Type} (t u : Table α) : Prop :=
  ∀ name value, t.get? name = some value → u.get? name = some value

theorem Table.isWithin_empty {α : Type} (t : Table α) : (empty : Table α).IsWithin t := by
  intro name value found
  cases found

/-! ## Parts that get a value -/

/-- What may become of a part when more variables have values: it stays as it is, or an unresolved
placeholder gets a value. -/
inductive Part.Becomes : Part → Part → Prop where
  | same {part : Part} : Becomes part part
  | resolved {source value : List Char} : Becomes (.unresolved source) (.text value)

namespace Part

variable {parts others : List Part}

theorem forall₂_becomes_self (parts : List Part) : List.Forall₂ Becomes parts parts :=
  List.forall₂_same.2 fun _ _ => .same

theorem sublist_unresolved? (becomes : List.Forall₂ Becomes parts others) :
    (others.filterMap unresolved?).Sublist (parts.filterMap unresolved?) := by
  induction becomes with
  | nil => exact .slnil
  | @cons part _ _ _ first _ ih =>
    cases first with
    | same =>
      rw [List.filterMap_cons, List.filterMap_cons]
      cases part.unresolved? with
      | none => exact ih
      | some source => exact ih.cons_cons source
    | resolved => exact ih.cons _

/-- Where nothing is unresolved, nothing changes. -/
theorem eq_of_becomes (becomes : List.Forall₂ Becomes parts others)
    (none : parts.filterMap unresolved? = []) : others = parts := by
  rw [List.filterMap_eq_nil_iff] at none
  induction becomes with
  | nil => rfl
  | cons first _ ih =>
    rw [List.forall_mem_cons] at none
    cases first with
    | same => rw [ih none.2]
    | resolved => cases none.1

end Part

/-! ## Expansion -/

section

variable {file environment larger : Table String} {clock : Clock} {free : List String}

theorem Scope.environmentPart_becomes (more : environment.IsWithin larger)
    (name source : List Char) :
    Part.Becomes (Scope.environmentPart { file, environment } name source)
      (Scope.environmentPart { file, environment := larger } name source) := by
  cases found : environment.get? (String.ofList name) with
  | some value =>
    rw [environmentPart, environmentPart, found, more _ _ found]
    exact .same
  | none =>
    rw [environmentPart, environmentPart, found]
    cases larger.get? (String.ofList name) with
    | none => exact .same
    | some value => exact .resolved

/-- What a segment is expanded to becomes what it is expanded to in the larger environment, if this
holds of the values of all variables that are free. -/
theorem Scope.expandSegment_becomes (more : environment.IsWithin larger)
    (values : ∀ name ∈ free, ∀ value : String,
      List.Forall₂ Part.Becomes
        (Scope.expand { file, environment } clock (free.erase name) value.toList)
        (Scope.expand { file, environment := larger } clock (free.erase name) value.toList))
    (segment : Segment) :
    List.Forall₂ Part.Becomes (Scope.expandSegment { file, environment } clock free segment)
      (Scope.expandSegment { file, environment := larger } clock free segment) := by
  have placed : ∀ name source, List.Forall₂ Part.Becomes
      [Scope.environmentPart { file, environment } name source]
      [Scope.environmentPart { file, environment := larger } name source] := fun name source =>
    .cons (environmentPart_becomes more name source) .nil
  cases segment with
  | char c => exact Part.forall₂_becomes_self _
  | dollar content => exact placed _ _
  | braces content =>
    rw [expandSegment, expandSegment]
    dsimp only
    split
    · exact Part.forall₂_becomes_self _
    · cases file.get? (String.ofList (Text.trim content)) with
      | none => exact placed _ _
      | some value =>
        dsimp only
        split
        · next avail => exact values _ avail value
        · exact Part.forall₂_becomes_self _

theorem Scope.expand_becomes (more : environment.IsWithin larger) (text : List Char) :
    List.Forall₂ Part.Becomes (Scope.expand { file, environment } clock free text)
      (Scope.expand { file, environment := larger } clock free text) := by
  induction free using free_induction generalizing text with
  | step free ih =>
    rw [expand_eq, expand_eq]
    refine List.rel_flatMap (List.forall₂_same.2 fun _ _ => rfl) ?_
    rintro segment _ rfl
    exact expandSegment_becomes more (fun name avail value => ih name avail value.toList) segment

theorem Scope.parts_becomes (more : environment.IsWithin larger) (text : String) :
    List.Forall₂ Part.Becomes (Scope.parts { file, environment } clock text)
      (Scope.parts { file, environment := larger } clock text) := by
  rw [parts, parts]
  split
  · exact expand_becomes more text.toList
  · exact Part.forall₂_becomes_self _

/-- A text whose placeholders are all resolved is resolved to the same in a larger environment. -/
theorem Scope.resolve_eq_of_isWithin (more : environment.IsWithin larger) {text : String}
    (none : Scope.unresolved { file, environment } clock text = []) (γ : Type) [RandomGen γ]
    (source : γ) :
    Scope.resolve { file, environment := larger } clock text source =
      Scope.resolve { file, environment } clock text source := by
  rw [resolve, resolve, Part.eq_of_becomes (parts_becomes more text) none]

end

/-- In a larger environment, the unresolved placeholders of a text are some of those that were
unresolved before, in the same order, and if there were none the text is resolved to the same. If
the file variables alone resolve all placeholders, environments make no difference. -/
theorem Scope.environment_only_resolves_more (file : Table String) (clock : Clock) (text : String) :
    (∀ environment larger : Table String, environment.IsWithin larger →
      (Scope.unresolved { file, environment := larger } clock text).Sublist
          (Scope.unresolved { file, environment } clock text) ∧
        (Scope.unresolved { file, environment } clock text = [] →
          ∀ (γ : Type) [RandomGen γ] (source : γ),
            Scope.resolve { file, environment := larger } clock text source =
              Scope.resolve { file, environment } clock text source)) ∧
    (unresolvedReferences clock file text = [] →
      ∀ (environment other : Table String) (γ : Type) [RandomGen γ] (source : γ),
        Scope.resolve { file, environment } clock text source =
          Scope.resolve { file, environment := other } clock text source) := by
  constructor
  · intro environment larger more
    exact ⟨Part.sublist_unresolved? (parts_becomes more text), resolve_eq_of_isWithin more⟩
  · intro none environment other γ _ source
    have alone : Scope.unresolved { file } clock text = [] := by
      rw [List.eq_nil_iff_forall_not_mem] at none ⊢
      exact fun placeholder mem => none placeholder (List.mem_eraseDups.2 mem)
    exact (resolve_eq_of_isWithin (Table.isWithin_empty environment) alone γ source).trans
      (resolve_eq_of_isWithin (Table.isWithin_empty other) alone γ source).symm

/-- Two variables in a circle, one of which refers to the environment, and a variable apart. -/
def portTable : Table String :=
  .ofList [("a", "{{b}}-{{host}}"), ("b", "{{a}}${PORT}"), ("c", "/v1")]

def portEnvironment : Table String :=
  .ofList [("PORT", "80")]

/-- An environment with two more variables, one of them under the name of a file variable. -/
def hostEnvironment : Table String :=
  .ofList [("host", "x"), ("PORT", "80"), ("b", "hidden")]

theorem environment_only_resolves_more_portTable :
    portEnvironment.IsWithin hostEnvironment ∧ ∀ clock : Clock,
      Scope.unresolved { file := portTable, environment := portEnvironment } clock "{{a}}{{y}}" =
        ["{{a}}", "{{host}}", "{{y}}"] ∧
      (Scope.unresolved { file := portTable, environment := hostEnvironment } clock
        "{{a}}{{y}}").Sublist ["{{a}}", "{{host}}", "{{y}}"] ∧
      (∀ (γ : Type) [RandomGen γ] (source : γ),
        Scope.resolve { file := portTable, environment := hostEnvironment } clock "{{c}}${PORT}"
            source =
          Scope.resolve { file := portTable, environment := portEnvironment } clock "{{c}}${PORT}"
            source) ∧
      ∀ (environment : Table String) (γ : Type) [RandomGen γ] (source : γ),
        Scope.resolve { file := portTable, environment } clock "{{c}}" source =
          Scope.resolve { file := portTable } clock "{{c}}" source := by
  have more : portEnvironment.IsWithin hostEnvironment := by
    intro name value found
    have mem : (name, value) ∈ [("PORT", "80")] := Table.mem_entries_of_get? found
    cases List.mem_singleton.1 mem
    rfl
  refine ⟨more, fun clock => ?_⟩
  have unresolved : Scope.unresolved { file := portTable, environment := portEnvironment } clock
      "{{a}}{{y}}" = ["{{a}}", "{{host}}", "{{y}}"] := by
    cbv
  have sublist := ((Scope.environment_only_resolves_more portTable clock "{{a}}{{y}}").1 _ _ more).1
  have same := ((Scope.environment_only_resolves_more portTable clock "{{c}}${PORT}").1 _ _ more).2
  have every := (Scope.environment_only_resolves_more portTable clock "{{c}}").2
  refine ⟨unresolved, unresolved ▸ sublist, same (by cbv), fun environment γ _ source => ?_⟩
  exact every (by cbv) environment .empty γ source

end RequestFile
