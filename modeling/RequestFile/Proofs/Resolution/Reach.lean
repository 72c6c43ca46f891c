import Mathlib
import RequestFile.Proofs.Reference.Circular
import RequestFile.Proofs.Resolution.Expand

/-!
# What resolution reads

Resolution looks up the names in the placeholders of a text, and those in the values of the file
variables that it finds. Scopes that agree on these names resolve the text alike, whatever else they
hold and in whatever order, also where variables refer to each other in circles.
-/

namespace RequestFile

open Placeholder

/-! ## Names within reach -/

theorem mem_references {text name : String} :
    name ∈ references text ↔
      ∃ segment ∈ Placeholder.parse text, segment.name? = some name.toList := by
  rw [references, mem_sortedNames, List.mem_filterMap]
  simp only [Option.map_eq_some_iff]
  constructor
  · rintro ⟨segment, mem, _, named, rfl⟩
    exact ⟨segment, mem, by rw [named, String.toList_ofList]⟩
  · rintro ⟨segment, mem, named⟩
    exact ⟨segment, mem, _, named, String.ofList_toList⟩

/-- The names that resolving a text can come to: those to which the text refers, and those to which
the value of a file variable refers that it can come to. -/
inductive Table.Reaches (file : Table String) (text : String) : String → Prop where
  | here {name : String} : name ∈ references text → file.Reaches text name
  | value {name other value : String} : file.Reaches text name →
      file.get? name = some value → other ∈ references value → file.Reaches text other

/-- With the name of a variable, a set of names has all names to which the value of the variable
refers. -/
def Table.IsClosed (file : Table String) (names : String → Prop) : Prop :=
  ∀ name value, names name → file.get? name = some value →
    ∀ other ∈ references value, names other

theorem Table.isClosed_reaches (file : Table String) (text : String) :
    file.IsClosed (file.Reaches text) :=
  fun _ _ reached found _ refers => .value reached found refers

/-- The names within reach are the least closed set that has the names in the text. -/
theorem Table.Reaches.of_isClosed {file : Table String} {text name : String}
    {names : String → Prop} (reached : file.Reaches text name) (closed : file.IsClosed names)
    (refers : ∀ name ∈ references text, names name) : names name := by
  induction reached with
  | here mem => exact refers _ mem
  | value _ found mem ih => exact closed _ _ ih found _ mem

/-! ## Agreement -/

/-- Two scopes have the same file variables and the same variables of the environment under some
names. -/
structure Scope.AgreeOn (s t : Scope) (names : String → Prop) : Prop where
  file : ∀ name, names name → s.file.get? name = t.file.get? name
  environment : ∀ name, names name → s.environment.get? name = t.environment.get? name

namespace Scope.AgreeOn

variable {s t : Scope} {names : String → Prop} {clock : Clock} {free free' : List String}

theorem mem_keys_iff (agree : s.AgreeOn t names) {name : String} (named : names name) :
    name ∈ s.file.keys ↔ name ∈ t.file.keys := by
  rw [← Table.isSome_get?, ← Table.isSome_get?, agree.file name named]

theorem environmentPart_eq (agree : s.AgreeOn t names) {name : List Char}
    (named : names (String.ofList name)) (source : List Char) :
    s.environmentPart name source = t.environmentPart name source := by
  rw [environmentPart, environmentPart, agree.environment _ named]

/-- A segment is expanded alike if its name is among those on which the scopes agree, the same ones
of these are free, and the values of the free ones are expanded alike. -/
theorem expandSegment_eq (agree : s.AgreeOn t names)
    (free_iff : ∀ name, names name → (name ∈ free ↔ name ∈ free'))
    (values : ∀ name ∈ free, names name → ∀ value, s.file.get? name = some value →
      s.expand clock (free.erase name) value.toList =
        t.expand clock (free'.erase name) value.toList)
    (segment : Segment) (named : ∀ name ∈ segment.name?, names (String.ofList name)) :
    s.expandSegment clock free segment = t.expandSegment clock free' segment := by
  cases segment with
  | char c => rfl
  | dollar content =>
    rw [expandSegment, expandSegment, agree.environmentPart_eq (named _ rfl)]
  | braces content =>
    have named : names (String.ofList (Text.trim content)) := named _ rfl
    rw [expandSegment, expandSegment, agree.file _ named, agree.environmentPart_eq named]
    cases found : t.file.get? (String.ofList (Text.trim content)) with
    | none => rfl
    | some value =>
      rw [← agree.file _ named] at found
      by_cases avail : String.ofList (Text.trim content) ∈ free
      · have avail' := (free_iff _ named).1 avail
        simp only [if_pos avail, if_pos avail', values _ avail named _ found]
      · have used := fun mem => avail ((free_iff _ named).2 mem)
        simp only [if_neg avail, if_neg used]

/-- A text that refers only to names of a closed set on which two scopes agree is expanded alike.
The lists of free variables may differ in other names. -/
theorem expand_eq (agree : s.AgreeOn t names) (closed : s.file.IsClosed names)
    (nodup : free.Nodup) (nodup' : free'.Nodup)
    (free_iff : ∀ name, names name → (name ∈ free ↔ name ∈ free')) {text : String}
    (refers : ∀ name ∈ references text, names name) :
    s.expand clock free text.toList = t.expand clock free' text.toList := by
  induction free using free_induction generalizing free' text with
  | step free ih =>
    rw [Scope.expand_eq, Scope.expand_eq]
    refine List.flatMap_congr fun segment mem => ?_
    refine agree.expandSegment_eq free_iff ?_ segment ?_
    · intro name avail named value found
      have erased : ∀ other, names other →
          (other ∈ free.erase name ↔ other ∈ free'.erase name) := by
        intro other named'
        rw [nodup.mem_erase_iff, nodup'.mem_erase_iff, free_iff other named']
      exact ih name avail (nodup.erase name) (nodup'.erase name) erased
        (closed name value named found)
    · intro name same
      refine refers _ (mem_references.2 ⟨segment, mem, ?_⟩)
      rw [String.toList_ofList]
      exact same

end Scope.AgreeOn

/-- Resolution depends only on the variables under the names that the text reaches, and on the
source of random numbers, whatever that is. -/
theorem Scope.resolve_depends_on_reached (s t : Scope) (text : String)
    (agree : s.AgreeOn t (s.file.Reaches text)) (clock : Clock) {γ : Type} [RandomGen γ]
    (source : γ) :
    s.resolve clock text source = t.resolve clock text source := by
  have expanded : s.expand clock s.file.keys text.toList =
      t.expand clock t.file.keys text.toList :=
    agree.expand_eq (Table.isClosed_reaches s.file text) s.file.nodup t.file.nodup
      (fun _ named => agree.mem_keys_iff named) fun _ mem => .here mem
  have parts : s.parts clock text = t.parts clock text := by
    rw [Scope.parts, Scope.parts, expanded]
  rw [Scope.resolve, Scope.resolve, parts]

/-- Two variables in a circle, one of which refers to a variable of the environment as well, and a
variable that leads to the circle. -/
def circleScope : Scope where
  file := .ofList [("a", "{{b}} ${USER}"), ("b", "<{{ a }}>"), ("c", "{{a}}")]
  environment := .ofList [("USER", "me"), ("b", "hidden")]

/-- The same circle in another order, among other variables. -/
def otherCircleScope : Scope where
  file := .ofList [("d", "${c}"), ("b", "<{{ a }}>"), ("a", "{{b}} ${USER}")]
  environment := .ofList [("b", "hidden"), ("c", "other"), ("USER", "me")]

theorem resolve_circleScope :
    circleScope.AgreeOn otherCircleScope (circleScope.file.Reaches "{{a}}/{{ b }}") ∧
      ∀ (clock : Clock) (γ : Type) [RandomGen γ] (source : γ),
        circleScope.resolve clock "{{a}}/{{ b }}" source =
          otherCircleScope.resolve clock "{{a}}/{{ b }}" source := by
  have closed : circleScope.file.IsClosed (· ∈ ["a", "b", "USER"]) := by
    have ofA : references "{{b}} ${USER}" = ["USER", "b"] := by cbv
    have ofB : references "<{{ a }}>" = ["a"] := by cbv
    intro name value mem found
    fin_cases mem
    · cases found
      simp [ofA]
    · cases found
      simp [ofB]
    · cases found
  have reached : ∀ name, circleScope.file.Reaches "{{a}}/{{ b }}" name →
      name ∈ ["a", "b", "USER"] := by
    intro name reached
    refine reached.of_isClosed closed ?_
    have refers : references "{{a}}/{{ b }}" = ["a", "b"] := by cbv
    simp [refers]
  have agree : circleScope.AgreeOn otherCircleScope
      (circleScope.file.Reaches "{{a}}/{{ b }}") := by
    constructor
    · intro name named
      have mem := reached name named
      fin_cases mem <;> rfl
    · intro name named
      have mem := reached name named
      fin_cases mem <;> rfl
  refine ⟨agree, fun clock γ _ source => ?_⟩
  exact Scope.resolve_depends_on_reached _ _ _ agree clock source

end RequestFile
