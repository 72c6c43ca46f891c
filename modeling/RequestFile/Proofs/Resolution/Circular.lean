import Mathlib
import RequestFile.Proofs.Placeholder.Written
import RequestFile.Proofs.Reference.Circular
import RequestFile.Proofs.Resolution.Expand

/-!
# Circular variables stay unresolved

Resolution does not look for circles. It expands the value of a variable only where this is not
already being done, and leaves a placeholder as it is otherwise. Here such a placeholder is traced
back to a walk along references: resolving `{{name}}` meets `{{name}}` again exactly when `name` is
one of the `circularReferences`.
-/

namespace RequestFile

open Placeholder

/-! ## Walks without repetition -/

/-- References lead from a variable to `goal`, and each variable before `goal` is taken from those
that are free, so that none comes twice. -/
inductive Table.Leads (t : Table String) (goal : String) : List String → String → Prop where
  | here {free : List String} : Leads t goal free goal
  | step {free : List String} {a b : String} :
      a ∈ free → t.RefersTo a b → Leads t goal (free.erase a) b → Leads t goal free a

namespace Table

theorem Leads.mem {t : Table String} {goal a : String} {free : List String}
    (leads : t.Leads goal free a) : a ∈ goal :: free := by
  cases leads with
  | here => exact List.mem_cons_self
  | step mem _ _ => exact List.mem_cons_of_mem _ mem

theorem Leads.path {t : Table String} {goal a : String} {free : List String}
    (leads : t.Leads goal free a) :
    Relation.ReflTransGen (Link t.referencesOf (goal :: free)) a goal := by
  induction leads with
  | here => exact .refl
  | @step free a b _ refers rest ih =>
    have sub : goal :: free.erase a ⊆ goal :: free :=
      List.cons_subset_cons goal List.erase_subset
    exact .head ⟨mem_referencesOf.2 refers, sub rest.mem⟩ (Link.mono sub ih)

/-- Behind its last visit to a name, a path avoids this name. -/
theorem exists_path_avoiding {next : String → List String} {among : List String} {a goal : String}
    (other : a ≠ goal) (path : Relation.ReflTransGen (Link next among) a goal) :
    ∃ b, Link next among a b ∧ b ≠ a ∧
      Relation.ReflTransGen (Link next (among.filter (· ≠ a))) b goal := by
  induction path with
  | refl => exact absurd rfl other
  | @tail c d _ link ih =>
    by_cases again : c = a
    · subst again
      exact ⟨d, link, other.symm, .refl⟩
    · obtain ⟨b, first, avoids, path⟩ := ih (Ne.symm again)
      refine ⟨b, first, avoids, path.tail ⟨link.1, ?_⟩⟩
      simpa using ⟨link.2, other.symm⟩

/-- Any path to `goal` can be walked without repetition. -/
theorem leads_of_path {t : Table String} {goal a : String} {free : List String}
    (mem : a ∈ goal :: free)
    (path : Relation.ReflTransGen (Link t.referencesOf (goal :: free)) a goal) :
    t.Leads goal free a := by
  induction size : free.length using Nat.strongRecOn generalizing free a with
  | _ n ih =>
    by_cases same : a = goal
    · exact same ▸ .here
    have memFree : a ∈ free := (List.mem_cons.1 mem).resolve_left same
    obtain ⟨b, ⟨refers, memb⟩, avoids, path⟩ := exists_path_avoiding same path
    have sub : (goal :: free).filter (· ≠ a) ⊆ goal :: free.erase a := by
      intro c memc
      obtain ⟨memc, other⟩ := List.mem_filter.1 memc
      rcases List.mem_cons.1 memc with rfl | memc
      · exact List.mem_cons_self
      · exact List.mem_cons_of_mem _ ((List.mem_erase_of_ne (by simpa using other)).2 memc)
    have memb : b ∈ goal :: free.erase a :=
      sub (List.mem_filter.2 ⟨memb, by simpa using avoids⟩)
    have shorter : (free.erase a).length < n := size ▸ length_erase_lt memFree
    exact .step memFree (mem_referencesOf.1 refers) (ih _ shorter memb (Link.mono sub path) rfl)

theorem leads_iff_path {t : Table String} {goal a : String} {free : List String} :
    t.Leads goal free a ↔
      a ∈ goal :: free ∧ Relation.ReflTransGen (Link t.referencesOf (goal :: free)) a goal :=
  ⟨fun leads => ⟨leads.mem, leads.path⟩, fun ⟨mem, path⟩ => leads_of_path mem path⟩

/-- A circular variable is one whose value refers to a variable that leads back to it. -/
theorem mem_circularReferences_iff_leads {file : Table String} {name : String}
    (mem : name ∈ file.keys) :
    name ∈ circularReferences file ↔
      ∃ b, file.RefersTo name b ∧ file.Leads name (file.keys.erase name) b := by
  have keys : ∀ a, a ∈ name :: file.keys.erase name ↔ a ∈ file.keys := by
    intro a
    rw [List.mem_cons]
    by_cases same : a = name
    · simp [same, mem]
    · simp [same, List.mem_erase_of_ne same]
  have links : Link file.referencesOf (name :: file.keys.erase name) =
      Link file.referencesOf file.keys := by
    funext a b
    simp only [Link, keys]
  rw [mem_circularReferences, Relation.TransGen.head'_iff]
  simp only [leads_iff_path, links, keys, Link, mem_referencesOf, and_assoc]

end Table

/-! ## Placeholders without a value -/

/-- A part is a placeholder in double braces without a value, and a name stands in it. -/
def Part.LeavesOpen (name : String) (part : Part) : Prop :=
  ∃ content, part = .unresolved (Segment.braces content).source ∧
    Text.trim content = name.toList

namespace Part

@[simp]
theorem not_leavesOpen_text (name : String) (cs : List Char) :
    ¬ (Part.text cs).LeavesOpen name := by
  rintro ⟨_, same, _⟩
  cases same

@[simp]
theorem not_leavesOpen_generated (name : String) (recipe : Generator.Recipe) :
    ¬ (Part.generated recipe).LeavesOpen name := by
  rintro ⟨_, same, _⟩
  cases same

@[simp]
theorem not_leavesOpen_dollar (name : String) (content : List Char) :
    ¬ (Part.unresolved (Segment.dollar content).source).LeavesOpen name := by
  rintro ⟨_, same, _⟩
  simp [Segment.source] at same

@[simp]
theorem leavesOpen_braces {name : String} {content : List Char} :
    (Part.unresolved (Segment.braces content).source).LeavesOpen name ↔
      Text.trim content = name.toList := by
  constructor
  · rintro ⟨other, same, trims⟩
    obtain rfl : content = other := by simpa [Segment.source] using same
    exact trims
  · exact fun trims => ⟨content, rfl, trims⟩

theorem trim_of_leavesOpen_environment {s : Scope} {name : String} {key content : List Char}
    (h : (s.environmentPart key (Segment.braces content).source).LeavesOpen name) :
    Text.trim content = name.toList := by
  unfold Scope.environmentPart at h
  split at h
  · exact absurd h (not_leavesOpen_text _ _)
  · exact leavesOpen_braces.1 h

theorem not_leavesOpen_environment_dollar {s : Scope} {name : String} {key content : List Char} :
    ¬ (s.environmentPart key (Segment.dollar content).source).LeavesOpen name := by
  unfold Scope.environmentPart
  split
  · exact not_leavesOpen_text _ _
  · exact not_leavesOpen_dollar _ _

theorem trim_of_leavesOpen_generator {clock : Clock} {name : String} {key content : List Char}
    (h : (generatorPart clock key (Segment.braces content).source).LeavesOpen name) :
    Text.trim content = name.toList := by
  unfold generatorPart at h
  split at h
  · exact absurd h (not_leavesOpen_generated _ _)
  · exact leavesOpen_braces.1 h

end Part

/-- A segment is a placeholder for a variable. -/
def Placeholder.Segment.Names (b : String) (segment : Segment) : Prop :=
  ∃ content, segment = .braces content ∧ Text.trim content = b.toList ∧
    b.toList.head? ≠ some '$'

/-- A name that is being expanded is left open by a segment exactly when the segment is a
placeholder from which references lead to that name, provided this holds of the values of all
variables that are free. -/
theorem Scope.leavesOpen_expandSegment {s : Scope} {clock : Clock} {goal : String}
    {free : List String} (mem : goal ∈ s.file.keys) (used : goal ∉ free)
    (plain : goal.toList.head? ≠ some '$')
    (values : ∀ a ∈ free, ∀ value, s.file.get? a = some value →
      ((∃ part ∈ s.expand clock (free.erase a) value.toList, part.LeavesOpen goal) ↔
        ∃ b, s.file.RefersTo a b ∧ s.file.Leads goal (free.erase a) b))
    (segment : Segment) :
    (∃ part ∈ s.expandSegment clock free segment, part.LeavesOpen goal) ↔
      ∃ b, segment.Names b ∧ s.file.Leads goal free b := by
  have known : s.file.get? goal ≠ none := by
    rw [ne_eq, ← Option.not_isSome_iff_eq_none, Table.isSome_get?]
    exact not_not_intro mem
  cases segment with
  | char c => simp [expandSegment, Segment.Names]
  | dollar content =>
    simp [expandSegment, Segment.Names, Part.not_leavesOpen_environment_dollar]
  | braces content =>
    obtain ⟨name, trims⟩ : ∃ name : String, Text.trim content = name.toList :=
      ⟨String.ofList (Text.trim content), by simp⟩
    have names : ∀ b, (Segment.braces content).Names b ↔
        b = name ∧ name.toList.head? ≠ some '$' := by
      intro b
      constructor
      · rintro ⟨other, same, trims', plain⟩
        cases same
        obtain rfl : name = b := String.toList_inj.1 (trims.symm.trans trims')
        exact ⟨rfl, plain⟩
      · rintro ⟨rfl, plain⟩
        exact ⟨content, rfl, trims, plain⟩
    simp only [names, expandSegment, trims, String.ofList_toList]
    by_cases generator : name.toList.head? = some '$'
    · simp only [generator, beq_self_eq_true, if_true, List.mem_singleton, exists_eq_left,
        ne_eq, not_true_eq_false, and_false, false_and, exists_false, iff_false]
      intro leaves
      have same := String.toList_inj.1 (trims.symm.trans (Part.trim_of_leavesOpen_generator leaves))
      exact plain (same ▸ generator)
    · simp only [beq_iff_eq, generator, if_false, ne_eq, not_false_eq_true, and_true,
        exists_eq_left]
      cases found : s.file.get? name with
      | none =>
        simp only [List.mem_singleton, exists_eq_left]
        constructor
        · intro leaves
          have same := String.toList_inj.1
            (trims.symm.trans (Part.trim_of_leavesOpen_environment leaves))
          exact absurd (same ▸ found) known
        · intro leads
          cases leads with
          | here => exact absurd found known
          | step _ refers _ =>
            obtain ⟨value, _, some, _⟩ := refers
            rw [found] at some
            cases some
      | some value =>
        by_cases avail : name ∈ free
        · simp only [avail, if_true, values name avail value found]
          constructor
          · rintro ⟨b, refers, leads⟩
            exact .step avail refers leads
          · intro leads
            cases leads with
            | here => exact absurd avail used
            | step _ refers leads => exact ⟨_, refers, leads⟩
        · simp only [avail, if_false, List.mem_singleton, exists_eq_left, Part.leavesOpen_braces,
            trims, String.toList_inj]
          constructor
          · rintro rfl
            exact .here
          · intro leads
            exact (List.mem_cons.1 leads.mem).resolve_right avail

/-- A name that is being expanded is left open in a text exactly when references lead from one of
the placeholders of the text to that name. -/
theorem Scope.leavesOpen_expand {s : Scope} {clock : Clock} {goal : String} {free : List String}
    (mem : goal ∈ s.file.keys) (used : goal ∉ free) (plain : goal.toList.head? ≠ some '$')
    (text : List Char) :
    (∃ part ∈ s.expand clock free text, part.LeavesOpen goal) ↔
      ∃ b, (∃ segment ∈ segments (mask text), segment.Names b) ∧ s.file.Leads goal free b := by
  induction size : free.length using Nat.strongRecOn generalizing free text with
  | _ n ih =>
    have values : ∀ a ∈ free, ∀ value, s.file.get? a = some value →
        ((∃ part ∈ s.expand clock (free.erase a) value.toList, part.LeavesOpen goal) ↔
          ∃ b, s.file.RefersTo a b ∧ s.file.Leads goal (free.erase a) b) := by
      intro a avail value found
      have shorter : (free.erase a).length < n := size ▸ length_erase_lt avail
      rw [ih _ shorter (fun mem => used (List.mem_of_mem_erase mem)) _ rfl]
      simp [Segment.Names, Table.RefersTo, found, Placeholder.parse]
    rw [expand_eq]
    simp only [List.mem_flatMap]
    constructor
    · rintro ⟨part, ⟨segment, memSegment, memPart⟩, leaves⟩
      obtain ⟨b, named, leads⟩ :=
        (leavesOpen_expandSegment mem used plain values segment).1 ⟨part, memPart, leaves⟩
      exact ⟨b, ⟨segment, memSegment, named⟩, leads⟩
    · rintro ⟨b, ⟨segment, memSegment, named⟩, leads⟩
      obtain ⟨part, memPart, leaves⟩ :=
        (leavesOpen_expandSegment mem used plain values segment).2 ⟨b, named, leads⟩
      exact ⟨part, ⟨segment, memSegment, memPart⟩, leaves⟩

/-! ## The placeholder of a circular variable -/

theorem hasMarkup_braces (rest : List Char) : hasMarkup ('{' :: '{' :: rest) = true := by
  simp [hasMarkup, Text.occursIn]

theorem mem_unresolvedReferences {clock : Clock} {file : Table String} {text source : String} :
    source ∈ unresolvedReferences clock file text ↔
      ∃ part ∈ Scope.parts { file } clock text, part.unresolved? = some source := by
  rw [unresolvedReferences, List.mem_eraseDups, Scope.unresolved, List.mem_filterMap]

theorem unresolved?_eq_some {part : Part} {source : String} :
    part.unresolved? = some source ↔ part = .unresolved source.toList := by
  cases part with
  | unresolved cs =>
    rw [Part.unresolved?, Option.some.injEq, Part.unresolved.injEq]
    exact String.ofList_eq
  | text cs => simp [Part.unresolved?]
  | generated recipe => simp [Part.unresolved?]

/-- Resolving the placeholder of a variable meets a placeholder of that variable again, and leaves
it as it is, exactly when the variable is circular. -/
theorem circular_iff_placeholder_unresolved (clock : Clock) (file : Table String) (name : String)
    (mem : name ∈ file.keys) (nonempty : name ≠ "")
    (inside : ∀ c ∈ name.toList, c ≠ '{' ∧ c ≠ '}') (trims : trimmed name = name)
    (plain : name.toList.head? ≠ some '$') (last : name.toList.getLast? ≠ some '\\') :
    name ∈ circularReferences file ↔
      ∃ content, trimmed content = name ∧
        inBraces content ∈ unresolvedReferences clock file (inBraces name) := by
  have written : (inBraces name).toList = '{' :: '{' :: name.toList ++ ['}', '}'] :=
    toList_inBraces name
  have trims' : Text.trim name.toList = name.toList := String.ofList_eq.1 trims
  have parts : Scope.parts { file } clock (inBraces name) =
      Scope.expandSegment { file } clock file.keys (.braces name.toList) := by
    rw [Scope.parts, written, List.cons_append, List.cons_append, hasMarkup_braces, if_pos rfl,
      Scope.expand_eq]
    have cut := segments_mask_braces (by simpa using nonempty)
      (fun c mem => isInside_iff.2 (inside c mem)) last
    rw [List.cons_append, List.cons_append] at cut
    rw [cut, List.flatMap_singleton]
  have leaves : (∃ content, trimmed content = name ∧
      inBraces content ∈ unresolvedReferences clock file (inBraces name)) ↔
      ∃ part ∈ Scope.parts { file } clock (inBraces name), part.LeavesOpen name := by
    simp only [mem_unresolvedReferences, unresolved?_eq_some]
    constructor
    · rintro ⟨content, same, part, memPart, rfl⟩
      refine ⟨_, memPart, content.toList, ?_, String.ofList_eq.1 same⟩
      rw [toList_inBraces]
    · rintro ⟨_, memPart, content, rfl, same⟩
      refine ⟨String.ofList content, ?_, _, memPart, ?_⟩
      · rw [trimmed, String.toList_ofList, same, String.ofList_toList]
      · rw [toList_inBraces, String.toList_ofList]
  obtain ⟨value, found⟩ := Option.isSome_iff_exists.1 (Table.isSome_get?.2 mem)
  have used : name ∉ file.keys.erase name := file.nodup.not_mem_erase
  rw [leaves, parts, Table.mem_circularReferences_iff_leads mem]
  simp only [Scope.expandSegment, trims', String.ofList_toList, beq_iff_eq, plain, if_false, found,
    mem, if_true]
  rw [Scope.leavesOpen_expand mem used plain]
  simp [Segment.Names, Table.RefersTo, found, Placeholder.parse]

/-- A circle of two variables, to which a third one leads. -/
def circleOfTwo : Table String :=
  .ofList [("a", "{{b}}"), ("b", "x{{ a }}"), ("c", "{{a}}")]

theorem placeholder_unresolved_of_circleOfTwo :
    "a" ∈ circularReferences circleOfTwo ∧
      ∃ content, trimmed content = "a" ∧ inBraces content ∈
        unresolvedReferences { now := ⟨0⟩ } circleOfTwo (inBraces "a") := by
  have circular : "a" ∈ circularReferences circleOfTwo := by
    have both : circularReferences circleOfTwo = ["a", "b"] := by cbv
    rw [both]
    exact List.mem_cons_self
  exact ⟨circular, (circular_iff_placeholder_unresolved { now := ⟨0⟩ } circleOfTwo "a"
    (by decide) (by decide) (by simp) (by cbv) (by decide) (by decide)).1 circular⟩

end RequestFile
