import Mathlib
import RequestFile.Proofs.Resolution.Expand

/-!
# Visited variables

Resolution follows values that may refer to each other in any way. Here it is taken apart into
steps: a step resolves one segment, opens a call for the value of a variable, or returns from a call
with nothing left. One set of names, in which a variable is marked before its value is resolved and
unmarked when this is done, keeps a value from being resolved inside itself. Its marks are at all
times the variables whose calls are open, so calls nest no deeper than there are variables, and
every call comes to its end with the marks that it found.
-/

namespace RequestFile

open Placeholder

/-! ## Steps -/

/-- The file variable that a segment stands for, with its value. -/
def Scope.fileVariable? (s : Scope) : Segment → Option (String × String)
  | .braces content =>
    if (Text.trim content).head? == some '$' then none
    else
      (s.file.get? (String.ofList (Text.trim content))).map
        (String.ofList (Text.trim content), ·)
  | _ => none

/-- What a segment gives that stands for no file variable. -/
def Scope.plainPart (s : Scope) (clock : Clock) : Segment → Part
  | .char c => .text (unmaskChar c)
  | .dollar content => s.environmentPart (Text.trim content) (Segment.dollar content).source
  | .braces content =>
    if (Text.trim content).head? == some '$' then
      generatorPart clock (Text.trim content) (Segment.braces content).source
    else s.environmentPart (Text.trim content) (Segment.braces content).source

/-- A call that resolves a text: the variable of which this is the value, if it is one, and the
segments that are left. -/
structure Call where
  name : Option String
  rest : List Segment
deriving DecidableEq

/-- The call that resolves a text, before its first segment. -/
def Call.of (name : Option String) (text : List Char) : Call :=
  ⟨name, segments (mask text)⟩

/-- Where resolution stands: the calls that are open, the innermost one first, the variables that
are marked, and the parts that have been found. -/
structure Resolver where
  calls : List Call
  visiting : Finset String
  parts : List Part

namespace Resolver

/-- The resolver in front of a text. -/
def start (text : List Char) : Resolver :=
  ⟨[.of none text], ∅, []⟩

/-- One step of the innermost call. Without a call nothing happens. -/
def step (s : Scope) (clock : Clock) (r : Resolver) : Resolver :=
  match r.calls with
  | [] => r
  | ⟨name, []⟩ :: callers =>
    { r with calls := callers, visiting := name.elim r.visiting r.visiting.erase }
  | ⟨name, segment :: rest⟩ :: callers =>
    match s.fileVariable? segment with
    | none =>
      { r with calls := ⟨name, rest⟩ :: callers, parts := r.parts ++ [s.plainPart clock segment] }
    | some (key, value) =>
      if key ∈ r.visiting then
        { r with
          calls := ⟨name, rest⟩ :: callers
          parts := r.parts ++ [.unresolved segment.source] }
      else
        { r with
          calls := .of (some key) value.toList :: ⟨name, rest⟩ :: callers
          visiting := insert key r.visiting }

/-- The resolver of a text after so many steps. -/
def run (s : Scope) (clock : Clock) (text : List Char) (n : Nat) : Resolver :=
  (step s clock)^[n] (start text)

/-- The variables whose values are being resolved, the innermost one first. -/
def names (r : Resolver) : List String :=
  r.calls.filterMap Call.name

variable {s : Scope} {clock : Clock} {name : Option String} {segment : Segment}
  {rest : List Segment} {callers : List Call} {visiting : Finset String} {parts : List Part}

theorem step_return :
    step s clock ⟨⟨name, []⟩ :: callers, visiting, parts⟩ =
      ⟨callers, name.elim visiting visiting.erase, parts⟩ :=
  rfl

theorem step_plain (plain : s.fileVariable? segment = none) :
    step s clock ⟨⟨name, segment :: rest⟩ :: callers, visiting, parts⟩ =
      ⟨⟨name, rest⟩ :: callers, visiting, parts ++ [s.plainPart clock segment]⟩ := by
  simp only [step, plain]

theorem step_visited {key value : String} (found : s.fileVariable? segment = some (key, value))
    (visited : key ∈ visiting) :
    step s clock ⟨⟨name, segment :: rest⟩ :: callers, visiting, parts⟩ =
      ⟨⟨name, rest⟩ :: callers, visiting, parts ++ [.unresolved segment.source]⟩ := by
  simp only [step, found, if_pos visited]

theorem step_call {key value : String} (found : s.fileVariable? segment = some (key, value))
    (fresh : key ∉ visiting) :
    step s clock ⟨⟨name, segment :: rest⟩ :: callers, visiting, parts⟩ =
      ⟨.of (some key) value.toList :: ⟨name, rest⟩ :: callers, insert key visiting, parts⟩ := by
  simp only [step, found, if_neg fresh]

end Resolver

theorem Scope.get?_of_fileVariable? {s : Scope} {segment : Segment} {key value : String}
    (found : s.fileVariable? segment = some (key, value)) : s.file.get? key = some value := by
  unfold fileVariable? at found
  split at found
  · split at found
    · cases found
    · obtain ⟨value, found, same⟩ := Option.map_eq_some_iff.1 found
      cases same
      exact found
  · cases found

theorem Scope.expandSegment_eq (s : Scope) (clock : Clock) (free : List String)
    (segment : Segment) :
    s.expandSegment clock free segment =
      match s.fileVariable? segment with
      | none => [s.plainPart clock segment]
      | some (key, value) =>
        if key ∈ free then s.expand clock (free.erase key) value.toList
        else [.unresolved segment.source] := by
  cases segment with
  | char c => rfl
  | dollar content => rfl
  | braces content =>
    simp only [expandSegment, fileVariable?, plainPart]
    split
    · rfl
    · cases s.file.get? (String.ofList (Text.trim content)) with
      | none => rfl
      | some value => rfl

/-! ## What every step keeps -/

namespace Resolver

/-- The marks are the variables whose values are being resolved, each of them once; each of these
calls resolves the value of its variable in the table; and all calls but one are such calls. -/
structure IsSound (s : Scope) (r : Resolver) : Prop where
  visiting_eq : r.visiting = r.names.toFinset
  nodup : r.names.Nodup
  values : ∀ call ∈ r.calls, ∀ name ∈ call.name,
    ∃ value, s.file.get? name = some value ∧ call.rest <:+ segments (mask value.toList)
  length_le : r.calls.length ≤ r.names.length + 1

namespace IsSound

variable {s : Scope} {clock : Clock} {r : Resolver}

theorem mem_keys (sound : r.IsSound s) {name : String} (mem : name ∈ r.names) :
    name ∈ s.file.keys := by
  obtain ⟨call, inside, named⟩ := List.mem_filterMap.1 mem
  obtain ⟨value, found, -⟩ := sound.values call inside name named
  exact Table.mem_keys_of_get? found

/-- Calls nest no deeper than there are variables, but for the one that resolves the text itself. -/
theorem length_calls_le (sound : r.IsSound s) : r.calls.length ≤ s.file.size + 1 := by
  have known : r.names ⊆ s.file.keys := fun name mem => sound.mem_keys mem
  have fits := (sound.nodup.subperm known).length_le
  have size : s.file.keys.length = s.file.size := List.length_map _
  have bound := sound.length_le
  omega

theorem start (s : Scope) (text : List Char) : (Resolver.start text).IsSound s where
  visiting_eq := rfl
  nodup := .nil
  values := by simp [Resolver.start, Call.of]
  length_le := by simp [Resolver.start]

/-- Going on with the segments behind the first one changes neither the calls nor the marks. -/
theorem tail {name : Option String} {segment : Segment} {rest : List Segment}
    {callers : List Call} {visiting : Finset String} {parts : List Part}
    (sound : IsSound s ⟨⟨name, segment :: rest⟩ :: callers, visiting, parts⟩)
    (found : List Part) : IsSound s ⟨⟨name, rest⟩ :: callers, visiting, found⟩ where
  visiting_eq := by
    rw [sound.visiting_eq]
    cases name <;> rfl
  nodup := by
    have nodup := sound.nodup
    cases name <;> exact nodup
  values := by
    intro call mem key named
    rcases List.mem_cons.1 mem with rfl | mem
    · obtain ⟨value, found, suffix⟩ := sound.values _ List.mem_cons_self key named
      exact ⟨value, found, (List.suffix_cons segment rest).trans suffix⟩
    · exact sound.values call (List.mem_cons_of_mem _ mem) key named
  length_le := by
    have bound := sound.length_le
    cases name <;> exact bound

/-- The variable of a call that returns loses its mark. -/
theorem pop {name : Option String} {callers : List Call} {visiting : Finset String}
    {parts : List Part} (sound : IsSound s ⟨⟨name, []⟩ :: callers, visiting, parts⟩) :
    IsSound s ⟨callers, name.elim visiting visiting.erase, parts⟩ := by
  obtain ⟨marks, nodup, values, bound⟩ := sound
  have others := (List.forall_mem_cons.1 values).2
  cases name with
  | none =>
    refine ⟨marks, nodup, others, ?_⟩
    have shorter : callers.length + 1 ≤ (callers.filterMap Call.name).length + 1 := bound
    exact (Nat.le_succ _).trans shorter
  | some key =>
    have nodup : (key :: callers.filterMap Call.name).Nodup := nodup
    refine ⟨?_, (List.nodup_cons.1 nodup).2, others, Nat.le_of_succ_le_succ bound⟩
    have marks : visiting = insert key (callers.filterMap Call.name).toFinset := by
      rw [← List.toFinset_cons]
      exact marks
    change visiting.erase key = (callers.filterMap Call.name).toFinset
    have fresh : key ∉ (callers.filterMap Call.name).toFinset := by
      rw [List.mem_toFinset]
      exact (List.nodup_cons.1 nodup).1
    rw [marks, Finset.erase_insert fresh]

/-- The variable of a call that is opened gets a mark, which it did not have. -/
theorem push {calls : List Call} {visiting : Finset String} {parts : List Part}
    (sound : IsSound s ⟨calls, visiting, parts⟩) {key value : String}
    (found : s.file.get? key = some value) (fresh : key ∉ visiting) :
    IsSound s ⟨.of (some key) value.toList :: calls, insert key visiting, parts⟩ := by
  obtain ⟨marks, nodup, values, bound⟩ := sound
  have marks : visiting = (calls.filterMap Call.name).toFinset := marks
  refine ⟨?_, ?_, ?_, Nat.succ_le_succ bound⟩
  · change insert key visiting = (key :: calls.filterMap Call.name).toFinset
    rw [List.toFinset_cons, ← marks]
  · refine List.nodup_cons.2 ⟨fun mem => fresh ?_, nodup⟩
    rw [marks, List.mem_toFinset]
    exact mem
  · refine List.forall_mem_cons.2 ⟨fun name named => ?_, values⟩
    obtain rfl : key = name := Option.some.inj named
    exact ⟨value, found, List.suffix_rfl⟩

/-- Only opening a call and returning from it change the marks. -/
theorem step (sound : r.IsSound s) : (r.step s clock).IsSound s := by
  obtain ⟨calls, visiting, parts⟩ := r
  cases calls with
  | nil => exact sound
  | cons call callers =>
    obtain ⟨name, rest⟩ := call
    cases rest with
    | nil =>
      rw [step_return]
      exact sound.pop
    | cons segment rest =>
      cases found : s.fileVariable? segment with
      | none =>
        rw [step_plain found]
        exact sound.tail _
      | some entry =>
        obtain ⟨key, value⟩ := entry
        by_cases visited : key ∈ visiting
        · rw [step_visited found visited]
          exact sound.tail _
        · rw [step_call found visited]
          exact (sound.tail parts).push (Scope.get?_of_fileVariable? found) visited

end IsSound

theorem isSound_run (s : Scope) (clock : Clock) (text : List Char) (n : Nat) :
    (run s clock text n).IsSound s := by
  induction n with
  | zero => exact .start s text
  | succ n ih =>
    rw [run, Function.iterate_succ_apply']
    exact ih.step

/-! ## Calls return -/

/-- Steps lead from one state to the other, and more than so many calls are open all the time. -/
def Reaches (s : Scope) (clock : Clock) (depth : Nat) (r r' : Resolver) : Prop :=
  ∃ n, (step s clock)^[n] r = r' ∧ ∀ k ≤ n, depth < ((step s clock)^[k] r).calls.length

namespace Reaches

variable {s : Scope} {clock : Clock} {depth : Nat} {r r' r'' : Resolver}

theorem refl (inside : depth < r.calls.length) : Reaches s clock depth r r := by
  refine ⟨0, rfl, fun k early => ?_⟩
  obtain rfl := Nat.le_zero.1 early
  exact inside

theorem trans (first : Reaches s clock depth r r') (later : Reaches s clock depth r' r'') :
    Reaches s clock depth r r'' := by
  obtain ⟨m, rfl, inside⟩ := first
  obtain ⟨n, rfl, inside'⟩ := later
  refine ⟨n + m, Function.iterate_add_apply _ n m r, fun k bound => ?_⟩
  by_cases early : k ≤ m
  · exact inside k early
  · obtain ⟨j, rfl⟩ := Nat.exists_eq_add_of_le' (Nat.le_of_not_le early)
    rw [Function.iterate_add_apply]
    exact inside' j (by omega)

theorem head (inside : depth < r.calls.length) (later : Reaches s clock depth (r.step s clock) r') :
    Reaches s clock depth r r' := by
  obtain ⟨n, rfl, inside'⟩ := later
  refine ⟨n + 1, Function.iterate_succ_apply _ n r, fun k bound => ?_⟩
  cases k with
  | zero => exact inside
  | succ k =>
    rw [Function.iterate_succ_apply]
    exact inside' k (by omega)

theorem mono {depth' : Nat} (less : depth' ≤ depth) (reaches : Reaches s clock depth r r') :
    Reaches s clock depth' r r' := by
  obtain ⟨n, same, inside⟩ := reaches
  exact ⟨n, same, fun k bound => less.trans_lt (inside k bound)⟩

end Reaches

/-- A call comes to its end with the marks that it has, when it has found the parts to which its
segments are expanded where the variables without a mark are free. -/
theorem reaches_return (s : Scope) (clock : Clock) (free : List String) :
    ∀ (visiting : Finset String), free.Nodup →
      (∀ name ∈ s.file.keys, name ∈ free ↔ name ∉ visiting) →
      ∀ (name : Option String) (rest : List Segment) (callers : List Call) (parts : List Part),
        Reaches s clock callers.length ⟨⟨name, rest⟩ :: callers, visiting, parts⟩
          ⟨⟨name, []⟩ :: callers, visiting,
            parts ++ rest.flatMap (s.expandSegment clock free)⟩ := by
  induction free using free_induction with
  | step free ihFree =>
  intro visiting nodup unmarked name rest callers parts
  induction rest generalizing parts with
  | nil =>
    rw [List.flatMap_nil, List.append_nil]
    exact .refl (Nat.lt_succ_self _)
  | cons segment rest ih =>
    have inside : callers.length < (⟨name, segment :: rest⟩ :: callers : List Call).length :=
      Nat.lt_succ_self _
    refine .head inside ?_
    rw [List.flatMap_cons, ← List.append_assoc, Scope.expandSegment_eq]
    cases found : s.fileVariable? segment with
    | none =>
      rw [step_plain found]
      exact ih _
    | some entry =>
      obtain ⟨key, value⟩ := entry
      have known : key ∈ s.file.keys := Table.mem_keys_of_get? (Scope.get?_of_fileVariable? found)
      by_cases visited : key ∈ visiting
      · have absent : key ∉ free := fun mem => (unmarked key known).1 mem visited
        simp only [step_visited found visited, if_neg absent]
        exact ih _
      · have avail : key ∈ free := (unmarked key known).2 visited
        simp only [step_call found visited, if_pos avail]
        -- The value is resolved in a call above this one, and then this one goes on.
        have called := ihFree key avail (insert key visiting) (nodup.erase key) (fun other mem => by
          rw [nodup.mem_erase_iff, Finset.mem_insert, not_or, unmarked other mem])
          (some key) (segments (mask value.toList)) (⟨name, rest⟩ :: callers) parts
        refine (called.mono (Nat.le_succ _)).trans (.head (by simp) ?_)
        rw [step_return, ← Scope.expand_eq, Option.elim_some, Finset.erase_insert visited]
        exact ih _

/-- Resolution of a text always ends, with the parts to which the text is expanded and without a
mark. At every moment the marks are the variables whose values are being resolved, each of them once
and all of them in the table, and no more calls are open than there are variables and one. And the
call that is the innermost one at this moment comes to its end with the marks that are set now, also
where its segments leave placeholders as they are. -/
theorem run_bounded (s : Scope) (clock : Clock) (text : List Char) :
    (∃ n, run s clock text n = ⟨[], ∅, s.expand clock s.file.keys text⟩) ∧
      ∀ n, (run s clock text n).IsSound s ∧
        (∀ name ∈ (run s clock text n).names, name ∈ s.file.keys) ∧
        (run s clock text n).calls.length ≤ s.file.size + 1 ∧
        ∀ call callers, (run s clock text n).calls = call :: callers →
          Reaches s clock callers.length (run s clock text n)
            ⟨⟨call.name, []⟩ :: callers, (run s clock text n).visiting,
              (run s clock text n).parts ++ call.rest.flatMap (s.expandSegment clock
                (s.file.keys.filter (· ∉ (run s clock text n).visiting)))⟩ := by
  refine ⟨?_, fun n => ?_⟩
  · obtain ⟨n, last, -⟩ := reaches_return s clock s.file.keys ∅ s.file.nodup (by simp) none
      (segments (mask text)) [] []
    refine ⟨n + 1, ?_⟩
    rw [run, Function.iterate_succ_apply', start, Call.of, last, step_return, Scope.expand_eq]
    rfl
  · have sound := isSound_run s clock text n
    refine ⟨sound, fun name mem => sound.mem_keys mem, sound.length_calls_le, ?_⟩
    generalize run s clock text n = r
    rintro ⟨name, rest⟩ callers opened
    obtain ⟨calls, visiting, parts⟩ := r
    obtain rfl : calls = ⟨name, rest⟩ :: callers := opened
    have unmarked : ∀ key ∈ s.file.keys,
        key ∈ s.file.keys.filter (· ∉ visiting) ↔ key ∉ visiting := by
      intro key mem
      rw [List.mem_filter, decide_eq_true_eq]
      exact and_iff_right mem
    exact reaches_return s clock _ visiting (s.file.nodup.filter _) unmarked name rest callers parts

/-- Two variables that refer to each other, and to one that does not exist. -/
def mutualScope : Scope where
  file := .ofList [("a", "\x7b\x7bb\x7d\x7d?"), ("b", "\x7b\x7ba\x7d\x7d\x7b\x7bx\x7d\x7d")]

/-- The value of the second variable is resolved inside that of the first, and both marks are set
when this is done. -/
theorem run_bounded_mutualScope :
    (run mutualScope ⟨⟨0⟩, 0⟩ "\x7b\x7ba\x7d\x7d".toList 2).calls =
        [⟨some "b", [.braces ['a'], .braces ['x']]⟩, ⟨some "a", [.char '?']⟩, ⟨none, []⟩] ∧
      ∃ parts, Reaches mutualScope ⟨⟨0⟩, 0⟩ 2
        (run mutualScope ⟨⟨0⟩, 0⟩ "\x7b\x7ba\x7d\x7d".toList 2)
        ⟨[⟨some "b", []⟩, ⟨some "a", [.char '?']⟩, ⟨none, []⟩], {"b", "a"}, parts⟩ := by
  have bounded := run_bounded mutualScope ⟨⟨0⟩, 0⟩ "\x7b\x7ba\x7d\x7d".toList
  have nested : (run mutualScope ⟨⟨0⟩, 0⟩ "\x7b\x7ba\x7d\x7d".toList 2).calls =
      [⟨some "b", [.braces ['a'], .braces ['x']]⟩, ⟨some "a", [.char '?']⟩, ⟨none, []⟩] := by
    decide +kernel
  have marks : (run mutualScope ⟨⟨0⟩, 0⟩ "\x7b\x7ba\x7d\x7d".toList 2).visiting = {"b", "a"} := by
    decide +kernel
  have returns := (bounded.2 2).2.2.2 _ _ nested
  rw [marks] at returns
  exact ⟨nested, _, returns⟩

end Resolver

end RequestFile
