import Mathlib
import RequestFile.Assembly
import RequestFile.Proofs.Name

/-!
# Repeated names

`repeatedNames` goes through the requests once and remembers the names it has seen, and
`firstRepeated?` does the same up to the first name that it has seen before. Here what they find is
described without a memory: a request is a namesake if an earlier request has its name, and it is
found together with the line of the first request of that name.
-/

namespace RequestFile

/-- The names of requests that are not blank, with repetitions. -/
def filledNames (requests : List Request) : List String :=
  (requests.map (·.name)).filter (!isBlankText ·)

/-- Whether a request at an index has a name that is not blank and that an earlier request has. -/
def isNamesake (requests : List Request) (entry : Request × Nat) : Bool :=
  !isBlankText entry.1.name && (requests.take entry.2).any (·.name == entry.1.name)

/-- The requests with the name of an earlier request, in order. -/
def Document.namesakes (d : Document) : List Request :=
  (d.requests.zipIdx.filter (isNamesake d.requests)).map Prod.fst

/-- Names are remembered with the line of the first request that has them. -/
def Remembers (seen : List (String × Nat)) (before : List Request) : Prop :=
  ∀ name, isBlankText name = false →
    seen.lookup name = (before.find? (·.name == name)).map (·.line)

theorem remembers_nil : Remembers [] [] :=
  fun _ _ => rfl

theorem find?_concat_of_ne {before : List Request} {r : Request} {name : String}
    (other : r.name ≠ name) :
    (before ++ [r]).find? (·.name == name) = before.find? (·.name == name) := by
  rw [List.find?_append, List.find?_singleton, if_neg (by simpa using other), Option.or_none]

namespace Remembers

variable {seen : List (String × Nat)} {before : List Request} {r : Request}

theorem any_eq (remembers : Remembers seen before) (filled : isBlankText r.name = false) :
    before.any (·.name == r.name) = (seen.lookup r.name).isSome := by
  rw [remembers _ filled, Option.isSome_map, Bool.eq_iff_iff, List.any_eq_true, List.find?_isSome]

/-- A blank name need not be remembered. -/
theorem concat_of_blank (remembers : Remembers seen before) (blank : isBlankText r.name = true) :
    Remembers seen (before ++ [r]) := by
  intro name filled
  have other : r.name ≠ name := by
    rintro rfl
    rw [blank] at filled
    cases filled
  rw [find?_concat_of_ne other, remembers name filled]

/-- A name that is remembered already keeps its line. -/
theorem concat_of_known (remembers : Remembers seen before) {line : Nat}
    (known : seen.lookup r.name = some line) : Remembers seen (before ++ [r]) := by
  intro name filled
  rw [remembers name filled]
  by_cases same : r.name = name
  · rw [same, remembers name filled] at known
    obtain ⟨first, found, -⟩ := Option.map_eq_some_iff.1 known
    rw [List.find?_append, found, Option.some_or]
  · rw [find?_concat_of_ne same]

theorem concat_of_new (remembers : Remembers seen before) (filled : isBlankText r.name = false)
    (new : seen.lookup r.name = none) :
    Remembers ((r.name, r.line) :: seen) (before ++ [r]) := by
  intro name filled'
  by_cases same : name = r.name
  · rw [remembers _ filled, Option.map_eq_none_iff] at new
    rw [same, List.lookup_cons_self, List.find?_append, new]
    simp
  · have other : (name == r.name) = false := by simpa using same
    rw [List.lookup_cons, other, remembers name filled', find?_concat_of_ne (Ne.symm same)]

end Remembers

/-- What is found are the namesakes, in order, each with the line of the first request of its name.
-/
theorem forall₂_repeatedNames {seen : List (String × Nat)} {before : List Request}
    (remembers : Remembers seen before) (rs : List Request) :
    List.Forall₂
      (fun found r => found.1 = r ∧ ∃ first,
        (before ++ rs).find? (·.name == r.name) = some first ∧ found.2 = first.line)
      (repeatedNames seen rs)
      (((rs.zipIdx before.length).filter (isNamesake (before ++ rs))).map Prod.fst) := by
  induction rs generalizing seen before with
  | nil => exact .nil
  | cons r rest ih =>
    -- The request moves from the rest to what stands before, and the memory has to follow.
    have regroup : before ++ r :: rest = (before ++ [r]) ++ rest := by simp
    have length : before.length + 1 = (before ++ [r]).length := by simp
    have namesake : isNamesake (before ++ r :: rest) (r, before.length) =
        (!isBlankText r.name && before.any (·.name == r.name)) := by
      simp [isNamesake]
    rw [List.zipIdx_cons, List.filter_cons, namesake, repeatedNames, length]
    by_cases blank : isBlankText r.name = true
    · simp only [blank, Bool.not_true, Bool.false_and, Bool.false_eq_true, if_false, if_true]
      rw [regroup]
      exact ih (remembers.concat_of_blank blank)
    · have filled : isBlankText r.name = false := by simpa using blank
      simp only [filled, Bool.not_false, Bool.true_and, Bool.false_eq_true, if_false,
        remembers.any_eq filled]
      cases known : seen.lookup r.name with
      | some line =>
        have found := remembers _ filled
        rw [known, eq_comm] at found
        obtain ⟨first, found, same⟩ := Option.map_eq_some_iff.1 found
        rw [Option.isSome_some, if_pos rfl, List.map_cons]
        refine .cons ⟨rfl, first, ?_, same.symm⟩ ?_
        · rw [List.find?_append, found, Option.some_or]
        · rw [regroup]
          exact ih (remembers.concat_of_known known)
      | none =>
        rw [Option.isSome_none, if_neg (by simp), regroup]
        exact ih (remembers.concat_of_new filled known)

theorem mem_seen_iff {seen : List (String × Nat)} {name : String} :
    name ∈ (seen.map Prod.fst).toFinset ↔ (seen.lookup name).isSome = true := by
  rw [List.mem_toFinset, List.mem_map, List.lookup_isSome_iff]
  simp only [beq_iff_eq]
  exact exists_congr fun entry => and_congr_right fun _ => eq_comm

/-- With the distinct names that have not been seen, what is found makes up all names. -/
theorem length_repeatedNames (seen : List (String × Nat)) (rs : List Request) :
    (repeatedNames seen rs).length +
        ((filledNames rs).toFinset \ (seen.map Prod.fst).toFinset).card =
      (filledNames rs).length := by
  induction rs generalizing seen with
  | nil => simp [repeatedNames, filledNames]
  | cons r rest ih =>
    by_cases blank : isBlankText r.name = true
    · have skipped : filledNames (r :: rest) = filledNames rest := by simp [filledNames, blank]
      rw [repeatedNames, if_pos blank, skipped, ih]
    · have taken : filledNames (r :: rest) = r.name :: filledNames rest := by
        simp [filledNames, blank]
      rw [repeatedNames, if_neg blank, taken, List.toFinset_cons, List.length_cons]
      cases known : seen.lookup r.name with
      | some line =>
        have mem : r.name ∈ (seen.map Prod.fst).toFinset := mem_seen_iff.2 (by rw [known]; rfl)
        rw [Finset.insert_sdiff_of_mem _ mem, List.length_cons, ← ih seen]
        omega
      | none =>
        have new : r.name ∉ (seen.map Prod.fst).toFinset := by
          rw [mem_seen_iff, known]
          simp
        have later := ih ((r.name, r.line) :: seen)
        rw [List.map_cons, List.toFinset_cons, Finset.sdiff_insert] at later
        rw [Finset.insert_sdiff_of_notMem _ new,
          ← Finset.card_erase_add_one (Finset.mem_insert_self r.name _),
          Finset.erase_insert_eq_erase, ← later]
        rfl

/-- Nothing is found exactly where the names that are filled are distinct. -/
theorem repeatedNames_eq_nil_iff {rs : List Request} :
    repeatedNames [] rs = [] ↔ (filledNames rs).Nodup := by
  have length := length_repeatedNames [] rs
  rw [List.map_nil, List.toFinset_nil, Finset.sdiff_empty] at length
  constructor
  · intro none
    rw [none, List.length_nil, Nat.zero_add, List.card_toFinset] at length
    exact List.dedup_eq_self.1 ((List.dedup_sublist _).eq_of_length length)
  · intro distinct
    rw [List.toFinset_card_of_nodup distinct] at length
    exact List.length_eq_zero_iff.1 (by omega)

/-- The check that stops finds the first of what the other check finds, if all names are names. -/
theorem firstRepeated?_eq_head? {rs : List Request} (names : ∀ r ∈ rs, isNameText r.name = true)
    (seen : List (String × Nat)) : firstRepeated? seen rs = (repeatedNames seen rs).head? := by
  induction rs generalizing seen with
  | nil => rfl
  | cons r rest ih =>
    rw [List.forall_mem_cons] at names
    rw [firstRepeated?, repeatedNames, isBlankText_of_isNameText names.1]
    split
    · exact ih names.2 seen
    · cases seen.lookup r.name with
      | some line => rfl
      | none => exact ih names.2 _

end RequestFile
