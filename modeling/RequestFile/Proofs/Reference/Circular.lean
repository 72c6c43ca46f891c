import Mathlib
import RequestFile.Reference

/-!
# Circular file variables

The value of a file variable refers to other variables, and a variable is circular when references
lead from it back to itself. `Table.comesTo` follows the references with a stack, never enters a
name twice, and stops as soon as it comes to its goal. Here it is shown to decide whether any path
leads to the goal (`comesTo_iff`), so that `circularReferences` lists exactly the variables on
cycles, whatever the order of the table.
-/

namespace RequestFile

/-! ## Sorted names -/

theorem mem_sortedNames {names : List String} {name : String} :
    name ∈ sortedNames names ↔ name ∈ names := by
  simp [sortedNames]

theorem sortedNames_singleton (name : String) : sortedNames [name] = [name] := by
  rw [sortedNames, List.eraseDups_cons, List.filter_nil, List.eraseDups_nil,
    List.mergeSort_singleton]

theorem nodup_eraseDups {α : Type} [DecidableEq α] (l : List α) : l.eraseDups.Nodup := by
  induction h : l.length using Nat.strongRecOn generalizing l with
  | _ n ih =>
    cases l with
    | nil => simp
    | cons a rest =>
      rw [List.eraseDups_cons, List.nodup_cons]
      have shorter : (rest.filter fun b => !b == a).length < n := by
        have := List.length_filter_le (fun b => !b == a) rest
        simp only [List.length_cons] at h
        omega
      refine ⟨?_, ih _ shorter _ rfl⟩
      simp

/-- Sorted names ascend, and none of them comes twice. -/
theorem pairwise_sortedNames (names : List String) : (sortedNames names).Pairwise (· < ·) := by
  have ascending : (sortedNames names).Pairwise fun s t => (!decide (t < s)) = true := by
    apply List.pairwise_mergeSort
    · intro a b c
      simp only [Bool.not_eq_true', decide_eq_false_iff_not, not_lt]
      exact le_trans
    · intro a b
      simp only [Bool.or_eq_true, Bool.not_eq_true', decide_eq_false_iff_not, not_lt]
      exact le_total a b
  have distinct : (sortedNames names).Nodup :=
    (List.mergeSort_perm _ _).nodup_iff.2 (nodup_eraseDups names)
  refine (ascending.and distinct).imp ?_
  rintro s t ⟨ordered, different⟩
  simp only [Bool.not_eq_true', decide_eq_false_iff_not, not_lt] at ordered
  exact lt_of_le_of_ne ordered different

/-- Lists with the same members have the same sorted names. -/
theorem sortedNames_congr {names others : List String} (h : ∀ name, name ∈ names ↔ name ∈ others) :
    sortedNames names = sortedNames others := by
  have ascends := pairwise_sortedNames names
  have ascends' := pairwise_sortedNames others
  have same : (sortedNames names).Perm (sortedNames others) := by
    rw [List.perm_ext_iff_of_nodup (ascends.imp ne_of_lt) (ascends'.imp ne_of_lt)]
    simpa only [mem_sortedNames] using h
  exact same.eq_of_pairwise (fun _ _ _ _ hab hba => absurd hba (lt_asymm hab)) ascends ascends'

namespace Table

/-! ## References -/

/-- The value of a variable holds a placeholder for another variable. -/
def RefersTo (t : Table String) (a b : String) : Prop :=
  ∃ value content, t.get? a = some value ∧ .braces content ∈ Placeholder.parse value ∧
    Text.trim content = b.toList ∧ b.toList.head? ≠ some '$'

theorem mem_variableReferences {value name : String} :
    name ∈ variableReferences value ↔
      ∃ content, .braces content ∈ Placeholder.parse value ∧ Text.trim content = name.toList ∧
        name.toList.head? ≠ some '$' := by
  rw [variableReferences, List.mem_filterMap]
  constructor
  · rintro ⟨segment, mem, read⟩
    cases segment with
    | braces content =>
      dsimp only at read
      split at read
      · cases read
      · next plain =>
        cases read
        rw [String.toList_ofList]
        exact ⟨content, mem, rfl, by simpa using plain⟩
    | char c => cases read
    | dollar content => cases read
  · rintro ⟨content, mem, trims, plain⟩
    refine ⟨.braces content, mem, ?_⟩
    simp [trims, plain]

theorem mem_referencesOf {t : Table String} {a b : String} :
    b ∈ t.referencesOf a ↔ t.RefersTo a b := by
  rw [referencesOf, RefersTo]
  cases t.get? a with
  | none => simp
  | some value => simp [mem_variableReferences]

theorem mem_keys_of_refersTo {t : Table String} {a b : String} (refers : t.RefersTo a b) :
    a ∈ t.keys := by
  obtain ⟨value, _, found, _⟩ := refers
  exact mem_keys_of_get? found

/-! ## The search for a path -/

/-- What a search for a goal keeps: it has not visited the goal, and whatever the visited names
refer to has been visited as well or is on the stack. -/
structure IsCovered (t : Table String) (goal : String) (visited stack : List String) : Prop where
  goal_not_mem : goal ∉ visited
  covered : ∀ a ∈ visited, ∀ b, t.RefersTo a b → b ∈ visited ∨ b ∈ stack

variable {t : Table String} {goal name : String} {visited stack : List String}

/-- Passing over a name that has been visited. -/
theorem IsCovered.pass (h : t.IsCovered goal visited (name :: stack)) (mem : name ∈ visited) :
    t.IsCovered goal visited stack := by
  refine ⟨h.goal_not_mem, ?_⟩
  intro a mema b refers
  rcases h.covered a mema b refers with memb | memb
  · exact .inl memb
  · rcases List.mem_cons.1 memb with rfl | memb
    · exact .inl mem
    · exact .inr memb

/-- Entering a name. -/
theorem IsCovered.enter (h : t.IsCovered goal visited (name :: stack)) (other : name ≠ goal) :
    t.IsCovered goal (name :: visited) ((t.referencesOf name).reverse ++ stack) := by
  refine ⟨?_, ?_⟩
  · intro mem
    rcases List.mem_cons.1 mem with same | mem
    · exact other same.symm
    · exact h.goal_not_mem mem
  · intro a mema b refers
    rw [List.mem_append, List.mem_reverse]
    rcases List.mem_cons.1 mema with rfl | mema
    · exact .inr (.inl (mem_referencesOf.2 refers))
    · rcases h.covered a mema b refers with memb | memb
      · exact .inl (List.mem_cons_of_mem _ memb)
      · rcases List.mem_cons.1 memb with rfl | memb
        · exact .inl List.mem_cons_self
        · exact .inr (.inr memb)

theorem exists_path_of_comesTo (comes : t.comesTo goal visited stack = true) :
    ∃ a ∈ stack, Relation.ReflTransGen t.RefersTo a goal := by
  fun_induction comesTo t goal visited stack with
  | case1 => cases comes
  | case2 visited name stack same =>
    exact ⟨name, List.mem_cons_self, by rw [eq_of_beq same]⟩
  | case3 visited name stack other seen ih =>
    obtain ⟨a, mem, path⟩ := ih comes
    exact ⟨a, List.mem_cons_of_mem _ mem, path⟩
  | case4 visited name stack other fresh ih =>
    obtain ⟨a, mem, path⟩ := ih comes
    rcases List.mem_append.1 mem with refers | mem
    · rw [List.mem_reverse, mem_referencesOf] at refers
      exact ⟨name, List.mem_cons_self, path.head refers⟩
    · exact ⟨a, List.mem_cons_of_mem _ mem, path⟩

/-- A search that ends without its goal has visited whatever a path leads to, so no path leads to
the goal. -/
theorem IsCovered.not_path_of_comesTo (h : t.IsCovered goal visited stack)
    (misses : t.comesTo goal visited stack = false) {a : String} (mem : a ∈ visited ∨ a ∈ stack) :
    ¬ Relation.ReflTransGen t.RefersTo a goal := by
  fun_induction comesTo t goal visited stack with
  | case1 visited =>
    intro path
    induction path using Relation.ReflTransGen.head_induction_on with
    | refl => exact h.goal_not_mem (mem.resolve_right List.not_mem_nil)
    | @head a b refers _ ih =>
      exact ih (h.covered a (mem.resolve_right List.not_mem_nil) b refers)
  | case2 => cases misses
  | case3 visited name stack other seen ih =>
    apply ih (h.pass seen) misses
    rcases mem with mem | mem
    · exact .inl mem
    · rcases List.mem_cons.1 mem with rfl | mem
      · exact .inl seen
      · exact .inr mem
  | case4 visited name stack other fresh ih =>
    apply ih (h.enter (by simpa using other)) misses
    rcases mem with mem | mem
    · exact .inl (List.mem_cons_of_mem _ mem)
    · rcases List.mem_cons.1 mem with rfl | mem
      · exact .inl List.mem_cons_self
      · exact .inr (List.mem_append_right _ mem)

/-- The search finds out whether any path leads from the stack to the goal. -/
theorem IsCovered.comesTo_iff (h : t.IsCovered goal visited stack) :
    t.comesTo goal visited stack = true ↔
      ∃ a ∈ stack, Relation.ReflTransGen t.RefersTo a goal := by
  refine ⟨exists_path_of_comesTo, ?_⟩
  rintro ⟨a, mem, path⟩
  by_contra misses
  exact h.not_path_of_comesTo (Bool.eq_false_of_not_eq_true misses) (.inr mem) path

/-- A search that starts out from a name decides whether one or more references lead from it to
itself. -/
theorem isCircular_iff_transGen :
    t.isCircular name = true ↔ Relation.TransGen t.RefersTo name name := by
  have start : t.IsCovered name [] (t.referencesOf name).reverse :=
    ⟨List.not_mem_nil, fun _ mem => absurd mem List.not_mem_nil⟩
  rw [isCircular, start.comesTo_iff, Relation.TransGen.head'_iff]
  simp only [List.mem_reverse, mem_referencesOf]

/-! ## Paths among names -/

/-- A reference from one name to another that stays among some names. -/
def Link (next : String → List String) (among : List String) (a b : String) : Prop :=
  b ∈ next a ∧ b ∈ among

theorem Link.mono {next : String → List String} {among more : List String} (sub : among ⊆ more)
    {a b : String} (path : Relation.ReflTransGen (Link next among) a b) :
    Relation.ReflTransGen (Link next more) a b := by
  induction path with
  | refl => exact .refl
  | tail _ link ih => exact ih.tail ⟨link.1, sub link.2⟩

/-- A path that ends at a variable stays among the variables, since a name without a value refers to
nothing. -/
theorem transGen_link_iff {a b : String} (mem : b ∈ t.keys) :
    Relation.TransGen (Link t.referencesOf t.keys) a b ↔ Relation.TransGen t.RefersTo a b := by
  constructor
  · intro path
    refine Relation.TransGen.mono ?_ a b path
    intro c d link
    exact mem_referencesOf.1 link.1
  · intro path
    induction path with
    | single refers => exact .single ⟨mem_referencesOf.2 refers, mem⟩
    | tail _ refers ih =>
      exact (ih (mem_keys_of_refersTo refers)).tail ⟨mem_referencesOf.2 refers, mem⟩

/-- A variable is circular when one or more references lead from it to itself. -/
theorem isCircular_iff :
    t.isCircular name = true ↔ Relation.TransGen (Link t.referencesOf t.keys) name name := by
  rw [isCircular_iff_transGen]
  constructor
  · intro cycle
    obtain ⟨_, refers, _⟩ := Relation.TransGen.head'_iff.1 cycle
    exact (transGen_link_iff (mem_keys_of_refersTo refers)).2 cycle
  · intro cycle
    obtain ⟨_, _, link⟩ := Relation.TransGen.tail'_iff.1 cycle
    exact (transGen_link_iff link.2).1 cycle

theorem mem_circularReferences {file : Table String} {name : String} :
    name ∈ circularReferences file ↔
      Relation.TransGen (Link file.referencesOf file.keys) name name := by
  rw [circularReferences, mem_sortedNames, circular, List.mem_filter, isCircular_iff]
  refine ⟨And.right, fun cycle => ⟨?_, cycle⟩⟩
  obtain ⟨_, _, link⟩ := Relation.TransGen.tail'_iff.1 cycle
  exact link.2

/-! ## Walks -/

/-- The first `k + 1` names of a sequence are variables, each of which refers to the next. -/
structure IsWalk (t : Table String) (x : Nat → String) (k : Nat) : Prop where
  mem_keys : ∀ i ≤ k, x i ∈ t.keys
  refersTo : ∀ i < k, t.RefersTo (x i) (x (i + 1))

theorem IsWalk.path {t : Table String} {x : Nat → String} {k : Nat} (walk : t.IsWalk x k)
    {i j : Nat} (le : i ≤ j) (bound : j ≤ k) :
    Relation.ReflTransGen (Link t.referencesOf t.keys) (x i) (x j) := by
  induction j, le using Nat.le_induction with
  | base => exact .refl
  | succ j le ih =>
    have refers := walk.refersTo j bound
    exact (ih (Nat.le_of_succ_le bound)).tail
      ⟨mem_referencesOf.2 refers, walk.mem_keys (j + 1) bound⟩

/-- A variable on a closed walk leads to itself: along the rest of the walk, and then from the start
on. -/
theorem IsWalk.cycle {t : Table String} {x : Nat → String} {k : Nat} (walk : t.IsWalk x k)
    (closed : x 0 = x k) {i : Nat} (bound : i < k) :
    Relation.TransGen (Link t.referencesOf t.keys) (x i) (x i) := by
  have first : Link t.referencesOf t.keys (x i) (x (i + 1)) :=
    ⟨mem_referencesOf.2 (walk.refersTo i bound), walk.mem_keys (i + 1) bound⟩
  have onward := walk.path (i := i + 1) bound le_rfl
  have back := walk.path (Nat.zero_le i) bound.le
  rw [← closed] at onward
  exact .head' first (onward.trans back)

theorem exists_walk_of_path {t : Table String} {a b : String} (mem : a ∈ t.keys)
    (path : Relation.TransGen (Link t.referencesOf t.keys) a b) :
    ∃ k x, 1 ≤ k ∧ t.IsWalk x k ∧ x 0 = a ∧ x k = b := by
  induction path with
  | @single b link =>
    refine ⟨1, fun i => if i = 0 then a else b, le_rfl, ⟨?_, ?_⟩, rfl, rfl⟩
    · intro i _
      by_cases zero : i = 0
      · simpa [zero] using mem
      · simpa [zero] using link.2
    · intro i bound
      obtain rfl : i = 0 := by omega
      simpa using mem_referencesOf.1 link.1
  | @tail b c _ link ih =>
    obtain ⟨k, x, pos, walk, start, stop⟩ := ih
    refine ⟨k + 1, fun i => if i ≤ k then x i else c, by omega, ⟨?_, ?_⟩, by simp [start], by simp⟩
    · intro i bound
      by_cases old : i ≤ k
      · simpa [old] using walk.mem_keys i old
      · simpa [old] using link.2
    · intro i bound
      by_cases old : i < k
      · simpa [old.le, Nat.succ_le_of_lt old] using walk.refersTo i old
      · obtain rfl : i = k := by omega
        simpa [stop] using mem_referencesOf.1 link.1

/-! ## Circular variables -/

theorem circularReferences_congr {file other : Table String}
    (same : ∀ name, other.get? name = file.get? name) :
    circularReferences other = circularReferences file := by
  have keys : ∀ name, name ∈ other.keys ↔ name ∈ file.keys := by
    intro name
    rw [← isSome_get?, ← isSome_get?, same]
  have links : Link other.referencesOf other.keys = Link file.referencesOf file.keys := by
    funext a b
    simp only [Link, referencesOf, same, keys]
  apply sortedNames_congr
  intro name
  have iff := @mem_circularReferences other name
  rw [links, ← mem_circularReferences] at iff
  simpa only [circularReferences, mem_sortedNames] using iff

/-- The circular variables are exactly the variables that a walk along references leads back to
themselves. With a variable all others on such a walk are circular, and the list depends on the
values of the variables only. -/
theorem mem_circularReferences_iff_walk (file : Table String) :
    (∀ name, name ∈ circularReferences file ↔
      ∃ k x, 1 ≤ k ∧ file.IsWalk x k ∧ x 0 = name ∧ x k = name) ∧
    (∀ k x, file.IsWalk x k → x 0 = x k → ∀ i < k, x i ∈ circularReferences file) ∧
    (circularReferences file).Pairwise (· < ·) ∧
    ∀ other : Table String, (∀ name, other.get? name = file.get? name) →
      circularReferences other = circularReferences file := by
  refine ⟨?_, ?_, pairwise_sortedNames _, fun _ => circularReferences_congr⟩
  · intro name
    rw [mem_circularReferences]
    constructor
    · intro cycle
      obtain ⟨_, _, link⟩ := Relation.TransGen.tail'_iff.1 cycle
      exact exists_walk_of_path link.2 cycle
    · rintro ⟨k, x, pos, walk, rfl, stop⟩
      exact walk.cycle stop.symm pos
  · intro k x walk closed i bound
    exact mem_circularReferences.2 (walk.cycle closed bound)

example : circularReferences
    (.ofList [("a", "{{b}}"), ("b", "x{{ c }}"), ("c", "{{a}}"), ("d", "{{a}}{{e}}")]) =
      ["a", "b", "c"] := by
  cbv

end Table

end RequestFile
