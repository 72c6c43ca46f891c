import RequestFile.Placeholder
import RequestFile.Table
/-!
# References between variables

A text refers to the names in its placeholders. The value of a file variable is a text as well, so
file variables refer to one another; one that reaches itself in this way has no value.
-/

namespace RequestFile

/-- The distinct members of a list of names, sorted by code points. -/
def sortedNames (names : List String) : List String :=
  names.eraseDups.mergeSort fun s t => !decide (t < s)

/-- The distinct names to which a text refers, sorted. -/
def references (text : String) : List String :=
  sortedNames ((Placeholder.parse text).filterMap fun segment => segment.name?.map String.ofList)

/-- The variables to which the value of a variable refers: the names in double braces that are not
the name of a generator. -/
def variableReferences (value : String) : List String :=
  (Placeholder.parse value).filterMap fun
    | .braces content =>
      let name := Text.trim content
      if name.head? == some '$' then none else some (String.ofList name)
    | _ => none

namespace Table

/-- The variables to which the value of a name refers. -/
def referencesOf (t : Table String) (name : String) : List String :=
  ((t.get? name).map variableReferences).getD []

theorem referencesOf_of_not_mem {t : Table String} {name : String} (h : name ∉ t.keys) :
    t.referencesOf name = [] := by
  cases found : t.get? name with
  | none => rw [referencesOf, found]; rfl
  | some value => exact absurd (mem_keys_of_get? found) h

/-- How much a walk has before it that has visited some names: the names of the table that are left,
with what they refer to. -/
def ahead (t : Table String) (visited : List String) : Nat :=
  ((t.keys.removeAll visited).flatMap fun key => key :: t.referencesOf key).length

theorem removeAll_cons (names visited : List String) (name : String) :
    names.removeAll (name :: visited) = (names.removeAll visited).filter (· != name) := by
  rw [List.removeAll, List.removeAll, List.filter_filter]
  apply List.filter_congr
  intro key _
  rw [List.elem_cons, bne]
  cases key == name <;> rfl

theorem length_flatMap_filter_le (f : String → List String) (p : String → Bool)
    (names : List String) : ((names.filter p).flatMap f).length ≤ (names.flatMap f).length := by
  induction names with
  | nil => simp
  | cons key names ih =>
    rw [List.filter_cons, List.flatMap_cons, List.length_append]
    split
    · rw [List.flatMap_cons, List.length_append]
      omega
    · omega

theorem length_flatMap_filter_add_le (f : String → List String) {name : String}
    {names : List String} (mem : name ∈ names) :
    ((names.filter (· != name)).flatMap f).length + (f name).length ≤
      (names.flatMap f).length := by
  induction names with
  | nil => cases mem
  | cons key names ih =>
    rw [List.filter_cons, List.flatMap_cons, List.length_append]
    by_cases same : key = name
    · have rest := length_flatMap_filter_le f (· != name) names
      rw [if_neg (by simp [same]), same]
      omega
    · have rest := ih ((List.mem_cons.1 mem).resolve_left (Ne.symm same))
      rw [if_pos (by simp [same]), List.flatMap_cons, List.length_append]
      omega

/-- Entering a name takes more away from what is ahead than it puts on the stack. -/
theorem ahead_cons_lt (t : Table String) {visited : List String} {name : String}
    (fresh : name ∉ visited) :
    t.ahead (name :: visited) + (t.referencesOf name).length < t.ahead visited + 1 := by
  rw [ahead, ahead, removeAll_cons]
  by_cases mem : name ∈ t.keys
  · have unvisited : name ∈ t.keys.removeAll visited := by simp [List.removeAll, mem, fresh]
    have fewer := length_flatMap_filter_add_le (fun key => key :: t.referencesOf key) unvisited
    simp only [List.length_cons] at fewer
    omega
  · have fewer := length_flatMap_filter_le (fun key => key :: t.referencesOf key) (· != name)
      (t.keys.removeAll visited)
    rw [referencesOf_of_not_mem mem, List.length_nil]
    omega

/-- Whether a walk along references comes to a goal. The walk goes to the name on top of the stack
next. It passes over a name that it has visited; otherwise it puts the names to which this one
refers on the stack, so that the last of them is on top. -/
def comesTo (t : Table String) (goal : String) (visited : List String) : List String → Bool
  | [] => false
  | name :: stack =>
    if name == goal then true
    else if _h : name ∈ visited then t.comesTo goal visited stack
    else t.comesTo goal (name :: visited) ((t.referencesOf name).reverse ++ stack)
termination_by stack => t.ahead visited + stack.length
decreasing_by
  · simp
  · have := ahead_cons_lt t _h
    simp only [List.length_append, List.length_reverse, List.length_cons]
    omega

/-- Whether a variable reaches itself by one or more references. -/
def isCircular (t : Table String) (name : String) : Bool :=
  t.comesTo name [] (t.referencesOf name).reverse

/-- The variables that reach themselves, in the order of the table. -/
def circular (t : Table String) : List String :=
  t.keys.filter t.isCircular

end Table

/-- The names of the variables that reach themselves, sorted. -/
def circularReferences (file : Table String) : List String :=
  sortedNames file.circular

end RequestFile
