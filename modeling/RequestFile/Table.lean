/-!
# Tables

A table maps names to values and remembers the order in which its names were first given: headers,
file variables and directives are kept in it. Giving a name again replaces its value and leaves it
in its place.
-/

namespace RequestFile

/-- Puts a value under a name: in the place of the name, or at the end if it is new. -/
def Table.put {α : Type} (name : String) (value : α) :
    List (String × α) → List (String × α)
  | [] => [(name, value)]
  | entry :: rest =>
    if entry.1 = name then (name, value) :: rest else entry :: Table.put name value rest

/-- A name that is put in stays in its place, or comes last if it is new. -/
theorem Table.keys_put {α : Type} (name : String) (value : α) (entries : List (String × α)) :
    (Table.put name value entries).map Prod.fst =
      if name ∈ entries.map Prod.fst then entries.map Prod.fst
      else entries.map Prod.fst ++ [name] := by
  induction entries with
  | nil => rfl
  | cons entry rest ih =>
    by_cases same : entry.1 = name
    · simp [Table.put, same]
    · rw [Table.put, if_neg same, List.map_cons, List.map_cons, ih]
      simp only [List.mem_cons, Ne.symm same, false_or]
      split
      · rfl
      · rfl

theorem Table.nodup_keys_put {α : Type} (name : String) (value : α)
    {entries : List (String × α)} (nodup : (entries.map Prod.fst).Nodup) :
    ((Table.put name value entries).map Prod.fst).Nodup := by
  rw [Table.keys_put]
  split
  · exact nodup
  · next absent =>
    rw [List.nodup_append]
    refine ⟨nodup, by simp, fun key mem other single => ?_⟩
    rw [List.mem_singleton.1 single]
    rintro rfl
    exact absent mem

/-- A list of names with their values in which no name stands twice. -/
structure Table (α : Type) where
  entries : List (String × α) := []
  nodup : (entries.map Prod.fst).Nodup := by simp

namespace Table

variable {α β : Type}

/-- The table without entries. -/
def empty : Table α := {}

instance : Inhabited (Table α) := ⟨empty⟩

@[ext]
theorem ext {s t : Table α} (h : s.entries = t.entries) : s = t := by
  cases s; cases t; cases h; rfl

instance [DecidableEq α] : DecidableEq (Table α) := fun s t =>
  decidable_of_iff (s.entries = t.entries) ⟨ext, fun h => h ▸ rfl⟩

instance [Repr α] : Repr (Table α) := ⟨fun t n => reprPrec t.entries n⟩

/-- Puts a value under a name, in its old place if the table has the name. -/
def insert (t : Table α) (name : String) (value : α) : Table α where
  entries := put name value t.entries
  nodup := nodup_keys_put name value t.nodup

/-- The table that comes of putting in the given entries one after the other. -/
def ofList (entries : List (String × α)) : Table α :=
  entries.foldl (fun t entry => t.insert entry.1 entry.2) empty

/-- Puts in the entries of another list, one after the other. -/
def insertAll (t : Table α) (entries : List (String × α)) : Table α :=
  entries.foldl (fun t entry => t.insert entry.1 entry.2) t

/-- The names, in order. -/
def keys (t : Table α) : List String :=
  t.entries.map Prod.fst

/-- The value of a name. -/
def get? (t : Table α) (name : String) : Option α :=
  (t.entries.find? (·.1 = name)).map Prod.snd

/-- Whether the table has a name. -/
def contains (t : Table α) (name : String) : Bool :=
  t.entries.any (·.1 = name)

/-- Takes out a name. -/
def erase (t : Table α) (name : String) : Table α where
  entries := t.entries.filter (·.1 ≠ name)
  nodup := t.nodup.sublist (List.filter_sublist.map Prod.fst)

/-- Whether the table has no entries. -/
def isEmpty (t : Table α) : Bool :=
  t.entries.isEmpty

/-- The number of entries. -/
def size (t : Table α) : Nat :=
  t.entries.length

/-- Applies a function to every value. -/
def mapValues (f : α → β) (t : Table α) : Table β where
  entries := t.entries.map fun entry => (entry.1, f entry.2)
  nodup := by simpa [Function.comp_def] using t.nodup

/-- Whether two tables have the same names with the same values, in any order. -/
def sameEntries [DecidableEq α] (s t : Table α) : Bool :=
  s.size == t.size && s.entries.all fun entry => t.get? entry.1 == some entry.2

/-! ## Laws -/

theorem isSome_get? {t : Table α} {name : String} :
    (t.get? name).isSome = true ↔ name ∈ t.keys := by
  simp [get?, keys, List.find?_isSome]

theorem mem_keys_of_get? {t : Table α} {name : String} {value : α}
    (found : t.get? name = some value) : name ∈ t.keys :=
  isSome_get?.1 (by rw [found]; rfl)

theorem mem_entries_of_get? {t : Table α} {name : String} {value : α}
    (found : t.get? name = some value) : (name, value) ∈ t.entries := by
  obtain ⟨entry, first, rfl⟩ := Option.map_eq_some_iff.1 found
  have same : entry.1 = name := by simpa using List.find?_some first
  exact same ▸ List.mem_of_find?_eq_some first

@[simp]
theorem get?_empty (name : String) : (empty : Table α).get? name = none :=
  rfl

theorem find?_put_self (name : String) (value : α) (entries : List (String × α)) :
    ((put name value entries).find? (·.1 = name)).map Prod.snd = some value := by
  induction entries with
  | nil => simp [put]
  | cons entry rest ih =>
    by_cases h : entry.1 = name
    · simp [put, h]
    · simpa [put, h] using ih

theorem find?_put_of_ne {name key : String} (h : key ≠ name) (value : α)
    (entries : List (String × α)) :
    (put name value entries).find? (·.1 = key) = entries.find? (·.1 = key) := by
  induction entries with
  | nil => simp [put, Ne.symm h]
  | cons entry rest ih =>
    by_cases same : entry.1 = name
    · simp [put, same, Ne.symm h]
    · simp only [put, same, if_false, List.find?_cons, ih]

/-- A name that has been put in has the value that was given. -/
@[simp]
theorem get?_insert_self (t : Table α) (name : String) (value : α) :
    (t.insert name value).get? name = some value :=
  find?_put_self name value t.entries

/-- Putting in a name leaves all other names as they are. -/
theorem get?_insert_of_ne {name key : String} (h : key ≠ name) (t : Table α) (value : α) :
    (t.insert name value).get? key = t.get? key := by
  simp only [get?, insert, find?_put_of_ne h]

/-- A name that has been taken out has no value. -/
@[simp]
theorem get?_erase_self (t : Table α) (name : String) : (t.erase name).get? name = none := by
  simp [get?, erase, List.find?_filter]

/-- Taking out a name leaves all other names as they are. -/
theorem get?_erase_of_ne {name key : String} (h : key ≠ name) (t : Table α) :
    (t.erase name).get? key = t.get? key := by
  simp only [get?, erase, List.find?_filter]
  congr 2
  funext entry
  by_cases same : entry.1 = key
  · simp [same, h]
  · simp [same]

theorem put_of_not_mem {name : String} {entries : List (String × α)}
    (absent : name ∉ entries.map Prod.fst) (value : α) :
    put name value entries = entries ++ [(name, value)] := by
  induction entries with
  | nil => rfl
  | cons entry rest ih =>
    rw [List.map_cons, List.mem_cons, not_or] at absent
    rw [put, if_neg (Ne.symm absent.1), ih absent.2, List.cons_append]

theorem keys_insert (t : Table α) (name : String) (value : α) :
    (t.insert name value).keys = if name ∈ t.keys then t.keys else t.keys ++ [name] :=
  keys_put name value t.entries

/-- Which names a table has and in which order depends on the names that are put in, not on their
values. -/
theorem keys_insertAll_congr {s : Table α} {t : Table β} (same : s.keys = t.keys)
    {entries : List (String × α)} {others : List (String × β)}
    (names : entries.map Prod.fst = others.map Prod.fst) :
    (s.insertAll entries).keys = (t.insertAll others).keys := by
  induction entries generalizing s t others with
  | nil =>
    cases others with
    | nil => exact same
    | cons other others => cases names
  | cons entry rest ih =>
    cases others with
    | nil => cases names
    | cons other others =>
      rw [List.map_cons, List.map_cons, List.cons.injEq] at names
      rw [insertAll, insertAll, List.foldl_cons, List.foldl_cons, ← insertAll, ← insertAll]
      refine ih ?_ names.2
      rw [keys_insert, keys_insert, same, names.1]

/-- The value that is put in last under a name counts. -/
theorem get?_insertAll (t : Table α) (entries : List (String × α)) (name : String) :
    (t.insertAll entries).get? name =
      ((entries.filter (·.1 = name)).getLast?.map Prod.snd).or (t.get? name) := by
  induction entries generalizing t with
  | nil => rfl
  | cons entry rest ih =>
    rw [insertAll, List.foldl_cons, ← insertAll, ih]
    by_cases same : entry.1 = name
    · rw [List.filter_cons_of_pos (by simpa using same), List.getLast?_cons, same, get?_insert_self]
      cases (rest.filter (·.1 = name)).getLast? <;> simp
    · rw [List.filter_cons_of_neg (by simpa using same), get?_insert_of_ne (Ne.symm same)]

/-- Entries with new names are put at the end. -/
theorem entries_insertAll (t : Table α) {entries : List (String × α)}
    (nodup : ((t.entries ++ entries).map Prod.fst).Nodup) :
    (t.insertAll entries).entries = t.entries ++ entries := by
  induction entries generalizing t with
  | nil => rw [insertAll, List.foldl_nil, List.append_nil]
  | cons entry rest ih =>
    have absent : entry.1 ∉ t.entries.map Prod.fst := by
      rw [List.map_append, List.nodup_append] at nodup
      intro mem
      exact nodup.2.2 entry.1 mem entry.1 List.mem_cons_self rfl
    have grown : (t.insert entry.1 entry.2).entries = t.entries ++ [entry] :=
      put_of_not_mem absent entry.2
    have later := ih (t.insert entry.1 entry.2) (by
      rw [grown, List.append_assoc]
      exact nodup)
    rw [insertAll, List.foldl_cons, ← insertAll, later, grown, List.append_assoc]
    rfl

/-- A table is made of its entries. -/
theorem ofList_entries (t : Table α) : ofList t.entries = t := by
  apply ext
  exact entries_insertAll empty t.nodup

end Table

end RequestFile
