import Mathlib
import RequestFile.Proofs.Json.Tree

/-!
# Records read back

Each reader of data takes the tree that the data are written as, and gives the data. For lists,
tables and values that may be absent this follows from what the reader of the parts does with each
of them. A record has the fields that it was written with, so that reading a field is reading the
tree that was written for it.
-/

namespace RequestFile

variable {α β : Type}

/-- What is read back one by one is read back as a list. -/
theorem mapM_map_of_forall {write : α → β} {read : β → Option α} {values : List α}
    (reads : ∀ a ∈ values, read (write a) = some a) :
    (values.map write).mapM read = some values := by
  induction values with
  | nil => rfl
  | cons a values ih =>
    rw [List.forall_mem_cons] at reads
    simp [reads.1, ih reads.2]

/-- An entry of a table is what is found under its name. -/
theorem Table.get?_of_mem_entries {t : Table α} {name : String} {value : α}
    (mem : (name, value) ∈ t.entries) : t.get? name = some value := by
  have named : name ∈ t.keys := List.mem_map_of_mem mem
  obtain ⟨other, found⟩ := Option.isSome_iff_exists.1 (isSome_get?.2 named)
  have same := List.inj_on_of_nodup_map t.nodup mem (mem_entries_of_get? found) rfl
  rw [found, (Prod.mk.inj same).2]

namespace Json

/-- Whether a value is kept in JSON: it is written as a tree of data, and read back from that. -/
structure IsKept (write : α → Tree) (read : Tree → Option α) (a : α) : Prop where
  data : (write a).OfData
  reads : read (write a) = some a

variable {write : α → Tree} {read : Tree → Option α}

/-! ## Parts -/

theorem isKept_text (s : String) : IsKept .text Tree.text? s where
  data := .text s
  reads := rfl

theorem isKept_bool (b : Bool) : IsKept .bool Tree.bool? b where
  data := .bool b
  reads := rfl

theorem isKept_nat {n : Nat} (fits : n ≤ Decimal.maxNat64) : IsKept .nat Tree.nat? n where
  data := .nat n
  reads := by
    have value : Decimal.ofDigits (Decimal.digits n) = n := Decimal.Writes.ofDigits_eq ⟨0, rfl⟩
    have found : (Tree.nat n).nat? =
        (some (Decimal.ofDigits (Decimal.digits n))).filter (· ≤ Decimal.maxNat64) := rfl
    rw [found, value]
    exact Option.filter_some_pos (by simpa using fits)

/-- A value that may be absent is kept if `null` is read as none of the values. -/
theorem isKept_option (a : Option α) (absent : read .null = none)
    (kept : ∀ b ∈ a, IsKept write read b) : IsKept (.option write) (Tree.option? read) a := by
  cases a with
  | none => exact ⟨.null, rfl⟩
  | some b =>
    have value := kept b rfl
    have given : write b ≠ .null := by
      intro null
      have reads := value.reads
      rw [null, absent] at reads
      cases reads
    refine ⟨value.data, ?_⟩
    rw [Tree.option, Tree.option?.eq_2 _ _ given, value.reads]
    rfl

theorem isKept_list (values : List α) (kept : ∀ a ∈ values, IsKept write read a) :
    IsKept (fun values => .array (values.map write)) (Tree.list? read) values where
  data := .array (List.forall_mem_map.2 fun a mem => (kept a mem).data)
  reads := mapM_map_of_forall fun a mem => (kept a mem).reads

/-- A table is kept with the order of its entries. -/
theorem isKept_table (t : Table α) (kept : ∀ entry ∈ t.entries, IsKept write read entry.2) :
    IsKept (.ofTable write) (Tree.table? read) t where
  data := .record (List.forall_mem_map.2 fun entry mem => (kept entry mem).data)
  reads := by
    have members : Tree.ofTable write t =
        .object (t.entries.map fun entry => (some entry.1, write entry.2)) := by
      simp [Tree.ofTable, Tree.record]
    rw [members, Tree.table?, mapM_map_of_forall]
    · rw [Option.map_some, Table.ofList_entries]
    · intro entry mem
      simp [Tree.named?, (kept entry mem).reads]

/-! ## Fields -/

/-- The fields of a record are the members that it was written with, if they are named as its fields
are, each once, and a nullable field is among them. -/
theorem fields?_record {shape : Shape} {members : List (String × Tree)}
    (known : ∀ member ∈ members, member.1 ∈ shape.fields)
    (once : (members.map Prod.fst).Nodup)
    (whole : ∀ name ∈ shape.nullable, name ∈ members.map Prod.fst) :
    (Tree.record members).fields? shape = some ⟨members, once⟩ := by
  have named : (members.map fun member => (some member.1, member.2)).mapM Tree.named? =
      some members :=
    mapM_map_of_forall fun _ _ => rfl
  have all : members.filter (fun entry => shape.fields.contains entry.1) = members :=
    List.filter_eq_self.2 fun member mem => by simpa using known member mem
  have missing : shape.nullable.filter (fun name => !(members.map Prod.fst).contains name) = [] :=
    List.filter_eq_nil_iff.2 fun name mem => by simpa using whole name mem
  have fields : shape.ofMembers? members = some ⟨members, once⟩ := by
    simp only [Shape.ofMembers?, all, missing, if_pos once, List.map_nil, List.append_nil]
    exact congrArg some (Table.ofList_entries ⟨members, once⟩)
  exact (congrArg (Option.bind · shape.ofMembers?) named).trans fields

namespace IsKept

variable {a default : α} {fields : Table Tree}

theorem required (kept : IsKept write read a) (name : String)
    (mem : (name, write a) ∈ fields.entries) : Fields.required fields name read = some a := by
  rw [Fields.required, Table.get?_of_mem_entries mem]
  exact kept.reads

theorem defaulted (kept : IsKept write read a) (name : String)
    (mem : (name, write a) ∈ fields.entries) :
    Fields.defaulted fields name read default = some a := by
  rw [Fields.defaulted, Table.get?_of_mem_entries mem]
  exact kept.reads

/-- A table that is left out where it is empty is read back as well. -/
theorem leftOut {t : Table β} {write : Table β → Tree} {read : Tree → Option (Table β)}
    (kept : IsKept write read t) (name : String)
    (given : t.isEmpty = false → (name, write t) ∈ fields.entries)
    (left : t.isEmpty = true → name ∉ fields.keys) :
    Fields.defaulted fields name read .empty = some t := by
  cases empty : t.isEmpty with
  | false => exact kept.defaulted name (given empty)
  | true =>
    have absent : fields.get? name = none := by
      rw [← Option.not_isSome_iff_eq_none, Table.isSome_get?]
      exact left empty
    have same : t = .empty := Table.ext (List.isEmpty_iff.1 empty)
    rw [Fields.defaulted, absent, same]

end IsKept

/-- A record is kept if it can be made again of its members. -/
theorem isKept_record (shape : Shape) {a : α} {members : List (String × Tree)}
    {make : Table Tree → Option α} (written : write a = .record members)
    (reader : ∀ tree, read tree = (tree.fields? shape).bind make)
    (known : ∀ member ∈ members, member.1 ∈ shape.fields)
    (once : (members.map Prod.fst).Nodup)
    (whole : ∀ name ∈ shape.nullable, name ∈ members.map Prod.fst)
    (data : ∀ member ∈ members, member.2.OfData)
    (made : ∀ fields : Table Tree, fields.entries = members → make fields = some a) :
    IsKept write read a where
  data := by
    rw [written]
    exact .record data
  reads := by
    rw [written, reader, fields?_record known once whole]
    exact made _ rfl

end Json

end RequestFile
