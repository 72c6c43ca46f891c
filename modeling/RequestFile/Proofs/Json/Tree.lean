import Mathlib
import RequestFile.Json.Record
import RequestFile.Proofs.Decimal.Integer
import RequestFile.Proofs.Json.Text

/-!
# Trees in JSON

The trees that data are written as are put together from texts, truth values, natural numbers, lists
and records. Each of them is read back from its JSON. The induction is over how the tree is put
together, and says more than that: the text of a tree is read up to its end wherever a mark stands
behind it, so that lists and records can be read part by part.
-/

namespace RequestFile.Json

/-! ## Numerals -/

/-- Whether a text ends the value in front of it: it is empty, or starts with one of the marks that
stand behind a value. -/
def EndsValue (rest : List Char) : Prop :=
  ∀ c ∈ rest.head?, c ∈ [',', ']', '}']

theorem endsValue_nil : EndsValue [] := by
  intro c first
  cases first

theorem endsValue_cons {c : Char} (mark : c ∈ [',', ']', '}']) (rest : List Char) :
    EndsValue (c :: rest) := by
  intro d first
  cases first
  exact mark

theorem readDigits_append {ds rest : List Char} (nonempty : ds ≠ [])
    (digit : ∀ c ∈ ds, c.isDigit = true) (stop : ∀ c ∈ rest.head?, c.isDigit = false) :
    readDigits (ds ++ rest) = some (ds, rest) := by
  have taken : rest.takeWhile Char.isDigit = [] := by
    cases rest with
    | nil => rfl
    | cons c rest => exact List.takeWhile_cons_of_neg (by simp [stop c rfl])
  have left : rest.dropWhile Char.isDigit = rest := by
    cases rest with
    | nil => rfl
    | cons c rest => exact List.dropWhile_cons_of_neg (by simp [stop c rfl])
  obtain ⟨d, ds, rfl⟩ := List.exists_cons_of_ne_nil nonempty
  rw [readDigits, List.takeWhile_append_of_pos digit, List.dropWhile_append_of_pos digit, taken,
    left, List.append_nil]

theorem readWhole_digits (n : Nat) {rest : List Char}
    (stop : ∀ c ∈ rest.head?, c.isDigit = false) :
    readWhole (Decimal.digits n ++ rest) = some (Decimal.digits n, rest) := by
  have nonempty : Decimal.digits n ≠ [] := Nat.toDigits_ne_nil
  have shape : (Decimal.digits n).length = 1 ∨ (Decimal.digits n).head? ≠ some '0' := by
    rcases Nat.eq_zero_or_pos n with rfl | positive
    · exact .inl rfl
    · exact .inr (Decimal.head?_digits_ne_zero positive)
  have read := readDigits_append nonempty (fun c => Decimal.isDigit_of_mem_digits) stop
  simp [readWhole, read, shape]

/-- The digits of a number are read as its numeral. -/
theorem readNumeral_digits (n : Nat) {rest : List Char} (ends : EndsValue rest) :
    readNumeral (Decimal.digits n ++ rest) = some (.ofNat n, rest) := by
  have stop : ∀ c ∈ rest.head?, c.isDigit = false ∧ c ≠ '.' ∧ c ≠ 'e' ∧ c ≠ 'E' := by
    intro c first
    have marks : ∀ c ∈ [',', ']', '}'], c.isDigit = false ∧ c ≠ '.' ∧ c ≠ 'e' ∧ c ≠ 'E' := by
      simp
    exact marks c (ends c first)
  have whole := readWhole_digits n fun c first => (stop c first).1
  have fraction : readFraction rest = some (none, rest) := by
    cases rest with
    | nil => rfl
    | cons c rest => exact readFraction.eq_2 _ fun _ same => (stop c rfl).2.1 (List.cons.inj same).1
  have exponent : readExponent rest = some (none, rest) := by
    cases rest with
    | nil => rfl
    | cons c rest => simp [readExponent, (stop c rfl).2.2]
  obtain ⟨d, ds, split, digit⟩ := Decimal.digits_eq_cons n
  have unsigned : d ≠ '-' := Decimal.ne_of_isDigit digit rfl
  rw [split, List.cons_append] at whole ⊢
  rw [readNumeral]
  · simp [whole, fraction, exponent, Numeral.ofNat, split]
  · exact fun _ same => unsigned (List.cons.inj same).1

/-! ## Trees -/

namespace Tree

/-- The trees of data: texts, truth values, natural numbers, what is absent, lists and records. -/
inductive OfData : Tree → Prop where
  | null : OfData .null
  | bool (b : Bool) : OfData (.bool b)
  | text (s : String) : OfData (.text s)
  | nat (n : Nat) : OfData (.nat n)
  | array {items : List Tree} (parts : ∀ item ∈ items, OfData item) : OfData (.array items)
  | record {members : List (String × Tree)} (parts : ∀ member ∈ members, OfData member.2) :
      OfData (.record members)

/-- Whether a tree is read back from its text, with any text behind that does not go on with it. -/
structure IsReadBack (tree : Tree) : Prop where
  /-- No array ends where the text starts. -/
  starts : ∃ c cs, tree.render = c :: cs ∧ isSpace c = false ∧ c ≠ ']'
  reads : ∀ depth rest, tree.render.length ≤ depth → EndsValue rest →
    readValue (depth + 1) (tree.render ++ rest) = some (tree, rest)

end Tree

section Reading

variable {depth : Nat} {rest : List Char}

theorem skipSpace_cons {c : Char} (cs : List Char) (mark : isSpace c = false) :
    skipSpace (c :: cs) = c :: cs :=
  List.dropWhile_cons_of_neg (by simp [mark])

theorem isSpace_of_isDigit {c : Char} (digit : c.isDigit = true) : isSpace c = false := by
  simp [isSpace, Decimal.ne_of_isDigit digit]

theorem readValue_nat (n : Nat) (ends : EndsValue rest) :
    readValue (depth + 1) (Decimal.digits n ++ rest) = some (.nat n, rest) := by
  obtain ⟨d, ds, split, digit⟩ := Decimal.digits_eq_cons n
  have numeral := readNumeral_digits n ends
  rw [split, List.cons_append] at numeral ⊢
  rw [readValue.eq_def]
  dsimp only
  rw [skipSpace_cons _ (isSpace_of_isDigit digit)]
  split
  case h_7 =>
    rw [numeral]
    rfl
  -- No other value starts with a digit.
  all_goals
    next same => exact absurd (List.cons.inj same).1 (Decimal.ne_of_isDigit digit rfl)

/-- What is read of a quoted text, whatever stands behind it. -/
theorem renderString_append (s : String) (cs : List Char) :
    renderString s ++ cs = '"' :: (s.toList.flatMap escapeChar ++ '"' :: cs) := by
  simp [renderString]

theorem readValue_text (s : String) :
    readValue (depth + 1) ((Tree.text s).render ++ rest) = some (.text s, rest) := by
  have value : ∀ cs, readValue (depth + 1) ('"' :: cs) =
      (readString cs).map fun read => (.string read.1, read.2) := by
    intro cs
    rw [readValue]
    rfl
  have written : (Tree.text s).render = renderString s := rfl
  rw [written, renderString_append, value, readString_escaped]
  rfl

/-! ### Lists -/

theorem readValue_array {items : List Tree} {c : Char} {cs : List Char}
    (space : isSpace c = false) (more : c ≠ ']')
    (read : readItems depth (c :: cs) = some (items, rest)) :
    readValue (depth + 1) ('[' :: c :: cs) = some (.array items, rest) := by
  have mark : skipSpace ('[' :: c :: cs) = '[' :: c :: cs := rfl
  simp only [readValue, mark, skipSpace_cons cs space]
  split
  · next same => exact absurd (List.cons.inj same).1 more
  · rw [read]
    rfl

theorem readItems_last {item : Tree} {cs : List Char}
    (read : readValue depth cs = some (item, ']' :: rest)) :
    readItems (depth + 1) cs = some ([item], rest) := by
  rw [readItems, read]
  rfl

theorem readItems_cons {item : Tree} {items : List Tree} {cs more : List Char}
    (first : readValue depth cs = some (item, ',' :: more))
    (others : readItems depth more = some (items, rest)) :
    readItems (depth + 1) cs = some (item :: items, rest) := by
  rw [readItems, first]
  show (readItems depth more).map _ = _
  rw [others]
  rfl

theorem renderItems_cons (item next : Tree) (items : List Tree) :
    renderItems (item :: next :: items) = item.render ++ ',' :: renderItems (next :: items) :=
  renderItems.eq_3 item (next :: items) (List.cons_ne_nil _ _)

theorem renderItems_starts {item : Tree} (items : List Tree) (first : item.IsReadBack) :
    ∃ c cs, renderItems (item :: items) = c :: cs ∧ isSpace c = false ∧ c ≠ ']' := by
  obtain ⟨c, cs, text, mark⟩ := first.starts
  cases items with
  | nil => exact ⟨c, cs, by rw [renderItems, text], mark⟩
  | cons next items => exact ⟨c, _, by rw [renderItems_cons, text, List.cons_append], mark⟩

theorem readItems_renderItems {items : List Tree} (nonempty : items ≠ [])
    (parts : ∀ item ∈ items, item.IsReadBack) (enough : (renderItems items).length ≤ depth) :
    readItems (depth + 2) (renderItems items ++ ']' :: rest) = some (items, rest) := by
  induction items generalizing depth with
  | nil => exact absurd rfl nonempty
  | cons item items ih =>
    rw [List.forall_mem_cons] at parts
    cases items with
    | nil =>
      rw [renderItems] at enough ⊢
      exact readItems_last (parts.1.reads _ _ (by omega) (endsValue_cons (by decide) _))
    | cons next items =>
      rw [renderItems_cons, List.length_append, List.length_cons] at enough
      obtain ⟨depth, rfl⟩ := Nat.exists_eq_add_of_le' (show 1 ≤ depth by omega)
      rw [renderItems_cons, List.append_assoc, List.cons_append]
      refine readItems_cons (parts.1.reads _ _ (by omega) (endsValue_cons (by decide) _)) ?_
      exact ih (List.cons_ne_nil _ _) parts.2 (by omega)

/-! ### Records -/

theorem readValue_object {members : List (Option String × Tree)} {cs : List Char}
    (read : readMembers depth ('"' :: cs) = some (members, rest)) :
    readValue (depth + 1) ('{' :: '"' :: cs) = some (.object members, rest) := by
  rw [readValue]
  show (readMembers depth ('"' :: cs)).map _ = _
  rw [read]
  rfl

theorem readMembers_last {name : String} {value : Tree} {cs : List Char}
    (read : readValue depth cs = some (value, '}' :: rest)) :
    readMembers (depth + 1) (renderString name ++ ':' :: cs) =
      some ([(some name, value)], rest) := by
  have mark : ∀ cs, skipSpace ('"' :: cs) = '"' :: cs := fun _ => rfl
  have colon : skipSpace (':' :: cs) = ':' :: cs := rfl
  rw [renderString_append]
  simp only [readMembers, mark, readString_escaped, colon, read]
  rfl

theorem readMembers_cons {name : String} {value : Tree} {cs more : List Char}
    {members : List (Option String × Tree)}
    (first : readValue depth cs = some (value, ',' :: more))
    (others : readMembers depth more = some (members, rest)) :
    readMembers (depth + 1) (renderString name ++ ':' :: cs) =
      some ((some name, value) :: members, rest) := by
  have mark : ∀ cs, skipSpace ('"' :: cs) = '"' :: cs := fun _ => rfl
  have colon : skipSpace (':' :: cs) = ':' :: cs := rfl
  have comma : skipSpace (',' :: more) = ',' :: more := rfl
  rw [renderString_append]
  simp only [readMembers, mark, readString_escaped, colon, first, comma, others, Option.map_some]

/-- The members of a record, as an object has them. -/
def Tree.asMembers (members : List (String × Tree)) : List (Option String × Tree) :=
  members.map fun (name, value) => (some name, value)

theorem renderMembers_singleton (name : String) (value : Tree) :
    renderMembers (Tree.asMembers [(name, value)]) = renderString name ++ ':' :: value.render := by
  rw [Tree.asMembers, List.map_singleton, renderMembers, Option.getD_some]

theorem renderMembers_cons (name : String) (value : Tree) (next : String × Tree)
    (members : List (String × Tree)) :
    renderMembers (Tree.asMembers ((name, value) :: next :: members)) =
      renderString name ++ ':' :: (value.render ++
        ',' :: renderMembers (Tree.asMembers (next :: members))) := by
  have written := renderMembers.eq_3 (some name) value (Tree.asMembers (next :: members))
    (List.cons_ne_nil _ _)
  rw [Option.getD_some, List.append_assoc, List.cons_append] at written
  exact written

theorem renderMembers_starts (member : String × Tree) (members : List (String × Tree)) :
    ∃ cs, renderMembers (Tree.asMembers (member :: members)) = '"' :: cs := by
  obtain ⟨name, value⟩ := member
  cases members with
  | nil => exact ⟨_, (renderMembers_singleton name value).trans (renderString_append name _)⟩
  | cons next members =>
    exact ⟨_, (renderMembers_cons name value next members).trans (renderString_append name _)⟩

theorem readMembers_renderMembers {members : List (String × Tree)} (nonempty : members ≠ [])
    (parts : ∀ member ∈ members, member.2.IsReadBack)
    (enough : (renderMembers (Tree.asMembers members)).length ≤ depth) :
    readMembers (depth + 2) (renderMembers (Tree.asMembers members) ++ '}' :: rest) =
      some (Tree.asMembers members, rest) := by
  induction members generalizing depth with
  | nil => exact absurd rfl nonempty
  | cons member members ih =>
    obtain ⟨name, value⟩ := member
    have first : value.IsReadBack := parts _ List.mem_cons_self
    have others := (List.forall_mem_cons.1 parts).2
    cases members with
    | nil =>
      rw [renderMembers_singleton, List.length_append, List.length_cons] at enough
      rw [renderMembers_singleton, List.append_assoc, List.cons_append]
      exact readMembers_last (first.reads _ _ (by omega) (endsValue_cons (by decide) _))
    | cons next members =>
      simp only [renderMembers_cons, List.length_append, List.length_cons] at enough
      obtain ⟨depth, rfl⟩ := Nat.exists_eq_add_of_le' (show 1 ≤ depth by omega)
      rw [renderMembers_cons, List.append_assoc, List.cons_append, List.append_assoc,
        List.cons_append]
      refine readMembers_cons (first.reads _ _ (by omega) (endsValue_cons (by decide) _)) ?_
      exact ih (List.cons_ne_nil _ _) others (by omega)

end Reading

namespace Tree

theorem isReadBack_null : IsReadBack .null where
  starts := ⟨'n', _, rfl, rfl, by decide⟩
  reads depth rest enough _ := by
    rw [readValue]
    rfl

theorem isReadBack_bool (b : Bool) : IsReadBack (.bool b) where
  starts := by
    cases b
    · exact ⟨'f', _, rfl, rfl, by decide⟩
    · exact ⟨'t', _, rfl, rfl, by decide⟩
  reads depth rest enough _ := by
    rw [readValue]
    cases b <;> rfl

theorem isReadBack_text (s : String) : IsReadBack (.text s) where
  starts := ⟨'"', _, rfl, rfl, by decide⟩
  reads depth rest enough _ := by
    exact readValue_text s

theorem isReadBack_nat (n : Nat) : IsReadBack (.nat n) := by
  have written : (nat n).render = Decimal.digits n := by
    simp [nat, render, Numeral.ofNat, Numeral.render]
  constructor
  case starts =>
    obtain ⟨d, ds, split, digit⟩ := Decimal.digits_eq_cons n
    exact ⟨d, ds, written.trans split, isSpace_of_isDigit digit, Decimal.ne_of_isDigit digit rfl⟩
  case reads =>
    intro depth rest enough ends
    rw [written]
    exact readValue_nat n ends

theorem isReadBack_array {items : List Tree} (parts : ∀ item ∈ items, item.IsReadBack) :
    IsReadBack (.array items) where
  starts := ⟨'[', _, rfl, rfl, by decide⟩
  reads depth rest enough _ := by
    cases items with
    | nil =>
      rw [readValue]
      rfl
    | cons item items =>
      have first : item.IsReadBack := parts item List.mem_cons_self
      have written : (array (item :: items)).render =
          '[' :: renderItems (item :: items) ++ [']'] := rfl
      rw [written, List.length_append, List.length_cons, List.length_singleton] at enough
      -- The brackets leave two steps, one for the array and one for the reader of its items.
      obtain ⟨depth, rfl⟩ := Nat.exists_eq_add_of_le' (show 2 ≤ depth by omega)
      have read := @readItems_renderItems depth rest _ (List.cons_ne_nil item items) parts
        (by omega)
      obtain ⟨c, cs, text, space, more⟩ := renderItems_starts items first
      rw [text, List.cons_append] at read
      rw [written, text, List.append_assoc, List.cons_append, List.cons_append,
        List.singleton_append]
      exact readValue_array space more read

theorem isReadBack_record {members : List (String × Tree)}
    (parts : ∀ member ∈ members, member.2.IsReadBack) : IsReadBack (.record members) where
  starts := ⟨'{', _, rfl, rfl, by decide⟩
  reads depth rest enough _ := by
    cases members with
    | nil =>
      rw [readValue]
      rfl
    | cons member members =>
      have written : (record (member :: members)).render =
          '{' :: renderMembers (asMembers (member :: members)) ++ ['}'] := rfl
      rw [written, List.length_append, List.length_cons, List.length_singleton] at enough
      obtain ⟨depth, rfl⟩ := Nat.exists_eq_add_of_le' (show 2 ≤ depth by omega)
      have read := @readMembers_renderMembers depth rest _ (List.cons_ne_nil member members) parts
        (by omega)
      obtain ⟨cs, text⟩ := renderMembers_starts member members
      rw [text, List.cons_append] at read
      rw [written, text, List.append_assoc, List.cons_append, List.cons_append,
        List.singleton_append]
      exact readValue_object read

theorem OfData.isReadBack {tree : Tree} (data : tree.OfData) : tree.IsReadBack := by
  induction data with
  | null => exact isReadBack_null
  | bool b => exact isReadBack_bool b
  | text s => exact isReadBack_text s
  | nat n => exact isReadBack_nat n
  | array _ ih => exact isReadBack_array ih
  | record _ ih => exact isReadBack_record ih

/-- The trees of data are read back from their JSON. -/
theorem OfData.readChars?_render {tree : Tree} (data : tree.OfData) :
    readChars? tree.render = some tree := by
  have read := data.isReadBack.reads tree.render.length [] le_rfl endsValue_nil
  rw [List.append_nil] at read
  rw [readChars?, read]
  rfl

end Tree

end RequestFile.Json
