import Mathlib
import RequestFile.Json.Path
import RequestFile.Proofs.Decimal.Integer
import RequestFile.Proofs.Text.Blank

/-!
# Paths as written

A step of a path can be written in several ways: a place in brackets, a name between quotes in
brackets, or a name behind a point. `Spells` relates steps to all the texts that can be put together
from these. Each of the texts is read as its steps, and leads where the steps lead.
-/

namespace RequestFile.Json

/-! ## Where steps lead -/

namespace Value

/-- Where steps lead from a value. In an object a name leads to the first member that has it. -/
inductive Leads : Value → List Step → Value → Prop
  | here (v : Value) : Leads v [] v
  | field {before after : List (String × Value)} {name : String} {member u : Value}
      {steps : List Step} (first : name ∉ before.map Prod.fst) (rest : Leads member steps u) :
      Leads (.object (before ++ (name, member) :: after)) (.field name :: steps) u
  | index {items : List Value} {n : Nat} {item u : Value} {steps : List Step}
      (place : items[n]? = some item) (rest : Leads item steps u) :
      Leads (.array items) (.index n :: steps) u

/-- The member of a name is the first one that has it. -/
theorem member?_eq_some_iff {v member : Value} {name : String} :
    v.member? name = some member ↔ ∃ before after,
      v = .object (before ++ (name, member) :: after) ∧ name ∉ before.map Prod.fst := by
  cases v with
  | object members =>
    rw [member?, Option.map_eq_some_iff]
    constructor
    · rintro ⟨⟨found, u⟩, search, rfl⟩
      obtain ⟨same, before, after, rfl, others⟩ := List.find?_eq_some_iff_append.1 search
      obtain rfl : found = name := by simpa using same
      refine ⟨before, after, rfl, fun mem => ?_⟩
      obtain ⟨entry, inside, equal⟩ := List.mem_map.1 mem
      simpa [equal] using others entry inside
    · rintro ⟨before, after, same, first⟩
      cases same
      have none : before.find? (·.1 = name) = none := by
        rw [List.find?_eq_none]
        intro entry mem equal
        exact first (List.mem_map.2 ⟨entry, mem, by simpa using equal⟩)
      exact ⟨(name, member), by simp [List.find?_append, none], rfl⟩
  | _ => simp [member?]

theorem leads_iff_follow? {v u : Value} {steps : List Step} :
    v.Leads steps u ↔ v.follow? steps = some u := by
  induction steps generalizing v with
  | nil =>
    constructor
    · rintro ⟨⟩
      rfl
    · rintro ⟨⟩
      exact .here _
  | cons step rest ih =>
    rw [follow?, List.foldlM_cons, Option.bind_eq_bind, Option.bind_eq_some_iff]
    constructor
    · rintro (_ | ⟨first, later⟩ | ⟨place, later⟩)
      · exact ⟨_, member?_eq_some_iff.2 ⟨_, _, rfl, first⟩, ih.1 later⟩
      · exact ⟨_, place, ih.1 later⟩
    · rintro ⟨next, taken, later⟩
      cases step with
      | field name =>
        obtain ⟨before, after, rfl, first⟩ := member?_eq_some_iff.1 taken
        exact .field first (ih.2 later)
      | index n =>
        cases v with
        | array items => exact .index taken (ih.2 later)
        | _ => cases taken

end Value

/-! ## How steps are written -/

/-- The ways to write steps one after the other. A name behind a point must not be empty or hold the
marks of further steps, and it loses blanks at the end of a path. -/
inductive Spells : List Step → List Char → Prop
  | nil : Spells [] []
  | place (n : Nat) {steps : List Step} {cs : List Char} (rest : Spells steps cs) :
      Spells (.index n :: steps) ('[' :: Decimal.digits n ++ ']' :: cs)
  | quoted (quote : Char) (name : String) {steps : List Step} {cs : List Char}
      (kind : quote = '\'' ∨ quote = '"') (absent : quote ∉ name.toList) (rest : Spells steps cs) :
      Spells (.field name :: steps) ('[' :: quote :: name.toList ++ quote :: ']' :: cs)
  | dotted (name : String) {steps : List Step} {cs : List Char} (nonempty : name ≠ "")
      (plain : '.' ∉ name.toList ∧ '[' ∉ name.toList)
      (last : steps = [] → ∀ c ∈ name.toList.getLast?, Text.isBlank c = false)
      (rest : Spells steps cs) : Spells (.field name :: steps) ('.' :: name.toList ++ cs)

/-- Whether a path is a way to write steps. -/
def IsPathOf (steps : List Step) (path : String) : Prop :=
  ∃ cs, Spells steps cs ∧ path = String.ofList ('$' :: cs)

/-! ## Reading brackets -/

/-- Between quotes everything is passed over up to the next quote. -/
theorem readBracket_some {quote : Char} {cs : List Char} (absent : quote ∉ cs)
    (rest : List Char) :
    readBracket (some quote) (cs ++ quote :: rest) =
      (readBracket none rest).map fun (inner, rest) => (cs ++ quote :: inner, rest) := by
  induction cs with
  | nil => simp [readBracket]
  | cons c cs ih =>
    rw [List.mem_cons, not_or] at absent
    have other : (c == quote) = false := beq_false_of_ne (Ne.symm absent.1)
    rw [List.cons_append, readBracket, other, if_neg Bool.false_ne_true, ih absent.2,
      Option.map_map]
    rfl

/-- A name between quotes is read up to the bracket behind it. -/
theorem readBracket_quoted {quote : Char} (kind : quote = '\'' ∨ quote = '"') {cs : List Char}
    (absent : quote ∉ cs) (rest : List Char) :
    readBracket none (quote :: cs ++ quote :: ']' :: rest) =
      some (quote :: cs ++ [quote], rest) := by
  have opens : readBracket none (quote :: (cs ++ quote :: ']' :: rest)) =
      (readBracket (some quote) (cs ++ quote :: ']' :: rest)).map fun (inner, rest) =>
        (quote :: inner, rest) := by
    rcases kind with rfl | rfl <;> rfl
  have closes : readBracket none (']' :: rest) = some ([], rest) := rfl
  rw [List.cons_append, opens, readBracket_some absent, closes]
  rfl

/-- Digits are read up to the bracket behind them. -/
theorem readBracket_digits {cs : List Char} (digits : ∀ c ∈ cs, c.isDigit = true)
    (rest : List Char) : readBracket none (cs ++ ']' :: rest) = some (cs, rest) := by
  induction cs with
  | nil => rfl
  | cons c cs ih =>
    rw [List.forall_mem_cons] at digits
    have bracket : (c == ']') = false := beq_false_of_ne (Decimal.ne_of_isDigit digits.1 rfl)
    have single : (c == '\'') = false := beq_false_of_ne (Decimal.ne_of_isDigit digits.1 rfl)
    have double : (c == '"') = false := beq_false_of_ne (Decimal.ne_of_isDigit digits.1 rfl)
    rw [List.cons_append, readBracket, bracket, single, double]
    simp [ih digits.2]

theorem unquote?_of_ne {quote c : Char} (other : c ≠ quote) (cs : List Char) :
    unquote? quote (c :: cs) = none := by
  simp [unquote?, other]

/-- What stands between two quotes of a kind is a name, whatever it holds. -/
theorem bracketStep?_quoted {quote : Char} (kind : quote = '\'' ∨ quote = '"') (name : String) :
    bracketStep? (Text.trim (quote :: name.toList ++ [quote])) = some (.field name) := by
  have solid : Text.isBlank quote = false := by rcases kind with rfl | rfl <;> rfl
  have tight : Text.trim (quote :: name.toList ++ [quote]) = quote :: name.toList ++ [quote] :=
    Text.trim_cons_append solid name.toList (Text.trim_of_not_blank (by simpa using solid))
      (List.cons_ne_nil quote [])
  have inner : unquote? quote (quote :: name.toList ++ [quote]) = some name.toList := by
    simp [unquote?]
  rw [tight, bracketStep?]
  rcases kind with rfl | rfl
  · rw [inner]
    simp
  · rw [inner, List.cons_append, unquote?_of_ne (by decide)]
    simp

theorem bracketStep?_digits {n : Nat} (small : n < 2 ^ 64) :
    bracketStep? (Text.trim (Decimal.digits n)) = some (.index n) := by
  obtain ⟨d, ds, split, digit⟩ := Decimal.digits_eq_cons n
  have solid : ∀ c ∈ Decimal.digits n, Text.isBlank c = false := by
    intro c mem
    apply Text.not_isBlank_of_isAlphanum
    rw [Char.isAlphanum, Decimal.isDigit_of_mem_digits mem, Bool.or_true]
  have read : Decimal.naturalUpTo? Decimal.maxNat64 (Decimal.digits n) = some n := by
    rw [Decimal.naturalUpTo?_eq_some_iff, Decimal.maxNat64]
    exact ⟨by omega, .inl ⟨0, rfl⟩⟩
  rw [Text.trim_of_not_blank solid, bracketStep?, read, split,
    unquote?_of_ne (Decimal.ne_of_isDigit digit rfl),
    unquote?_of_ne (Decimal.ne_of_isDigit digit rfl)]
  rfl

/-! ## Reading paths -/

theorem cutSteps_bracket {inner cs : List Char} {step : Step} {rest : List Char}
    (read : readBracket none cs = some (inner, rest))
    (made : bracketStep? (Text.trim inner) = some step) (name : List Char) :
    cutSteps name ('[' :: cs) = (cutSteps [] rest).map (nameStep name ++ step :: ·) := by
  rw [cutSteps]
  simp only [Char.reduceBEq, Bool.false_eq_true, if_false, if_true]
  split
  · next failed =>
    rw [read] at failed
    cases failed
  · next found =>
    rw [read] at found
    cases found
    rw [made]
    cases cutSteps [] rest <;> rfl

theorem cutSteps_point (name cs : List Char) :
    cutSteps name ('.' :: cs) = (cutSteps [] cs).map (nameStep name ++ ·) := by
  rw [cutSteps]
  rfl

/-- The characters of a name are collected. -/
theorem cutSteps_append {key : List Char} (plain : '.' ∉ key ∧ '[' ∉ key) (name rest : List Char) :
    cutSteps name (key ++ rest) = cutSteps (name ++ key) rest := by
  induction key generalizing name with
  | nil => rw [List.nil_append, List.append_nil]
  | cons c key ih =>
    simp only [List.mem_cons, not_or] at plain
    obtain ⟨⟨point, points⟩, bracket, brackets⟩ := plain
    rw [List.cons_append, cutSteps, if_neg (by simpa using Ne.symm point),
      if_neg (by simpa using Ne.symm bracket), ih ⟨points, brackets⟩, List.append_assoc,
      List.singleton_append]

/-- What has been collected is a step of its own in front of the steps that are spelled behind it.
-/
theorem cutSteps_of_spells {steps : List Step} {cs : List Char} (spells : Spells steps cs)
    (small : ∀ n, .index n ∈ steps → n < 2 ^ 64) (name : List Char) :
    cutSteps name cs = some (nameStep name ++ steps) := by
  induction spells generalizing name with
  | nil => simp [cutSteps]
  | @place n steps cs _ ih =>
    have fits : n < 2 ^ 64 := small n List.mem_cons_self
    have read := readBracket_digits (fun c => Decimal.isDigit_of_mem_digits (n := n)) cs
    rw [List.cons_append, cutSteps_bracket read (bracketStep?_digits fits),
      ih fun n mem => small n (List.mem_cons_of_mem _ mem)]
    rfl
  | @quoted quote key steps cs kind absent _ ih =>
    have read := readBracket_quoted kind absent cs
    rw [List.cons_append, List.cons_append, ← List.cons_append,
      cutSteps_bracket read (bracketStep?_quoted kind key),
      ih fun n mem => small n (List.mem_cons_of_mem _ mem)]
    rfl
  | @dotted key steps cs nonempty plain _ _ ih =>
    have step : nameStep key.toList = [.field key] := by
      simp [nameStep, nonempty]
    rw [List.cons_append, cutSteps_point, cutSteps_append plain, List.nil_append,
      ih fun n mem => small n (List.mem_cons_of_mem _ mem), step]
    rfl

theorem Spells.eq_nil {steps : List Step} (spells : Spells steps []) : steps = [] := by
  cases spells
  rfl

/-- The last character behind a part that ends with no blank. -/
theorem not_isBlank_getLast?_append (front : List Char) {cs : List Char}
    (last : cs = [] → ∀ c ∈ front.getLast?, Text.isBlank c = false)
    (later : ∀ c ∈ cs.getLast?, Text.isBlank c = false) :
    ∀ c ∈ (front ++ cs).getLast?, Text.isBlank c = false := by
  rcases eq_or_ne cs [] with rfl | nonempty
  · rw [List.append_nil]
    exact last rfl
  · rw [List.getLast?_append_of_ne_nil _ nonempty]
    exact later

/-- Behind a bracket the last character is the bracket, or that of what follows. -/
theorem not_isBlank_getLast?_bracket {cs : List Char}
    (later : ∀ c ∈ cs.getLast?, Text.isBlank c = false) (front : List Char) :
    ∀ c ∈ (front ++ ']' :: cs).getLast?, Text.isBlank c = false := by
  rw [List.append_cons]
  refine not_isBlank_getLast?_append _ (fun _ c last => ?_) later
  rw [List.getLast?_concat] at last
  cases last
  rfl

/-- A path does not end with a blank. -/
theorem not_isBlank_getLast?_of_spells {steps : List Step} {cs : List Char}
    (spells : Spells steps cs) : ∀ c ∈ cs.getLast?, Text.isBlank c = false := by
  induction spells with
  | nil => simp
  | place n _ ih => exact not_isBlank_getLast?_bracket ih ('[' :: Decimal.digits n)
  | @quoted quote name steps cs _ _ _ ih =>
    rw [List.append_cons _ quote]
    exact not_isBlank_getLast?_bracket ih ('[' :: quote :: name.toList ++ [quote])
  | @dotted name steps cs nonempty _ last rest ih =>
    apply not_isBlank_getLast?_append _ _ ih
    rintro rfl
    have same : ('.' :: name.toList).getLast? = name.toList.getLast? :=
      List.getLast?_append_of_ne_nil ['.'] (toList_ne_nil nonempty)
    rw [same]
    exact last rest.eq_nil

/-! ## Paths address positions -/

/-- However its steps are written, a path is read as exactly these steps, and leads from every value
where they lead. No place above 64 bits is read, and no value has as many items. -/
theorem steps_of_isPathOf {steps : List Step} {path : String}
    (small : ∀ n, .index n ∈ steps → n < 2 ^ 64) (written : IsPathOf steps path) :
    steps? path = some steps ∧
      ∀ v : Value, (∀ u, v.Leads steps u → v.at? path = some u) ∧
        ((∀ u, ¬v.Leads steps u) → v.at? path = none) := by
  obtain ⟨cs, spells, rfl⟩ := written
  have last := not_isBlank_getLast?_append ['$'] (by simp [Text.isBlank])
    (not_isBlank_getLast?_of_spells spells)
  have tight : Text.trim ('$' :: cs) = '$' :: cs :=
    Text.trim_eq_self_iff.2 ⟨by simp [Text.isBlank], last⟩
  have read : steps? (String.ofList ('$' :: cs)) = some steps := by
    rw [steps?, String.toList_ofList, tight]
    exact cutSteps_of_spells spells small []
  refine ⟨read, fun v => ?_⟩
  have followed : v.at? (String.ofList ('$' :: cs)) = v.follow? steps := by
    rw [Value.at?, read, Option.bind_some]
  rw [followed]
  constructor
  · intro u leads
    exact Value.leads_iff_follow?.1 leads
  · intro nowhere
    rw [Option.eq_none_iff_forall_ne_some]
    intro u found
    exact nowhere u (Value.leads_iff_follow?.2 found)

/-- One path with a name of points, a place, an empty name and a name behind a point. -/
theorem steps_of_isPathOf_mixed :
    let steps := [.field "a.b]", .index 1, .field "", .field "it's"]
    let path := "$['a.b]'][1][\"\"].it's"
    let inner : Value := .object [("", .object [("it's", .bool true)])]
    (∀ n, .index n ∈ steps → n < 2 ^ 64) ∧ IsPathOf steps path ∧ steps? path = some steps ∧
      Value.at? (.object [("a.b]", .array [.null, inner])]) path = some (.bool true) ∧
      Value.at? (.array [inner]) path = none := by
  intro steps path inner
  have small : ∀ n, .index n ∈ steps → n < 2 ^ 64 := by
    intro n mem
    obtain rfl : n = 1 := by simpa [steps] using mem
    omega
  have written : IsPathOf steps path :=
    ⟨_, .quoted '\'' "a.b]" (.inl rfl) (by decide) <| .place 1 <|
      .quoted '"' "" (.inr rfl) (by decide) <|
      .dotted "it's" (by decide) (by decide) (by simp [Text.isBlank]) .nil, by decide +kernel⟩
  obtain ⟨read, leads⟩ := steps_of_isPathOf small written
  refine ⟨small, written, read, (leads _).1 _ ?_, (leads _).2 ?_⟩
  · rw [Value.leads_iff_follow?]
    rfl
  · intro u found
    rw [Value.leads_iff_follow?] at found
    cases found

end RequestFile.Json
