import Mathlib
import RequestFile.Generator
import RequestFile.Proofs.Calendar.Written
import RequestFile.Proofs.Text.Blank

/-!
# What generators make

A value that a generator knows at once is written in ASCII, apart from characters of the expression
that calls it. Only two generators draw random values, and they are recognized by name.
-/

namespace RequestFile.Generator

open Text

/-! ## Arguments -/

/-- The characters of an argument come from the argument that has been begun or from the rest. -/
theorem mem_of_mem_argumentsFrom {quote : Option Char} {current : Option (List Char)}
    {cs argument : List Char} (mem : argument ∈ argumentsFrom quote current cs) {c : Char}
    (inside : c ∈ argument) : c ∈ current.getD [] ∨ c ∈ cs := by
  have begun : ∀ current : Option (List Char), argument ∈ current.toList → c ∈ current.getD [] := by
    intro current mem
    rw [Option.mem_toList.1 mem]
    exact inside
  fun_induction argumentsFrom quote current cs with
  | case1 quote current => exact .inl (begun current mem)
  | case2 current d rest q same ih => exact (ih mem).imp_right (List.mem_cons_of_mem d)
  | case3 current d rest q other ih =>
    rcases ih mem with mem | mem
    · rcases List.mem_append.1 mem with mem | mem
      · exact .inl mem
      · exact .inr (List.mem_cons.2 (.inl (List.mem_singleton.1 mem)))
    · exact .inr (List.mem_cons_of_mem d mem)
  | case4 current d rest opens ih => exact (ih mem).imp_right (List.mem_cons_of_mem d)
  | case5 current d rest _ blank ih =>
    rcases List.mem_append.1 mem with mem | mem
    · exact .inl (begun current mem)
    · exact .inr (List.mem_cons_of_mem d ((ih mem).resolve_left List.not_mem_nil))
  | case6 current d rest _ solid ih =>
    rcases ih mem with mem | mem
    · rcases List.mem_append.1 mem with mem | mem
      · exact .inl mem
      · exact .inr (List.mem_cons.2 (.inl (List.mem_singleton.1 mem)))
    · exact .inr (List.mem_cons_of_mem d mem)

theorem mem_of_mem_arguments {cs argument : List Char} (mem : argument ∈ arguments cs) {c : Char}
    (inside : c ∈ argument) : c ∈ cs := by
  simpa using mem_of_mem_argumentsFrom mem inside

theorem isAscii_toString_nat (n : Nat) : IsAscii (toString n).toList := by
  rw [Nat.toString_eq_ofList_toDigits, String.toList_ofList]
  exact Calendar.isAscii_digits n

theorem isAscii_toString_int (n : Int) : IsAscii (toString n).toList := by
  cases n with
  | ofNat n => exact isAscii_toString_nat n
  | negSucc n =>
    change IsAscii ("-" ++ toString (n + 1)).toList
    rw [String.toList_append, isAscii_append]
    exact ⟨by simp, isAscii_toString_nat (n + 1)⟩

/-! ## Values -/

theorem ascii_or_mem_of_dateTime {clock : Clock} {zone : Calendar.Zone}
    (near : zone.minutes.natAbs < 24 * 60) {arguments : List String} {recipe : Recipe}
    (made : dateTime clock zone arguments = .ok recipe) :
    ∃ value, recipe = .known value ∧
      ∀ c ∈ value.toList, c.toNat < 128 ∨ ∃ argument ∈ arguments, c ∈ argument.toList := by
  unfold dateTime at made
  split at made
  · cases made
  · split at made
    · cases made
    · split at made
      · next value written =>
        cases made
        refine ⟨value, rfl, fun c mem => ?_⟩
        exact (Calendar.ascii_or_mem_of_mem_format near written mem).imp_right
          fun mem => ⟨_, List.mem_cons_self, mem⟩
      · cases made

theorem isAscii_timestamp {clock : Clock} {arguments : List String} {recipe : Recipe}
    (made : timestamp clock arguments = .ok recipe) :
    ∃ value, recipe = .known value ∧ IsAscii value.toList := by
  rw [timestamp] at made
  cases shifted : shift clock.now arguments with
  | error e =>
    rw [shifted] at made
    cases made
  | ok instant =>
    rw [shifted] at made
    cases made
    exact ⟨_, rfl, isAscii_toString_int _⟩

/-- Whether an expression calls a generator that draws random values. -/
def callsRandom (expression : List Char) : Bool :=
  match arguments (trim expression) with
  | [] => false
  | head :: _ => head == "$guid".toList || head == "$randomInt".toList

theorem exists_of_call_eq_ok {clock : Clock} (near : clock.localMinutes.natAbs < 24 * 60)
    {name : String} (calm : name ≠ "guid" ∧ name ≠ "randomInt") {arguments : List String}
    {recipe : Recipe} (made : call clock name arguments = .ok recipe) :
    ∃ value, recipe = .known value ∧
      ∀ c ∈ value.toList, c.toNat < 128 ∨ ∃ argument ∈ arguments, c ∈ argument.toList := by
  rw [call.eq_def] at made
  split at made
  · exact absurd rfl calm.1
  · exact absurd rfl calm.2
  · obtain ⟨value, same, ascii⟩ := isAscii_timestamp made
    exact ⟨value, same, fun c mem => .inl (ascii c mem)⟩
  · exact ascii_or_mem_of_dateTime (by simp [Calendar.Zone.minutes]) made
  · have zone : (Calendar.Zone.offset clock.localMinutes).minutes.natAbs < 24 * 60 := near
    exact ascii_or_mem_of_dateTime zone made
  · cases made

/-- What an expression makes is known, unless it is drawn at random. -/
theorem exists_of_evaluate_eq_ok {clock : Clock} (near : clock.localMinutes.natAbs < 24 * 60)
    {expression : List Char} (calm : callsRandom expression = false) {recipe : Recipe}
    (made : evaluate clock expression = .ok recipe) :
    ∃ value, recipe = .known value ∧ ∀ c ∈ value.toList, c.toNat < 128 ∨ c ∈ expression := by
  rw [evaluate] at made
  rw [callsRandom] at calm
  split at made
  · cases made
  · next name rest found =>
    rw [found] at calm
    have named : String.ofList name ≠ "guid" ∧ String.ofList name ≠ "randomInt" := by
      constructor
      · intro guid
        rw [String.ofList_eq.1 guid] at calm
        simp at calm
      · intro randomInt
        rw [String.ofList_eq.1 randomInt] at calm
        simp at calm
    obtain ⟨value, same, chars⟩ := exists_of_call_eq_ok near named made
    refine ⟨value, same, fun c mem => (chars c mem).imp_right ?_⟩
    rintro ⟨argument, given, inside⟩
    obtain ⟨cs, later, rfl⟩ := List.mem_map.1 given
    rw [String.toList_ofList] at inside
    have argument : cs ∈ arguments (trim expression) := found ▸ List.mem_cons_of_mem _ later
    exact mem_of_mem_trim (mem_of_mem_arguments argument inside)
  · cases made

theorem randomInteger_ne_known (arguments : List String) (value : String) :
    randomInteger arguments ≠ .ok (.known value) := by
  intro made
  unfold randomInteger at made
  split at made
  · split at made <;> cases made
  · cases made

/-- The generators that draw random values make nothing that is known. -/
theorem callsRandom_eq_false {clock : Clock} {expression : List Char} {value : String}
    (made : evaluate clock expression = .ok (.known value)) : callsRandom expression = false := by
  rw [evaluate] at made
  rw [callsRandom]
  split at made
  · next none => rw [none]
  · next name rest found =>
    rw [found]
    by_contra random
    rw [Bool.not_eq_false, Bool.or_eq_true, beq_iff_eq, beq_iff_eq] at random
    rcases random with guid | randomInt
    · cases guid
      cases made
    · cases randomInt
      exact randomInteger_ne_known _ _ made
  · cases made

end RequestFile.Generator
