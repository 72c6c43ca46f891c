import Mathlib
import RequestFile.Proofs.Generator.Offset

/-!
# Signs of offsets

A generator takes an offset if it is a number and a unit, where the number has one sign at most, in
front of its digits or apart from them. Another offset is refused, with one exception: a sign `+` in
front of another sign is dropped.
-/

namespace RequestFile.Generator

open Decimal Calendar

/-! ## How offsets are written -/

/-- Whether arguments write an offset: a number and its unit, and then anything. -/
def WritesOffset (n : Int) (unit : String) (offset : List String) : Prop :=
  ∃ number more, offset = number ++ unit :: more ∧ WritesNumber n number

/-- Whether a text is a sign and something behind it. -/
def IsSigned (text : String) : Prop :=
  ∃ sign rest, text.toList = sign :: rest ∧ (sign = '+' ∨ sign = '-') ∧ rest ≠ []

/-- Whether arguments start with `+` in front of a signed text, which may stand apart, and what they
are without that `+`. -/
inductive HasSpareSign : List String → List String → Prop
  | joined {text : String} (signed : IsSigned text) (more : List String) :
      HasSpareSign (("+" ++ text) :: more) (text :: more)
  | apart {text : String} (signed : IsSigned text) (unit : String) (more : List String) :
      HasSpareSign ("+" :: text :: unit :: more) (text :: unit :: more)

theorem IsSigned.ne_sign {text : String} (signed : IsSigned text) : text ≠ "+" ∧ text ≠ "-" := by
  obtain ⟨sign, rest, same, -, filled⟩ := signed
  constructor
  · rintro rfl
    apply filled
    exact (List.cons.inj same).2.symm
  · rintro rfl
    apply filled
    exact (List.cons.inj same).2.symm

theorem IsSigned.plus {text : String} (signed : IsSigned text) : IsSigned ("+" ++ text) := by
  obtain ⟨sign, rest, same, -, -⟩ := signed
  refine ⟨'+', sign :: rest, ?_, .inl rfl, List.cons_ne_nil _ _⟩
  rw [String.toList_append, same]
  rfl

/-! ## What is read as a number -/

theorem not_writesInt_nil (n : Int) : ¬ WritesInt [] n := by
  intro written
  cases written with
  | bare digits => exact digits.ne_nil rfl

/-- A numeral behind signs `+` is written with one sign, unless a sign stands behind the first of
them. -/
theorem writesInt_of_dropWhile_plus {cs : List Char} {n : Int}
    (written : WritesInt (cs.dropWhile (· == '+')) n) :
    WritesInt cs n ∨
      ∃ sign rest, cs = '+' :: sign :: rest ∧ (sign = '+' ∨ sign = '-') ∧ rest ≠ [] := by
  cases cs with
  | nil => exact .inl written
  | cons c cs =>
    by_cases plus : c = '+'
    · subst plus
      rw [List.dropWhile_cons_of_pos (by rfl)] at written
      cases cs with
      | nil => exact absurd written (not_writesInt_nil n)
      | cons sign rest =>
        by_cases double : sign = '+'
        · refine .inr ⟨sign, rest, rfl, .inl double, ?_⟩
          rintro rfl
          rw [double] at written
          exact not_writesInt_nil n written
        · rw [List.dropWhile_cons_of_neg (by simpa using double)] at written
          cases written with
          | bare digits => exact .inl (.plus digits)
          | plus digits => exact absurd rfl double
          | minus digits => exact .inr ⟨'-', rest, rfl, .inr rfl, digits.ne_nil⟩
    · rw [List.dropWhile_cons_of_neg (by simpa using plus)] at written
      exact .inl written

theorem offsetNumber?_plus (text : String) : offsetNumber? ("+" ++ text) = offsetNumber? text := by
  rw [offsetNumber?, offsetNumber?, String.toList_append]
  rfl

/-! ## What is refused -/

/-- What can become of an offset: it is refused, as an offset whatever is wrong with it, or its
number and its unit make the milliseconds. -/
theorem offset?_cases (offset : List String) :
    (∃ e, offset? offset = .error e ∧ e.kind = .invalidOffset) ∨
      ∃ text unit n u, numberAndUnit? offset = some (text, unit) ∧ offsetNumber? text = some n ∧
        TimeUnit.ofText? unit = some u ∧ (n * u.length).natAbs ≤ maxInt64 ∧
        offset? offset = .ok (n * u.length) := by
  unfold offset?
  split
  · exact .inl ⟨_, rfl, rfl⟩
  · next text unit split =>
    split
    · exact .inl ⟨_, rfl, rfl⟩
    · next n read =>
      split
      · exact .inl ⟨_, rfl, rfl⟩
      · next u known =>
        split
        · next fits => exact .inr ⟨text, unit, n, u, split, read, known, fits, rfl⟩
        · exact .inl ⟨_, rfl, rfl⟩

theorem shift_eq_ok_iff {now instant : Instant} {offset : List String} (filled : offset ≠ []) :
    shift now offset = .ok instant ↔
      ∃ milliseconds, offset? offset = .ok milliseconds ∧
        now.addMilliseconds? milliseconds = some instant := by
  have filled : ¬ offset.isEmpty = true := by simpa using filled
  rw [shift, if_neg filled]
  cases offset? offset with
  | error e => simp [bind, Except.bind]
  | ok milliseconds =>
    cases shifted : now.addMilliseconds? milliseconds with
    | none => simp [bind, Except.bind, shifted]
    | some later => simp [bind, Except.bind, shifted]

theorem kind_of_shift_eq_error {now : Instant} {offset : List String} {e : Error}
    (refused : shift now offset = .error e) : e.kind = .invalidOffset := by
  rw [shift] at refused
  split at refused
  · cases refused
  · rcases offset?_cases offset with ⟨e', read, kind⟩ | ⟨_, _, n, u, -, -, -, -, read⟩
    · rw [read] at refused
      cases refused
      exact kind
    · rw [read] at refused
      cases shifted : now.addMilliseconds? (n * u.length) with
      | none =>
        simp only [bind, Except.bind, shifted, Except.error.injEq] at refused
        rw [← refused]
        rfl
      | some instant => simp [bind, Except.bind, shifted] at refused

/-! ## What is taken -/

theorem TimeUnit.mem_unitLengths {unit : String} {u : TimeUnit} (known : ofText? unit = some u) :
    (unit, u.length) ∈ unitLengths := by
  unfold ofText? at known
  split at known
  all_goals cases known
  all_goals decide

/-- How the number and the unit of an offset stand in it: one behind the other, or the number in two
arguments, of which the first is its sign. -/
theorem numberAndUnit?_cases {offset : List String} {text unit : String}
    (split : numberAndUnit? offset = some (text, unit)) :
    (∃ more, offset = text :: unit :: more) ∨
      ∃ sign digits more, (sign = "+" ∨ sign = "-") ∧ text = sign ++ digits ∧
        offset = sign :: digits :: unit :: more := by
  unfold numberAndUnit? at split
  split at split
  · next sign digits _ more =>
    split at split
    · next known =>
      cases split
      rw [Bool.or_eq_true, beq_iff_eq, beq_iff_eq] at known
      exact .inr ⟨sign, digits, more, known, rfl, rfl⟩
    · next _ more _ =>
      cases split
      exact .inl ⟨_, rfl⟩
  · cases split
    exact .inl ⟨[], rfl⟩
  · cases split

/-- A number that is read is written with one sign at most, or a sign too many stands in front. -/
theorem writesOffset_or_hasSpareSign {offset : List String} {text unit : String} {n : Int}
    (split : numberAndUnit? offset = some (text, unit)) (read : offsetNumber? text = some n) :
    WritesOffset n unit offset ∨ ∃ rest, HasSpareSign offset rest := by
  rw [offsetNumber?, int64?, Option.filter_eq_some_iff, integer?_eq_some_iff] at read
  have number := writesInt_of_dropWhile_plus read.1
  rcases numberAndUnit?_cases split with
    ⟨more, rfl⟩ | ⟨sign, digits, more, known, rfl, rfl⟩
  · rcases number with written | ⟨sign, rest, double, known, filled⟩
    · exact .inl ⟨[text], more, rfl, .joined written⟩
    · right
      have signed : IsSigned (String.ofList (sign :: rest)) :=
        ⟨sign, rest, String.toList_ofList, known, filled⟩
      have same : text = "+" ++ String.ofList (sign :: rest) := by
        rw [← String.toList_inj, double, String.toList_append, String.toList_ofList,
          String.toList_ofList, List.singleton_append]
      rw [same]
      exact ⟨_, .joined signed _⟩
  · rcases number with written | ⟨mark, rest, double, second, filled⟩
    · exact .inl ⟨[sign, digits], more, rfl, .apart known written⟩
    · right
      rw [String.toList_append] at double
      rcases known with rfl | rfl
      · have signed : IsSigned digits := ⟨mark, rest, (List.cons.inj double).2, second, filled⟩
        exact ⟨_, .apart signed unit more⟩
      · cases (List.cons.inj double).1

/-- Without a sign too many, exactly the offsets are taken that are written as a number and a unit,
as long as they have not too many milliseconds. -/
theorem offset?_eq_ok_iff {offset : List String} (single : ¬ ∃ rest, HasSpareSign offset rest)
    {milliseconds : Int} :
    offset? offset = .ok milliseconds ↔
      ∃ n unit factor, WritesOffset n unit offset ∧ (unit, factor) ∈ unitLengths ∧
        (n * factor).natAbs ≤ maxInt64 ∧ milliseconds = n * factor := by
  constructor
  · intro made
    rcases offset?_cases offset with
      ⟨e, read, -⟩ | ⟨text, unit, n, u, split, number, known, fits, read⟩
    · rw [read] at made
      cases made
    · rw [read] at made
      cases made
      have written := (writesOffset_or_hasSpareSign split number).resolve_right single
      exact ⟨n, unit, u.length, written, TimeUnit.mem_unitLengths known, fits, rfl⟩
  · rintro ⟨n, unit, factor, ⟨number, more, rfl, written⟩, known, fits, rfl⟩
    obtain ⟨u, named, rfl⟩ := TimeUnit.exists_of_mem_unitLengths known
    have taken := mapError_offset? written named more
    rw [if_pos fits] at taken
    cases made : offset? (number ++ unit :: more) with
    | error e =>
      rw [made] at taken
      cases taken
    | ok milliseconds =>
      rw [made] at taken
      cases taken
      rfl

/-! ## What is dropped -/

theorem mapError_offset?_congr {offset rest : List String} {text text' unit : String}
    (split : numberAndUnit? offset = some (text, unit))
    (splitRest : numberAndUnit? rest = some (text', unit))
    (same : offsetNumber? text = offsetNumber? text') :
    (offset? offset).mapError Error.kind = (offset? rest).mapError Error.kind := by
  simp only [offset?, split, splitRest, same]
  cases offsetNumber? text' with
  | none => rfl
  | some n => rfl

/-- A sign `+` in front of another sign is dropped. -/
theorem HasSpareSign.mapError_offset? {offset rest : List String}
    (spare : HasSpareSign offset rest) :
    (offset? offset).mapError Error.kind = (offset? rest).mapError Error.kind := by
  cases spare with
  | joined signed more =>
    cases more with
    | nil => rfl
    | cons unit more =>
      exact mapError_offset?_congr
        (numberAndUnit?_of_ne_sign signed.plus.ne_sign unit more)
        (numberAndUnit?_of_ne_sign signed.ne_sign unit more) (offsetNumber?_plus _)
  | apart signed unit more =>
    exact mapError_offset?_congr rfl (numberAndUnit?_of_ne_sign signed.ne_sign unit more)
      (offsetNumber?_plus _)

theorem HasSpareSign.mapError_shift {offset rest : List String} (spare : HasSpareSign offset rest)
    (now : Instant) :
    (shift now offset).mapError Error.kind = (shift now rest).mapError Error.kind := by
  have same := spare.mapError_offset?
  have filled : offset.isEmpty = false ∧ rest.isEmpty = false := by
    cases spare with
    | joined signed more => exact ⟨rfl, rfl⟩
    | apart signed unit more => exact ⟨rfl, rfl⟩
  rw [shift, shift, filled.1, filled.2, if_neg Bool.false_ne_true, if_neg Bool.false_ne_true,
    mapError_bind, mapError_bind, same]
  congr 1
  funext milliseconds
  cases now.addMilliseconds? milliseconds with
  | none => rfl
  | some instant => rfl

/-! ## Generators with an offset -/

/-- The generators that take an offset, with the arguments in front of it: the format of a date. -/
inductive TakesOffset : String → List String → Prop
  | seconds : TakesOffset "timestamp" []
  | date (format : String) : TakesOffset "datetime" [format]
  | localDate (format : String) : TakesOffset "localDatetime" [format]

/-- A generator makes with an offset what it makes without one at the present as it is shifted. -/
theorem TakesOffset.call_append {name : String} {front : List String}
    (takes : TakesOffset name front) (clock : Clock) (offset : List String) :
    call clock name (front ++ offset) =
      shift clock.now offset >>= fun instant => call { clock with now := instant } name front := by
  cases takes with
  | seconds =>
    change (shift clock.now offset).map _ = _
    cases shift clock.now offset with
    | error e => rfl
    | ok instant => rfl
  | date format =>
    change dateTime clock .utc (format :: offset) = _
    rw [dateTime]
    cases shift clock.now offset with
    | error e => rfl
    | ok instant => rfl
  | localDate format =>
    change dateTime clock (.offset clock.localMinutes) (format :: offset) = _
    rw [dateTime]
    cases shift clock.now offset with
    | error e => rfl
    | ok instant => rfl

/-- A generator makes a value with an offset if and only if that is written as a number, with one
sign at most, and a unit, and leads to an instant; the value is then the one at this instant. What
is written otherwise is refused as an offset. The exception is a sign `+` in front of another sign:
it does not count, and the second sign decides. -/
theorem call_offset_signs (clock : Clock) {name : String} {front offset : List String}
    (takes : TakesOffset name front) (filled : offset ≠ []) :
    ((¬ ∃ rest, HasSpareSign offset rest) →
      (∀ recipe, call clock name (front ++ offset) = .ok recipe ↔
        ∃ n unit factor instant, WritesOffset n unit offset ∧ (unit, factor) ∈ unitLengths ∧
          (n * factor).natAbs ≤ maxInt64 ∧ clock.now.addMilliseconds? (n * factor) = some instant ∧
          call { clock with now := instant } name front = .ok recipe) ∧
      ((∀ n unit, ¬ WritesOffset n unit offset) →
        (call clock name (front ++ offset)).mapError Error.kind = .error .invalidOffset)) ∧
    (∀ rest, HasSpareSign offset rest →
      (call clock name (front ++ offset)).mapError Error.kind =
        (call clock name (front ++ rest)).mapError Error.kind) := by
  constructor
  · intro single
    rw [takes.call_append]
    constructor
    · intro recipe
      constructor
      · intro made
        cases shifted : shift clock.now offset with
        | error e =>
          rw [shifted] at made
          cases made
        | ok instant =>
          rw [shifted] at made
          obtain ⟨milliseconds, read, later⟩ := (shift_eq_ok_iff filled).1 shifted
          obtain ⟨n, unit, factor, written, known, fits, rfl⟩ := (offset?_eq_ok_iff single).1 read
          exact ⟨n, unit, factor, instant, written, known, fits, later, made⟩
      · rintro ⟨n, unit, factor, instant, written, known, fits, later, made⟩
        have read := (offset?_eq_ok_iff single).2 ⟨n, unit, factor, written, known, fits, rfl⟩
        rw [(shift_eq_ok_iff filled).2 ⟨_, read, later⟩]
        exact made
    · intro unwritten
      cases shifted : shift clock.now offset with
      | error e => exact congrArg Except.error (kind_of_shift_eq_error shifted)
      | ok instant =>
        obtain ⟨milliseconds, read, -⟩ := (shift_eq_ok_iff filled).1 shifted
        obtain ⟨n, unit, factor, written, -⟩ := (offset?_eq_ok_iff single).1 read
        exact absurd written (unwritten n unit)
  · intro rest spare
    rw [takes.call_append, takes.call_append, mapError_bind, mapError_bind, spare.mapError_shift]

theorem not_writesOffset_of_integer?_eq_none {offset : List String} {text unit : String}
    (split : numberAndUnit? offset = some (text, unit)) (unread : integer? text.toList = none) :
    ∀ n unit', ¬ WritesOffset n unit' offset := by
  rintro n unit' ⟨number, more, rfl, written⟩
  obtain ⟨text', split', numeral⟩ := written.exists_numberAndUnit? unit' more
  rw [split] at split'
  cases split'
  rw [integer?_eq_some_iff.2 numeral] at unread
  cases unread

/-- A sign apart from a signed number is refused if it is `-`, and dropped if it is `+`. -/
theorem call_offset_signs_apart :
    TakesOffset "timestamp" [] ∧ ["-", "+1", "d"] ≠ [] ∧
    (¬ ∃ rest, HasSpareSign ["-", "+1", "d"] rest) ∧
    (∀ n unit, ¬ WritesOffset n unit ["-", "+1", "d"]) ∧
    (call ⟨.ofSeconds 0 0, 0⟩ "timestamp" ["-", "+1", "d"]).mapError Error.kind =
      .error .invalidOffset ∧
    TakesOffset "datetime" ["yyyy"] ∧ ["+", "-1", "d"] ≠ [] ∧
    HasSpareSign ["+", "-1", "d"] ["-1", "d"] ∧
    (call ⟨.ofSeconds 0 0, 0⟩ "datetime" ["yyyy", "+", "-1", "d"]).mapError Error.kind =
      .ok (.known "1969") := by
  have single : ¬ ∃ rest, HasSpareSign ["-", "+1", "d"] rest := by
    rintro ⟨rest, spare⟩
    generalize same : ["-", "+1", "d"] = offset at spare
    cases spare with
    | joined signed more =>
      have chars := congrArg String.toList (List.cons.inj same).1
      rw [String.toList_append] at chars
      cases chars
    | apart signed unit more => exact absurd (List.cons.inj same).1 (by decide)
  have unwritten : ∀ n unit, ¬ WritesOffset n unit ["-", "+1", "d"] :=
    not_writesOffset_of_integer?_eq_none rfl (by decide)
  have signed : IsSigned "-1" := ⟨'-', ['1'], rfl, .inr rfl, by simp⟩
  have refused := call_offset_signs ⟨.ofSeconds 0 0, 0⟩ .seconds
    (List.cons_ne_nil "-" ["+1", "d"])
  have dropped := call_offset_signs ⟨.ofSeconds 0 0, 0⟩ (.date "yyyy")
    (List.cons_ne_nil "+" ["-1", "d"])
  refine ⟨.seconds, by simp, single, unwritten, (refused.1 single).2 unwritten, .date "yyyy",
    by simp, .apart signed "d" [], ?_⟩
  exact (dropped.2 _ (.apart signed "d" [])).trans (by decide +kernel)

/-- A sign `+` in front of a number with the sign `-` is no way to write an offset, and the number
decides where the present is shifted. -/
theorem call_offset_looseSign :
    call ⟨.ofSeconds 0 0, 0⟩ "timestamp" ["+-5", "s"] = .ok (.known "-5") ∧
    ∀ n unit, ¬ WritesOffset n unit ["+-5", "s"] :=
  ⟨by decide +kernel, not_writesOffset_of_integer?_eq_none rfl (by decide)⟩

end RequestFile.Generator
