import Mathlib
import RequestFile.Generator
import RequestFile.Proofs.Decimal.Integer

/-!
# Offsets of the present

An offset is a number, of any size and with or without a sign, and a unit. It shifts the present by
exactly this time, or else it fails: at no limit is anything cut off, and nothing wraps around.
-/

namespace RequestFile

namespace Calendar.Instant

/-- The instant so many nanoseconds after the start of a day in universal time. -/
def ofDate (year month day sinceMidnight : Int) : Instant :=
  ⟨Calendar.dayNumber year month day * nanosPerDay + sinceMidnight⟩

theorem first_eq_ofDate : first = ofDate (-262143) 1 1 0 := by
  decide

theorem last_eq_ofDate : last = ofDate 262142 12 31 (nanosPerDay - 1) := by
  decide

example : (Moment.mk first .utc).date = ⟨-262143, 1, 1⟩ ∧ first.seconds = -8334601228800 := by
  decide

example : (Moment.mk last .utc).date = ⟨262142, 12, 31⟩ ∧ last.seconds = 8210266876799 := by
  decide

end Calendar.Instant

namespace Generator

open Decimal Calendar

/-! ## Numbers and units -/

/-- The units, each with its milliseconds. -/
def unitLengths : List (String × Int) :=
  [("ms", 1), ("s", 1000), ("m", 60000), ("h", 3600000), ("d", 86400000), ("w", 604800000)]

theorem TimeUnit.exists_of_mem_unitLengths {unit : String} {factor : Int}
    (known : (unit, factor) ∈ unitLengths) : ∃ u, ofText? unit = some u ∧ u.length = factor := by
  simp only [unitLengths, List.mem_cons, List.not_mem_nil, or_false, Prod.mk.injEq] at known
  rcases known with ⟨rfl, rfl⟩ | ⟨rfl, rfl⟩ | ⟨rfl, rfl⟩ | ⟨rfl, rfl⟩ | ⟨rfl, rfl⟩ | ⟨rfl, rfl⟩
  all_goals exact ⟨_, rfl, rfl⟩

theorem TimeUnit.one_le_length (u : TimeUnit) : 1 ≤ u.length := by
  cases u <;> decide

/-- Whether arguments write a number: as a numeral with its sign, or first the sign and then the
digits. -/
inductive WritesNumber (n : Int) : List String → Prop
  | joined {text : String} (written : WritesInt text.toList n) : WritesNumber n [text]
  | apart {sign digits : String} (known : sign = "+" ∨ sign = "-")
      (written : WritesInt (sign ++ digits).toList n) : WritesNumber n [sign, digits]

theorem not_writesInt_sign {sign : String} (known : sign = "+" ∨ sign = "-") (n : Int) :
    ¬ WritesInt sign.toList n := by
  rw [← integer?_eq_some_iff]
  rcases known with rfl | rfl
  · exact Option.some_ne_none n ∘ Eq.symm
  · exact Option.some_ne_none n ∘ Eq.symm

/-- A text that is no mere sign is the number. -/
theorem numberAndUnit?_of_ne_sign {text : String} (unsigned : text ≠ "+" ∧ text ≠ "-")
    (unit : String) (more : List String) :
    numberAndUnit? (text :: unit :: more) = some (text, unit) := by
  cases more with
  | nil => rfl
  | cons next more =>
    apply if_neg
    rw [Bool.or_eq_true, beq_iff_eq, beq_iff_eq, not_or]
    exact unsigned

/-- The number and the unit are told apart, whatever follows them. -/
theorem WritesNumber.exists_numberAndUnit? {n : Int} {number : List String}
    (written : WritesNumber n number) (unit : String) (more : List String) :
    ∃ text, numberAndUnit? (number ++ unit :: more) = some (text, unit) ∧
      WritesInt text.toList n := by
  cases written with
  | @joined text written =>
    have unsigned : text ≠ "+" ∧ text ≠ "-" := by
      constructor
      · rintro rfl
        exact not_writesInt_sign (.inl rfl) n written
      · rintro rfl
        exact not_writesInt_sign (.inr rfl) n written
    exact ⟨text, numberAndUnit?_of_ne_sign unsigned unit more, written⟩
  | @apart sign digits known written =>
    refine ⟨sign ++ digits, if_pos ?_, written⟩
    rwa [Bool.or_eq_true, beq_iff_eq, beq_iff_eq]

/-! ## Limits -/

section Errors

variable {ε ε' α β : Type} (f : ε → ε') (x : Except ε α)

theorem mapError_bind (next : α → Except ε β) :
    (x >>= next).mapError f = x.mapError f >>= fun a => (next a).mapError f := by
  cases x <;> rfl

theorem mapError_map (g : α → β) : (x.map g).mapError f = (x.mapError f).map g := by
  cases x <;> rfl

end Errors

section Limits

variable {n : Int} {number : List String} {unit : String} {u : TimeUnit}

/-- A number that does not have 64 bits is too large in every unit. -/
theorem lt_natAbs_of_not_fitsInt64 (beyond : ¬ fitsInt64 n = true) (u : TimeUnit) :
    maxInt64 < (n * u.length).natAbs := by
  rw [fitsInt64_iff] at beyond
  have unit : 1 ≤ u.length.natAbs := by
    have positive := u.one_le_length
    omega
  calc maxInt64 < n.natAbs := by omega
    _ ≤ n.natAbs * u.length.natAbs := Nat.le_mul_of_pos_right _ unit
    _ = (n * u.length).natAbs := (Int.natAbs_mul n u.length).symm

/-- An offset is its number of milliseconds, up to the largest that there is. -/
theorem mapError_offset? (written : WritesNumber n number)
    (known : TimeUnit.ofText? unit = some u) (more : List String) :
    (offset? (number ++ unit :: more)).mapError Error.kind =
      if (n * u.length).natAbs ≤ maxInt64 then .ok (n * u.length) else .error .invalidOffset := by
  obtain ⟨text, split, numeral⟩ := written.exists_numberAndUnit? unit more
  have read : offsetNumber? text = if fitsInt64 n then some n else none :=
    int64?_of_writesInt numeral.dropWhile_plus
  simp only [offset?, split, read]
  by_cases fits : fitsInt64 n = true
  · simp only [if_pos fits, known]
    split <;> rfl
  · have beyond := lt_natAbs_of_not_fitsInt64 fits u
    simp only [if_neg fits, if_neg (Nat.not_le.2 beyond)]
    rfl

/-- An instant is shifted by the milliseconds of an offset, as long as instants can be
represented. -/
theorem mapError_shift (now : Instant) (written : WritesNumber n number)
    (known : TimeUnit.ofText? unit = some u) (more : List String) :
    (shift now (number ++ unit :: more)).mapError Error.kind =
      if (n * u.length).natAbs ≤ maxInt64 ∧
          Instant.first.nanoseconds ≤ now.nanoseconds + n * u.length * 1000000 ∧
          now.nanoseconds + n * u.length * 1000000 ≤ Instant.last.nanoseconds then
        .ok ⟨now.nanoseconds + n * u.length * 1000000⟩
      else .error .invalidOffset := by
  have filled : (number ++ unit :: more).isEmpty = false := by simp
  rw [shift, filled, if_neg Bool.false_ne_true, mapError_bind, mapError_offset? written known more]
  by_cases fits : (n * u.length).natAbs ≤ maxInt64
  · rw [if_pos fits]
    by_cases range : Instant.first.nanoseconds ≤ now.nanoseconds + n * u.length * 1000000 ∧
        now.nanoseconds + n * u.length * 1000000 ≤ Instant.last.nanoseconds
    · have shifted : now.addMilliseconds? (n * u.length) =
          some ⟨now.nanoseconds + n * u.length * 1000000⟩ :=
        if_pos range
      rw [if_pos ⟨fits, range⟩]
      simp only [bind, Except.bind, Except.mapError, shifted]
    · have refused : now.addMilliseconds? (n * u.length) = none := if_neg range
      rw [if_neg fun all => range all.2]
      simp only [bind, Except.bind, Except.mapError, refused]
      rfl
  · rw [if_neg fits, if_neg fun all => fits all.1]
    rfl

end Limits

/-- The seconds of the present after an offset are exact: those of the present and the offset
together, down to a whole number. The offset is refused if it has too many milliseconds or leads to
an instant that cannot be represented, however large its number is and however it is written. -/
theorem call_timestamp_offset (seconds nanoseconds east : Int) {n factor : Int}
    {number : List String} {unit : String} (written : WritesNumber n number)
    (known : (unit, factor) ∈ unitLengths) (more : List String) :
    (call ⟨.ofSeconds seconds nanoseconds, east⟩ "timestamp" (number ++ unit :: more)).mapError
        Error.kind =
      if (n * factor).natAbs ≤ 2 ^ 63 - 1 ∧
          (Instant.ofDate (-262143) 1 1 0).nanoseconds ≤
            seconds * 10 ^ 9 + nanoseconds + n * factor * 10 ^ 6 ∧
          seconds * 10 ^ 9 + nanoseconds + n * factor * 10 ^ 6 ≤
            (Instant.ofDate 262142 12 31 (nanosPerDay - 1)).nanoseconds then
        .ok (.known (toString ((seconds * 10 ^ 9 + nanoseconds + n * factor * 10 ^ 6) / 10 ^ 9)))
      else .error .invalidOffset := by
  obtain ⟨u, named, rfl⟩ := TimeUnit.exists_of_mem_unitLengths known
  have limit : 2 ^ 63 - 1 = maxInt64 := by decide
  have billion : (10 : Int) ^ 9 = 1000000000 := by decide
  have million : (10 : Int) ^ 6 = 1000000 := by decide
  have sum : (Instant.ofSeconds seconds nanoseconds).nanoseconds =
      seconds * 1000000000 + nanoseconds := rfl
  show Except.mapError Error.kind (timestamp _ _) = _
  rw [timestamp, mapError_map, mapError_shift _ written named more, sum, limit, billion, million,
    ← Instant.first_eq_ofDate, ← Instant.last_eq_ofDate, apply_ite (Except.map _)]
  rfl

/-- One millisecond is taken from less than one, which leads to the second before, and more weeks
than there are milliseconds for are refused. -/
theorem call_timestamp_offset_epoch :
    WritesNumber (-1) ["-", "01"] ∧ ("ms", 1) ∈ unitLengths ∧
    (call ⟨.ofSeconds 0 999999, 0⟩ "timestamp" ["-", "01", "ms"]).mapError Error.kind =
      .ok (.known "-1") ∧
    WritesNumber 15250284453 ["+15250284453"] ∧ ("w", 604800000) ∈ unitLengths ∧
    (call ⟨.ofSeconds 0 999999, 0⟩ "timestamp" ["+15250284453", "w"]).mapError Error.kind =
      .error .invalidOffset := by
  have back : WritesNumber (-1) ["-", "01"] :=
    .apart (.inr rfl) (integer?_eq_some_iff.1 (by decide))
  have ahead : WritesNumber 15250284453 ["+15250284453"] :=
    .joined (integer?_eq_some_iff.1 (by decide))
  have milliseconds : ("ms", 1) ∈ unitLengths := by decide
  have weeks : ("w", 604800000) ∈ unitLengths := by decide
  refine ⟨back, milliseconds, ?_, ahead, weeks, ?_⟩
  · exact (call_timestamp_offset 0 999999 0 back milliseconds []).trans (if_pos (by decide))
  · exact (call_timestamp_offset 0 999999 0 ahead weeks []).trans (if_neg (by decide))

end Generator

end RequestFile
