import Mathlib
import RequestFile.Calendar.Format

/-!
# What written dates are made of

A date is written with ASCII characters, apart from what the format itself holds. The numbers of a
date are small, so that two places are enough for each of them but the year.
-/

namespace RequestFile

namespace Text

/-- Whether a text consists of ASCII characters. -/
def IsAscii (cs : List Char) : Prop :=
  ∀ c ∈ cs, c.toNat < 128

@[simp]
theorem isAscii_nil : IsAscii [] := by
  simp [IsAscii]

@[simp]
theorem isAscii_cons {c : Char} {cs : List Char} :
    IsAscii (c :: cs) ↔ c.toNat < 128 ∧ IsAscii cs :=
  List.forall_mem_cons

@[simp]
theorem isAscii_append {cs ds : List Char} : IsAscii (cs ++ ds) ↔ IsAscii cs ∧ IsAscii ds :=
  List.forall_mem_append

theorem isAscii_replicate {n : Nat} {c : Char} (ascii : c.toNat < 128) :
    IsAscii (List.replicate n c) := by
  intro d mem
  rwa [List.eq_of_mem_replicate mem]

theorem IsAscii.take {cs : List Char} (ascii : IsAscii cs) (n : Nat) : IsAscii (cs.take n) :=
  fun c mem => ascii c (List.mem_of_mem_take mem)

end Text

namespace Calendar

open Text

/-! ## The numbers of a date -/

theorem month_ofNumber (number : Int) :
    1 ≤ (Date.ofNumber number).month ∧ (Date.ofNumber number).month ≤ 12 := by
  simp only [Date.ofNumber]
  split <;> omega

/-- Rough, but the day has two places. -/
theorem day_ofNumber_le (number : Int) : (Date.ofNumber number).day ≤ 40 := by
  simp only [Date.ofNumber]
  omega

/-- The first of January, as the number of days in all years before. -/
theorem dayNumber_newYear (year : Int) :
    dayNumber year 1 1 =
      (year - 1) * 365 + (year - 1) / 4 - (year - 1) / 100 + (year - 1) / 400 - 719162 := by
  simp only [dayNumber, Int.reduceLE, Int.reduceLT, if_true, if_false]
  omega

/-- Rough as well: the weeks of a year have two places. -/
theorem ordinal_le (number : Int) : ordinal number ≤ 400 := by
  rw [ordinal, dayNumber_newYear]
  simp only [Date.ofNumber]
  split <;> omega

theorem weekNumber_lt (number : Int) : weekNumber number < 100 := by
  have small := ordinal_le (thursday number)
  rw [weekNumber]
  omega

theorem weeksFrom_lt (start : Nat) (number : Int) : weeksFrom start number < 100 := by
  have small := ordinal_le number
  rw [weeksFrom]
  omega

namespace Moment

theorem hour_lt (m : Moment) : m.hour < 24 := by
  rw [hour, sinceMidnight, nanosPerDay, nanosPerSecond]
  omega

theorem hour12_le (m : Moment) : m.hour12 ≤ 12 := by
  rw [hour12]
  split <;> omega

end Moment

/-! ## Numbers -/

theorem isAscii_digits (n : Nat) : IsAscii (Decimal.digits n) := by
  intro c mem
  have digit := Nat.isDigit_of_mem_toDigits (by decide) (by decide) mem
  simp only [Char.isDigit, Bool.and_eq_true, decide_eq_true_eq] at digit
  have bound : c.val.toNat ≤ 57 := digit.2
  exact lt_of_le_of_lt bound (by decide)

theorem isAscii_padded (pad : Pad) (width : Nat) (alwaysSign : Bool) (n : Int) :
    IsAscii (padded pad width alwaysSign n) := by
  have sign : IsAscii (if n < 0 then ['-'] else if alwaysSign then ['+'] else []) := by
    split
    · simp
    · split <;> simp
  have digits := isAscii_digits n.natAbs
  cases pad with
  | nothing => exact isAscii_append.2 ⟨sign, digits⟩
  | zeros =>
    exact isAscii_append.2 ⟨isAscii_append.2 ⟨sign, isAscii_replicate (by decide)⟩, digits⟩
  | spaces =>
    exact isAscii_append.2 ⟨isAscii_append.2 ⟨isAscii_replicate (by decide), sign⟩, digits⟩

/-- The first of two places is an ASCII character also for numbers that need three. -/
theorem isAscii_twoPlaces (pad : Pad) {n : Nat} (small : n < 800) : IsAscii (twoPlaces pad n) := by
  have first : IsAscii [Char.ofNat (48 + n / 10)] := by
    rw [isAscii_cons, Char.toNat_ofNat]
    refine ⟨?_, isAscii_nil⟩
    split <;> omega
  refine isAscii_append.2 ⟨?_, isAscii_digits _⟩
  cases pad with
  | nothing => dsimp only; split <;> simp_all
  | zeros => exact first
  | spaces => dsimp only; split <;> simp_all

theorem isAscii_yearText (pad : Pad) (year : Int) : IsAscii (yearText pad year) := by
  rw [yearText]
  split <;> exact isAscii_padded _ _ _ _

theorem isAscii_render_number (m : Moment) (pad : Pad) (field : NumberField) :
    IsAscii (field.render m pad) := by
  have month := month_ofNumber m.dayNumber
  have day := day_ofNumber_le m.dayNumber
  have hour := m.hour_lt
  have hour12 := m.hour12_le
  have century : (m.date.year / 100 % 256).toNat < 800 := by omega
  have inCentury (year : Int) : inCentury year < 800 := by
    rw [Calendar.inCentury]
    omega
  have week := weekNumber_lt m.dayNumber
  have weeks (start : Nat) := weeksFrom_lt start m.dayNumber
  have minute : m.minute < 60 := Nat.mod_lt _ (by decide)
  have second : m.second < 60 := Nat.mod_lt _ (by decide)
  cases field with
  | year | weekYear => exact isAscii_yearText _ _
  | quarter | daysFromSunday | weekdayNumber => exact isAscii_digits _
  | ordinal | nanosecond | timestamp => exact isAscii_padded _ _ _ _
  | century => exact isAscii_twoPlaces pad century
  | yearOfCentury | weekYearOfCentury => exact isAscii_twoPlaces pad (inCentury _)
  | month => exact isAscii_twoPlaces pad (by rw [Moment.date]; omega)
  | day => exact isAscii_twoPlaces pad (by rw [Moment.date]; omega)
  | weekFromSunday => exact isAscii_twoPlaces pad (by have := weeks 0; omega)
  | weekFromMonday => exact isAscii_twoPlaces pad (by have := weeks 1; omega)
  | week => exact isAscii_twoPlaces pad (by omega)
  | hour => exact isAscii_twoPlaces pad (by omega)
  | hour12 => exact isAscii_twoPlaces pad (by omega)
  | minute => exact isAscii_twoPlaces pad (by omega)
  | second => exact isAscii_twoPlaces pad (by omega)

/-! ## Items -/

theorem isAscii_fractionDigits (places nanosecond : Nat) :
    IsAscii (fractionDigits places nanosecond) :=
  (isAscii_padded _ _ _ _).take places

theorem isAscii_wholeFractionText (nanosecond : Nat) : IsAscii (wholeFractionText nanosecond) := by
  have digits (places : Nat) : IsAscii ('.' :: fractionDigits places nanosecond) :=
    isAscii_cons.2 ⟨by simp, isAscii_fractionDigits _ _⟩
  rw [wholeFractionText]
  split
  · exact isAscii_nil
  · split
    · exact digits 3
    · split
      · exact digits 6
      · exact digits 9

theorem isAscii_offsetText {zone : Zone} (near : zone.minutes.natAbs < 24 * 60)
    (style : OffsetStyle) : IsAscii (zone.offsetText style) := by
  have hours : IsAscii (twoPlaces .zeros (zone.minutes.natAbs / 60)) :=
    isAscii_twoPlaces _ (by omega)
  have minutes : IsAscii (twoPlaces .zeros (zone.minutes.natAbs % 60)) :=
    isAscii_twoPlaces _ (by omega)
  have sign : (if zone.minutes < 0 then '-' else '+').toNat < 128 := by
    split <;> simp
  refine isAscii_cons.2 ⟨sign, ?_⟩
  cases style <;> simp [hours, minutes]

/-- The names in a list are ASCII, and so is the one at an index; beyond the list it is empty. -/
theorem isAscii_getElem? {names : List String} (ascii : ∀ name ∈ names, IsAscii name.toList)
    (i : Nat) : IsAscii (names[i]?.getD "").toList := by
  cases found : names[i]? with
  | none => simp
  | some name => exact ascii name (List.mem_of_getElem? found)

theorem isAscii_weekdayName (m : Moment) : IsAscii m.weekdayName :=
  isAscii_getElem? (by simp [weekdayNames]) _

theorem isAscii_monthName (m : Moment) : IsAscii m.monthName :=
  isAscii_getElem? (by simp [monthNames]) _

theorem isAscii_dateTimeText (m : Moment) : IsAscii m.dateTimeText := by
  have number (field : NumberField) := isAscii_render_number m .zeros field
  have year := number .year
  have month := number .month
  have day := number .day
  have hour := number .hour
  have minute := number .minute
  have second := number .second
  simp only [NumberField.render] at year month day hour minute second
  simp [Moment.dateTimeText, year, month, day, hour, minute, second]

theorem isAscii_iso8601 {m : Moment} (near : m.zone.minutes.natAbs < 24 * 60) :
    IsAscii m.iso8601 := by
  refine isAscii_append.2 ⟨isAscii_append.2 ⟨isAscii_dateTimeText m, ?_⟩, ?_⟩
  · exact isAscii_cons.2 ⟨by simp, isAscii_fractionDigits _ _⟩
  · split
    · simp
    · exact isAscii_offsetText near .colon

/-- The items of a date are written in ASCII, apart from the characters that stand for themselves.
-/
theorem isAscii_render {m : Moment} (near : m.zone.minutes.natAbs < 24 * 60) {item : Item}
    (plain : ∀ c, item ≠ .literal c) : IsAscii (item.render m) := by
  cases item with
  | literal c => exact absurd rfl (plain c)
  | number field pad => exact isAscii_render_number m pad field
  | shortWeekday => exact (isAscii_weekdayName m).take 3
  | longWeekday => exact isAscii_weekdayName m
  | shortMonth => exact (isAscii_monthName m).take 3
  | longMonth => exact isAscii_monthName m
  | lowerHalf =>
    rw [Item.render]
    split <;> simp
  | upperHalf =>
    rw [Item.render]
    split <;> simp
  | fraction point places =>
    refine isAscii_append.2 ⟨?_, isAscii_fractionDigits _ _⟩
    split <;> simp
  | wholeFraction => exact isAscii_wholeFractionText _
  | offset style => exact isAscii_offsetText near style
  | zoneName =>
    rw [Item.render]
    cases zone : m.zone with
    | utc => simp [Zone.name]
    | offset minutes => exact isAscii_offsetText (zone ▸ near) .colon
  | timestampText =>
    exact isAscii_append.2 ⟨isAscii_append.2 ⟨isAscii_dateTimeText m, isAscii_wholeFractionText _⟩,
      isAscii_offsetText near .colon⟩

/-! ## Formats -/

/-- The characters that stand for themselves in a list of items. -/
def literals (items : List Item) : List Char :=
  items.filterMap fun
    | .literal c => some c
    | _ => none

theorem literals_append (items others : List Item) :
    literals (items ++ others) = literals items ++ literals others :=
  List.filterMap_append

theorem mem_literals {items : List Item} {c : Char} : c ∈ literals items ↔ .literal c ∈ items := by
  rw [literals, List.mem_filterMap]
  constructor
  · rintro ⟨item, mem, same⟩
    cases item with
    | literal d =>
      cases same
      exact mem
    | _ => cases same
  · exact fun mem => ⟨_, mem, rfl⟩

theorem ascii_or_mem_of_mem_write {m : Moment} (near : m.zone.minutes.natAbs < 24 * 60)
    {items : List Item} {c : Char} (mem : c ∈ m.write items) :
    c.toNat < 128 ∨ c ∈ literals items := by
  obtain ⟨item, inside, mem⟩ := List.mem_flatMap.1 mem
  by_cases plain : ∀ c, item ≠ .literal c
  · exact .inl (isAscii_render near plain c mem)
  · push Not at plain
    obtain ⟨d, rfl⟩ := plain
    rw [List.mem_singleton.1 mem]
    exact .inr (mem_literals.2 inside)

/-- What a percent sign names is written in ASCII. -/
theorem isAscii_literals_percentItems {cs : List Char} {items : List Item} {length : Nat}
    (read : percentItems? cs = some (items, length)) : IsAscii (literals items) := by
  have others : ∀ entry ∈ percentOthers, IsAscii (literals entry.2) := by
    simp [percentOthers, literals, slashedDate, clockTime, zeroed]
  unfold percentItems? at read
  split at read
  · cases read
  · split at read
    · split at read
      · cases read
      · obtain ⟨_, -, same⟩ := Option.map_eq_some_iff.1 read
        cases same
        exact isAscii_nil
    · split at read
      · cases read
        exact isAscii_nil
      · obtain ⟨entry, found, same⟩ := Option.map_eq_some_iff.1 read
        cases same
        exact others entry (List.mem_of_find?_eq_some found)

theorem mem_of_mem_percentPattern {cs : List Char} {items : List Item}
    (read : percentPattern? cs = some items) {c : Char} (mem : c ∈ literals items) :
    c.toNat < 128 ∨ c ∈ cs := by
  fun_induction percentPattern? cs generalizing items with
  | case1 =>
    cases read
    cases mem
  | case2 rest none => cases read
  | case3 rest named length found ih =>
    obtain ⟨later, more, rfl⟩ := Option.map_eq_some_iff.1 read
    rw [literals_append] at mem
    rcases List.mem_append.1 mem with mem | mem
    · exact .inl (isAscii_literals_percentItems found c mem)
    · exact (ih more mem).imp_right fun mem => List.mem_cons_of_mem _ (List.mem_of_mem_drop mem)
  | case4 d rest _ ih =>
    obtain ⟨later, more, rfl⟩ := Option.map_eq_some_iff.1 read
    rcases List.mem_cons.1 mem with rfl | mem
    · exact .inr List.mem_cons_self
    · exact (ih more mem).imp_right (List.mem_cons_of_mem _)

/-- A pattern of letters is written anew with characters of its own and ASCII characters. -/
theorem ascii_or_mem_of_mem_percentForm {cs : List Char} {c : Char} (mem : c ∈ percentForm cs) :
    c.toNat < 128 ∨ c ∈ cs := by
  have names : ∀ entry ∈ letterTokens, ∀ c ∈ entry.2, c.toNat < 128 := by simp [letterTokens]
  fun_induction percentForm cs with
  | case1 => cases mem
  | case2 rest ih =>
    rcases List.mem_append.1 mem with quoted | later
    · obtain ⟨d, inside, mem⟩ := List.mem_flatMap.1 quoted
      have inside : d ∈ '\'' :: rest := List.mem_cons_of_mem _ (List.takeWhile_subset _ inside)
      split at mem
      · left
        have percent : c = '%' := by simpa using mem
        rw [percent]
        decide
      · exact .inr (List.mem_singleton.1 mem ▸ inside)
    · exact (ih later).imp_right fun mem => List.mem_cons_of_mem _ (List.mem_of_mem_drop mem)
  | case3 d rest _ token percent found ih =>
    rcases List.mem_append.1 mem with named | later
    · exact .inl (names _ (List.mem_of_find?_eq_some found) c named)
    · exact (ih later).imp_right fun mem => List.mem_cons_of_mem _ (List.mem_of_mem_drop mem)
  | case4 d rest _ none ih =>
    rcases List.mem_cons.1 mem with rfl | later
    · exact .inr List.mem_cons_self
    · exact (ih later).imp_right (List.mem_cons_of_mem _)

/-- A written date consists of ASCII characters and of characters of the format. -/
theorem ascii_or_mem_of_mem_format {m : Moment} (near : m.zone.minutes.natAbs < 24 * 60)
    {format text : String} (written : m.format? format = some text) {c : Char}
    (mem : c ∈ text.toList) : c.toNat < 128 ∨ c ∈ format.toList := by
  rw [Moment.format?] at written
  split at written
  · cases written
    left
    rw [String.toList_ofList] at mem
    exact isAscii_iso8601 near c mem
  · split at written
    · cases written
      left
      rw [String.toList_ofList] at mem
      have header : IsAscii (literals headerDate) := by
        simp [headerDate, clockTime, zeroed, literals]
      rcases ascii_or_mem_of_mem_write (m := { m with zone := .utc })
          (by simp [Zone.minutes]) mem with ascii | mem
      · exact ascii
      · exact header c mem
    · obtain ⟨items, read, rfl⟩ := Option.map_eq_some_iff.1 written
      rw [String.toList_ofList] at mem
      rcases ascii_or_mem_of_mem_write near mem with ascii | mem
      · exact .inl ascii
      · rw [pattern?] at read
        rcases mem_of_mem_percentPattern read mem with ascii | mem
        · exact .inl ascii
        · split at mem
          · exact .inr mem
          · exact ascii_or_mem_of_mem_percentForm mem

end Calendar

end RequestFile
