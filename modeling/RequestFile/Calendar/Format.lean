import RequestFile.Calendar.Item
/-!
# Date formats

A format is one of two named ones, a pattern with percent signs, or a pattern of letters. A pattern
of letters is turned into one with percent signs, in which all that is no token stands for itself.
-/

namespace RequestFile.Calendar

/-- The numbers that a percent sign can name, with the padding that they have by themselves. -/
def percentNumbers : List (Char × NumberField × Pad) :=
  [('Y', .year, .zeros), ('C', .century, .zeros), ('y', .yearOfCentury, .zeros),
    ('G', .weekYear, .zeros), ('g', .weekYearOfCentury, .zeros), ('q', .quarter, .nothing),
    ('m', .month, .zeros), ('d', .day, .zeros), ('e', .day, .spaces),
    ('U', .weekFromSunday, .zeros), ('W', .weekFromMonday, .zeros), ('V', .week, .zeros),
    ('w', .daysFromSunday, .nothing), ('u', .weekdayNumber, .nothing), ('j', .ordinal, .zeros),
    ('H', .hour, .zeros), ('k', .hour, .spaces), ('I', .hour12, .zeros), ('l', .hour12, .spaces),
    ('M', .minute, .zeros), ('S', .second, .zeros), ('f', .nanosecond, .zeros),
    ('s', .timestamp, .nothing)]

/-- A number with zeros. -/
def zeroed (field : NumberField) : Item :=
  .number field .zeros

/-- Month, day and year of the century, with slashes between them. -/
def slashedDate : List Item :=
  [zeroed .month, .literal '/', zeroed .day, .literal '/', zeroed .yearOfCentury]

/-- Hour, minute and second, with colons between them. -/
def clockTime : List Item :=
  [zeroed .hour, .literal ':', zeroed .minute, .literal ':', zeroed .second]

/-- All else that a percent sign can name. -/
def percentOthers : List (List Char × List Item) :=
  [(['b'], [.shortMonth]), (['h'], [.shortMonth]), (['B'], [.longMonth]),
    (['a'], [.shortWeekday]), (['A'], [.longWeekday]),
    (['D'], slashedDate), (['x'], slashedDate),
    (['F'], [zeroed .year, .literal '-', zeroed .month, .literal '-', zeroed .day]),
    (['v'],
      [.number .day .spaces, .literal '-', .shortMonth, .literal '-', zeroed .year]),
    (['P'], [.lowerHalf]), (['p'], [.upperHalf]),
    (['.', 'f'], [.wholeFraction]), (['.', '3', 'f'], [.fraction true 3]),
    (['.', '6', 'f'], [.fraction true 6]), (['.', '9', 'f'], [.fraction true 9]),
    (['3', 'f'], [.fraction false 3]), (['6', 'f'], [.fraction false 6]),
    (['9', 'f'], [.fraction false 9]),
    (['R'], [zeroed .hour, .literal ':', zeroed .minute]),
    (['T'], clockTime), (['X'], clockTime),
    (['r'],
      [zeroed .hour12, .literal ':', zeroed .minute, .literal ':', zeroed .second, .literal ' ',
        .upperHalf]),
    (['Z'], [.zoneName]), (['z'], [.offset .plain]), ([':', 'z'], [.offset .colon]),
    ([':', ':', 'z'], [.offset .seconds]), ([':', ':', ':', 'z'], [.offset .hours]),
    (['c'],
      [.shortWeekday, .literal ' ', .shortMonth, .literal ' ', .number .day .spaces,
        .literal ' '] ++ clockTime ++ [.literal ' ', zeroed .year]),
    (['+'], [.timestampText]), (['t'], [.literal '\t']), (['n'], [.literal '\n']),
    (['%'], [.literal '%'])]

/-- The padding that a flag after a percent sign asks for. -/
def padFlag? : Char → Option Pad
  | '-' => some .nothing
  | '_' => some .spaces
  | '0' => some .zeros
  | _ => none

/-- What a percent sign names, and the number of characters of the name. Only a single number takes
a flag. -/
def percentItems? (cs : List Char) : Option (List Item × Nat) :=
  match cs with
  | [] => none
  | c :: rest =>
    match padFlag? c with
    | some pad =>
      match rest with
      | [] => none
      | d :: _ => (percentNumbers.lookup d).map fun (field, _) => ([.number field pad], 2)
    | none =>
      match percentNumbers.lookup c with
      | some (field, pad) => some ([.number field pad], 1)
      | none =>
        (percentOthers.find? fun (name, _) => name.isPrefixOf (c :: rest)).map
          fun (name, items) => (items, name.length)

/-- The items of a pattern with percent signs. -/
def percentPattern? (cs : List Char) : Option (List Item) :=
  match cs with
  | [] => some []
  | '%' :: rest =>
    match percentItems? rest with
    | none => none
    | some (items, length) => (percentPattern? (rest.drop length)).map (items ++ ·)
  | c :: rest => (percentPattern? rest).map (.literal c :: ·)
termination_by cs.length
decreasing_by
  · simp only [List.length_drop, List.length_cons]; omega
  · simp

/-- The tokens of a pattern of letters, with what names the same by percent signs. Of two tokens
that start alike the longer comes first. -/
def letterTokens : List (List Char × List Char) :=
  [(['y', 'y', 'y', 'y'], ['%', 'Y']), (['y', 'y'], ['%', 'y']),
    (['M', 'M', 'M', 'M'], ['%', 'B']), (['M', 'M', 'M'], ['%', 'b']),
    (['M', 'M'], ['%', 'm']), (['M'], ['%', '-', 'm']),
    (['d', 'd', 'd', 'd'], ['%', 'A']), (['d', 'd', 'd'], ['%', 'a']),
    (['d', 'd'], ['%', 'd']), (['d'], ['%', '-', 'd']),
    (['H', 'H'], ['%', 'H']), (['H'], ['%', '-', 'H']),
    (['h', 'h'], ['%', 'I']), (['h'], ['%', '-', 'I']),
    (['m', 'm'], ['%', 'M']), (['m'], ['%', '-', 'M']),
    (['s', 's'], ['%', 'S']), (['s'], ['%', '-', 'S']),
    (['f', 'f', 'f'], ['%', '3', 'f']), (['t', 't'], ['%', 'p']),
    (['z', 'z', 'z'], ['%', ':', 'z'])]

/-- Text that stands for itself, as a pattern with percent signs. -/
def doublePercent (cs : List Char) : List Char :=
  cs.flatMap fun c => if c == '%' then ['%', '%'] else [c]

/-- A pattern of letters as a pattern with percent signs. Text between single quotes stands for
itself, also when the second quote is missing. -/
def percentForm (cs : List Char) : List Char :=
  match cs with
  | [] => []
  | '\'' :: rest =>
    doublePercent (rest.takeWhile (· != '\'')) ++
      percentForm (rest.drop ((rest.takeWhile (· != '\'')).length + 1))
  | c :: rest =>
    match letterTokens.find? (·.1.isPrefixOf (c :: rest)) with
    | some (token, percent) => percent ++ percentForm (rest.drop (token.length - 1))
    | none => c :: percentForm rest
termination_by cs.length
decreasing_by
  · simp only [List.length_drop, List.length_cons]; omega
  · simp only [List.length_drop, List.length_cons]; omega
  · simp

/-- The items of a pattern: one that holds no percent sign is a pattern of letters. -/
def pattern? (cs : List Char) : Option (List Item) :=
  percentPattern? (if cs.contains '%' then cs else percentForm cs)

/-- A moment written by items. -/
def Moment.write (m : Moment) (items : List Item) : List Char :=
  items.flatMap (Item.render m)

/-- A moment to the millisecond; the offset zero is written as `Z`. -/
def Moment.iso8601 (m : Moment) : List Char :=
  m.dateTimeText ++ '.' :: fractionDigits 3 m.nanosecond ++
    (if m.zone.minutes == 0 then ['Z'] else m.zone.offsetText .colon)

/-- The items of a date in a header, in universal time. -/
def headerDate : List Item :=
  [.shortWeekday, .literal ',', .literal ' ', zeroed .day, .literal ' ', .shortMonth, .literal ' ',
    zeroed .year, .literal ' '] ++ clockTime ++
    [.literal ' ', .literal 'G', .literal 'M', .literal 'T']

/-- A moment in a format, if the format is not wrong. -/
def Moment.format? (m : Moment) (format : String) : Option String :=
  if format == "iso8601" then some (String.ofList m.iso8601)
  else if format == "rfc1123" then
    some (String.ofList ({ m with zone := .utc }.write headerDate))
  else (pattern? format.toList).map fun items => String.ofList (m.write items)

end RequestFile.Calendar
