import Mathlib
import RequestFile.Json.Reader

/-!
# Strings in JSON

Every text is read back from the JSON string that it is written as. A character is written as it is
or escaped, and either way it is read as its code point; no code point of a character is half of a
surrogate pair, so that the code points are taken for what they are.
-/

namespace RequestFile.Json

/-! ## Escapes -/

theorem hexValue?_digitChar : ∀ d < 16, hexValue? (Nat.digitChar d) = some d := by
  decide

/-- The characters that have no short escape have two digits. -/
theorem hexDigits4_of_lt :
    ∀ n < 0x20, hexDigits4 n = ['0', '0', Nat.digitChar (n / 16), Nat.digitChar (n % 16)] := by
  decide

theorem hexValue4?_hexDigits4 {n : Nat} (small : n < 0x20) :
    hexValue4? '0' '0' (Nat.digitChar (n / 16)) (Nat.digitChar (n % 16)) = some n := by
  have zero : hexValue? '0' = some 0 := rfl
  rw [hexValue4?, zero, hexValue?_digitChar _ (by omega), hexValue?_digitChar _ (by omega)]
  show some (((0 * 16 + 0) * 16 + n / 16) * 16 + n % 16) = some n
  rw [Option.some_inj]
  omega

variable {c : Char} {rest more : List Char} {units : List Nat}

theorem readUnits_short {unit : Nat} (known : shortEscape? c = some unit)
    (read : readUnits rest = some (units, more)) :
    readUnits ('\\' :: c :: rest) = some (unit :: units, more) := by
  have other : c ≠ 'u' := by
    rintro rfl
    cases known
  rw [readUnits.eq_4 c rest fun _ _ _ _ _ same _ => other same, known, read]
  rfl

theorem readUnits_plain (quote : c ≠ '"') (backslash : c ≠ '\\') (large : ¬ c.toNat < 0x20)
    (read : readUnits rest = some (units, more)) :
    readUnits (c :: rest) = some (c.toNat :: units, more) := by
  rw [readUnits.eq_5 c rest quote (fun _ _ _ _ _ same _ => backslash same)
    (fun _ _ same _ => backslash same), if_neg large, read]
  rfl

/-- A character is read as its code point, however it is written. -/
theorem readUnits_escapeChar (read : readUnits rest = some (units, more)) :
    readUnits (escapeChar c ++ rest) = some (c.toNat :: units, more) := by
  unfold escapeChar
  split_ifs with quote backslash backspace tab feed formFeed carriage small
  · rw [beq_iff_eq.1 quote]
    exact readUnits_short rfl read
  · rw [beq_iff_eq.1 backslash]
    exact readUnits_short rfl read
  · rw [beq_iff_eq.1 backspace]
    exact readUnits_short rfl read
  · rw [beq_iff_eq.1 tab]
    exact readUnits_short rfl read
  · rw [beq_iff_eq.1 feed]
    exact readUnits_short rfl read
  · rw [beq_iff_eq.1 formFeed]
    exact readUnits_short rfl read
  · rw [beq_iff_eq.1 carriage]
    exact readUnits_short rfl read
  · rw [hexDigits4_of_lt _ small, List.cons_append, List.cons_append]
    show readUnits ('\\' :: 'u' :: '0' :: '0' :: _ :: _ :: rest) = _
    rw [readUnits.eq_3, hexValue4?_hexDigits4 small, read]
    rfl
  · exact readUnits_plain (by simpa using quote) (by simpa using backslash) small read

/-! ## Code points -/

theorem isHighSurrogate_toNat (c : Char) : isHighSurrogate c.toNat = false := by
  have valid : c.toNat < 0xD800 ∨ 0xDFFF < c.toNat ∧ c.toNat < 0x110000 := c.valid
  simp only [isHighSurrogate, Bool.and_eq_false_iff, decide_eq_false_iff_not]
  omega

theorem isLowSurrogate_toNat (c : Char) : isLowSurrogate c.toNat = false := by
  have valid : c.toNat < 0xD800 ∨ 0xDFFF < c.toNat ∧ c.toNat < 0x110000 := c.valid
  simp only [isLowSurrogate, Bool.and_eq_false_iff, decide_eq_false_iff_not]
  omega

/-- The code points of a text are no halves of pairs. -/
theorem joinUnits_toNat (cs : List Char) : joinUnits (cs.map Char.toNat) = some cs := by
  induction cs with
  | nil => rfl
  | cons c cs ih =>
    cases cs with
    | nil => simp [joinUnits, isHighSurrogate_toNat, isLowSurrogate_toNat]
    | cons d cs =>
      rw [List.map_cons] at ih
      simp [joinUnits, isHighSurrogate_toNat, isLowSurrogate_toNat, ih]

/-! ## Strings -/

theorem readUnits_flatMap_escapeChar (cs rest : List Char) :
    readUnits (cs.flatMap escapeChar ++ '"' :: rest) = some (cs.map Char.toNat, rest) := by
  induction cs with
  | nil => rfl
  | cons c cs ih =>
    rw [List.flatMap_cons, List.append_assoc, List.map_cons]
    exact readUnits_escapeChar ih

/-- A text is read back, and what stands behind its closing quote is left. -/
theorem readString_escaped (s : String) (rest : List Char) :
    readString (s.toList.flatMap escapeChar ++ '"' :: rest) = some (some s, rest) := by
  rw [readString, readUnits_flatMap_escapeChar, Option.map_some]
  dsimp only
  rw [joinUnits_toNat, Option.map_some, String.ofList_toList]

end RequestFile.Json
