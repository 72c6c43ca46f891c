import Mathlib
import RequestFile.Decimal.Read

/-!
# Numerals

A numeral is the shortest decimal form of a number behind any number of zeros. The readers of
natural numbers take the numerals and nothing else, and read each as its number.
-/

namespace RequestFile.Decimal

/-- Whether a text is a numeral of a number: its digits, perhaps behind further zeros. -/
def Writes (cs : List Char) (n : Nat) : Prop :=
  ∃ zeros, cs = List.replicate zeros '0' ++ digits n

theorem ofDigits_eq_ofDigitChars (cs : List Char) : ofDigits cs = Nat.ofDigitChars 10 cs 0 := by
  rw [ofDigits, Nat.ofDigitChars_eq_foldl]
  congr 1
  funext n c
  rw [Nat.mul_comm]
  rfl

theorem ofDigits_concat (cs : List Char) (c : Char) :
    ofDigits (cs ++ [c]) = ofDigits cs * 10 + digitValue c := by
  simp [ofDigits]

theorem isDigit_of_mem_digits {n : Nat} {c : Char} (mem : c ∈ digits n) : c.isDigit = true :=
  Nat.isDigit_of_mem_toDigits (by decide) (by decide) mem

theorem code_of_isDigit {c : Char} (digit : c.isDigit = true) :
    c.toNat = 48 + digitValue c ∧ digitValue c < 10 := by
  have zero : '0'.toNat = 48 := rfl
  have nine : '9'.toNat = 57 := rfl
  rw [Char.isDigit_iff_toNat, zero, nine] at digit
  rw [digitValue, zero]
  omega

/-- A digit is the digit of its value. -/
theorem digits_digitValue {c : Char} (digit : c.isDigit = true) : digits (digitValue c) = [c] := by
  obtain ⟨code, bound⟩ := code_of_isDigit digit
  have same : (digitValue c).digitChar = c := by
    rw [← Char.toNat_inj, Nat.toNat_digitChar_of_lt_ten bound, code]
  rw [digits, Nat.toDigits_of_lt_base bound, same]

/-- Only zero starts with a zero. -/
theorem head?_digits_ne_zero {n : Nat} (positive : 0 < n) : (digits n).head? ≠ some '0' := by
  induction n using Nat.strongRecOn with
  | _ n ih =>
    by_cases small : n < 10
    · have table : ∀ n < 10, 0 < n → (digits n).head? ≠ some '0' := by decide
      exact table n small positive
    · have split : digits n = digits (n / 10) ++ [Nat.digitChar (n % 10)] :=
        Nat.toDigits_of_base_le (by decide) (by omega)
      have nonempty : digits (n / 10) ≠ [] := Nat.toDigits_ne_nil
      rw [split, List.head?_append_of_ne_nil _ nonempty]
      exact ih (n / 10) (by omega) (by omega)

/-- A number is written with a digit in front. -/
theorem digits_eq_cons (n : Nat) : ∃ d ds, digits n = d :: ds ∧ d.isDigit = true := by
  obtain ⟨d, ds, split⟩ : ∃ d ds, digits n = d :: ds :=
    List.exists_cons_of_ne_nil Nat.toDigits_ne_nil
  exact ⟨d, ds, split, isDigit_of_mem_digits (split ▸ List.mem_cons_self)⟩

theorem ne_of_isDigit {c d : Char} (digit : c.isDigit = true) (other : d.isDigit = false) :
    c ≠ d := by
  rintro rfl
  rw [digit] at other
  cases other

namespace Writes

variable {cs : List Char} {n : Nat}

theorem ne_nil (writes : Writes cs n) : cs ≠ [] := by
  obtain ⟨zeros, rfl⟩ := writes
  simp [digits, Nat.toDigits_ne_nil]

theorem isDigit_of_mem (writes : Writes cs n) : ∀ c ∈ cs, c.isDigit = true := by
  obtain ⟨zeros, rfl⟩ := writes
  intro c mem
  rcases List.mem_append.1 mem with zero | digit
  · rw [List.eq_of_mem_replicate zero]
    rfl
  · exact isDigit_of_mem_digits digit

theorem ofDigits_eq (writes : Writes cs n) : ofDigits cs = n := by
  obtain ⟨zeros, rfl⟩ := writes
  rw [ofDigits_eq_ofDigitChars, Nat.ofDigitChars_append, Nat.ofDigitChars_replicate_zero,
    Nat.mul_zero]
  exact Nat.ofDigitChars_ten_toDigits

/-- One more digit behind a numeral makes a numeral. -/
theorem concat (writes : Writes cs n) {c : Char} (digit : c.isDigit = true) :
    Writes (cs ++ [c]) (n * 10 + digitValue c) := by
  obtain ⟨zeros, rfl⟩ := writes
  by_cases zero : n = 0
  · -- The only digit of zero becomes one of the zeros in front.
    refine ⟨zeros + 1, ?_⟩
    rw [zero, Nat.zero_mul, Nat.zero_add, digits_digitValue digit, List.replicate_succ']
    rfl
  · refine ⟨zeros, ?_⟩
    have joined := Nat.toDigits_append_toDigits (b := 10) (by decide) (Nat.pos_of_ne_zero zero)
      (code_of_isDigit digit).2
    rw [List.append_assoc, ← digits_digitValue digit, digits, digits, joined, Nat.mul_comm, digits]

end Writes

/-- Digits are a numeral of the number that is read. -/
theorem writes_ofDigits {cs : List Char} (nonempty : cs ≠ [])
    (digit : ∀ c ∈ cs, c.isDigit = true) : Writes cs (ofDigits cs) := by
  induction cs using List.reverseRecOn with
  | nil => exact absurd rfl nonempty
  | append_singleton cs c ih =>
    rw [List.forall_mem_append, List.forall_mem_singleton] at digit
    rw [ofDigits_concat]
    by_cases first : cs = []
    · refine ⟨0, ?_⟩
      have value : ofDigits [] = 0 := rfl
      rw [first, value, Nat.zero_mul, Nat.zero_add, digits_digitValue digit.2]
      rfl
    · exact (ih first digit.1).concat digit.2

/-- Exactly the numerals are read, each as its number. -/
theorem natural?_eq_some_iff {cs : List Char} {n : Nat} :
    natural? cs = some n ↔ Writes cs n := by
  rw [natural?]
  constructor
  · intro read
    split at read
    · next ok =>
      cases read
      rw [Bool.and_eq_true, List.all_eq_true] at ok
      exact writes_ofDigits (by simpa using ok.1) ok.2
    · cases read
  · intro writes
    have ok : (!cs.isEmpty && cs.all Char.isDigit) = true := by
      simpa [writes.ne_nil] using writes.isDigit_of_mem
    rw [if_pos ok, writes.ofDigits_eq]

/-- Up to a bound the numerals are read, perhaps behind the sign `+`. -/
theorem naturalUpTo?_eq_some_iff {bound : Nat} {cs : List Char} {n : Nat} :
    naturalUpTo? bound cs = some n ↔
      n ≤ bound ∧ (Writes cs n ∨ ∃ rest, cs = '+' :: rest ∧ Writes rest n) := by
  by_cases signed : ∃ rest, cs = '+' :: rest
  · obtain ⟨rest, rfl⟩ := signed
    have read : naturalUpTo? bound ('+' :: rest) = (natural? rest).filter (· ≤ bound) := rfl
    have unsigned : ¬ Writes ('+' :: rest) n := by
      intro writes
      cases writes.isDigit_of_mem '+' List.mem_cons_self
    simp [read, Option.filter_eq_some_iff, natural?_eq_some_iff, unsigned, and_comm]
  · have read : naturalUpTo? bound cs = (natural? cs).filter (· ≤ bound) := by
      unfold naturalUpTo?
      split
      · exact absurd ⟨_, rfl⟩ signed
      · rfl
    rw [not_exists] at signed
    simp [read, Option.filter_eq_some_iff, natural?_eq_some_iff, signed, and_comm]

/-! ## Signs -/

/-- Whether a text is a numeral of an integer: a numeral, perhaps behind one sign. -/
inductive WritesInt : List Char → Int → Prop
  | bare {cs : List Char} {n : Nat} (digits : Writes cs n) : WritesInt cs n
  | plus {cs : List Char} {n : Nat} (digits : Writes cs n) : WritesInt ('+' :: cs) n
  | minus {cs : List Char} {n : Nat} (digits : Writes cs n) : WritesInt ('-' :: cs) (-n)

/-- A numeral starts with a digit. -/
theorem Writes.exists_cons {cs : List Char} {n : Nat} (writes : Writes cs n) :
    ∃ d ds, cs = d :: ds ∧ d.isDigit = true := by
  obtain ⟨d, ds, rfl⟩ := List.exists_cons_of_ne_nil writes.ne_nil
  exact ⟨d, ds, rfl, writes.isDigit_of_mem d List.mem_cons_self⟩

/-- Exactly the numerals of integers are read, each as its number. -/
theorem integer?_eq_some_iff {cs : List Char} {n : Int} :
    integer? cs = some n ↔ WritesInt cs n := by
  constructor
  · intro read
    unfold integer? at read
    split at read
    · obtain ⟨m, digits, rfl⟩ := Option.map_eq_some_iff.1 read
      exact .plus (natural?_eq_some_iff.1 digits)
    · obtain ⟨m, digits, rfl⟩ := Option.map_eq_some_iff.1 read
      exact .minus (natural?_eq_some_iff.1 digits)
    · obtain ⟨m, digits, rfl⟩ := Option.map_eq_some_iff.1 read
      exact .bare (natural?_eq_some_iff.1 digits)
  · intro written
    cases written with
    | bare digits =>
      obtain ⟨d, ds, rfl, digit⟩ := digits.exists_cons
      have read := natural?_eq_some_iff.2 digits
      unfold integer?
      split
      · next same =>
        rw [(List.cons.inj same).1] at digit
        cases digit
      · next same =>
        rw [(List.cons.inj same).1] at digit
        cases digit
      · rw [read]
        rfl
    | plus digits =>
      rw [integer?, natural?_eq_some_iff.2 digits]
      rfl
    | minus digits =>
      rw [integer?, natural?_eq_some_iff.2 digits]
      rfl

/-- Signs `+` in front of a numeral do not change its number. -/
theorem WritesInt.dropWhile_plus {cs : List Char} {n : Int} (written : WritesInt cs n) :
    WritesInt (cs.dropWhile (· == '+')) n := by
  have unsigned : ∀ {cs : List Char} {n : Nat}, Writes cs n → cs.dropWhile (· == '+') = cs := by
    intro cs n digits
    obtain ⟨d, ds, rfl, digit⟩ := digits.exists_cons
    exact List.dropWhile_cons_of_neg (by simpa using ne_of_isDigit digit (by decide))
  cases written with
  | bare digits =>
    rw [unsigned digits]
    exact .bare digits
  | plus digits =>
    rw [List.dropWhile_cons_of_pos (by decide), unsigned digits]
    exact .bare digits
  | minus digits =>
    rw [List.dropWhile_cons_of_neg (by decide)]
    exact .minus digits

theorem fitsInt64_iff {n : Int} : fitsInt64 n = true ↔ -maxInt64 - 1 ≤ n ∧ n ≤ maxInt64 := by
  simp [fitsInt64]

theorem int64?_of_writesInt {cs : List Char} {n : Int} (written : WritesInt cs n) :
    int64? cs = if fitsInt64 n then some n else none := by
  rw [int64?, integer?_eq_some_iff.2 written, Option.filter_some]

end RequestFile.Decimal
