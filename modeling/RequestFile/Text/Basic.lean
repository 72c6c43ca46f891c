import RequestFile.Text.Character
/-!
# Texts

What the format does with a text as a list of characters: it trims blanks, cuts at blanks, searches,
and reads line by line. A file may end its lines with LF, CRLF or CR and may start with a byte-order
mark; `normalize` removes both differences.
-/

namespace RequestFile.Text

/-! ## Blanks at the ends and between words -/

/-- Drops the blanks at the start. -/
def trimStart (cs : List Char) : List Char :=
  cs.dropWhile isBlank

/-- Drops the blanks at the end. -/
def trimEnd (cs : List Char) : List Char :=
  (cs.reverse.dropWhile isBlank).reverse

/-- Drops the blanks at both ends. -/
def trim (cs : List Char) : List Char :=
  trimEnd (trimStart cs)

/-- The maximal runs of characters that are not blank, in order. -/
def words (cs : List Char) : List (List Char) :=
  (cs.splitOnP isBlank).filter (!·.isEmpty)

/-- Cuts at the first character of a kind: what stands before it, and what stands after it. There is
no second part where no such character occurs. -/
def cutAt (p : Char → Bool) : List Char → List Char × Option (List Char)
  | [] => ([], none)
  | c :: rest =>
    if p c then ([], some rest)
    else ((c :: (cutAt p rest).1), (cutAt p rest).2)

/-- Whether a text consists of blanks only. -/
def allBlank (cs : List Char) : Bool :=
  cs.all isBlank

/-! ## Searching -/

/-- Whether a list of characters occurs in another without a gap. -/
def occursIn (part : List Char) : List Char → Bool
  | [] => part.isEmpty
  | c :: rest => part.isPrefixOf (c :: rest) || occursIn part rest

theorem occursIn_iff {part cs : List Char} : occursIn part cs = true ↔ part <:+: cs := by
  induction cs with
  | nil => simp [occursIn, List.infix_nil]
  | cons c cs ih =>
    rw [occursIn, Bool.or_eq_true, List.isPrefixOf_iff_prefix, ih, List.infix_cons_iff]

/-! ## Lines -/

/-- Turns every CRLF, and every CR that stands alone, into one LF. -/
def unifyBreaks : List Char → List Char
  | [] => []
  | '\r' :: '\n' :: rest => '\n' :: unifyBreaks rest
  | '\r' :: rest => '\n' :: unifyBreaks rest
  | c :: rest => c :: unifyBreaks rest

/-- Drops one leading byte-order mark. -/
def dropMark : List Char → List Char
  | [] => []
  | c :: rest => if c.toNat == 0xFEFF then rest else c :: rest

/-- The text without a leading byte-order mark and with LF as its only line end. -/
def normalize (cs : List Char) : List Char :=
  unifyBreaks (dropMark cs)

/-- The lines of a text: the parts between its LFs. An empty text has one empty line. -/
def lines (cs : List Char) : List (List Char) :=
  cs.splitOn '\n'

end RequestFile.Text

namespace RequestFile

/-- A text without the blanks at its ends. -/
def trimmed (s : String) : String :=
  String.ofList (Text.trim s.toList)

/-- Whether a text is empty or consists of blanks only. -/
def isBlankText (s : String) : Bool :=
  Text.allBlank s.toList

/-- A text without a leading byte-order mark and with LF as its only line end. -/
def normalized (s : String) : String :=
  String.ofList (Text.normalize s.toList)

end RequestFile
