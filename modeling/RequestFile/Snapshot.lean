import RequestFile.Decimal.Layout
import RequestFile.Text.Basic
/-!
# Captured responses

What is kept of a response, so that later requests can refer to it.
-/

namespace RequestFile

/-- What is kept of a response. -/
structure Snapshot where
  status : Nat := 200
  statusText : String := ""
  /-- The headers, repeated ones included. -/
  headers : List (String × String) := []
  contentType : Option String := none
  /-- The time that the response took, in milliseconds. -/
  time : Float := 0.0
  body : String := ""
deriving Repr, DecidableEq

namespace Snapshot

/-- Whether the status is one of success. -/
def isSuccess (s : Snapshot) : Bool :=
  200 ≤ s.status && s.status < 300

/-- Adds a header at the end. -/
def addHeader (s : Snapshot) (name value : String) : Snapshot :=
  { s with headers := s.headers ++ [(name, value)] }

/-- The value of the first header with a name, in any case. -/
def header? (s : Snapshot) (name : String) : Option String :=
  (s.headers.find? fun entry => Text.sameLetters entry.1 name).map Prod.snd

/-- The content type: the one that was given, or else that of the headers. -/
def effectiveContentType? (s : Snapshot) : Option String :=
  s.contentType.or (s.header? "content-type")

/-- Takes a time in nanoseconds for the time of the response. -/
def setElapsed (s : Snapshot) (nanoseconds : Nat) : Snapshot :=
  { s with time := Float.ofNat nanoseconds / 1000000.0 }

/-- Times are written without an exponent, and whole ones without a point. -/
def timeLayout : Decimal.Layout where
  plain _ := true
  wholeEnd := []
  tie := .up

/-- The time as it is shown. Whole numbers below `2 ^ 63` show all their digits, and zero no sign.
-/
def timeText (s : Snapshot) : String :=
  String.ofList <|
    match Decimal.classify s.time with
    | .finite negative size =>
      match size.whole? with
      | some n =>
        if n ≤ Decimal.maxInt64 then Decimal.withSign (negative && n != 0) (Decimal.digits n)
        else Decimal.render timeLayout s.time
      | none => Decimal.render timeLayout s.time
    | _ => Decimal.render timeLayout s.time

end Snapshot

end RequestFile
