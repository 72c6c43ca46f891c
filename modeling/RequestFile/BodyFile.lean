import RequestFile.Text.Basic
/-!
# Bodies from files

A request may take its body from a file: as it is, or with its placeholders resolved after it has
been read in some encoding.
-/

namespace RequestFile

/-- A text encoding. -/
inductive Encoding where
  | utf8
  | utf16LE
  | utf16BE
  | ascii
  | latin1
  | windows1252
deriving Repr, DecidableEq

namespace Encoding

/-- All encodings. -/
def all : List Encoding :=
  [utf8, utf16LE, utf16BE, ascii, latin1, windows1252]

/-- The encoding that a label names. Blanks around the label and the case of letters make no
difference. -/
def ofLabel? (label : String) : Option Encoding :=
  match String.ofList (Text.lower (Text.trim label.toList)) with
  | "utf8" | "utf-8" => some utf8
  | "utf16" | "utf-16" | "utf16le" | "utf-16le" | "unicode" => some utf16LE
  | "utf16be" | "utf-16be" | "bigendianunicode" => some utf16BE
  | "ascii" | "us-ascii" => some ascii
  | "latin1" | "latin-1" | "l1" | "iso-8859-1" | "iso8859-1" | "iso88591" => some latin1
  | "windows-1252" | "windows1252" | "cp1252" => some windows1252
  | _ => none

/-- The encoding that a label names, UTF-8 if it names none. -/
def ofLabel (label : String) : Encoding :=
  (ofLabel? label).getD utf8

/-- The registered name of an encoding. -/
def name : Encoding → String
  | utf8 => "UTF-8"
  | utf16LE => "UTF-16LE"
  | utf16BE => "UTF-16BE"
  | ascii => "US-ASCII"
  | latin1 => "ISO-8859-1"
  | windows1252 => "windows-1252"

end Encoding

/-- A file that holds the body of a request. -/
structure BodyFile where
  path : String
  /-- Whether placeholders in the file are resolved. -/
  processed : Bool
  encoding : Option Encoding
deriving Repr, DecidableEq

namespace BodyFile

/-- A file whose bytes are the body. -/
def raw (path : String) : BodyFile :=
  { path, processed := false, encoding := none }

/-- A file that is read in an encoding and whose placeholders are resolved. -/
def withVariables (path : String) (encoding : Encoding) : BodyFile :=
  { path, processed := true, encoding := some encoding }

end BodyFile

end RequestFile
