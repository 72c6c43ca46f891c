import RequestFile.Method
import RequestFile.Text.Basic
import RequestFile.Token
/-!
# Request lines

A request line holds a method, a target and perhaps a version, or a target and perhaps a version. In
places where a line may also be a header or the text of a body, only a standard method in capital
letters with a target that looks like a URL makes a request line.
-/

namespace RequestFile.Token

/-- Whether a text is a version: `HTTP/`, digits, and perhaps a point with more digits. -/
def isVersion (cs : List Char) : Bool :=
  match ['H', 'T', 'T', 'P', '/'].isPrefixOf? cs with
  | none => false
  | some rest =>
    let major := rest.takeWhile Text.isDecimalDigit
    !major.isEmpty &&
      match rest.dropWhile Text.isDecimalDigit with
      | [] => true
      | '.' :: minor => !minor.isEmpty && minor.all Text.isDecimalDigit
      | _ => false

/-- Whether a text may stand as a method: one or more of the letters `A` to `Z` in either case. -/
def isMethodWord (cs : List Char) : Bool :=
  !cs.isEmpty && cs.all Char.isAlpha

/-- The version that the words after a target make: none if there are no words, and no request line
at all if there is anything but one version. -/
def versionOf? : List (List Char) → Option (Option String)
  | [] => some none
  | [v] => if isVersion v then some (some (String.ofList v)) else none
  | _ => none

/-- A request line with a method. -/
def withMethod? (line : List Char) : Option Token :=
  match Text.words line with
  | method :: target :: rest =>
    if isMethodWord method then
      (versionOf? rest).map (.requestLine (String.ofList method) (String.ofList target))
    else none
  | _ => none

/-- Whether a target starts like a URL. -/
def looksLikeUrl (target : List Char) : Bool :=
  ['h', 't', 't', 'p', ':', '/', '/'].isPrefixOf target ||
    ['h', 't', 't', 'p', 's', ':', '/', '/'].isPrefixOf target ||
    ['{', '{'].isPrefixOf target || ['/'].isPrefixOf target

/-- A request line with a standard method in capital letters and a target that looks like a URL. -/
def standardRequestLine? (line : List Char) : Option Token :=
  match withMethod? line with
  | some (.requestLine method url version) =>
    if (Method.ofName? method).isSome && looksLikeUrl url.toList then
      some (.requestLine method url version)
    else none
  | _ => none

/-- The start of a target that can stand without a method, and what follows it: `http://` or
`https://` with one more character, or a placeholder in double braces. The content of the
placeholder is not empty and holds no closing brace, but it may hold blanks. -/
def bareTarget? (line : List Char) : Option (List Char × List Char) :=
  match ['{', '{'].isPrefixOf? line with
  | some rest =>
    let content := rest.takeWhile (· != '}')
    match rest.dropWhile (· != '}') with
    | '}' :: '}' :: rest =>
      if content.isEmpty then none else some (['{', '{'] ++ content ++ ['}', '}'], rest)
    | _ => none
  | none =>
    match ['h', 't', 't', 'p', ':', '/', '/'].isPrefixOf? line,
        ['h', 't', 't', 'p', 's', ':', '/', '/'].isPrefixOf? line with
    | some (c :: rest), _ =>
      if Text.isBlank c then none else some (['h', 't', 't', 'p', ':', '/', '/', c], rest)
    | _, some (c :: rest) =>
      if Text.isBlank c then none else some (['h', 't', 't', 'p', 's', ':', '/', '/', c], rest)
    | _, _ => none

/-- A request line without a method. -/
def withoutMethod? (line : List Char) : Option Token :=
  match bareTarget? line with
  | none => none
  | some (start, rest) =>
    let target := start ++ rest.takeWhile (!Text.isBlank ·)
    (versionOf? (Text.words (rest.dropWhile (!Text.isBlank ·)))).map
      (.requestLine "" (String.ofList target))

/-- A request line in a place where no other kind of line is likely. -/
def requestLine? (line : List Char) : Option Token :=
  (withMethod? line).or (withoutMethod? line)

end RequestFile.Token
