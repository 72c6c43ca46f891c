import RequestFile.Document
import RequestFile.Json.Reader
import RequestFile.Json.Record
/-!
# Documents in JSON

A document can be kept as a JSON text. `Document.toJson` writes every part of it, and
`Document.ofJson?` reads what was written; tables of header lines and directives are left out
where they are empty, and are empty where they are left out.
-/

namespace RequestFile

open Json

/-! ## Expectations -/

/-- The name of a kind of expectation in JSON. -/
def ExpectationKind.tag : ExpectationKind → String
  | statusCode => "StatusCode"
  | header => "Header"
  | bodyContains => "BodyContains"
  | bodyPath => "BodyPath"
  | schema => "Schema"
  | maxTime => "MaxTime"

/-- Reads one of some values by its name: the name as a text, or as the only member of an object
with the value `null`. -/
def Json.Tree.choice? {α : Type} (values : List α) (tag : α → String) (tree : Tree) : Option α :=
  let named := fun (name : String) => values.find? fun value => tag value == name
  match tree with
  | .string name => name.bind named
  | .object [(name, .null)] => name.bind named
  | _ => none

namespace Expectation

/-- The fields of an expectation. -/
def shape : Shape where
  fields := ["kind", "value"]

/-- An expectation as a tree. -/
def toTree (e : Expectation) : Tree :=
  .record [("kind", .text e.kind.tag), ("value", .text e.value)]

/-- Reads an expectation. -/
def ofTree? (tree : Tree) : Option Expectation := do
  let fields ← tree.fields? shape
  return {
    kind := ← Fields.required fields "kind" (Tree.choice? ExpectationKind.all ExpectationKind.tag)
    value := ← Fields.required fields "value" Tree.text? }

end Expectation

/-! ## Body files -/

/-- The name of an encoding in JSON. -/
def Encoding.tag : Encoding → String
  | utf8 => "Utf8"
  | utf16LE => "Utf16Le"
  | utf16BE => "Utf16Be"
  | ascii => "Ascii"
  | latin1 => "Latin1"
  | windows1252 => "Windows1252"

namespace BodyFile

/-- The fields of a body file. -/
def shape : Shape where
  fields := ["file_path", "process_variables", "encoding"]
  nullable := ["encoding"]

/-- A body file as a tree. -/
def toTree (f : BodyFile) : Tree :=
  .record [
    ("file_path", .text f.path),
    ("process_variables", .bool f.processed),
    ("encoding", .option (fun e => .text e.tag) f.encoding)]

/-- Reads a body file. -/
def ofTree? (tree : Tree) : Option BodyFile := do
  let fields ← tree.fields? shape
  return {
    path := ← Fields.required fields "file_path" Tree.text?
    processed := ← Fields.required fields "process_variables" Tree.bool?
    encoding := ←
      Fields.required fields "encoding" (Tree.option? (Tree.choice? Encoding.all Encoding.tag)) }

end BodyFile

/-! ## Requests -/

namespace Metadata

/-- The fields of what comments say about a request. -/
def shape : Shape where
  fields := ["name", "expectations", "directives"]

/-- What comments say about a request, as a tree. -/
def toTree (m : Metadata) : Tree :=
  .record <|
    [("name", .text m.name), ("expectations", .array (m.expectations.map Expectation.toTree))] ++
      (if m.directives.isEmpty then [] else [("directives", .ofTable Tree.text m.directives)])

/-- Reads what comments say about a request. -/
def ofTree? (tree : Tree) : Option Metadata := do
  let fields ← tree.fields? shape
  return {
    name := ← Fields.required fields "name" Tree.text?
    expectations := ← Fields.required fields "expectations" (Tree.list? Expectation.ofTree?)
    directives := ← Fields.defaulted fields "directives" (Tree.table? Tree.text?) .empty }

end Metadata

namespace Request

/-- The fields of a request. -/
def shape : Shape where
  fields :=
    ["name", "method", "url", "http_version", "headers", "header_lines", "body", "file_body",
      "metadata", "source_line"]
  nullable := ["http_version", "body", "file_body"]

/-- A request as a tree. -/
def toTree (r : Request) : Tree :=
  .record <|
    [("name", .text r.name), ("method", .text r.method), ("url", .text r.url),
      ("http_version", .option Tree.text r.version), ("headers", .ofTable Tree.text r.headers)] ++
      (if r.headerLines.isEmpty then [] else [("header_lines", .ofTable Tree.nat r.headerLines)]) ++
      [("body", .option Tree.text r.body), ("file_body", .option BodyFile.toTree r.bodyFile),
        ("metadata", r.metadata.toTree), ("source_line", .nat r.line)]

/-- Reads a request. -/
def ofTree? (tree : Tree) : Option Request := do
  let fields ← tree.fields? shape
  return {
    name := ← Fields.required fields "name" Tree.text?
    method := ← Fields.required fields "method" Tree.text?
    url := ← Fields.required fields "url" Tree.text?
    version := ← Fields.required fields "http_version" (Tree.option? Tree.text?)
    headers := ← Fields.required fields "headers" (Tree.table? Tree.text?)
    headerLines := ← Fields.defaulted fields "header_lines" (Tree.table? Tree.nat?) .empty
    body := ← Fields.required fields "body" (Tree.option? Tree.text?)
    bodyFile := ← Fields.required fields "file_body" (Tree.option? BodyFile.ofTree?)
    metadata := ← Fields.required fields "metadata" Metadata.ofTree?
    line := ← Fields.required fields "source_line" Tree.nat? }

end Request

/-! ## Documents -/

namespace Document

/-- The fields of a document. -/
def shape : Shape where
  fields := ["requests", "variables", "variable_lines"]

/-- A document as a tree. -/
def toTree (d : Document) : Tree :=
  .record [
    ("requests", .array (d.requests.map Request.toTree)),
    ("variables", .ofTable Tree.text d.fileVariables),
    ("variable_lines", .ofTable Tree.nat d.variableLines)]

/-- Reads a document. -/
def ofTree? (tree : Tree) : Option Document := do
  let fields ← tree.fields? shape
  return {
    requests := ← Fields.required fields "requests" (Tree.list? Request.ofTree?)
    fileVariables := ← Fields.required fields "variables" (Tree.table? Tree.text?)
    variableLines := ← Fields.defaulted fields "variable_lines" (Tree.table? Tree.nat?) .empty }

/-- A document as compact JSON. -/
def toJson (d : Document) : String :=
  String.ofList d.toTree.render

/-- Reads a document from JSON. -/
def ofJson? (s : String) : Option Document :=
  (read? s).bind ofTree?

end Document

end RequestFile
