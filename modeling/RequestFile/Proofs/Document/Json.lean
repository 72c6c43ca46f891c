import Mathlib
import RequestFile.Document.Json
import RequestFile.Proofs.Json.Record

/-!
# Documents read back

A document is read back from the JSON that it is written as, with its tables in their order, if its
line numbers have no more than 64 bits. A record is kept because each of its parts is; the tables
that are left out where they are empty are empty where they are left out.
-/

namespace RequestFile

open Json

/-! ## Expectations and body files -/

/-- One of some values is kept by its name if no two of them have the same. -/
theorem isKept_choice {α : Type} {values : List α} {tag : α → String}
    (apart : (values.map tag).Nodup) {a : α} (mem : a ∈ values) :
    IsKept (fun a => .text (tag a)) (Tree.choice? values tag) a where
  data := .text (tag a)
  reads := by
    have named : (values.find? fun b => tag b == tag a).isSome = true :=
      List.find?_isSome.2 ⟨a, mem, beq_self_eq_true _⟩
    obtain ⟨b, found⟩ := Option.isSome_iff_exists.1 named
    have same : b = a := List.inj_on_of_nodup_map apart (List.mem_of_find?_eq_some found) mem
      (by simpa using List.find?_some found)
    exact found.trans (congrArg some same)

theorem ExpectationKind.isKept (kind : ExpectationKind) :
    IsKept (fun kind => .text kind.tag) (Tree.choice? all tag) kind :=
  isKept_choice (by decide) (by cases kind <;> decide)

theorem Encoding.isKept (e : Encoding) :
    IsKept (fun e => .text e.tag) (Tree.choice? all tag) e :=
  isKept_choice (by decide) (by cases e <;> decide)

theorem Expectation.isKept (e : Expectation) : IsKept toTree ofTree? e := by
  have kind := e.kind.isKept
  have value := isKept_text e.value
  refine isKept_record shape rfl (fun _ => rfl) ?known ?once ?whole ?data ?made
  case known => simp [shape]
  case once => simp
  case whole => simp [shape]
  case data => simp [kind.data, value.data]
  case made =>
    intro fields entries
    rw [kind.required "kind", value.required "value"]
    all_goals simp [entries]

theorem BodyFile.isKept (f : BodyFile) : IsKept toTree ofTree? f := by
  have path := isKept_text f.path
  have processed := isKept_bool f.processed
  have encoding := isKept_option f.encoding rfl fun e _ => e.isKept
  refine isKept_record shape rfl (fun _ => rfl) ?known ?once ?whole ?data ?made
  case known => simp [shape]
  case once => simp
  case whole => simp [shape]
  case data => simp [path.data, processed.data, encoding.data]
  case made =>
    intro fields entries
    rw [path.required "file_path", processed.required "process_variables",
      encoding.required "encoding"]
    all_goals simp [entries]

/-! ## Requests -/

theorem Metadata.isKept (m : Metadata) : IsKept toTree ofTree? m := by
  have name := isKept_text m.name
  have expectations := isKept_list m.expectations fun e _ => e.isKept
  have directives := isKept_table m.directives fun entry _ => isKept_text entry.2
  refine isKept_record shape rfl (fun _ => rfl) ?known ?once ?whole ?data ?made
  case known => split <;> simp [shape]
  case once => split <;> simp
  case whole => simp [shape]
  case data => split <;> simp [name.data, expectations.data, directives.data]
  case made =>
    intro fields entries
    rw [name.required "name", expectations.required "expectations",
      directives.leftOut "directives"]
    all_goals simp +contextual [entries, Table.keys]

/-- Whether the line numbers in a request have no more than 64 bits. -/
structure Request.LinesFit (r : Request) : Prop where
  line : r.line ≤ Decimal.maxNat64
  headerLines : ∀ entry ∈ r.headerLines.entries, entry.2 ≤ Decimal.maxNat64

instance (r : Request) : Decidable r.LinesFit :=
  decidable_of_iff
    (r.line ≤ Decimal.maxNat64 ∧ ∀ entry ∈ r.headerLines.entries, entry.2 ≤ Decimal.maxNat64)
    ⟨fun ⟨line, headerLines⟩ => ⟨line, headerLines⟩, fun fits => ⟨fits.line, fits.headerLines⟩⟩

theorem Request.isKept {r : Request} (fits : r.LinesFit) : IsKept toTree ofTree? r := by
  have name := isKept_text r.name
  have method := isKept_text r.method
  have url := isKept_text r.url
  have version := isKept_option r.version rfl fun s _ => isKept_text s
  have headers := isKept_table r.headers fun entry _ => isKept_text entry.2
  have headerLines :=
    isKept_table r.headerLines fun entry mem => isKept_nat (fits.headerLines entry mem)
  have body := isKept_option r.body rfl fun s _ => isKept_text s
  have bodyFile := isKept_option r.bodyFile rfl fun f _ => f.isKept
  have metadata := r.metadata.isKept
  have line := isKept_nat fits.line
  refine isKept_record shape rfl (fun _ => rfl) ?known ?once ?whole ?data ?made
  case known => split <;> simp [shape]
  case once => split <;> simp
  case whole => simp [shape]
  case data =>
    split <;> simp [name.data, method.data, url.data, version.data, headers.data, headerLines.data,
      body.data, bodyFile.data, metadata.data, line.data]
  case made =>
    intro fields entries
    rw [name.required "name", method.required "method", url.required "url",
      version.required "http_version", headers.required "headers",
      headerLines.leftOut "header_lines", body.required "body", bodyFile.required "file_body",
      metadata.required "metadata", line.required "source_line"]
    all_goals simp +contextual [entries, Table.keys]

/-! ## Documents -/

namespace Document

/-- Whether the line numbers in a document have no more than 64 bits. -/
structure LinesFit (d : Document) : Prop where
  requests : ∀ r ∈ d.requests, r.LinesFit
  variableLines : ∀ entry ∈ d.variableLines.entries, entry.2 ≤ Decimal.maxNat64

instance (d : Document) : Decidable d.LinesFit :=
  decidable_of_iff
    ((∀ r ∈ d.requests, r.LinesFit) ∧
      ∀ entry ∈ d.variableLines.entries, entry.2 ≤ Decimal.maxNat64)
    ⟨fun ⟨requests, lines⟩ => ⟨requests, lines⟩, fun fits => ⟨fits.requests, fits.variableLines⟩⟩

theorem isKept {d : Document} (fits : d.LinesFit) : IsKept toTree ofTree? d := by
  have requests := isKept_list d.requests fun r mem => r.isKept (fits.requests r mem)
  have values := isKept_table d.fileVariables fun entry _ => isKept_text entry.2
  have lines :=
    isKept_table d.variableLines fun entry mem => isKept_nat (fits.variableLines entry mem)
  refine isKept_record shape rfl (fun _ => rfl) ?known ?once ?whole ?data ?made
  case known => simp [shape]
  case once => simp
  case whole => simp [shape]
  case data => simp [requests.data, values.data, lines.data]
  case made =>
    intro fields entries
    rw [requests.required "requests", values.required "variables",
      lines.defaulted "variable_lines"]
    all_goals simp [entries]

/-- A document is read back from its JSON, with its tables in the same order. -/
theorem ofJson?_toJson {d : Document} (fits : d.LinesFit) : ofJson? d.toJson = some d := by
  have kept := isKept fits
  rw [ofJson?, toJson, read?, String.toList_ofList, kept.data.readChars?_render]
  exact kept.reads

/-- A document with texts that are escaped, a part that is absent and a table that is left out. -/
def escapedTexts : Document where
  requests := [
    { name := "quote"
      method := "POST"
      url := "/say?to=\"me\""
      headers := .ofList [("X-Path", "C:\\temp"), ("Accept", "*/*")]
      headerLines := .ofList [("X-Path", 5), ("Accept", 6)]
      body := some "one\r\n\ttwo\u0001"
      metadata := { name := "quote", expectations := [⟨.statusCode, "201"⟩] }
      line := 4 }]
  fileVariables := .ofList [("clef", "𝄞"), ("accent", "é")]
  variableLines := .ofList [("clef", 1), ("accent", Decimal.maxNat64)]

theorem ofJson?_toJson_escapedTexts :
    escapedTexts.LinesFit ∧ ofJson? escapedTexts.toJson = some escapedTexts :=
  have fits : escapedTexts.LinesFit := by decide
  ⟨fits, ofJson?_toJson fits⟩

end Document

end RequestFile
