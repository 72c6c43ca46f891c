import Mathlib
import RequestFile.Proofs.Assembly.Check

/-!
# What single options change

Outside strict mode two options decide about names: whether they are required, and whether they must
be distinct. Of the other options, three leave out expectations, leave out directives, or mark the
files of bodies, each in its own field, and the rest make no difference. What is read with all of
these fields kept tells what is read under any choice of them.
-/

namespace RequestFile

/-! ## Fields that depend on options -/

/-- The options with nothing left out and no file marked. -/
def Options.keepingAll (o : Options) : Options :=
  { o with parseExpectations := true, processVariables := true, ignoreUnknownMetadata := false }

/-- A file as it is noted under options. -/
def BodyFile.under (o : Options) (file : BodyFile) : BodyFile :=
  { file with processed := file.processed && o.processVariables }

/-- A request as it is read under options: expectations or directives may be left out. -/
def Request.under (o : Options) (r : Request) : Request :=
  { r with
    bodyFile := r.bodyFile.map (·.under o)
    metadata :=
      { r.metadata with
        expectations := if o.parseExpectations then r.metadata.expectations else []
        directives := if o.ignoreUnknownMetadata then .empty else r.metadata.directives } }

/-- A document as it is read under options. -/
def Document.under (o : Options) (d : Document) : Document :=
  { d with requests := d.requests.map (·.under o) }

/-- The last file directive in the content of a block. -/
def Block.bodyDirective? (b : Block) : Option FileDirective :=
  (b.content.filterMap Located.bodyFile?).getLast?

variable {o o' : Options}

theorem FileDirective.under_bodyFile (directive : FileDirective) :
    (directive.bodyFile true).under o = directive.bodyFile o.processVariables := by
  cases directive <;> rfl

theorem Block.under_request (b : Block) (name : String) :
    (b.request o.keepingAll name).under o' = b.request o' name := by
  -- The other fields are the same by definition.
  have file : (b.bodyDirective?.map (·.bodyFile true)).map (·.under o') =
      b.bodyDirective?.map (·.bodyFile o'.processVariables) := by
    rw [Option.map_map]
    congr 1
    funext directive
    exact directive.under_bodyFile
  rw [Request.under, request, request]
  congr 1

/-- Names depend only on whether they are required. -/
theorem finalName_congr (required : o.requireRequestNames = o'.requireRequestNames)
    (soFar : List Block) (b : Block) : finalName o soFar b = finalName o' soFar b := by
  rw [finalName, finalName, required]
  rfl

theorem under_blockwiseDocument (required : o.requireRequestNames = o'.requireRequestNames)
    (tokens : List Located) :
    (blockwiseDocument o.keepingAll tokens).under o' = blockwiseDocument o' tokens := by
  have required : o.keepingAll.requireRequestNames = o'.requireRequestNames := required
  have requests : (blockwiseDocument o.keepingAll tokens).requests.map (·.under o') =
      (blockwiseDocument o' tokens).requests := by
    apply List.ext_getElem
    · simp [blockwiseDocument]
    · intro i _ _
      simp [blockwiseDocument, Block.under_request, finalName_congr required]
  rw [Document.under, requests]
  rfl

/-- The body files of a document are what the last file directives of its blocks name. -/
theorem map_bodyFile_blockwiseDocument (tokens : List Located) :
    (blockwiseDocument o tokens).requests.map (·.bodyFile) =
      (blocks tokens).map fun b => b.bodyDirective?.map (·.bodyFile o.processVariables) := by
  apply List.ext_getElem
  · simp [blockwiseDocument]
  · intro i _ _
    rw [List.getElem_map, List.getElem_map]
    simp only [blockwiseDocument, List.getElem_mapIdx]
    rfl

/-! ## The check of names -/

/-- Repeated names are found by names and lines alone. -/
theorem firstRepeated?_map {f : Request → Request} (name : ∀ r, (f r).name = r.name)
    (line : ∀ r, (f r).line = r.line) (earlier : List (String × Nat)) (rs : List Request) :
    firstRepeated? earlier (rs.map f) =
      (firstRepeated? earlier rs).map fun found => (f found.1, found.2) := by
  induction rs generalizing earlier with
  | nil => rfl
  | cons r rest ih =>
    rw [List.map_cons, firstRepeated?, firstRepeated?, name, line]
    split
    · exact ih earlier
    · cases earlier.lookup r.name with
      | some first => rfl
      | none => exact ih _

theorem checkNames_under (checked : o.validateRequestNames = o'.validateRequestNames)
    (d : Document) : checkNames o' (d.under o') = (checkNames o d).map (·.under o') := by
  rw [checkNames, checkNames, checked]
  split
  · have found : firstRepeated? [] (d.under o').requests =
        (firstRepeated? [] d.requests).map fun found => (found.1.under o', found.2) :=
      firstRepeated?_map (f := Request.under o') (fun _ => rfl) (fun _ => rfl) [] d.requests
    rw [found]
    cases firstRepeated? [] d.requests with
    | none => rfl
    | some found => rfl
  · rfl

/-! ## Parsing -/

theorem parseTokens_eq_checkNames (sound : o.problem? = none) (lenient : o.strictMode = false)
    (tokens : List Located) :
    parseTokens o tokens = checkNames o (blockwiseDocument o tokens) := by
  rw [parseTokens_of_lenient sound lenient, draftDocument, toDocument_ofTokens o lenient]

theorem parseTokens_keepingAll (sound : o.problem? = none) (lenient : o.strictMode = false)
    (tokens : List Located) :
    parseTokens o.keepingAll tokens =
      checkNames o.keepingAll (blockwiseDocument o.keepingAll tokens) :=
  parseTokens_eq_checkNames (o := o.keepingAll) sound lenient tokens

/-- What is read with all fields kept tells what is read under other options that agree on names. -/
theorem parseTokens_eq_map_under (sound : o.problem? = none) (sound' : o'.problem? = none)
    (lenient : o.strictMode = false) (lenient' : o'.strictMode = false)
    (checked : o.validateRequestNames = o'.validateRequestNames)
    (required : o.requireRequestNames = o'.requireRequestNames) (tokens : List Located) :
    parseTokens o' tokens = (parseTokens o.keepingAll tokens).map (·.under o') := by
  have checked' : o.keepingAll.validateRequestNames = o'.validateRequestNames := checked
  rw [parseTokens_eq_checkNames sound' lenient', parseTokens_keepingAll sound lenient,
    ← checkNames_under checked', under_blockwiseDocument required]

/-- Outside strict mode, two sets of options that agree on the names to require and to check fail on
the same tokens with the same error. Otherwise the two documents come of one and the same document
with everything kept: expectations are left out where they are not parsed, directives where unknown
ones are ignored, and the files of bodies are marked by whether variables are processed. -/
theorem options_touch_own_fields (tokens : List Located) (o o' : Options)
    (sound : o.problem? = none) (sound' : o'.problem? = none)
    (lenient : o.strictMode = false) (lenient' : o'.strictMode = false)
    (checked : o.validateRequestNames = o'.validateRequestNames)
    (required : o.requireRequestNames = o'.requireRequestNames) :
    (∀ e, parseTokens o tokens = .error e ↔ parseTokens o' tokens = .error e) ∧
    ∀ d d', parseTokens o tokens = .ok d → parseTokens o' tokens = .ok d' →
      ∃ whole, parseTokens o.keepingAll tokens = .ok whole ∧
        d = whole.under o ∧ d' = whole.under o' ∧
        whole.requests.map (·.bodyFile) =
          (blocks tokens).map fun b => b.bodyDirective?.map (·.bodyFile true) := by
  rw [parseTokens_eq_map_under sound sound lenient lenient rfl rfl,
    parseTokens_eq_map_under sound sound' lenient lenient' checked required]
  cases parsed : parseTokens o.keepingAll tokens with
  | error e => simp [Except.map]
  | ok whole =>
    refine ⟨by simp [Except.map], ?_⟩
    rintro d d' made made'
    cases made
    cases made'
    refine ⟨whole, rfl, rfl, rfl, ?_⟩
    rw [parseTokens_keepingAll sound lenient] at parsed
    rw [← (checkNames_eq_ok_iff.1 parsed).1, map_bodyFile_blockwiseDocument]
    rfl

/-- Two requests with files for their bodies, the first with an expectation, with an expectation of
an unknown kind and with a directive of an unknown key. -/
def annotatedTokens (second : String) : List Located :=
  [⟨.directive "expect" "status 200", 1⟩, ⟨.directive "expect" "luck", 2⟩,
    ⟨.directive "note" "x", 3⟩, ⟨.directive "name" "a", 3⟩, ⟨.requestLine "POST" "/a" none, 4⟩,
    ⟨.bodyFile (.processed "a.json"), 6⟩, ⟨.directive "name" second, 7⟩,
    ⟨.requestLine "PUT" "/b" none, 8⟩, ⟨.bodyFile (.raw "b.bin"), 10⟩]

/-- Options that keep directives but no expectations. -/
def directiveOptions : Options :=
  { parseExpectations := false, ignoreUnknownMetadata := false, maxRequestNameLength := 1 }

/-- Options that keep expectations but no directives, and mark files. -/
def expectationOptions : Options :=
  { processVariables := false, allowEmptyBodies := false, normalizeLineEndings := false }

theorem options_touch_own_fields_annotatedTokens :
    (∃ whole, parseTokens directiveOptions.keepingAll (annotatedTokens "b") = .ok whole ∧
      parseTokens directiveOptions (annotatedTokens "b") = .ok (whole.under directiveOptions) ∧
      parseTokens expectationOptions (annotatedTokens "b") = .ok (whole.under expectationOptions) ∧
      whole.requests.map (·.bodyFile) =
        [some (.withVariables "a.json" .utf8), some (.raw "b.bin")]) ∧
    parseTokens expectationOptions (annotatedTokens "a") =
      .error (.duplicateRequestName "a" 8 4) := by
  have twoRuns := fun tokens =>
    options_touch_own_fields tokens directiveOptions expectationOptions rfl rfl rfl rfl rfl rfl
  constructor
  · have reads : ∀ o ∈ [directiveOptions, expectationOptions],
        (parseTokens o (annotatedTokens "b")).toOption.isSome = true := by
      decide +kernel
    rw [List.forall_mem_cons, List.forall_mem_singleton] at reads
    cases parsed : parseTokens directiveOptions (annotatedTokens "b") with
    | error e => simp [parsed, Except.toOption] at reads
    | ok d =>
      cases parsed' : parseTokens expectationOptions (annotatedTokens "b") with
      | error e => simp [parsed', Except.toOption] at reads
      | ok d' =>
        obtain ⟨whole, kept, same, same', files⟩ :=
          (twoRuns (annotatedTokens "b")).2 d d' parsed parsed'
        rw [same, same']
        exact ⟨whole, kept, rfl, rfl, files⟩
  · have fails : parseTokens directiveOptions (annotatedTokens "a") =
        .error (.duplicateRequestName "a" 8 4) := by
      decide +kernel
    exact ((twoRuns (annotatedTokens "a")).1 _).1 fails

end RequestFile
