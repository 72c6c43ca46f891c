import Mathlib
import RequestFile.Assembly

/-!
# Assembly, block by block

`Assembly.take` reads tokens one after the other and keeps what is open, what waits for the next
request and which name stands behind the last separator. Here the same document is described from
the list of tokens as a whole. The list is cut into blocks, one for each request line: the preface
of a block holds all tokens since the request line before, and its content the tokens up to the next
request line or separator. What a request consists of is collected from these two lists.
-/

namespace RequestFile

/-! ## What single tokens contribute -/

namespace Located

/-- Whether a token ends the request that is open. -/
def endsRequest (t : Located) : Bool :=
  match t.token with
  | .requestLine .. | .separator _ => true
  | _ => false

def queryText? (t : Located) : Option String :=
  match t.token with
  | .queryPart text => some text
  | _ => none

def header? (t : Located) : Option (String × String) :=
  match t.token with
  | .header name value => some (name, value)
  | _ => none

def headerLine? (t : Located) : Option (String × Nat) :=
  match t.token with
  | .header name _ => some (name, t.line)
  | _ => none

def bodyText? (t : Located) : Option String :=
  match t.token with
  | .bodyLine text => some text
  | _ => none

def bodyFile? (t : Located) : Option FileDirective :=
  match t.token with
  | .bodyFile directive => some directive
  | _ => none

def assignment? (t : Located) : Option (String × String) :=
  match t.token with
  | .assignment name value => some (name, value)
  | _ => none

def assignmentLine? (t : Located) : Option (String × Nat) :=
  match t.token with
  | .assignment name _ => some (name, t.line)
  | _ => none

def directive? (t : Located) : Option Directive :=
  match t.token with
  | .directive key value => some (.of key value)
  | _ => none

/-- The method, the target and the version of a request line, with its line. -/
def requestLine? (t : Located) : Option (String × String × Option String × Nat) :=
  match t.token with
  | .requestLine method url version => some (method, url, version, t.line)
  | _ => none

theorem requestLine?_of_not_endsRequest (t : Located) (inside : t.endsRequest = false) :
    t.requestLine? = none := by
  obtain ⟨token, line⟩ := t
  cases token with
  | requestLine method url version => cases inside
  | _ => rfl

/-- The name that a separator gives, which may be none. -/
def separator? (t : Located) : Option (Option String) :=
  match t.token with
  | .separator name => some name
  | _ => none

end Located

namespace Directive

def requestName? : Directive → Option String
  | .name requested => some requested
  | _ => none

def expectation? : Directive → Option Expectation
  | .expect expectation => some expectation
  | _ => none

def other? : Directive → Option (String × String)
  | .other key value => some (key, value)
  | _ => none

end Directive

/-! ## Blocks -/

/-- A request line with the tokens that belong to it. -/
structure Block where
  /-- The tokens since the request line before, or since the start. -/
  preface : List Located
  method : String
  url : String
  version : Option String
  line : Nat
  /-- The tokens up to the next request line or separator. -/
  content : List Located

/-- The blocks of a list of tokens behind which more tokens without a request line stand. -/
def blocksFrom (preface : List Located) : List Located → List Block
  | [] => []
  | t :: rest =>
    match t.token with
    | .requestLine method url version =>
      { preface, method, url, version, line := t.line,
        content := rest.takeWhile (!·.endsRequest) } :: blocksFrom [] rest
    | _ => blocksFrom (preface ++ [t]) rest

/-- The blocks of a list of tokens, one for each request line. -/
def blocks (tokens : List Located) : List Block :=
  blocksFrom [] tokens

theorem blocksFrom_cons {t : Located} {preface : List Located} (rest : List Located)
    (other : t.requestLine? = none) :
    blocksFrom preface (t :: rest) = blocksFrom (preface ++ [t]) rest := by
  obtain ⟨token, line⟩ := t
  cases token with
  | requestLine method url version => cases other
  | _ => rfl

/-- Tokens without a request line go to the preface of the next block. -/
theorem blocksFrom_append {tokens : List Located} (clean : ∀ t ∈ tokens, t.requestLine? = none)
    (preface more : List Located) :
    blocksFrom preface (tokens ++ more) = blocksFrom (preface ++ tokens) more := by
  induction tokens generalizing preface with
  | nil => rw [List.nil_append, List.append_nil]
  | cons t rest ih =>
    rw [List.forall_mem_cons] at clean
    rw [List.cons_append, blocksFrom_cons _ clean.1, ih clean.2, List.append_assoc,
      List.singleton_append]

/-- There is one block for each request line, in the order of the tokens. -/
theorem map_requestLine_blocksFrom (tokens preface : List Located) :
    (blocksFrom preface tokens).map (fun b => (b.method, b.url, b.version, b.line)) =
      tokens.filterMap Located.requestLine? := by
  induction tokens generalizing preface with
  | nil => rfl
  | cons t rest ih =>
    obtain ⟨token, line⟩ := t
    cases token with
    | requestLine method url version =>
      rw [blocksFrom, List.map_cons, ih, List.filterMap_cons]
      rfl
    | _ => exact ih _

/-- Where a block stands: its preface follows the start or a request line and holds none, and its
content goes up to the next request line or separator. -/
def Block.StandsIn (b : Block) (tokens : List Located) : Prop :=
  ∃ before rest,
    tokens = before ++ b.preface ++ ⟨.requestLine b.method b.url b.version, b.line⟩ :: rest ∧
    (∀ t ∈ before.getLast?, t.requestLine?.isSome) ∧ (∀ t ∈ b.preface, t.requestLine? = none) ∧
    b.content = rest.takeWhile (!·.endsRequest)

/-- A block stands behind a request line as it stands in the tokens that follow the line. -/
theorem Block.StandsIn.append {b : Block} {t : Located} {rest : List Located}
    (stands : b.StandsIn rest) (request : t.requestLine?.isSome) (preface : List Located) :
    b.StandsIn (preface ++ t :: rest) := by
  obtain ⟨before, after, split, starts, within, content⟩ := stands
  refine ⟨preface ++ t :: before, after, ?_, ?_, within, content⟩
  · rw [split]
    simp
  · intro s last
    rw [List.getLast?_append, List.getLast?_cons] at last
    cases ended : before.getLast? with
    | none =>
      simp only [ended, Option.getD_none, Option.some_or, Option.mem_some_iff] at last
      rw [← last]
      exact request
    | some s' =>
      simp only [ended, Option.getD_some, Option.some_or, Option.mem_some_iff] at last
      exact starts s (last ▸ ended)

theorem standsIn_of_mem_blocksFrom {tokens preface : List Located} {b : Block}
    (mem : b ∈ blocksFrom preface tokens) (clean : ∀ t ∈ preface, t.requestLine? = none) :
    b.StandsIn (preface ++ tokens) := by
  induction tokens generalizing preface with
  | nil => cases mem
  | cons t rest ih =>
    cases request : t.requestLine? with
    | none =>
      have wider : ∀ s ∈ preface ++ [t], s.requestLine? = none := by
        intro s inside
        rcases List.mem_append.1 inside with inside | inside
        · exact clean s inside
        · rw [List.mem_singleton.1 inside]
          exact request
      rw [blocksFrom_cons rest request] at mem
      rw [List.append_cons]
      exact ih mem wider
    | some found =>
      have isRequest : t.requestLine?.isSome := by rw [request]; rfl
      obtain ⟨token, line⟩ := t
      cases token with
      | requestLine method url version =>
        rcases List.mem_cons.1 mem with rfl | later
        · exact ⟨[], rest, rfl, by simp, clean, rfl⟩
        · exact (ih later (List.forall_mem_nil _)).append isRequest preface
      | _ => cases request

/-- Every block is made of tokens that stand together. -/
theorem standsIn_of_mem_blocks {tokens : List Located} {b : Block} (mem : b ∈ blocks tokens) :
    b.StandsIn tokens :=
  standsIn_of_mem_blocksFrom mem (List.forall_mem_nil _)

/-- What the directives of a preface say about the next request: the last name, all expectations,
and all other directives. -/
def prefaceMetadata (options : Options) (preface : List Located) : Pending :=
  let said := preface.filterMap Located.directive?
  { name := (said.filterMap Directive.requestName?).getLast?
    expectations :=
      if options.parseExpectations then said.filterMap Directive.expectation? else []
    directives :=
      if options.ignoreUnknownMetadata then .empty
      else .ofList (said.filterMap Directive.other?) }

theorem prefaceMetadata_nil (options : Options) : prefaceMetadata options [] = {} := by
  simp [prefaceMetadata, Table.ofList]

/-- The name that the last separator of a preface gives. -/
def prefaceInlineName (preface : List Located) : Option String :=
  (preface.filterMap Located.separator?).getLast?.join

/-- The text of a body, without the blank lines at its ends. -/
def bodyOfLines (texts : List String) : Option String :=
  let kept := (texts.dropWhile isBlankText).rdropWhile isBlankText
  if kept = [] then none else some ("\n".intercalate kept)

theorem bodyOfLines_of_blank {texts : List String} (blank : ∀ s ∈ texts, isBlankText s = true) :
    bodyOfLines texts = none := by
  rw [bodyOfLines, List.dropWhile_eq_nil_iff.2 blank]
  rfl

/-- Lines whose ends are not blank are the body as they are, also if blank lines follow. -/
theorem bodyOfLines_append {texts blanks : List String} (nonempty : texts ≠ [])
    (first : ∀ s ∈ texts.head?, isBlankText s = false)
    (last : ∀ s ∈ texts.getLast?, isBlankText s = false)
    (blank : ∀ s ∈ blanks, isBlankText s = true) :
    bodyOfLines (texts ++ blanks) = some ("\n".intercalate texts) := by
  have start : (texts ++ blanks).dropWhile isBlankText = texts ++ blanks := by
    obtain ⟨s, rest, rfl⟩ := List.exists_cons_of_ne_nil nonempty
    rw [List.cons_append, List.dropWhile_cons_of_neg (by simp [first s rfl])]
  have finish : (texts ++ blanks).rdropWhile isBlankText = texts := by
    rw [List.rdropWhile, List.reverse_append, List.dropWhile_append_of_pos
      (fun s mem => blank s (List.mem_reverse.1 mem))]
    have kept : texts.rdropWhile isBlankText = texts := by
      rw [List.rdropWhile_eq_self_iff]
      intro filled
      simp [last _ (List.getLast?_eq_some_getLast filled)]
    exact kept
  rw [bodyOfLines, start, finish]
  exact if_neg nonempty

namespace Block

/-- The name that the file gives the request: that of the last name directive, or else that of the
last separator. -/
def writtenName? (options : Options) (b : Block) : Option String :=
  (prefaceMetadata options b.preface).name.or (prefaceInlineName b.preface)

/-- The name that the file gives the request, made into a request name; empty if there is none. -/
def givenName (options : Options) (b : Block) : String :=
  let written := trimmed ((b.writtenName? options).getD "")
  if isNameText written then written else slug written

/-- The request of a block under a name. -/
def request (options : Options) (b : Block) (name : String) : Request where
  name
  method := b.method
  url := (b.content.filterMap Located.queryText?).foldl (· ++ ·) b.url
  version := b.version
  headers := .ofList (b.content.filterMap Located.header?)
  headerLines := .ofList (b.content.filterMap Located.headerLine?)
  body := bodyOfLines (b.content.filterMap Located.bodyText?)
  bodyFile :=
    (b.content.filterMap Located.bodyFile?).getLast?.map (·.bodyFile options.processVariables)
  metadata :=
    { name
      expectations := (prefaceMetadata options b.preface).expectations
      directives := (prefaceMetadata options b.preface).directives }
  line := b.line

@[simp]
theorem name_request (options : Options) (b : Block) (name : String) :
    (b.request options name).name = name :=
  rfl

end Block

/-- The name of the last of some blocks: the one it is given, or else `request-` with the number of
blocks so far that are given none. -/
def finalName (options : Options) (soFar : List Block) (b : Block) : String :=
  if b.givenName options = "" ∧ options.requireRequestNames = true then
    "request-" ++ toString (soFar.countP fun b => b.givenName options = "")
  else b.givenName options

/-- The document that a list of tokens describes, block by block. -/
def blockwiseDocument (options : Options) (tokens : List Located) : Document where
  requests := (blocks tokens).mapIdx fun i b =>
    b.request options (finalName options ((blocks tokens).take (i + 1)) b)
  fileVariables := .ofList (tokens.filterMap Located.assignment?)
  variableLines := .ofList (tokens.filterMap Located.assignmentLine?)

/-! ## Filling a draft -/

namespace Draft

/-- A draft to which the tokens of a content are added. -/
def fill (options : Options) (d : Draft) (content : List Located) : Draft where
  request :=
    { d.request with
      url := (content.filterMap Located.queryText?).foldl (· ++ ·) d.request.url
      headers := d.request.headers.insertAll (content.filterMap Located.header?)
      headerLines := d.request.headerLines.insertAll (content.filterMap Located.headerLine?)
      bodyFile :=
        ((content.filterMap Located.bodyFile?).getLast?.map
          (·.bodyFile options.processVariables)).or d.request.bodyFile }
  bodyLines := d.bodyLines ++ content.filterMap Located.bodyText?
  writtenName := d.writtenName

theorem fill_nil (options : Options) (d : Draft) : d.fill options [] = d := by
  simp [fill, Table.insertAll]

theorem fill_append (options : Options) (d : Draft) (content more : List Located) :
    d.fill options (content ++ more) = (d.fill options content).fill options more := by
  have last : ∀ l l' : List FileDirective, ∀ file : Option BodyFile,
      ((l ++ l').getLast?.map (·.bodyFile options.processVariables)).or file =
        (l'.getLast?.map (·.bodyFile options.processVariables)).or
          ((l.getLast?.map (·.bodyFile options.processVariables)).or file) := by
    intro l l' file
    rw [List.getLast?_append]
    cases l'.getLast? <;> simp
  simp only [fill, Table.insertAll, List.filterMap_append, List.foldl_append, List.append_assoc,
    last]

end Draft

/-- The draft of a block, as it is when the request is closed. -/
def Block.draft (options : Options) (b : Block) : Draft :=
  let metadata := prefaceMetadata options b.preface
  let request : Request :=
    { method := b.method, url := b.url, version := b.version, line := b.line,
      metadata := { expectations := metadata.expectations, directives := metadata.directives } }
  Draft.fill options { request, writtenName := b.writtenName? options } b.content

theorem joinBody_eq (texts : List String) : joinBody texts = bodyOfLines texts := by
  rw [joinBody, bodyOfLines, List.rdropWhile]
  generalize ((texts.dropWhile isBlankText).reverse.dropWhile isBlankText).reverse = kept
  cases kept with
  | nil => rfl
  | cons text kept => rfl

theorem Block.rename_toRequest_draft (options : Options) (b : Block) (name : String) :
    (b.draft options).toRequest.rename name = b.request options name := by
  simp [draft, Draft.fill, Draft.toRequest, Request.rename, request, joinBody_eq, Table.insertAll,
    Table.ofList]

/-! ## Reading one token -/

namespace Assembly

/-- A directive changes nothing but what waits for the next request. -/
theorem exists_take_directive_eq (options : Options) (a : Assembly) (key value : String)
    (line : Nat) : ∃ pending, a.take options ⟨.directive key value, line⟩ = { a with pending } := by
  simp only [take, takeDirective]
  cases Directive.of key value with
  | name requested => exact ⟨_, rfl⟩
  | expect expectation =>
    dsimp only
    split
    · exact ⟨_, rfl⟩
    · exact ⟨a.pending, rfl⟩
  | other key value =>
    dsimp only
    split
    · exact ⟨a.pending, rfl⟩
    · exact ⟨_, rfl⟩

/-- A token that does not end the request is added to it. -/
theorem current_take (options : Options) (a : Assembly) {t : Located}
    (inside : t.endsRequest = false) :
    (a.take options t).current = a.current.map (·.fill options [t]) := by
  obtain ⟨token, line⟩ := t
  cases token with
  | requestLine method url version => cases inside
  | separator name => cases inside
  | directive key value =>
    have nothing : ∀ d : Draft, d.fill options [⟨.directive key value, line⟩] = d := by
      intro d
      simp [Draft.fill, Table.insertAll, List.filterMap_cons, Located.queryText?, Located.header?,
        Located.headerLine?, Located.bodyText?, Located.bodyFile?]
    obtain ⟨pending, same⟩ := exists_take_directive_eq options a key value line
    simp only [same, nothing, Option.map_id']
  | _ =>
    cases current : a.current <;>
      simp [take, updateRequest, Draft.fill, Table.insertAll, Request.addHeader, current,
        List.filterMap_cons, Located.queryText?, Located.header?, Located.headerLine?,
        Located.bodyText?, Located.bodyFile?]

theorem finished_take (options : Options) (a : Assembly) {t : Located}
    (inside : t.endsRequest = false) : (a.take options t).finished = a.finished := by
  obtain ⟨token, line⟩ := t
  cases token with
  | requestLine method url version => cases inside
  | separator name => cases inside
  | directive key value =>
    obtain ⟨pending, same⟩ := exists_take_directive_eq options a key value line
    rw [same]
  | _ => rfl

/-- What waits for the next request is what the preface says, and stays so with one more token. -/
theorem pending_take (options : Options) {a : Assembly} {preface : List Located}
    (said : a.pending = prefaceMetadata options preface) {t : Located}
    (other : t.requestLine? = none) :
    (a.take options t).pending = prefaceMetadata options (preface ++ [t]) := by
  obtain ⟨token, line⟩ := t
  cases token with
  | requestLine method url version => cases other
  | directive key value =>
    simp only [take, takeDirective, prefaceMetadata, List.filterMap_append, List.filterMap_cons,
      List.filterMap_nil, Located.directive?] at said ⊢
    cases Directive.of key value with
    | name requested =>
      simp [said, Directive.requestName?, Directive.expectation?, Directive.other?]
    | expect expectation =>
      cases read : options.parseExpectations <;>
        simp [said, read, Directive.requestName?, Directive.expectation?, Directive.other?]
    | other key value =>
      cases ignored : options.ignoreUnknownMetadata <;>
        simp [said, ignored, Directive.requestName?, Directive.expectation?, Directive.other?,
          Table.ofList]
  | _ =>
    have nothing : ∀ t : Located, t.directive? = none →
        prefaceMetadata options (preface ++ [t]) = prefaceMetadata options preface := by
      intro t none
      simp [prefaceMetadata, none]
    rw [nothing _ rfl]
    exact said

theorem inlineName_take (options : Options) {a : Assembly} {preface : List Located}
    (inline : a.inlineName = prefaceInlineName preface) {t : Located}
    (other : t.requestLine? = none) :
    (a.take options t).inlineName = prefaceInlineName (preface ++ [t]) := by
  have nothing : ∀ t : Located, t.separator? = none →
      prefaceInlineName (preface ++ [t]) = prefaceInlineName preface := by
    intro t none
    simp [prefaceInlineName, none]
  obtain ⟨token, line⟩ := t
  cases token with
  | requestLine method url version => cases other
  | separator name =>
    simp [take, prefaceInlineName, Located.separator?]
  | directive key value =>
    obtain ⟨pending, same⟩ := exists_take_directive_eq options a key value line
    rw [nothing _ rfl, same]
    exact inline
  | _ =>
    rw [nothing _ rfl]
    exact inline

/-- Reading tokens finishes what is open, with the content that follows, and then the blocks of the
tokens one after the other. -/
theorem finished_foldl_take (options : Options) (tokens : List Located) (a : Assembly)
    (preface : List Located) (said : a.pending = prefaceMetadata options preface)
    (inline : a.inlineName = prefaceInlineName preface) :
    (tokens.foldl (take options) a).close.finished =
      a.finished ++ (a.current.map (·.fill options (tokens.takeWhile (!·.endsRequest)))).toList ++
        (blocksFrom preface tokens).map (·.draft options) := by
  induction tokens generalizing a preface with
  | nil => simp [close, blocksFrom, Draft.fill_nil]
  | cons t rest ih =>
    rw [List.foldl_cons]
    by_cases inside : t.endsRequest = false
    · have other := t.requestLine?_of_not_endsRequest inside
      have kept : (t :: rest).takeWhile (!·.endsRequest) = t :: rest.takeWhile (!·.endsRequest) :=
        List.takeWhile_cons_of_pos (by simp [inside])
      rw [ih _ _ (pending_take options said other) (inlineName_take options inline other),
        finished_take options a inside, current_take options a inside, blocksFrom_cons rest other,
        kept]
      cases a.current with
      | none => rfl
      | some d => simp [← Draft.fill_append]
    rw [List.takeWhile_cons_of_neg (by simpa using inside)]
    obtain ⟨token, line⟩ := t
    cases token with
    | requestLine method url version =>
      rw [take, ih (a.openRequest method url version line) []
        (prefaceMetadata_nil options).symm rfl]
      simp [openRequest, close, blocksFrom, Block.draft, Draft.fill_nil, said, inline,
        Block.writtenName?]
    | separator name =>
      rw [ih _ _ (pending_take options said rfl) (inlineName_take options inline rfl),
        blocksFrom_cons rest rfl]
      simp [take, close, Draft.fill_nil]
    | _ => exact absurd rfl inside

/-- Reading tokens puts in all variables that they declare, each with its line. -/
theorem variables_foldl_take (options : Options) (tokens : List Located) (a : Assembly) :
    (tokens.foldl (take options) a).fileVariables =
        a.fileVariables.insertAll (tokens.filterMap Located.assignment?) ∧
      (tokens.foldl (take options) a).variableLines =
        a.variableLines.insertAll (tokens.filterMap Located.assignmentLine?) := by
  induction tokens generalizing a with
  | nil => exact ⟨rfl, rfl⟩
  | cons t rest ih =>
    rw [List.foldl_cons, (ih _).1, (ih _).2]
    obtain ⟨token, line⟩ := t
    cases token with
    | directive key value =>
      obtain ⟨pending, same⟩ := exists_take_directive_eq options a key value line
      rw [same]
      exact ⟨rfl, rfl⟩
    | _ => exact ⟨rfl, rfl⟩

end Assembly

/-! ## Names -/

theorem settleName_writtenName (options : Options) (b : Block)
    (lenient : options.strictMode = false) :
    settleName options (b.writtenName? options) = b.givenName options := by
  simp [settleName, Block.givenName, lenient]

/-- Naming the drafts of blocks, when blocks before them are named already. The count of those is
looked at only where names are required. -/
theorem nameRequests_drafts (options : Options) (lenient : options.strictMode = false)
    (bs earlier : List Block) (unnamed : Nat)
    (counted : options.requireRequestNames = true →
      unnamed = earlier.countP fun b => b.givenName options = "") :
    nameRequests options unnamed (bs.map (·.draft options)) =
      bs.mapIdx fun i b =>
        b.request options (finalName options (earlier ++ bs.take (i + 1)) b) := by
  induction bs generalizing earlier unnamed with
  | nil => rfl
  | cons b rest ih =>
    have given : settleName options (b.draft options).writtenName = b.givenName options :=
      settleName_writtenName options b lenient
    have regroup : ∀ i, earlier ++ (b :: rest).take (i + 1) = (earlier ++ [b]) ++ rest.take i := by
      intro i
      simp
    simp only [List.map_cons, nameRequests, List.mapIdx_cons, given, Block.rename_toRequest_draft,
      regroup, List.take_zero, List.append_nil]
    by_cases defaulted : b.givenName options = "" ∧ options.requireRequestNames = true
    · obtain ⟨empty, required⟩ := defaulted
      have count : unnamed + 1 = (earlier ++ [b]).countP fun b => b.givenName options = "" := by
        rw [List.countP_append, ← counted required]
        simp [empty]
      rw [if_pos (by simp [empty, required]), ih (earlier ++ [b]) (unnamed + 1) fun _ => count]
      simp [finalName, defaultName, empty, required, count]
    · have count : options.requireRequestNames = true →
          unnamed = (earlier ++ [b]).countP fun b => b.givenName options = "" := by
        intro required
        have named : b.givenName options ≠ "" := fun empty => defaulted ⟨empty, required⟩
        rw [List.countP_append, ← counted required]
        simp [named]
      rw [if_neg (by simpa using defaulted), ih (earlier ++ [b]) unnamed count, finalName,
        if_neg defaulted]

/-! ## The whole document -/

/-- When all tokens are read, there is one draft for each block. -/
theorem finished_ofTokens (options : Options) (tokens : List Located) :
    (Assembly.ofTokens options tokens).finished = (blocks tokens).map (·.draft options) := by
  have read := Assembly.finished_foldl_take options tokens {} []
    (prefaceMetadata_nil options).symm rfl
  simpa [Assembly.ofTokens, blocks] using read

/-- Outside strict mode, the tokens make the document that their blocks describe. -/
theorem toDocument_ofTokens (options : Options) (lenient : options.strictMode = false)
    (tokens : List Located) :
    (Assembly.ofTokens options tokens).toDocument options = blockwiseDocument options tokens := by
  have finished := finished_ofTokens options tokens
  have named := nameRequests_drafts options lenient (blocks tokens) [] 0 fun _ => rfl
  have assigned : (Assembly.ofTokens options tokens).fileVariables =
      .ofList (tokens.filterMap Located.assignment?) :=
    (Assembly.variables_foldl_take options tokens {}).1
  have declared : (Assembly.ofTokens options tokens).variableLines =
      .ofList (tokens.filterMap Located.assignmentLine?) :=
    (Assembly.variables_foldl_take options tokens {}).2
  rw [Assembly.toDocument, blockwiseDocument, finished, named, assigned, declared]
  rfl

/-- Any tokens in any order make a document, and it is the one that their blocks describe. -/
theorem parseTokens_eq_blockwiseDocument (options : Options) (tokens : List Located)
    (lenient : options.strictMode = false) (unchecked : options.validateRequestNames = false)
    (bound : 0 < options.maxRequestNameLength) :
    parseTokens options tokens = .ok (blockwiseDocument options tokens) := by
  have sound : options.problem? = none := by
    simp [Options.problem?, Nat.ne_of_gt bound]
  simp [parseTokens, sound, assemble, toDocument_ofTokens options lenient, checkNames,
    checkStrictly, lenient, unchecked, bind, Except.bind]

/-- Tokens in an order that no file gives them: a directive stands within a request, and a header
and a line of a body stand between two requests. A header and a variable come twice, with others
between them. -/
def unrulyTokens : List Located :=
  [⟨.header "Lost" "1", 1⟩, ⟨.directive "name" "first", 2⟩, ⟨.assignment "host" "x", 3⟩,
    ⟨.separator (some "second"), 2⟩, ⟨.requestLine "GET" "/a" none, 9⟩, ⟨.queryPart "?b", 4⟩,
    ⟨.header "Kept" "1", 4⟩, ⟨.assignment "port" "80", 8⟩, ⟨.header "Other" "o", 5⟩,
    ⟨.directive "expect" "status 200", 5⟩, ⟨.header "Kept" "2", 6⟩, ⟨.bodyLine " ", 7⟩,
    ⟨.bodyLine "text", 7⟩, ⟨.separator none, 8⟩, ⟨.bodyLine "lost", 3⟩,
    ⟨.assignment "host" "y", 2⟩, ⟨.requestLine "" "/c" none, 1⟩]

theorem blockwiseDocument_unrulyTokens :
    parseTokens { validateRequestNames := false } unrulyTokens =
        .ok (blockwiseDocument { validateRequestNames := false } unrulyTokens) ∧
      blockwiseDocument { validateRequestNames := false } unrulyTokens =
        { requests :=
            [{ name := "first", method := "GET", url := "/a?b"
               headers := { entries := [("Kept", "2"), ("Other", "o")] }
               headerLines := { entries := [("Kept", 6), ("Other", 5)] }
               body := some "text", metadata := { name := "first" }, line := 9 },
             { name := "request-1", method := "", url := "/c"
               metadata := { name := "request-1", expectations := [⟨.statusCode, "200"⟩] }
               line := 1 }]
          fileVariables := { entries := [("host", "y"), ("port", "80")] }
          variableLines := { entries := [("host", 2), ("port", 8)] } } :=
  ⟨parseTokens_eq_blockwiseDocument _ _ rfl rfl (by decide), by decide +kernel⟩

end RequestFile
