import Mathlib
import RequestFile.Assembly
import RequestFile.Proofs.Assembly.Block
import RequestFile.Proofs.Written.Read

/-!
# Parsing a written file

Parsing undoes writing: the text of a written file makes the document that the file describes. The
scanner reads the tokens of the file, and the blocks of these tokens are the requests of the file.
-/

namespace RequestFile

/-! ## Tokens of contents and of openings -/

namespace Token

/-- The tokens that belong to a body. -/
def isBody : Token → Bool
  | bodyLine _ | bodyFile _ => true
  | _ => false

/-- The tokens that may stand between a request line and the end of the request. -/
def isContent : Token → Bool
  | header .. => true
  | token => token.isBody

/-- The tokens that may stand between two requests. -/
def isOpening : Token → Bool
  | separator _ | directive .. => true
  | _ => false

end Token

namespace WrittenRequest

theorem isBody_of_mem_bodyTokens {r : WrittenRequest} {token : Token}
    (mem : some token ∈ r.bodyTokens) : token.isBody = true := by
  rw [bodyTokens, List.mem_append] at mem
  rcases mem with content | spare
  · cases written : r.content with
    | nothing => simp [written, WrittenContent.tokens] at content
    | literal texts ok =>
      rw [written, WrittenContent.tokens, List.mem_cons] at content
      rcases content with none | text
      · cases none
      · obtain ⟨text, -, same⟩ := List.mem_map.1 text
        cases same
        rfl
    | file directive ok oneLine =>
      rw [written, WrittenContent.tokens, List.mem_cons, List.mem_singleton] at content
      rcases content with none | directive
      · cases none
      · cases directive
        rfl
  · cases trailing : r.trailing with
    | zero => simp [trailing, spareTokens] at spare
    | succ n =>
      rw [trailing, spareTokens, List.mem_cons] at spare
      rcases spare with first | later
      · split at first
        · cases first
          rfl
        · cases first
      · cases List.eq_of_mem_replicate later
        rfl

theorem isContent_of_mem_contentTokens {r : WrittenRequest} {token : Token}
    (mem : some token ∈ r.contentTokens) : token.isContent = true := by
  rw [contentTokens, List.mem_append] at mem
  rcases mem with header | body
  · obtain ⟨entry, -, same⟩ := List.mem_map.1 header
    cases same
    rfl
  · have inside := isBody_of_mem_bodyTokens body
    cases token <;> first | rfl | cases inside

theorem isOpening_of_mem_openingTokens {r : WrittenRequest} {token : Token}
    (mem : some token ∈ r.openingTokens) : token.isOpening = true := by
  rw [openingTokens, List.mem_append, List.mem_append, List.mem_cons] at mem
  rcases mem with (mark | empty) | name | expectation
  · split at mark
    · cases List.mem_singleton.1 mark
      rfl
    · cases mark
  · cases List.eq_of_mem_replicate empty
  · cases name
    rfl
  · obtain ⟨e, -, same⟩ := List.mem_map.1 expectation
    cases same
    rfl

theorem length_openingTokens (r : WrittenRequest) : r.openingTokens.length = r.opening.length := by
  rw [(Region.reads_opening r (.inr rfl)).length, List.length_map]

theorem length_tokens (r : WrittenRequest) : r.tokens.length = r.lines.length := by
  obtain ⟨next, reads⟩ := Region.exists_reads_request r (.inr rfl)
  rw [reads.length, List.length_map]

end WrittenRequest

namespace Located

theorem of_isContent {t : Located} (content : t.token.isContent = true) :
    t.endsRequest = false ∧ t.requestLine? = none ∧ t.directive? = none ∧ t.assignment? = none ∧
      t.assignmentLine? = none := by
  obtain ⟨token, line⟩ := t
  cases token <;> first | exact ⟨rfl, rfl, rfl, rfl, rfl⟩ | cases content

theorem of_isOpening {t : Located} (opening : t.token.isOpening = true) :
    t.requestLine? = none ∧ t.assignment? = none ∧ t.assignmentLine? = none := by
  obtain ⟨token, line⟩ := t
  cases token <;> first | exact ⟨rfl, rfl, rfl⟩ | cases opening

end Located

/-! ## The block of a request -/

namespace WrittenRequest

/-- The block that a request makes, whose first line has the given number. -/
def block (r : WrittenRequest) (first : Nat) (preface : List Located) : Block where
  preface := preface ++ numbered first r.openingTokens
  method := r.method
  url := r.url
  version := r.version.map WrittenVersion.text
  line := first + r.opening.length
  content := numbered (first + r.opening.length + 1) r.contentTokens

/-- The tokens of a request make its block, if what follows ends the request. -/
theorem blocksFrom_tokens (r : WrittenRequest) (first : Nat) (preface : List Located)
    {more : List Located} (ended : more.takeWhile (!·.endsRequest) = []) :
    blocksFrom preface (numbered first r.tokens ++ more) =
      r.block first preface :: blocksFrom (r.block first preface).content more := by
  have content : ∀ t ∈ numbered (first + r.opening.length + 1) r.contentTokens,
      t.token.isContent = true := by
    intro t mem
    exact isContent_of_mem_contentTokens (mem_of_mem_numbered mem)
  have before : ∀ t ∈ numbered first r.openingTokens, t.requestLine? = none := by
    intro t mem
    exact (Located.of_isOpening (isOpening_of_mem_openingTokens (mem_of_mem_numbered mem))).1
  rw [tokens, numbered_append, numbered_cons, length_openingTokens, List.append_assoc,
    blocksFrom_append before, Option.map_some, Option.toList_some, List.singleton_append,
    List.cons_append, blocksFrom]
  have taken : (numbered (first + r.opening.length + 1) r.contentTokens ++ more).takeWhile
      (!·.endsRequest) = numbered (first + r.opening.length + 1) r.contentTokens := by
    rw [List.takeWhile_append_of_pos, ended, List.append_nil]
    intro t mem
    simp [(Located.of_isContent (content t mem)).1]
  simp only [taken]
  rw [blocksFrom_append (fun t mem => (Located.of_isContent (content t mem)).2.1), List.nil_append]
  rfl

/-- The directives of a request. -/
theorem filterMap_directive?_opening (r : WrittenRequest) (first : Nat) :
    (numbered first r.openingTokens).filterMap Located.directive? =
      .name r.name :: r.expectations.map fun e => .expect e.expectation := by
  have name : Directive.of "name" r.name = .name r.name := by
    rw [Directive.of_name, trimmed_of_isNameText r.name_text]
  have expect : ∀ e : WrittenExpectation,
      Directive.of "expect" e.text = .expect e.expectation := by
    intro e
    exact Directive.of_expect (Expectation.ofText?_keyword e.keyword_kind e.value_plain.1)
  rw [filterMap_numbered (fun _ _ => rfl), openingTokens]
  cases marked : r.marked <;>
    simp [List.filterMap_append, List.filterMap_map, Located.directive?, name, expect]

theorem prefaceMetadata_block (r : WrittenRequest) (first : Nat) {preface : List Located}
    (silent : ∀ t ∈ preface, t.directive? = none) :
    prefaceMetadata {} (r.block first preface).preface =
      { name := some r.name, expectations := r.expectations.map (·.expectation) } := by
  have said : (r.block first preface).preface.filterMap Located.directive? =
      .name r.name :: r.expectations.map fun e => .expect e.expectation := by
    rw [block, List.filterMap_append, filterMap_directive?_opening,
      List.filterMap_eq_nil_iff.2 silent, List.nil_append]
  have names : (r.expectations.map fun e => Directive.expect e.expectation).filterMap
      Directive.requestName? = [] := by
    rw [List.filterMap_eq_nil_iff]
    intro d mem
    obtain ⟨e, -, rfl⟩ := List.mem_map.1 mem
    rfl
  have expectations : (r.expectations.map fun e => Directive.expect e.expectation).filterMap
      Directive.expectation? = r.expectations.map (·.expectation) := by
    rw [List.filterMap_map]
    exact congrFun List.filterMap_eq_map' r.expectations
  rw [prefaceMetadata, said]
  simp [List.filterMap_cons, Directive.requestName?, Directive.expectation?, names, expectations]

theorem givenName_block (r : WrittenRequest) (first : Nat) {preface : List Located}
    (silent : ∀ t ∈ preface, t.directive? = none) :
    (r.block first preface).givenName {} = r.name := by
  have written : (r.block first preface).writtenName? {} = some r.name := by
    rw [Block.writtenName?, prefaceMetadata_block r first silent]
    rfl
  rw [Block.givenName, written, Option.getD_some, trimmed_of_isNameText r.name_text]
  exact if_pos r.name_text

/-! ## The request of the block -/

theorem filterMap_spareTokens {α : Type} {f : Token → Option α}
    (silent : f (.bodyLine "") = none) (started : Bool) (n : Nat) :
    (spareTokens started n).filterMap (·.bind f) = [] := by
  rw [List.filterMap_eq_nil_iff]
  intro token mem
  cases n with
  | zero => cases mem
  | succ n =>
    rcases List.mem_cons.1 mem with rfl | later
    · cases started with
      | false => rfl
      | true => exact silent
    · rw [List.eq_of_mem_replicate later]
      exact silent

theorem isBlankText_of_mem_spareTokens (started : Bool) (n : Nat) :
    ∀ s ∈ (spareTokens started n).filterMap
      (·.bind fun token => Located.bodyText? { token, line := 0 }), isBlankText s = true := by
  intro s mem
  obtain ⟨token, inside, text⟩ := List.mem_filterMap.1 mem
  cases n with
  | zero => cases inside
  | succ n =>
    rcases List.mem_cons.1 inside with rfl | later
    · cases started with
      | false => cases text
      | true =>
        cases text
        rfl
    · rw [List.eq_of_mem_replicate later] at text
      cases text
      rfl

/-- What only headers say. -/
theorem filterMap_contentTokens_of_header {α : Type} {f : Located → Option α}
    (silent : ∀ t, t.token.isBody = true → f t = none) (r : WrittenRequest) (number : Nat) :
    (numbered number r.contentTokens).filterMap f =
      (numbered number (r.headers.entries.map fun entry =>
        some (.header entry.1 entry.2))).filterMap f := by
  rw [contentTokens, numbered_append, List.filterMap_append]
  convert List.append_nil _
  rw [List.filterMap_eq_nil_iff]
  intro t mem
  exact silent t (isBody_of_mem_bodyTokens (mem_of_mem_numbered mem))

/-- What only the body says. -/
theorem filterMap_contentTokens_of_body {α : Type} {f : Located → Option α}
    (same : ∀ token line, f { token, line } = f { token, line := 0 })
    (silent : ∀ name value, f ⟨.header name value, 0⟩ = none) (r : WrittenRequest) (number : Nat) :
    (numbered number r.contentTokens).filterMap f =
      r.content.tokens.filterMap (·.bind fun token => f { token, line := 0 }) ++
        (spareTokens r.content.started r.trailing).filterMap
          (·.bind fun token => f { token, line := 0 }) := by
  have headers : (r.headers.entries.map fun entry => some (Token.header entry.1 entry.2)).filterMap
      (·.bind fun token => f { token, line := 0 }) = [] := by
    rw [List.filterMap_map, List.filterMap_eq_nil_iff]
    intro entry _
    exact silent entry.1 entry.2
  rw [filterMap_numbered same, contentTokens, List.filterMap_append, headers, List.nil_append,
    bodyTokens, List.filterMap_append]

theorem filterMap_header?_content (r : WrittenRequest) (number : Nat) :
    (numbered number r.contentTokens).filterMap Located.header? = r.headers.entries := by
  have silent : ∀ t : Located, t.token.isBody = true → t.header? = none := by
    rintro ⟨token, line⟩ body
    cases token <;> first | rfl | cases body
  rw [filterMap_contentTokens_of_header silent, filterMap_numbered (fun _ _ => rfl),
    List.filterMap_map]
  exact List.filterMap_some

theorem filterMap_headerLine?_content (r : WrittenRequest) (number : Nat) :
    (numbered number r.contentTokens).filterMap Located.headerLine? =
      (r.headers.lines number).entries := by
  have silent : ∀ t : Located, t.token.isBody = true → t.headerLine? = none := by
    rintro ⟨token, line⟩ body
    cases token <;> first | rfl | cases body
  rw [filterMap_contentTokens_of_header silent]
  exact filterMap_numbered_names (fun _ _ => rfl) number r.headers.entries

theorem bodyOfLines_content (r : WrittenRequest) (number : Nat) :
    bodyOfLines ((numbered number r.contentTokens).filterMap Located.bodyText?) =
      r.content.body? := by
  have blank := isBlankText_of_mem_spareTokens r.content.started r.trailing
  rw [filterMap_contentTokens_of_body (fun _ _ => rfl) (fun _ _ => rfl)]
  cases written : r.content with
  | nothing =>
    rw [written] at blank
    exact bodyOfLines_of_blank blank
  | literal texts ok =>
    rw [written] at blank
    have kept : (WrittenContent.literal texts ok).tokens.filterMap
        (·.bind fun token => Located.bodyText? { token, line := 0 }) = texts := by
      simp [WrittenContent.tokens, Located.bodyText?, List.filterMap_map]
    rw [kept]
    exact bodyOfLines_append ok.nonempty ok.first ok.last blank
  | file directive ok oneLine =>
    rw [written] at blank
    exact bodyOfLines_of_blank blank

theorem bodyFile_content (r : WrittenRequest) (number : Nat) :
    ((numbered number r.contentTokens).filterMap Located.bodyFile?).getLast?.map
      (·.bodyFile true) = r.content.bodyFile? := by
  rw [filterMap_contentTokens_of_body (fun _ _ => rfl) (fun _ _ => rfl),
    filterMap_spareTokens (by rfl), List.append_nil]
  cases r.content with
  | nothing => rfl
  | literal texts ok =>
    have none : (WrittenContent.literal texts ok).tokens.filterMap
        (·.bind fun token => Located.bodyFile? { token, line := 0 }) = [] := by
      simp [WrittenContent.tokens, Located.bodyFile?]
    rw [none]
    rfl
  | file directive ok oneLine => cases directive <;> rfl

/-- The block of a request is read as the request. -/
theorem request_block (r : WrittenRequest) (first : Nat) {preface : List Located}
    (silent : ∀ t ∈ preface, t.directive? = none) :
    (r.block first preface).request {} r.name = r.request first := by
  have query : ((r.block first preface).content.filterMap Located.queryText?) = [] := by
    rw [List.filterMap_eq_nil_iff]
    intro t mem
    have content := isContent_of_mem_contentTokens (mem_of_mem_numbered mem)
    obtain ⟨token, line⟩ := t
    cases token <;> first | rfl | cases content
  have headers : (r.block first preface).content.filterMap Located.header? = r.headers.entries :=
    r.filterMap_header?_content _
  have headerLines : (r.block first preface).content.filterMap Located.headerLine? =
      (r.headers.lines (first + r.opening.length + 1)).entries :=
    r.filterMap_headerLine?_content _
  have body : bodyOfLines ((r.block first preface).content.filterMap Located.bodyText?) =
      r.content.body? :=
    r.bodyOfLines_content _
  have file : ((r.block first preface).content.filterMap Located.bodyFile?).getLast?.map
      (·.bodyFile true) = r.content.bodyFile? :=
    r.bodyFile_content _
  rw [Block.request, query, headers, headerLines, body, file, prefaceMetadata_block r first silent,
    Table.ofList_entries, Table.ofList_entries]
  rfl

end WrittenRequest

/-! ## All requests -/

theorem map_name_requestsFrom (requests : List WrittenRequest) (first : Nat) :
    (requestsFrom first requests).map (·.name) = requests.map (·.name) := by
  induction requests generalizing first with
  | nil => rfl
  | cons r rest ih =>
    rw [requestsFrom, List.map_cons, List.map_cons, ih]
    rfl

/-- The blocks of requests that stand one after the other are read as these requests. -/
theorem map_request_blocksFrom (requests : List WrittenRequest)
    (separated : ∀ r ∈ requests.tail, r.marked = true) (first : Nat) (preface : List Located)
    (silent : ∀ t ∈ preface, t.directive? = none) :
    (blocksFrom preface (numbered first (requests.flatMap (·.tokens)))).map
      (fun b => b.request {} (b.givenName {})) = requestsFrom first requests := by
  induction requests generalizing first preface with
  | nil => rfl
  | cons r rest ih =>
    have ended : (numbered (first + r.lines.length) (rest.flatMap (·.tokens))).takeWhile
        (!·.endsRequest) = [] := by
      cases rest with
      | nil => rfl
      | cons next rest =>
        have marked : next.marked = true := separated next List.mem_cons_self
        rw [List.flatMap_cons, WrittenRequest.tokens, WrittenRequest.openingTokens, if_pos marked]
        rfl
    have later : ∀ r ∈ rest.tail, r.marked = true := by
      intro next mem
      exact separated next (List.mem_of_mem_tail mem)
    have quiet : ∀ t ∈ (r.block first preface).content, t.directive? = none := by
      intro t mem
      have content := WrittenRequest.isContent_of_mem_contentTokens (mem_of_mem_numbered mem)
      exact (Located.of_isContent content).2.2.1
    rw [List.flatMap_cons, numbered_append, r.length_tokens,
      r.blocksFrom_tokens first preface ended, List.map_cons, r.givenName_block first silent,
      r.request_block first silent, ih later _ _ quiet, requestsFrom]

/-! ## Names -/

/-- No name is repeated if all names are distinct. -/
theorem firstRepeated?_eq_none {requests : List Request} {earlier : List (String × Nat)}
    (distinct : (requests.map (·.name)).Nodup)
    (fresh : ∀ r ∈ requests, earlier.lookup r.name = none) :
    firstRepeated? earlier requests = none := by
  induction requests generalizing earlier with
  | nil => rfl
  | cons r rest ih =>
    rw [List.map_cons, List.nodup_cons] at distinct
    rw [List.forall_mem_cons] at fresh
    rw [firstRepeated?]
    split
    · exact ih distinct.2 fresh.2
    · rw [fresh.1]
      apply ih distinct.2
      intro s mem
      have other : s.name ≠ r.name := by
        intro same
        apply distinct.1
        rw [← same]
        exact List.mem_map_of_mem mem
      rw [List.lookup_cons, beq_false_of_ne other]
      exact fresh.2 s mem

/-- Blocks whose names are given keep them. -/
theorem mapIdx_finalName (options : Options) {bs : List Block}
    (named : ∀ b ∈ bs, b.givenName options ≠ "") :
    (bs.mapIdx fun i b => b.request options (finalName options (bs.take (i + 1)) b)) =
      bs.map fun b => b.request options (b.givenName options) := by
  apply List.ext_getElem
  · rw [List.length_mapIdx, List.length_map]
  · intro i short _
    rw [List.length_mapIdx] at short
    have given := named bs[i] (List.getElem_mem short)
    rw [List.getElem_mapIdx, List.getElem_map, finalName,
      if_neg (fun defaulted => given defaulted.1)]

/-! ## The file -/

namespace WrittenFile

/-- What the lines of the variables give. -/
def assignmentTokens (f : WrittenFile) : List (Option Token) :=
  f.assignments.entries.map fun entry => some (.assignment entry.1 entry.2)

/-- The tokens of the variables stand before those of the requests. -/
theorem numbered_tokens (f : WrittenFile) :
    numbered 1 f.tokens = numbered 1 f.assignmentTokens ++
      numbered (1 + f.assignments.size + f.gap) (f.requests.flatMap (·.tokens)) := by
  have empty : ∀ number, numbered number (List.replicate f.gap none) = [] := by
    intro number
    rw [List.eq_nil_iff_forall_not_mem]
    intro t mem
    cases List.eq_of_mem_replicate (mem_of_mem_numbered mem)
  rw [tokens, numbered_append, numbered_append, empty, List.append_nil, List.length_append,
    List.length_map, List.length_replicate, ← Nat.add_assoc]
  rfl

theorem assignment?_of_mem_requests {f : WrittenFile} {number : Nat} {t : Located}
    (mem : t ∈ numbered number (f.requests.flatMap (·.tokens))) :
    t.assignment? = none ∧ t.assignmentLine? = none := by
  obtain ⟨r, -, inside⟩ := List.mem_flatMap.1 (mem_of_mem_numbered mem)
  rw [WrittenRequest.tokens, List.mem_append, List.mem_cons] at inside
  rcases inside with opening | requestLine | content
  · exact (Located.of_isOpening (WrittenRequest.isOpening_of_mem_openingTokens opening)).2
  · obtain ⟨token, line⟩ := t
    cases requestLine
    exact ⟨rfl, rfl⟩
  · exact (Located.of_isContent (WrittenRequest.isContent_of_mem_contentTokens content)).2.2.2

theorem filterMap_assignment?_numbered (entries : List (String × String)) (number : Nat) :
    (numbered number (entries.map fun entry => some (.assignment entry.1 entry.2))).filterMap
        Located.assignment? = entries := by
  rw [filterMap_numbered (fun _ _ => rfl), List.filterMap_map]
  exact List.filterMap_some

/-- The blocks of a file are its requests, in order. -/
theorem map_request_blocks (f : WrittenFile) :
    (blocks (numbered 1 f.tokens)).map (fun b => b.request {} (b.givenName {})) =
      f.document.requests := by
  have silent : ∀ t ∈ numbered 1 f.assignmentTokens,
      t.requestLine? = none ∧ t.directive? = none := by
    intro t mem
    obtain ⟨entry, -, same⟩ := List.mem_map.1 (mem_of_mem_numbered mem)
    obtain ⟨token, line⟩ := t
    cases same
    exact ⟨rfl, rfl⟩
  rw [blocks, f.numbered_tokens, blocksFrom_append (fun t mem => (silent t mem).1), List.nil_append]
  exact map_request_blocksFrom f.requests f.separated _ _ fun t mem => (silent t mem).2

theorem blockwiseDocument_tokens (f : WrittenFile) :
    blockwiseDocument {} (numbered 1 f.tokens) = f.document := by
  have named : ∀ b ∈ blocks (numbered 1 f.tokens), b.givenName {} ≠ "" := by
    intro b mem
    have inside : (b.request {} (b.givenName {})).name ∈ f.document.requests.map (·.name) := by
      rw [← f.map_request_blocks]
      exact List.mem_map_of_mem (List.mem_map_of_mem mem)
    rw [document, map_name_requestsFrom] at inside
    obtain ⟨r, -, name⟩ := List.mem_map.1 inside
    rw [Block.name_request] at name
    rw [← name]
    exact r.name_nonempty
  have assigned : (numbered 1 f.tokens).filterMap Located.assignment? =
      f.assignments.entries := by
    rw [f.numbered_tokens, List.filterMap_append, assignmentTokens, filterMap_assignment?_numbered,
      List.filterMap_eq_nil_iff.2 fun t mem => (assignment?_of_mem_requests mem).1, List.append_nil]
  have lines : (numbered 1 f.tokens).filterMap Located.assignmentLine? =
      (f.assignments.lines 1).entries := by
    rw [f.numbered_tokens, List.filterMap_append,
      List.filterMap_eq_nil_iff.2 fun t mem => (assignment?_of_mem_requests mem).2, List.append_nil]
    exact filterMap_numbered_names (fun _ _ => rfl) 1 f.assignments.entries
  rw [blockwiseDocument, mapIdx_finalName {} named, f.map_request_blocks, assigned, lines,
    Table.ofList_entries, Table.ofList_entries]
  rfl

theorem firstRepeated?_document (f : WrittenFile) :
    firstRepeated? [] f.document.requests = none := by
  apply firstRepeated?_eq_none
  · rw [document, map_name_requestsFrom]
    exact f.names_distinct
  · intro r _
    rfl

end WrittenFile

/-- A file with a variable and a request whose body holds what would be a comment and a separate
request elsewhere. -/
def greetingFile : WrittenFile where
  assignments := { entries := [("base", "http://x")] }
  gap := 1
  requests :=
    [{ marked := false, gap := 0, name := "greet"
       expectations := [⟨"status-code", ⟨.statusCode, "201"⟩, by decide, by decide +kernel⟩]
       method := "POST", url := "/greet"
       version := some ⟨"1", some "1", by decide +kernel, by decide +kernel⟩
       headers := { entries := [("Accept", "*/*")] }
       content := .literal ["[", "# 1", "", "GET /one", "]"]
         ⟨by decide +kernel, by simp, by decide +kernel, by decide +kernel⟩
       trailing := 1
       name_nonempty := by decide, name_text := by decide, method_word := by decide
       url_word := by decide +kernel, header_names := by decide +kernel
       header_values := by decide +kernel }]
  variable_names := by decide +kernel
  variable_values := by decide +kernel
  separated := by simp
  names_distinct := by simp

end RequestFile
