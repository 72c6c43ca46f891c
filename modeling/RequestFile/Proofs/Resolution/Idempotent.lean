import Mathlib
import RequestFile.Proofs.Resolution.Flatten

/-!
# Resolving twice

A template is resolved to a text that is a template again: its chunks, values of the environment,
and placeholders for names that have no value. Resolution leaves all of these as they are, whatever
stands next to what, so that resolving the text once more changes nothing.
-/

namespace RequestFile

open Placeholder

variable {s : Scope} {clock : Clock}

/-! ## Pieces that are kept -/

/-- The pieces that resolution leaves as they are: chunks, and placeholders for names without a
value. -/
inductive Scope.Keeps (s : Scope) : Piece → Prop where
  | chunk {cs plain} : s.Keeps (.chunk cs plain)
  | braces {slot clean} : slot.name.head? ≠ some '$' →
      s.file.get? (String.ofList slot.name) = none →
      s.environment.get? (String.ofList slot.name) = none → s.Keeps (.braces slot clean)
  | dollar {slot named} :
      s.environment.get? (String.ofList slot.name) = none → s.Keeps (.dollar slot named)

namespace Scope.Keeps

theorem settled {p : Piece} (keeps : s.Keeps p) (free : List String) :
    Part.Settled (s.expandPiece clock free p) p.source := by
  cases keeps with
  | @chunk cs plain => exact settled_expandPiece_chunk free plain
  | @braces slot clean plain missing unset =>
    rw [expandPiece_braces, if_neg (by simpa using plain), missing]
    dsimp only
    rw [environmentPart, unset]
    exact Piece.settled_source _
  | @dollar slot named unset =>
    rw [expandPiece_dollar, environmentPart, unset]
    exact Piece.settled_source _

theorem settled_expand {t : Template} (keeps : ∀ p ∈ t, s.Keeps p) (free : List String) :
    Part.Settled (s.expand clock free t.text.toList) (t.flatMap Piece.source) := by
  induction t with
  | nil =>
    rw [expand_template]
    exact Part.settled_nil
  | cons p t ih =>
    rw [List.forall_mem_cons] at keeps
    rw [expand_template, List.flatMap_cons, ← expand_template, List.flatMap_cons]
    exact (keeps.1.settled free).append (ih keeps.2)

/-- A template of pieces that are kept is resolved to its own text. -/
theorem resolve_text {t : Template} (keeps : ∀ p ∈ t, s.Keeps p) (γ : Type) [RandomGen γ]
    (source : γ) :
    s.resolve clock t.text source = (t.text, source) := by
  have joined : Part.join source (s.parts clock t.text) = (t.text.toList, source) := by
    rw [parts]
    split
    · rw [(settled_expand keeps _).join_eq source, Template.text, String.toList_ofList]
    · exact (Part.settled_text _).join_eq source
  rw [resolve, joined]
  dsimp only
  rw [String.ofList_toList]

end Scope.Keeps

/-! ## What is left when a template is resolved -/

/-- Parts are joined to the text of a template whose pieces are kept. -/
def Scope.Settles (s : Scope) (parts : List Part) : Prop :=
  ∃ t : Template, (∀ p ∈ t, s.Keeps p) ∧ Part.Settled parts (t.flatMap Piece.source)

theorem Scope.Keeps.settles {p : Piece} (keeps : s.Keeps p) (free : List String) :
    s.Settles (s.expandPiece clock free p) := by
  refine ⟨[p], List.forall_mem_singleton.2 keeps, ?_⟩
  rw [List.flatMap_singleton]
  exact keeps.settled free

theorem Scope.Settles.append {parts others : List Part} (first : s.Settles parts)
    (second : s.Settles others) : s.Settles (parts ++ others) := by
  obtain ⟨t, keeps, settled⟩ := first
  obtain ⟨u, keeps', settled'⟩ := second
  refine ⟨t ++ u, List.forall_mem_append.2 ⟨keeps, keeps'⟩, ?_⟩
  rw [List.flatMap_append]
  exact settled.append settled'

/-- The values of the environment can stand between placeholders. -/
def Scope.HasPlainEnvironment (s : Scope) : Prop :=
  ∀ entry ∈ s.environment.entries, entry.2.toList.all isPlain = true

theorem Scope.HasPlainEnvironment.isUnmarked (plain : s.HasPlainEnvironment) : s.IsUnmarked := by
  intro entry mem c inside marked
  have chunk := (Piece.chunk _ (plain entry mem)).not_mem_source (c := c)
  exact chunk (List.mem_cons_of_mem _ marked) inside

/-- A value of the environment is a chunk of the text into which it is put. -/
theorem Scope.HasPlainEnvironment.settles (plain : s.HasPlainEnvironment) {name : List Char}
    {value : String} (found : s.environment.get? (String.ofList name) = some value)
    (source : List Char) : s.Settles [s.environmentPart name source] := by
  have chunk := plain _ (Table.mem_entries_of_get? found)
  refine ⟨[.chunk value.toList chunk], List.forall_mem_singleton.2 .chunk, ?_⟩
  rw [List.flatMap_singleton]
  exact plain.isUnmarked.settled_environmentPart found source

/-- No placeholder of a template calls a generator. -/
def Placeholder.Template.CallsNothing (t : Template) : Prop :=
  ∀ slot clean, Piece.braces slot clean ∈ t → slot.name.head? ≠ some '$'

theorem Placeholder.Template.CallsNothing.cons {p : Piece} {t : Template}
    (quiet : Template.CallsNothing (p :: t)) :
    Template.CallsNothing [p] ∧ Template.CallsNothing t :=
  forall_braces_cons quiet

/-- A piece becomes something that is kept, unless it is a placeholder for a file variable. -/
theorem Scope.settles_expandPiece (plain : s.HasPlainEnvironment) {p : Piece}
    (quiet : Template.CallsNothing [p]) (other : ¬ s.HasFileVariable p) (free : List String) :
    s.Settles (s.expandPiece clock free p) := by
  cases p with
  | chunk cs plain => exact Keeps.chunk.settles free
  | braces slot clean =>
    have noCall := quiet slot clean List.mem_cons_self
    have missing : s.file.get? (String.ofList slot.name) = none := by
      by_contra found
      obtain ⟨value, found⟩ := Option.ne_none_iff_exists'.1 found
      exact other ⟨slot, clean, value, rfl, noCall, found⟩
    cases set : s.environment.get? (String.ofList slot.name) with
    | none => exact (Keeps.braces noCall missing set).settles free
    | some value =>
      rw [expandPiece_braces, if_neg (by simpa using noCall), missing]
      exact plain.settles set _
  | dollar slot named =>
    cases set : s.environment.get? (String.ofList slot.name) with
    | none => exact (Keeps.dollar set).settles free
    | some value =>
      rw [expandPiece_dollar]
      exact plain.settles set _

/-- The values of file variables are templates that call no generators. -/
def Scope.HoldsQuietTemplates (s : Scope) : Prop :=
  ∀ entry ∈ s.file.entries, ∃ t : Template, entry.2 = t.text ∧ t.CallsNothing

theorem Scope.settles_expand (templates : s.HoldsQuietTemplates)
    (acyclic : circularReferences s.file = []) (plain : s.HasPlainEnvironment)
    {free : List String} {t : Template} (quiet : t.CallsNothing) (leads : s.LeadsTo free t) :
    s.Settles (s.expand clock free t.text.toList) := by
  refine template_induction Template.CallsNothing.cons templates acyclic ?_ ?_ ?_ quiet leads
  · intro free
    rw [expand_template]
    exact ⟨[], List.forall_mem_nil _, Part.settled_nil⟩
  · intro free p t quiet other rest
    rw [expand_template, List.flatMap_cons, ← expand_template]
    exact (settles_expandPiece plain quiet other free).append rest
  · intro free slot clean t value noCall found avail inner rest
    rw [expand_template, List.flatMap_cons, ← expand_template, expandPiece_braces,
      if_neg (by simpa using noCall), found]
    dsimp only
    rw [if_pos avail]
    exact inner.append rest

/-! ## Resolving the result -/

/-- A template is resolved to the text of a template whose pieces are kept. -/
theorem Scope.exists_kept (templates : s.HoldsQuietTemplates)
    (acyclic : circularReferences s.file = []) (plain : s.HasPlainEnvironment) {t : Template}
    (quiet : t.CallsNothing) (clock : Clock) : ∃ u : Template, (∀ p ∈ u, s.Keeps p) ∧
      ∀ (γ : Type) [RandomGen γ] (source : γ),
        s.resolve clock t.text source = (u.text, source) := by
  cases markup : hasMarkup t.text.toList with
  | false =>
    have keeps : ∀ p ∈ t, s.Keeps p := by
      intro p mem
      cases p with
      | chunk cs plain => exact .chunk
      | _ =>
        have placeholder := hasMarkup_template mem fun cs plain same => by cases same
        rw [markup] at placeholder
        cases placeholder
    exact ⟨t, keeps, Keeps.resolve_text keeps⟩
  | true =>
    have settles : s.Settles (s.expand clock s.file.keys t.text.toList) :=
      settles_expand templates acyclic plain quiet (leadsTo_keys t)
    obtain ⟨u, keeps, settled⟩ := settles
    refine ⟨u, keeps, fun γ _ source => ?_⟩
    rw [resolve, parts, if_pos markup, settled.join_eq source]
    rfl

/-- If no variable is circular, no generator is called and the values of the environment are plain
text, a template that has been resolved is not changed by resolving it again, at any time and with
any other source of random numbers. -/
theorem Scope.resolve_resolve {s : Scope} {t : Template} (templates : s.HoldsQuietTemplates)
    (acyclic : circularReferences s.file = []) (plain : s.HasPlainEnvironment)
    (quiet : t.CallsNothing) (clock later : Clock) {γ δ : Type} [RandomGen γ] [RandomGen δ]
    (source : γ) (source' : δ) :
    s.resolve later (s.resolve clock t.text source).1 source' =
      ((s.resolve clock t.text source).1, source') := by
  obtain ⟨u, keeps, resolved⟩ := exists_kept templates acyclic plain quiet clock
  rw [resolved γ source]
  exact Keeps.resolve_text keeps δ source'

/-- Two file variables, one within the other, and a variable of the environment. -/
def hostScope : Scope where
  file := nestedScope.file
  environment := .ofList [("HOST", "api")]

/-- A placeholder with a value next to two that have none. -/
def seamTemplate : Template :=
  requestTemplate.take 1 ++
    [.braces { before := [' ', ' '], name := "missing".toList, after := [], blank_before := rfl,
               blank_after := List.all_nil } (by decide),
      .dollar (tightSlot "NONE") (by decide)]

theorem resolve_resolve_seamTemplate :
    circularReferences hostScope.file = [] ∧
      ∀ (clock : Clock) (γ : Type) [RandomGen γ] (source : γ),
      (hostScope.resolve clock seamTemplate.text source).1 =
          "https://api.example/v1{{  missing}}${NONE}" ∧
        hostScope.resolve clock "https://api.example/v1{{  missing}}${NONE}" source =
          ("https://api.example/v1{{  missing}}${NONE}", source) := by
  have quietBase : baseTemplate.CallsNothing := by
    intro slot clean mem
    simp [baseTemplate] at mem
    rw [mem]
    decide
  have quietHost : hostTemplate.CallsNothing := by
    intro slot clean mem
    simp [hostTemplate] at mem
  have quiet : seamTemplate.CallsNothing := by
    intro slot clean mem
    simp [seamTemplate, requestTemplate] at mem
    rcases mem with rfl | rfl
    · decide
    · decide
  have templates : hostScope.HoldsQuietTemplates :=
    List.forall_mem_cons.2 ⟨⟨baseTemplate, rfl, quietBase⟩,
      List.forall_mem_singleton.2 ⟨hostTemplate, rfl, quietHost⟩⟩
  have plain : hostScope.HasPlainEnvironment := List.forall_mem_singleton.2 (by decide)
  have acyclic : circularReferences hostScope.file = [] := by cbv
  refine ⟨acyclic, fun clock γ _ source => ?_⟩
  have resolved : (hostScope.resolve clock seamTemplate.text source).1 =
      "https://api.example/v1{{  missing}}${NONE}" := by
    cbv
  have again := Scope.resolve_resolve templates acyclic plain quiet clock clock source source
  rw [resolved] at again
  exact ⟨resolved, again⟩

end RequestFile
