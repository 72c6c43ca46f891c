import Mathlib
import RequestFile.Proofs.Generator
import RequestFile.Proofs.Placeholder.Template
import RequestFile.Proofs.Reference.Circular
import RequestFile.Proofs.Resolution.Expand

/-!
# Resolution flattens templates

Resolution is described without a list of the variables that are being resolved: a placeholder for a
file variable is replaced by what the value of the variable flattens to, and any other placeholder
by its value or by itself. If no variable is circular, every template flattens to exactly one text,
and that is what resolution returns.
-/

namespace RequestFile

open Placeholder

/-! ## Flattening -/

/-- What a piece of a template stands for, if it is no placeholder for a file variable. -/
inductive Scope.Yields (s : Scope) (clock : Clock) : Piece → List Char → Prop where
  | chunk {cs plain} : s.Yields clock (.chunk cs plain) cs
  | generated {slot clean value} : slot.name.head? = some '$' →
      Generator.evaluate clock slot.name = .ok (.known value) →
      s.Yields clock (.braces slot clean) value.toList
  | failed {slot clean e} : slot.name.head? = some '$' →
      Generator.evaluate clock slot.name = .error e →
      s.Yields clock (.braces slot clean) (Piece.braces slot clean).source
  | environment {slot clean value} : slot.name.head? ≠ some '$' →
      s.file.get? (String.ofList slot.name) = none →
      s.environment.get? (String.ofList slot.name) = some value →
      s.Yields clock (.braces slot clean) value.toList
  | unknown {slot clean} : slot.name.head? ≠ some '$' →
      s.file.get? (String.ofList slot.name) = none →
      s.environment.get? (String.ofList slot.name) = none →
      s.Yields clock (.braces slot clean) (Piece.braces slot clean).source
  | dollar {slot named value} :
      s.environment.get? (String.ofList slot.name) = some value →
      s.Yields clock (.dollar slot named) value.toList
  | unset {slot named} :
      s.environment.get? (String.ofList slot.name) = none →
      s.Yields clock (.dollar slot named) (Piece.dollar slot named).source

/-- What a template flattens to: its pieces are replaced from left to right, and the value of a file
variable is a template that is flattened in turn. Values of the environment are not looked into. -/
inductive Scope.Flattens (s : Scope) (clock : Clock) : Template → List Char → Prop where
  | nil : s.Flattens clock [] []
  | piece {p t cs out} : s.Yields clock p cs → s.Flattens clock t out →
      s.Flattens clock (p :: t) (cs ++ out)
  | fileVariable {slot clean value t inner out} : slot.name.head? ≠ some '$' →
      s.file.get? (String.ofList slot.name) = some (Template.text value) →
      s.Flattens clock value inner → s.Flattens clock t out →
      s.Flattens clock (.braces slot clean :: t) (inner ++ out)

/-! ## Parts that draw nothing -/

/-- Parts that are joined to a text without drawing a value, whatever the source of random numbers.
-/
def Part.Settled (parts : List Part) (cs : List Char) : Prop :=
  ∀ (γ : Type) [RandomGen γ] (source : γ) (rest : List Part), join source (parts ++ rest) =
    (cs ++ (join source rest).1, (join source rest).2)

namespace Part

theorem settled_nil : Settled [] [] :=
  fun _ _ _ _ => rfl

theorem Settled.append {parts others : List Part} {cs ds : List Char} (first : Settled parts cs)
    (second : Settled others ds) : Settled (parts ++ others) (cs ++ ds) := by
  intro γ _ source rest
  rw [List.append_assoc, first, second, List.append_assoc]

theorem settled_text (cs : List Char) : Settled [.text cs] cs :=
  fun _ _ _ _ => rfl

/-- The characters between placeholders are shown without what hides in them. -/
theorem settled_unmask (cs : List Char) :
    Settled (cs.flatMap fun c => [.text (unmaskChar c)]) (unmask cs) := by
  induction cs with
  | nil => exact settled_nil
  | cons c cs ih => exact (settled_text (unmaskChar c)).append ih

theorem settled_unresolved {cs : List Char} (unmarked : ∀ c ∈ cs, c ∉ marks) :
    Settled [.unresolved cs] cs := by
  intro γ _ source rest
  rw [List.singleton_append, join, unmask_of_not_mem unmarked]

theorem settled_generated {value : String} (unmarked : ∀ c ∈ value.toList, c ∉ marks) :
    Settled [.generated (.known value)] value.toList := by
  intro γ _ source rest
  simp only [List.singleton_append, join, Generator.Recipe.draw, unmask_of_not_mem unmarked]

theorem Settled.join_eq {parts : List Part} {cs : List Char} (settled : Settled parts cs)
    {γ : Type} [RandomGen γ] (source : γ) : join source parts = (cs, source) := by
  have joined := settled γ source []
  rwa [List.append_nil, join, List.append_nil] at joined

end Part

/-! ## Expansion, piece by piece -/

variable {s : Scope} {clock : Clock}

/-- What a piece of a template is expanded to. -/
def Scope.expandPiece (s : Scope) (clock : Clock) (free : List String) (p : Piece) : List Part :=
  p.segments.flatMap (s.expandSegment clock free)

theorem Scope.expand_template (free : List String) (t : Template) :
    s.expand clock free t.text.toList = t.flatMap (s.expandPiece clock free) := by
  have cut : segments (mask t.text.toList) = t.flatMap Piece.segments := parse_template t
  rw [Scope.expand_eq, cut, List.flatMap_assoc]
  rfl

theorem Piece.settled_source (p : Piece) : Part.Settled [.unresolved p.source] p.source := by
  refine Part.settled_unresolved fun c mem marked => ?_
  exact p.not_mem_source (List.mem_cons_of_mem _ marked) mem

/-- Values of the environment hold no marks. -/
def Scope.IsUnmarked (s : Scope) : Prop :=
  ∀ entry ∈ s.environment.entries, ∀ c ∈ entry.2.toList, c ∉ marks

theorem Scope.IsUnmarked.settled_environmentPart (unmarked : s.IsUnmarked) {name : List Char}
    {value : String} (found : s.environment.get? (String.ofList name) = some value)
    (source : List Char) : Part.Settled [s.environmentPart name source] value.toList := by
  rw [Scope.environmentPart, found]
  dsimp only
  rw [unmask_of_not_mem (unmarked _ (Table.mem_entries_of_get? found))]
  exact Part.settled_text value.toList

theorem Scope.settled_expandPiece_chunk (free : List String) {cs : List Char}
    (plain : cs.all isPlain = true) :
    Part.Settled (s.expandPiece clock free (.chunk cs plain)) cs := by
  have unmarked : ∀ c ∈ cs, c ∉ marks := fun c mem marked =>
    (Piece.chunk cs plain).not_mem_source (List.mem_cons_of_mem _ marked) mem
  have parts : s.expandPiece clock free (.chunk cs plain) =
      cs.flatMap fun c => [.text (unmaskChar c)] := by
    rw [expandPiece, Piece.segments, List.flatMap_map]
    rfl
  have settled := Part.settled_unmask cs
  rwa [unmask_of_not_mem unmarked, ← parts] at settled

theorem Scope.expandPiece_braces (free : List String) {slot : Slot}
    (clean : isCleanName slot.name = true) :
    s.expandPiece clock free (.braces slot clean) =
      if slot.name.head? == some '$' then
        [generatorPart clock slot.name (Piece.braces slot clean).source]
      else
        match s.file.get? (String.ofList slot.name) with
        | none => [s.environmentPart slot.name (Piece.braces slot clean).source]
        | some value =>
          if String.ofList slot.name ∈ free then
            s.expand clock (free.erase (String.ofList slot.name)) value.toList
          else [.unresolved (Piece.braces slot clean).source] := by
  rw [expandPiece, Piece.segments, List.flatMap_singleton, expandSegment, Slot.trim_content clean]
  rfl

theorem Scope.expandPiece_dollar (free : List String) {slot : Slot}
    (named : isEnvironmentName slot.name = true) :
    s.expandPiece clock free (.dollar slot named) =
      [s.environmentPart slot.name (Piece.dollar slot named).source] := by
  have clean := isCleanName_of_isEnvironmentName named
  rw [expandPiece, Piece.segments, List.flatMap_singleton, expandSegment, Slot.trim_content clean]
  rfl

/-- Generators make no marks: they write ASCII and characters of the name. -/
theorem not_mem_marks_of_evaluate (near : clock.localMinutes.natAbs < 24 * 60) {name : List Char}
    (clean : isCleanName name = true) {value : String}
    (made : Generator.evaluate clock name = .ok (.known value)) :
    ∀ c ∈ value.toList, c ∉ marks := by
  obtain ⟨_, same, chars⟩ :=
    Generator.exists_of_evaluate_eq_ok near (Generator.callsRandom_eq_false made) made
  cases same
  intro c mem marked
  rcases chars c mem with ascii | mem
  · have high : marks.all (128 ≤ ·.toNat) = true := by decide
    exact absurd (of_decide_eq_true (List.all_eq_true.1 high c marked)) (by omega)
  · exact isClean_iff.1 ((isCleanName_iff.1 clean).2.2 c mem) (List.mem_append_right _ marked)

/-- A piece that is no placeholder for a file variable is expanded to what it stands for. -/
theorem Scope.Yields.settled (near : clock.localMinutes.natAbs < 24 * 60) (unmarked : s.IsUnmarked)
    {p : Piece} {cs : List Char} (yields : s.Yields clock p cs) (free : List String) :
    Part.Settled (s.expandPiece clock free p) cs := by
  cases yields with
  | @chunk _ plain => exact settled_expandPiece_chunk free plain
  | @generated slot clean value call made =>
    rw [expandPiece_braces, if_pos (beq_iff_eq.2 call), generatorPart, made]
    exact Part.settled_generated (not_mem_marks_of_evaluate near clean made)
  | @failed slot clean e call fails =>
    rw [expandPiece_braces, if_pos (beq_iff_eq.2 call), generatorPart, fails]
    exact Piece.settled_source _
  | @environment slot clean value plain missing found =>
    rw [expandPiece_braces, if_neg (by simpa using plain), missing]
    exact unmarked.settled_environmentPart found _
  | @unknown slot clean plain missing unset =>
    rw [expandPiece_braces, if_neg (by simpa using plain), missing]
    dsimp only
    rw [environmentPart, unset]
    exact Piece.settled_source _
  | @dollar slot named value found =>
    rw [expandPiece_dollar]
    exact unmarked.settled_environmentPart found _
  | @unset slot named missing =>
    rw [expandPiece_dollar, environmentPart, missing]
    exact Piece.settled_source _

/-! ## Variables that are being resolved -/

/-- A template holds a placeholder in double braces for a variable. -/
def Placeholder.Template.RefersTo (t : Template) (name : String) : Prop :=
  ∃ slot clean, Piece.braces slot clean ∈ t ∧ slot.name = name.toList ∧
    slot.name.head? ≠ some '$'

theorem refersTo_of_template {file : Table String} {a b : String} {t : Template}
    (value : file.get? a = some t.text) (refers : t.RefersTo b) : file.RefersTo a b := by
  obtain ⟨slot, clean, mem, name, plain⟩ := refers
  refine ⟨_, slot.content, value, ?_, ?_, name ▸ plain⟩
  · rw [parse_template, List.mem_flatMap]
    exact ⟨_, mem, List.mem_singleton_self _⟩
  · rw [Slot.trim_content clean, name]

/-- All file variables that are not free lead to the file variables to which a template refers: the
template has come up in resolving them. -/
def Scope.LeadsTo (s : Scope) (free : List String) (t : Template) : Prop :=
  ∀ a ∈ s.file.keys, a ∉ free → ∀ b ∈ s.file.keys, t.RefersTo b →
    Relation.TransGen (Table.Link s.file.referencesOf s.file.keys) a b

theorem Scope.leadsTo_keys (t : Template) : s.LeadsTo s.file.keys t :=
  fun _ mem used => absurd mem used

namespace Scope.LeadsTo

variable {free : List String} {t : Template}

theorem tail {p : Piece} (leads : s.LeadsTo free (p :: t)) : s.LeadsTo free t := by
  intro a mem used b memb refers
  obtain ⟨slot, clean, inside, rest⟩ := refers
  exact leads a mem used b memb ⟨slot, clean, List.mem_cons_of_mem p inside, rest⟩

/-- Without circles, the variables to which a template refers are free. -/
theorem mem_free (leads : s.LeadsTo free t) (acyclic : circularReferences s.file = [])
    {b : String} (mem : b ∈ s.file.keys) (refers : t.RefersTo b) : b ∈ free := by
  by_contra used
  have circular := Table.mem_circularReferences.2 (leads b mem used b mem refers)
  rw [acyclic] at circular
  cases circular

/-- The value of a variable comes up in resolving the variable. -/
theorem erase (leads : s.LeadsTo free t) {b : String} (refers : t.RefersTo b) {value : Template}
    (found : s.file.get? b = some value.text) : s.LeadsTo (free.erase b) value := by
  have memb : b ∈ s.file.keys := Table.mem_keys_of_get? found
  intro a mema used c memc refers'
  have link : Table.Link s.file.referencesOf s.file.keys b c :=
    ⟨Table.mem_referencesOf.2 (refersTo_of_template found refers'), memc⟩
  by_cases same : a = b
  · exact same ▸ .single link
  · have used : a ∉ free := fun mem => used ((List.mem_erase_of_ne same).2 mem)
    exact .tail (leads a mema used b memb refers) link

end Scope.LeadsTo

theorem refersTo_cons {slot : Slot} {clean : isCleanName slot.name = true} {t : Template}
    (plain : slot.name.head? ≠ some '$') :
    Template.RefersTo (.braces slot clean :: t) (String.ofList slot.name) :=
  ⟨slot, clean, List.mem_cons_self, String.toList_ofList.symm, plain⟩

/-- A piece is a placeholder for a file variable. -/
def Scope.HasFileVariable (s : Scope) (p : Piece) : Prop :=
  ∃ slot clean value, p = .braces slot clean ∧ slot.name.head? ≠ some '$' ∧
    s.file.get? (String.ofList slot.name) = some value

/-- What holds of the names in a template holds of those in its first piece and in the rest. -/
theorem forall_braces_cons {p : Piece} {t : Template} {P : Slot → Prop}
    (all : ∀ slot clean, Piece.braces slot clean ∈ p :: t → P slot) :
    (∀ slot clean, Piece.braces slot clean ∈ [p] → P slot) ∧
      ∀ slot clean, Piece.braces slot clean ∈ t → P slot :=
  ⟨fun slot clean mem => all slot clean (List.mem_singleton.1 mem ▸ List.mem_cons_self),
    fun slot clean mem => all slot clean (List.mem_cons_of_mem p mem)⟩

/-- Induction over a template and over the values of the file variables in it, where every value is
a template of the same kind. Without circles it ends: the variables in a value are free, and there
are fewer of these each time. -/
@[elab_as_elim]
theorem Scope.template_induction {kind : Template → Prop}
    (split : ∀ {p t}, kind (p :: t) → kind [p] ∧ kind t)
    (values : ∀ entry ∈ s.file.entries, ∃ t : Template, entry.2 = t.text ∧ kind t)
    (acyclic : circularReferences s.file = []) {motive : List String → Template → Prop}
    (nil : ∀ free, motive free [])
    (piece : ∀ free p t, kind [p] → ¬ s.HasFileVariable p → motive free t → motive free (p :: t))
    (fileVariable : ∀ free slot clean t (value : Template), slot.name.head? ≠ some '$' →
      s.file.get? (String.ofList slot.name) = some value.text → String.ofList slot.name ∈ free →
      motive (free.erase (String.ofList slot.name)) value → motive free t →
      motive free (.braces slot clean :: t))
    {free : List String} {t : Template} (fits : kind t) (leads : s.LeadsTo free t) :
    motive free t := by
  -- A value leaves one variable less free, and the rest of a template leaves the same ones.
  induction free using free_induction generalizing t with
  | step free ihFree =>
    induction t with
    | nil => exact nil free
    | cons p t ih =>
      have rest := ih (split fits).2 leads.tail
      by_cases named : s.HasFileVariable p
      · obtain ⟨slot, clean, _, rfl, plain, found⟩ := named
        obtain ⟨value, same, fitsValue⟩ := values _ (Table.mem_entries_of_get? found)
        dsimp only at same
        rw [same] at found
        have refers : Template.RefersTo (.braces slot clean :: t) (String.ofList slot.name) :=
          refersTo_cons plain
        have avail := leads.mem_free acyclic (Table.mem_keys_of_get? found) refers
        have inner := ihFree _ avail fitsValue (leads.erase refers found)
        exact fileVariable free slot clean t value plain found avail inner rest
      · exact piece free p t (split fits).1 named rest

/-- What a template flattens to is what its expansion is joined to, if no variable is circular. -/
theorem Scope.Flattens.settled (near : clock.localMinutes.natAbs < 24 * 60)
    (unmarked : s.IsUnmarked) (acyclic : circularReferences s.file = []) {t : Template}
    {out : List Char} (flat : s.Flattens clock t out) {free : List String}
    (leads : s.LeadsTo free t) : Part.Settled (s.expand clock free t.text.toList) out := by
  induction flat generalizing free with
  | nil =>
    rw [expand_template]
    exact Part.settled_nil
  | piece yields _ ih =>
    rw [expand_template, List.flatMap_cons, ← expand_template]
    exact (yields.settled near unmarked free).append (ih leads.tail)
  | @fileVariable slot clean value t inner out plain found _ _ ihValue ih =>
    have refers : Template.RefersTo (.braces slot clean :: t) (String.ofList slot.name) :=
      refersTo_cons plain
    have mem : String.ofList slot.name ∈ s.file.keys := Table.mem_keys_of_get? found
    -- The variable is free: if it were being resolved, it would lead to itself.
    have expanded : s.expandPiece clock free (.braces slot clean) =
        s.expand clock (free.erase (String.ofList slot.name)) value.text.toList := by
      rw [expandPiece_braces, if_neg (by simpa using plain), found]
      exact if_pos (leads.mem_free acyclic mem refers)
    rw [expand_template, List.flatMap_cons, ← expand_template, expanded]
    exact (ihValue (leads.erase refers found)).append (ih leads.tail)

/-! ## Existence -/

/-- No placeholder of a template calls a generator that draws random values. -/
def Placeholder.Template.IsCalm (t : Template) : Prop :=
  ∀ slot clean, Piece.braces slot clean ∈ t → slot.name.head? = some '$' →
    Generator.callsRandom slot.name = false

theorem Placeholder.Template.IsCalm.cons {p : Piece} {t : Template}
    (calm : Template.IsCalm (p :: t)) : Template.IsCalm [p] ∧ Template.IsCalm t :=
  forall_braces_cons calm

/-- A piece stands for a text unless it is a placeholder for a file variable. -/
theorem exists_yields_or_hasFileVariable (near : clock.localMinutes.natAbs < 24 * 60) {p : Piece}
    (calm : Template.IsCalm [p]) : (∃ cs, s.Yields clock p cs) ∨ s.HasFileVariable p := by
  cases p with
  | chunk cs plain => exact .inl ⟨cs, .chunk⟩
  | braces slot clean =>
    by_cases call : slot.name.head? = some '$'
    · left
      cases made : Generator.evaluate clock slot.name with
      | error e => exact ⟨_, .failed call made⟩
      | ok recipe =>
        obtain ⟨value, rfl, -⟩ := Generator.exists_of_evaluate_eq_ok near
          (calm slot clean List.mem_cons_self call) made
        exact ⟨_, .generated call made⟩
    · cases found : s.file.get? (String.ofList slot.name) with
      | some value => exact .inr ⟨slot, clean, value, rfl, call, found⟩
      | none =>
        left
        cases set : s.environment.get? (String.ofList slot.name) with
        | some value => exact ⟨_, .environment call found set⟩
        | none => exact ⟨_, .unknown call found set⟩
  | dollar slot named =>
    left
    cases set : s.environment.get? (String.ofList slot.name) with
    | some value => exact ⟨_, .dollar set⟩
    | none => exact ⟨_, .unset set⟩

/-- The values of file variables are templates without random values. -/
def Scope.HoldsTemplates (s : Scope) : Prop :=
  ∀ entry ∈ s.file.entries, ∃ t : Template, entry.2 = t.text ∧ t.IsCalm

/-- Every template flattens to some text. -/
theorem Scope.exists_flattens (near : clock.localMinutes.natAbs < 24 * 60)
    (templates : s.HoldsTemplates) (acyclic : circularReferences s.file = []) {free : List String}
    {t : Template} (calm : t.IsCalm) (leads : s.LeadsTo free t) :
    ∃ out, s.Flattens clock t out := by
  refine template_induction Template.IsCalm.cons templates acyclic ?_ ?_ ?_ calm leads
  · exact fun _ => ⟨[], .nil⟩
  · rintro _ p t calm other ⟨out, flat⟩
    obtain ⟨cs, yields⟩ := (exists_yields_or_hasFileVariable near calm).resolve_right other
    exact ⟨cs ++ out, .piece yields flat⟩
  · rintro _ slot clean t value plain found - ⟨inner, flatValue⟩ ⟨out, flat⟩
    exact ⟨inner ++ out, .fileVariable plain found flatValue flat⟩

/-! ## Texts without markup -/

/-- A template with a placeholder has markup. -/
theorem hasMarkup_template {t : Template} {p : Piece} (mem : p ∈ t)
    (placeholder : ∀ cs plain, p ≠ .chunk cs plain) : hasMarkup t.text.toList = true := by
  have inside : p.source <:+: t.text.toList := by
    obtain ⟨before, after, rfl⟩ := List.append_of_mem mem
    rw [Template.text, String.toList_ofList, List.flatMap_append, List.flatMap_cons,
      ← List.append_assoc]
    exact ⟨_, _, rfl⟩
  rw [hasMarkup, Bool.or_eq_true, Bool.or_eq_true, Text.occursIn_iff, Text.occursIn_iff]
  cases p with
  | chunk cs plain => exact absurd rfl (placeholder cs plain)
  | braces slot clean =>
    have start : ['{', '{'] <+: (Piece.braces slot clean).source := ⟨_, rfl⟩
    exact .inl (.inl (start.isInfix.trans inside))
  | dollar slot named =>
    have start : ['$', '{'] <+: (Piece.dollar slot named).source := ⟨_, rfl⟩
    exact .inl (.inr (start.isInfix.trans inside))

/-- A text without markup flattens to itself. -/
theorem Scope.Flattens.eq_text {t : Template} {out : List Char} (flat : s.Flattens clock t out)
    (plain : hasMarkup t.text.toList = false) : out = t.text.toList := by
  have chunks : ∀ p ∈ t, ∃ cs plain, p = Piece.chunk cs plain := by
    intro p mem
    by_contra placeholder
    push Not at placeholder
    rw [hasMarkup_template mem placeholder] at plain
    cases plain
  rw [Template.text, String.toList_ofList]
  clear plain
  induction flat with
  | nil => rfl
  | piece yields _ ih =>
    rw [List.forall_mem_cons] at chunks
    obtain ⟨⟨cs, plain, rfl⟩, later⟩ := chunks
    cases yields
    rw [ih later, List.flatMap_cons, Piece.source]
  | fileVariable =>
    obtain ⟨_, _, same⟩ := chunks _ List.mem_cons_self
    cases same

/-- If no variable is circular and nothing random is called, a template flattens to exactly one
text, and resolution returns that text, whatever the source of random numbers. A zone is less than a
day away from universal time. -/
theorem Scope.resolve_flattens {s : Scope} {clock : Clock} {t : Template}
    (near : clock.localMinutes.natAbs < 24 * 60) (templates : s.HoldsTemplates)
    (acyclic : circularReferences s.file = []) (unmarked : s.IsUnmarked) (calm : t.IsCalm) :
    ∃ out, (∀ other, s.Flattens clock t other ↔ other = out) ∧
      ∀ (γ : Type) [RandomGen γ] (source : γ),
        s.resolve clock t.text source = (String.ofList out, source) := by
  have joined : ∀ {out}, s.Flattens clock t out → ∀ (γ : Type) [RandomGen γ] (source : γ),
      Part.join source (s.parts clock t.text) = (out, source) := by
    intro out flat γ _ source
    rw [Scope.parts]
    cases plain : hasMarkup t.text.toList with
    | true =>
      rw [if_pos rfl]
      exact (flat.settled near unmarked acyclic (leadsTo_keys t)).join_eq source
    | false =>
      rw [if_neg Bool.false_ne_true, flat.eq_text plain]
      exact (Part.settled_text _).join_eq source
  obtain ⟨out, flat⟩ := exists_flattens near templates acyclic calm (leadsTo_keys t)
  refine ⟨out, fun other => ⟨fun flat' => ?_, fun same => same ▸ flat⟩, fun γ _ source => ?_⟩
  · have first := joined flat' StdGen default
    have second := joined flat StdGen default
    exact congrArg Prod.fst (first.symm.trans second)
  · rw [Scope.resolve, joined flat γ source]

/-! ## A scope with nested variables -/

/-- A placeholder without blanks. -/
def tightSlot (name : String) : Slot :=
  { before := [], name := name.toList, after := [], blank_before := rfl, blank_after := rfl }

def baseTemplate : Template :=
  [.chunk "https://".toList (by decide), .braces (tightSlot "host") (by decide),
    .chunk "/v1".toList (by decide)]

def hostTemplate : Template :=
  [.dollar (tightSlot "HOST") (by decide), .chunk ".example".toList (by decide)]

/-- A file variable with a placeholder for another one, which holds a value of the environment. What
looks like a placeholder in that value is none. -/
def nestedScope : Scope where
  file := { entries := [("base", baseTemplate.text), ("host", hostTemplate.text)] }
  environment := { entries := [("HOST", "api\x7b\x7bbase\x7d\x7d")] }

/-- A known variable, an unknown one, and a call of a generator. -/
def requestTemplate : Template :=
  [.braces (tightSlot "base") (by decide), .chunk "/".toList (by decide),
    .braces (tightSlot "missing") (by decide), .chunk "?t=".toList (by decide),
    .braces (tightSlot "$timestamp") (by decide)]

/-- A fixed time, in universal time. -/
def fixedClock : Clock where
  now := .ofSeconds 1700000000 0

theorem resolve_flattens_nestedScope :
    ∃ out, nestedScope.Flattens fixedClock requestTemplate out ∧
      ∀ (γ : Type) [RandomGen γ] (source : γ),
        nestedScope.resolve fixedClock requestTemplate.text source =
          ("https://api\x7b\x7bbase\x7d\x7d.example/v1/\x7b\x7bmissing\x7d\x7d?t=1700000000",
            source) := by
  have near : fixedClock.localMinutes.natAbs < 24 * 60 := by decide
  have calmBase : baseTemplate.IsCalm := by
    intro slot clean mem call
    simp [baseTemplate] at mem
    rw [mem]
    decide +kernel
  have calmHost : hostTemplate.IsCalm := by
    intro slot clean mem call
    simp [hostTemplate] at mem
  have calm : requestTemplate.IsCalm := by
    intro slot clean mem call
    simp [requestTemplate] at mem
    rcases mem with rfl | rfl | rfl
    · decide +kernel
    · decide +kernel
    · decide +kernel
  have templates : nestedScope.HoldsTemplates :=
    List.forall_mem_cons.2 ⟨⟨baseTemplate, rfl, calmBase⟩,
      List.forall_mem_singleton.2 ⟨hostTemplate, rfl, calmHost⟩⟩
  have unmarked : nestedScope.IsUnmarked := by
    have value : "api\x7b\x7bbase\x7d\x7d".toList.all (!marks.contains ·) = true := by decide
    refine List.forall_mem_singleton.2 fun c mem => ?_
    simpa using List.all_eq_true.1 value c mem
  have acyclic : circularReferences nestedScope.file = [] := by cbv
  obtain ⟨out, flat, resolved⟩ := Scope.resolve_flattens near templates acyclic unmarked calm
  have text : (nestedScope.resolve fixedClock requestTemplate.text (mkStdGen 0)).1 =
      "https://api\x7b\x7bbase\x7d\x7d.example/v1/\x7b\x7bmissing\x7d\x7d?t=1700000000" := by
    decide +kernel
  rw [resolved] at text
  dsimp only at text
  exact ⟨out, (flat out).2 rfl, fun γ _ source => by rw [resolved, text]⟩

end RequestFile
