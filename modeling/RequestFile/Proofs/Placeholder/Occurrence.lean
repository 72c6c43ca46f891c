import Mathlib
import RequestFile.Proofs.Placeholder.Template

/-!
# Where placeholders stand

`segments` goes through a text from left to right and never looks back. Still it finds every
placeholder that stands anywhere in the text, since no placeholder can start inside another one. A
text in which none stands is cut into its characters.
-/

namespace RequestFile.Placeholder

open Text

/-! ## Placeholders -/

/-- Whether a segment is a placeholder that can be read: something without braces in double braces,
or the name of an environment variable, perhaps with blanks around it, in a dollar sign and braces.
-/
def Segment.IsPlaceholder : Segment → Prop
  | char _ => False
  | braces content => content ≠ [] ∧ ∀ c ∈ content, isInside c = true
  | dollar content => isEnvironmentName (trim content) = true ∧ ∀ c ∈ content, c ≠ '}'

instance : DecidablePred Segment.IsPlaceholder
  | .char _ => inferInstanceAs (Decidable False)
  | .braces content => inferInstanceAs (Decidable (content ≠ [] ∧ _))
  | .dollar content => inferInstanceAs (Decidable (isEnvironmentName (trim content) = true ∧ _))

/-- What stands in a placeholder of the second form holds no braces. -/
theorem isInside_of_isEnvironmentName {content : List Char}
    (named : isEnvironmentName (trim content) = true) {c : Char} (mem : c ∈ content) :
    isInside c = true := by
  apply isInside_of_isClean
  cases blank : isBlank c with
  | true => exact isClean_of_isBlank blank
  | false =>
    have clean := isCleanName_of_isEnvironmentName named
    exact (isCleanName_iff.1 clean).2.2 c (mem_trim_of_mem mem blank)

theorem readBraces?_eq_some_iff {cs content rest : List Char} :
    readBraces? cs = some (content, rest) ↔
      (Segment.braces content).IsPlaceholder ∧ cs = content ++ '}' :: '}' :: rest := by
  constructor
  · intro read
    refine ⟨?_, by simpa using (append_of_readBraces? read).symm⟩
    unfold readBraces? at read
    split at read
    · next c more after taken left =>
      cases read
      refine ⟨List.cons_ne_nil c more, fun d mem => ?_⟩
      rw [← taken] at mem
      exact List.mem_takeWhile_imp mem
    · cases read
  · rintro ⟨⟨nonempty, inside⟩, rfl⟩
    exact readBraces?_append rest nonempty inside

theorem readDollar?_eq_some_iff {cs content rest : List Char} :
    readDollar? cs = some (content, rest) ↔
      (Segment.dollar content).IsPlaceholder ∧ cs = content ++ '}' :: rest := by
  constructor
  · intro read
    refine ⟨?_, by simpa using (append_of_readDollar? read).symm⟩
    unfold readDollar? at read
    split at read
    · split at read
      · next named =>
        cases read
        exact ⟨named, fun c mem => by simpa using List.mem_takeWhile_imp mem⟩
      · cases read
    · cases read
  · rintro ⟨⟨named, closed⟩, rfl⟩
    exact readDollar?_append rest named closed

namespace Segment.IsPlaceholder

variable {segment : Segment}

/-- A placeholder starts with an opening brace behind another one or behind a dollar sign, and no
other place in it looks like a start. -/
theorem exists_source_eq (placeholder : segment.IsPlaceholder) :
    ∃ c inner, segment.source = c :: '{' :: (inner ++ ['}']) ∧ (c = '{' ∨ c = '$') ∧
      ∀ d ∈ inner, d ≠ '{' := by
  cases segment with
  | char c => exact placeholder.elim
  | braces content =>
    refine ⟨'{', content ++ ['}'], by simp [source], .inl rfl, fun d mem => ?_⟩
    rcases List.mem_append.1 mem with mem | mem
    · exact (isInside_iff.1 (placeholder.2 d mem)).1
    · rw [List.mem_singleton.1 mem]
      decide
  | dollar content =>
    refine ⟨'$', content, rfl, .inr rfl, fun d mem => ?_⟩
    exact (isInside_iff.1 (isInside_of_isEnvironmentName placeholder.1 mem)).1

/-- A placeholder is cut out where it stands first, and what follows is read after it. -/
theorem segments_append (placeholder : segment.IsPlaceholder) (rest : List Char) :
    segments (segment.source ++ rest) = segment :: segments rest := by
  cases segment with
  | char c => exact placeholder.elim
  | braces content => simpa [source] using segments_braces rest placeholder.1 placeholder.2
  | dollar content => simpa [source] using segments_dollar rest placeholder.1 placeholder.2

end Segment.IsPlaceholder

/-! ## Cutting a text -/

/-- What a text is cut into first: its first character, or a placeholder that it starts with. -/
theorem segments_cons (c : Char) (rest : List Char) :
    segments (c :: rest) = .char c :: segments rest ∨
      ∃ segment more, segment.IsPlaceholder ∧ c :: rest = segment.source ++ more ∧
        segments (c :: rest) = segment :: segments more := by
  generalize whole : c :: rest = cs
  fun_cases segments cs with
  | case1 => cases whole
  | case2 _ content more read =>
    obtain ⟨placeholder, rfl⟩ := readBraces?_eq_some_iff.1 read
    exact .inr ⟨.braces content, more, placeholder, by simp [Segment.source], rfl⟩
  | case3 _ read =>
    cases whole
    exact .inl rfl
  | case4 _ content more read =>
    obtain ⟨placeholder, rfl⟩ := readDollar?_eq_some_iff.1 read
    exact .inr ⟨.dollar content, more, placeholder, by simp [Segment.source], rfl⟩
  | case5 _ read =>
    cases whole
    exact .inl rfl
  | case6 =>
    cases whole
    exact .inl rfl

/-- A text is nothing, or a character in front of a text, or a placeholder in front of a text, as it
is cut. -/
theorem segments_induction {motive : List Char → Prop} (nil : motive [])
    (char : ∀ c rest, segments (c :: rest) = .char c :: segments rest → motive rest →
      motive (c :: rest))
    (placeholder : ∀ (segment : Segment) more, segment.IsPlaceholder → motive more →
      motive (segment.source ++ more)) (cs : List Char) : motive cs := by
  induction size : cs.length using Nat.strongRecOn generalizing cs with
  | _ n ih =>
    cases cs with
    | nil => exact nil
    | cons c rest =>
      rcases segments_cons c rest with cut | ⟨segment, more, ok, split, -⟩
      · exact char c rest cut (ih rest.length (by simp [← size]) rest rfl)
      · obtain ⟨first, inner, source, -⟩ := ok.exists_source_eq
        have shorter : more.length < n := by
          rw [← size, split, source]
          simp
          omega
        rw [split]
        exact placeholder segment more ok (ih more.length shorter more rfl)

/-- What is cut out of a text as a placeholder is one. -/
theorem isPlaceholder_of_mem_segments {cs : List Char} {segment : Segment}
    (mem : segment ∈ segments cs) : (∃ c, segment = .char c) ∨ segment.IsPlaceholder := by
  induction cs using segments_induction with
  | nil => simp [segments] at mem
  | char c rest cut ih =>
    rw [cut] at mem
    rcases List.mem_cons.1 mem with rfl | mem
    · exact .inl ⟨c, rfl⟩
    · exact ih mem
  | placeholder first more ok ih =>
    rw [ok.segments_append] at mem
    rcases List.mem_cons.1 mem with rfl | mem
    · exact .inr ok
    · exact ih mem

theorem source_infix_of_mem_segments {cs : List Char} {segment : Segment}
    (mem : segment ∈ segments cs) : segment.source <:+: cs := by
  obtain ⟨before, after, split⟩ := List.append_of_mem mem
  have whole := flatMap_source_segments cs
  rw [split, List.flatMap_append, List.flatMap_cons, ← List.append_assoc] at whole
  exact ⟨_, _, whole⟩

namespace Segment.IsPlaceholder

variable {segment other : Segment} {cs : List Char}

/-- No placeholder starts where a character other than an opening brace comes second. -/
theorem infix_of_infix_cons (placeholder : segment.IsPlaceholder) {c d : Char}
    (different : d ≠ '{') (inside : segment.source <:+: c :: d :: cs) :
    segment.source <:+: d :: cs := by
  rcases List.infix_cons_iff.1 inside with ⟨rest, start⟩ | inside
  · obtain ⟨first, inner, source, -, -⟩ := placeholder.exists_source_eq
    rw [source, List.cons_append, List.cons_append] at start
    cases start
    exact absurd rfl different
  · exact inside

/-- No placeholder starts behind the start of another one, up to the end of that one. -/
theorem infix_of_infix_append (placeholder : segment.IsPlaceholder) {c : Char} {inner : List Char}
    (different : ∀ d ∈ inner, d ≠ '{') (inside : segment.source <:+: c :: (inner ++ '}' :: cs)) :
    segment.source <:+: cs := by
  induction inner generalizing c with
  | nil =>
    rcases List.infix_cons_iff.1 (placeholder.infix_of_infix_cons (by decide) inside) with
      ⟨rest, start⟩ | inside
    · obtain ⟨first, inner, source, opens, -⟩ := placeholder.exists_source_eq
      rw [source, List.cons_append] at start
      cases start
      rcases opens with opens | opens <;> exact absurd opens (by decide)
    · exact inside
  | cons d inner ih =>
    rw [List.forall_mem_cons] at different
    exact ih different.2 (placeholder.infix_of_infix_cons different.1 inside)

/-- Two placeholders in a text that starts with one of them: the other is the same one or stands
behind it. -/
theorem eq_or_infix (placeholder : segment.IsPlaceholder) (ok : other.IsPlaceholder)
    (inside : segment.source <:+: other.source ++ cs) :
    segment = other ∨ segment.source <:+: cs := by
  obtain ⟨c, inner, source, -, different⟩ := ok.exists_source_eq
  have whole : other.source ++ cs = c :: '{' :: (inner ++ '}' :: cs) := by simp [source]
  rw [whole] at inside
  rcases List.infix_cons_iff.1 inside with ⟨rest, start⟩ | inside
  · have cut := ok.segments_append cs
    rw [whole, ← start, placeholder.segments_append, List.cons.injEq] at cut
    exact .inl cut.1
  · exact .inr (placeholder.infix_of_infix_append different inside)

/-- A placeholder is cut out wherever it stands. -/
theorem mem_segments_iff (placeholder : segment.IsPlaceholder) :
    segment ∈ segments cs ↔ segment.source <:+: cs := by
  refine ⟨source_infix_of_mem_segments, fun inside => ?_⟩
  induction cs using segments_induction with
  | nil =>
    obtain ⟨c, inner, source, -⟩ := placeholder.exists_source_eq
    simp [source] at inside
  | char c rest cut ih =>
    rcases List.infix_cons_iff.1 inside with ⟨more, start⟩ | inside
    · rw [← start, placeholder.segments_append]
      exact List.mem_cons_self
    · rw [cut]
      exact List.mem_cons_of_mem _ (ih inside)
  | placeholder first more ok ih =>
    rw [ok.segments_append]
    rcases placeholder.eq_or_infix ok inside with rfl | inside
    · exact List.mem_cons_self
    · exact List.mem_cons_of_mem _ (ih inside)

end Segment.IsPlaceholder

/-! ## Texts without placeholders -/

/-- Whether a placeholder stands in a text. -/
def HasPlaceholder (cs : List Char) : Prop :=
  ∃ segment : Segment, segment.IsPlaceholder ∧ segment.source <:+: cs

theorem hasPlaceholder_iff {cs : List Char} :
    HasPlaceholder cs ↔ ∃ segment ∈ segments cs, segment.IsPlaceholder := by
  constructor
  · rintro ⟨segment, placeholder, inside⟩
    exact ⟨segment, placeholder.mem_segments_iff.2 inside, placeholder⟩
  · rintro ⟨segment, mem, placeholder⟩
    exact ⟨segment, placeholder, source_infix_of_mem_segments mem⟩

instance : DecidablePred HasPlaceholder := fun _ =>
  decidable_of_iff _ hasPlaceholder_iff.symm

/-- A text without placeholders is cut into its characters. -/
theorem segments_of_not_hasPlaceholder {cs : List Char} (plain : ¬ HasPlaceholder cs) :
    segments cs = cs.map .char := by
  induction cs using segments_induction with
  | nil => simp [segments]
  | char c rest cut ih =>
    rw [cut, List.map_cons, ih]
    rintro ⟨segment, placeholder, inside⟩
    exact plain ⟨segment, placeholder, List.infix_cons inside⟩
  | placeholder segment more ok ih => exact absurd ⟨segment, ok, [], more, rfl⟩ plain

end RequestFile.Placeholder
