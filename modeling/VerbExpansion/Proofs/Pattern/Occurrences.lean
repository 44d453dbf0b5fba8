import Mathlib.Data.List.TakeWhile
import VerbExpansion.Pattern

/-!
# Placeholders where they stand

What is read as a placeholder depends on its own characters only (`read?_eq_some_iff`), and a
placeholder opens no second brace. So the placeholders of a pattern are those that are written
anywhere in its text (`mem_placeholders_ofText_iff`), and a text may be cut anywhere outside of them
(`ofText_append`).
-/

namespace VerbExpansion

namespace Placeholder

/-- Whether a text can be the name or the format of a placeholder. -/
def IsPart (text : Text) : Prop :=
  text ≠ [] ∧ ∀ character ∈ text, isPartCharacter character = true

/-- A placeholder that can be written in a pattern. -/
structure IsWritable (placeholder : Placeholder) : Prop where
  name : IsPart placeholder.name
  format : ∀ format, placeholder.format = some format → IsPart format

theorem isPart_of_readPart? {text part rest : Text} (read : readPart? text = some (part, rest)) :
    IsPart part := by
  unfold readPart? at read
  split at read
  · cases read
  · next notEmpty =>
    cases read
    exact ⟨notEmpty, fun _ member => List.mem_takeWhile_imp member⟩

/-- A part is read up to the first character that it may not hold. -/
theorem readPart?_append {part rest : Text} {stop : Character} (isPart : IsPart part)
    (stops : isPartCharacter stop = false) :
    readPart? (part ++ stop :: rest) = some (part, stop :: rest) := by
  have taken : (part ++ stop :: rest).takeWhile isPartCharacter = part := by
    rw [List.takeWhile_append_of_pos isPart.2, List.takeWhile_cons_of_neg (by simp [stops]),
      List.append_nil]
  have left : (part ++ stop :: rest).dropWhile isPartCharacter = stop :: rest := by
    rw [List.dropWhile_append_of_pos isPart.2, List.dropWhile_cons_of_neg (by simp [stops])]
  unfold readPart?
  rw [taken, left]
  cases part with
  | nil => exact absurd rfl isPart.1
  | cons first part => rfl

/-- A placeholder that was written is read back, whatever follows it. -/
theorem read?_source_append {placeholder : Placeholder} (writable : placeholder.IsWritable)
    (rest : Text) : read? (placeholder.source ++ rest) = some (placeholder, rest) := by
  obtain ⟨name, format⟩ := placeholder
  cases format with
  | none =>
    have spelled : source ⟨name, none⟩ ++ rest = .scalar '{' :: (name ++ .scalar '}' :: rest) := by
      simp [source]
    rw [spelled, read?, readPart?_append writable.name (by decide)]
    rfl
  | some format =>
    have spelled : source ⟨name, some format⟩ ++ rest =
        .scalar '{' :: (name ++ .scalar ':' :: (format ++ .scalar '}' :: rest)) := by
      simp [source]
    rw [spelled, read?, readPart?_append writable.name (by decide)]
    simp only
    rw [readPart?_append (writable.format format rfl) (by decide)]
    rfl

theorem isWritable_of_read? {text rest : Text} {placeholder : Placeholder}
    (read : read? text = some (placeholder, rest)) : placeholder.IsWritable := by
  unfold read? at read
  split at read
  · split at read
    · next nameRead =>
      cases read
      exact ⟨isPart_of_readPart? nameRead, by simp⟩
    · next nameRead =>
      split at read
      · next formatRead =>
        cases read
        refine ⟨isPart_of_readPart? nameRead, ?_⟩
        rintro format ⟨⟩
        exact isPart_of_readPart? formatRead
      · cases read
    · cases read
  · cases read

/-- A placeholder is read exactly where it is written. -/
theorem read?_eq_some_iff {text rest : Text} {placeholder : Placeholder} :
    read? text = some (placeholder, rest) ↔
      placeholder.IsWritable ∧ text = placeholder.source ++ rest := by
  constructor
  · intro read
    exact ⟨isWritable_of_read? read, eq_source_of_read? read⟩
  · rintro ⟨writable, rfl⟩
    exact read?_source_append writable rest

/-- A placeholder opens one brace, with its first character. -/
theorem exists_source_eq_cons {placeholder : Placeholder} (writable : placeholder.IsWritable) :
    ∃ inner, placeholder.source = .scalar '{' :: inner ∧ .scalar '{' ∉ inner := by
  have braceless : ∀ {part : Text}, IsPart part → .scalar '{' ∉ part :=
    fun isPart member => absurd (isPart.2 _ member) (by decide)
  obtain ⟨name, format⟩ := placeholder
  cases format with
  | none => exact ⟨_, rfl, by simp [braceless writable.name]⟩
  | some format =>
    exact ⟨_, rfl, by simp [braceless writable.name, braceless (writable.format format rfl)]⟩

/-- A placeholder is written between two braces. -/
theorem exists_source_eq (placeholder : Placeholder) :
    ∃ inner, placeholder.source = .scalar '{' :: (inner ++ [.scalar '}']) := by
  obtain ⟨name, format⟩ := placeholder
  cases format with
  | none => exact ⟨name, rfl⟩
  | some format => exact ⟨name ++ .scalar ':' :: format, rfl⟩

/-- A placeholder ends with its closing brace. -/
theorem exists_source_eq_append (placeholder : Placeholder) :
    ∃ inner, placeholder.source = inner ++ [.scalar '}'] := by
  obtain ⟨inner, spelled⟩ := placeholder.exists_source_eq
  exact ⟨.scalar '{' :: inner, spelled⟩

theorem eq_of_singleton_suffix_source {placeholder : Placeholder} {character : Character}
    (suffixOf : [character] <:+ placeholder.source) : character = '}' := by
  obtain ⟨inner, spelled⟩ := placeholder.exists_source_eq_append
  obtain ⟨start, cut⟩ := suffixOf
  rw [spelled] at cut
  exact List.singleton_inj.1 (List.append_inj_right' cut rfl)

end Placeholder

namespace Pattern

open Placeholder

@[simp] theorem ofText_nil : ofText [] = [] := by
  rw [ofText]
  split
  · next read => exact absurd (length_lt_of_read? read) (by simp)
  · rfl

theorem ofText_of_read? {text rest : Text} {placeholder : Placeholder}
    (read : read? text = some (placeholder, rest)) :
    ofText text = .gap placeholder :: ofText rest := by
  rw [ofText]
  split
  · next found =>
    rw [read] at found
    cases found
    rfl
  · next missing =>
    rw [read] at missing
    cases missing

theorem ofText_cons_of_read? {character : Character} {rest : Text}
    (notRead : read? (character :: rest) = none) :
    ofText (character :: rest) = .literal character :: ofText rest := by
  rw [ofText]
  split
  · next found =>
    rw [notRead] at found
    cases found
  · rfl

/-- A character that opens no brace is a piece of its own. -/
theorem ofText_cons {character : Character} (noBrace : character ≠ '{') (rest : Text) :
    ofText (character :: rest) = .literal character :: ofText rest := by
  apply ofText_cons_of_read?
  unfold read?
  split
  · next opened => exact absurd (List.cons.inj opened).1 noBrace
  · rfl

/-- The characters of a text that opens no brace are pieces of their own, whatever follows them. -/
theorem ofText_append_of_notMem {text : Text} (noBrace : .scalar '{' ∉ text) (rest : Text) :
    ofText (text ++ rest) = text.map .literal ++ ofText rest := by
  induction text with
  | nil => rfl
  | cons character text inductionHypothesis =>
    rw [List.cons_append, ofText_cons (List.ne_of_not_mem_cons noBrace).symm,
      inductionHypothesis (List.not_mem_of_not_mem_cons noBrace)]
    rfl

/-- A placeholder is one piece of the pattern, whatever follows it. -/
theorem ofText_source_append {placeholder : Placeholder} (writable : placeholder.IsWritable)
    (rest : Text) : ofText (placeholder.source ++ rest) = .gap placeholder :: ofText rest :=
  ofText_of_read? (read?_source_append writable rest)

@[simp] theorem placeholders_nil : placeholders [] = [] := rfl

@[simp] theorem placeholders_literal_cons (character : Character) (pattern : Pattern) :
    placeholders (.literal character :: pattern) = placeholders pattern := rfl

@[simp] theorem placeholders_gap_cons (placeholder : Placeholder) (pattern : Pattern) :
    placeholders (.gap placeholder :: pattern) = placeholder :: placeholders pattern := rfl

theorem placeholders_append (before after : Pattern) :
    placeholders (before ++ after) = before.placeholders ++ after.placeholders :=
  List.filterMap_append

theorem mem_placeholders_iff {placeholder : Placeholder} {pattern : Pattern} :
    placeholder ∈ pattern.placeholders ↔ .gap placeholder ∈ pattern := by
  induction pattern with
  | nil => simp
  | cons piece pattern inductionHypothesis =>
    cases piece <;> simp [inductionHypothesis]

/-- Where two placeholders overlap, they are at the same place. -/
theorem source_infix_of_append {placeholder other : Placeholder} {rest : Text}
    (writable : placeholder.IsWritable) (otherWritable : other.IsWritable)
    (infixOf : other.source <:+: placeholder.source ++ rest) :
    other = placeholder ∨ other.source <:+: rest := by
  obtain ⟨before, after, cut⟩ := infixOf
  rw [List.append_assoc, List.append_eq_append_iff] at cut
  obtain ⟨inner, otherSpelled, _⟩ := exists_source_eq_cons otherWritable
  rcases cut with ⟨overlap, spelled, left⟩ | ⟨between, _, left⟩
  · cases overlap with
    | nil => exact .inr ⟨[], after, by simpa using left⟩
    | cons first overlap =>
      cases before with
      | nil =>
        have sameText : other.source ++ after = placeholder.source ++ rest := by
          rw [left, spelled, List.nil_append]
        have read := read?_source_append otherWritable after
        rw [sameText, read?_source_append writable rest] at read
        exact .inl (Prod.mk.inj (Option.some.inj read)).1.symm
      | cons opening before =>
        -- The other placeholder would start with a brace inside of this one.
        have brace : first = .scalar '{' := by
          rw [otherSpelled] at left
          exact (List.cons.inj left).1.symm
        obtain ⟨tail, tailSpelled, braceless⟩ := exists_source_eq_cons writable
        rw [spelled, brace, List.cons_append, List.cons.injEq] at tailSpelled
        exact absurd (by simp [← tailSpelled.2]) braceless
  · exact .inr ⟨between, after, by rw [left, List.append_assoc]⟩

/-- The placeholders of a text are those that are written somewhere in it. -/
theorem mem_placeholders_ofText_iff {placeholder : Placeholder} {text : Text} :
    placeholder ∈ (ofText text).placeholders ↔
      placeholder.IsWritable ∧ placeholder.source <:+: text := by
  fun_induction ofText text with
  | case1 text found rest read _ inductionHypothesis =>
    obtain ⟨foundWritable, rfl⟩ := read?_eq_some_iff.1 read
    rw [placeholders_gap_cons, List.mem_cons, inductionHypothesis]
    constructor
    · rintro (rfl | ⟨writable, infixOf⟩)
      · exact ⟨foundWritable, (List.prefix_append _ _).isInfix⟩
      · exact ⟨writable, infixOf.trans (List.suffix_append _ _).isInfix⟩
    · rintro ⟨writable, infixOf⟩
      rcases source_infix_of_append foundWritable writable infixOf with same | infixOf
      · exact .inl same
      · exact .inr ⟨writable, infixOf⟩
  | case2 =>
    simp [placeholder.source_ne_nil]
  | case3 character rest notRead inductionHypothesis =>
    rw [placeholders_literal_cons, inductionHypothesis, List.infix_cons_iff, and_or_left]
    constructor
    · exact .inr
    · rintro (⟨writable, after, spelled⟩ | found)
      · rw [← spelled, read?_source_append writable after] at notRead
        cases notRead
      · exact found

/-- What is read as a placeholder in a part of a text is read in the whole text. -/
theorem placeholders_subset_of_isInfix {part text : Text} (infixOf : part <:+: text) :
    (ofText part).placeholders ⊆ (ofText text).placeholders := by
  intro placeholder member
  obtain ⟨writable, written⟩ := mem_placeholders_ofText_iff.1 member
  exact mem_placeholders_ofText_iff.2 ⟨writable, written.trans infixOf⟩

/-- A text may be cut into patterns where no placeholder of it goes across. -/
theorem ofText_append {before after : Text}
    (uncut : ∀ placeholder ∈ (ofText (before ++ after)).placeholders, ∀ inside,
      inside <+: after → inside <:+ placeholder.source → inside ≠ placeholder.source → inside = []) :
    ofText (before ++ after) = ofText before ++ ofText after := by
  fun_induction ofText before with
  | case1 text placeholder rest read _ inductionHypothesis =>
    obtain ⟨writable, rfl⟩ := read?_eq_some_iff.1 read
    rw [List.append_assoc, ofText_source_append writable] at uncut ⊢
    rw [inductionHypothesis fun other member => uncut other (List.mem_cons_of_mem _ member),
      List.cons_append]
  | case2 => rfl
  | case3 character rest notRead inductionHypothesis =>
    rw [List.cons_append] at uncut ⊢
    have notReadBefore : read? (character :: (rest ++ after)) = none := by
      cases read : read? (character :: (rest ++ after)) with
      | none => rfl
      | some found =>
        obtain ⟨placeholder, left⟩ := found
        obtain ⟨writable, spelled⟩ := read?_eq_some_iff.1 read
        have member : placeholder ∈ (ofText (character :: (rest ++ after))).placeholders := by
          rw [ofText_of_read? read]
          exact List.mem_cons_self
        rw [← List.cons_append, List.append_eq_append_iff] at spelled
        rcases spelled with ⟨inside, spelled, cut⟩ | ⟨between, spelled, _⟩
        · have proper : inside ≠ placeholder.source := by
            rintro rfl
            exact absurd (List.append_left_eq_self.1 spelled.symm) (List.cons_ne_nil _ _)
          have nothing := uncut placeholder member inside ⟨left, cut.symm⟩ ⟨_, spelled.symm⟩ proper
          rw [nothing, List.append_nil] at spelled
          have readAlone := read?_source_append writable []
          rw [List.append_nil, spelled, notRead] at readAlone
          cases readAlone
        · rw [spelled, read?_source_append writable] at notRead
          cases notRead
    rw [ofText_cons_of_read? notReadBefore] at uncut ⊢
    rw [inductionHypothesis uncut, List.cons_append]

/-- A last character that closes no brace is a piece of its own. -/
theorem ofText_append_singleton {character : Character} (noBrace : character ≠ '}') (text : Text) :
    ofText (text ++ [character]) = ofText text ++ ofText [character] := by
  refine ofText_append fun placeholder _ inside prefixOf suffixOf _ => ?_
  rcases List.prefix_cons_iff.1 prefixOf with rfl | ⟨rest, rfl, nothing⟩
  · rfl
  · rw [List.prefix_nil.1 nothing] at suffixOf
    exact absurd (eq_of_singleton_suffix_source suffixOf) noBrace

/-- A placeholder is one piece of the pattern, whatever stands before it and behind it. -/
theorem ofText_append_source {placeholder : Placeholder} (writable : placeholder.IsWritable)
    (before after : Text) :
    ofText (before ++ (placeholder.source ++ after)) =
      ofText before ++ .gap placeholder :: ofText after := by
  rw [ofText_append, ofText_source_append writable]
  intro other member inside prefixOf suffixOf proper
  obtain ⟨tail, spelled, _⟩ := exists_source_eq_cons writable
  obtain ⟨otherTail, otherSpelled, braceless⟩ :=
    exists_source_eq_cons (mem_placeholders_ofText_iff.1 member).1
  cases inside with
  | nil => rfl
  | cons first inside =>
    -- The other placeholder would open a second brace, the one of this placeholder.
    rw [spelled, List.cons_append, List.cons_prefix_cons] at prefixOf
    obtain ⟨rfl, _⟩ := prefixOf
    rw [otherSpelled] at suffixOf proper
    rcases List.suffix_cons_iff.1 suffixOf with same | suffixOf
    · exact absurd same proper
    · exact absurd (suffixOf.subset List.mem_cons_self) braceless

end Pattern

end VerbExpansion
