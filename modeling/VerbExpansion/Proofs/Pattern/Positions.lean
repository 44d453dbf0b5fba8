import VerbExpansion.Proofs.Filling.Text

/-!
# Placeholders by their places

That a placeholder stands at a place of a text can be said by the characters at the text's places
alone (`StandsAt`). The placeholders of the pattern are those that stand somewhere, in the order of
their places (`mem_occurrences_ofText_iff`, `pairwise_occurrences`), and filling the pattern is
replacing the text between these places (`replaced_occurrences`).
-/

namespace VerbExpansion

/-- Whether the character is one of the two braces. -/
def Character.IsBrace (character : Character) : Prop :=
  character = '{' ∨ character = '}'

/-- A text is cut by two of its characters. -/
theorem Text.eq_append_of_getElem? {text : Text} {start stop : Nat} {first last : Character}
    (opens : text[start]? = some first) (closes : text[stop]? = some last) (ordered : start < stop) :
    text = text.take start ++
      first :: ((text.take stop).drop (start + 1) ++ last :: text.drop (stop + 1)) := by
  obtain ⟨startInside, rfl⟩ := List.getElem?_eq_some_iff.1 opens
  obtain ⟨stopInside, rfl⟩ := List.getElem?_eq_some_iff.1 closes
  have behind : text.drop (start + 1) = (text.take stop).drop (start + 1) ++ text.drop stop := by
    have within : start + 1 ≤ (text.take stop).length := by
      rw [List.length_take]
      omega
    rw [← List.drop_append_of_le_length within, List.take_append_drop]
  rw [← List.drop_eq_getElem_cons stopInside, ← behind, ← List.drop_eq_getElem_cons startInside,
    List.take_append_drop]

namespace Placeholder

/-- Whether what stands between two braces spells the placeholder: a name, or a name and a format
with a colon between them. -/
inductive IsSpelled : Placeholder → Text → Prop where
  | named {name : Text} (notEmpty : name ≠ []) (noColon : .scalar ':' ∉ name) :
      IsSpelled ⟨name, none⟩ name
  | formatted {name format : Text} (nameNotEmpty : name ≠ []) (formatNotEmpty : format ≠ [])
      (noColonInName : .scalar ':' ∉ name) (noColonInFormat : .scalar ':' ∉ format) :
      IsSpelled ⟨name, some format⟩ (name ++ .scalar ':' :: format)

/-- Whether the placeholder stands in a text, with its opening brace at the one place and its closing
brace at the other. -/
structure StandsAt (placeholder : Placeholder) (text : Text) (start stop : Nat) : Prop where
  opens : text[start]? = some (.scalar '{')
  closes : text[stop]? = some (.scalar '}')
  ordered : start < stop
  /-- The closing brace is the first brace behind the opening one. -/
  braceless : ∀ place, start < place → place < stop →
    ∀ character, text[place]? = some character → ¬ character.IsBrace
  spelled : placeholder.IsSpelled ((text.take stop).drop (start + 1))

theorem isPart_iff {part : Text} :
    IsPart part ↔
      part ≠ [] ∧ .scalar ':' ∉ part ∧ ∀ character ∈ part, ¬ character.IsBrace := by
  have isPartCharacter_iff : ∀ character : Character,
      isPartCharacter character = true ↔ character ≠ .scalar ':' ∧ ¬ character.IsBrace := by
    intro character
    simp only [isPartCharacter, Character.IsBrace, Bool.and_eq_true, bne_iff_ne, ne_eq, not_or]
    exact and_comm
  simp only [IsPart, isPartCharacter_iff, forall₂_and]
  refine and_congr_right fun _ => and_congr_left fun _ => ⟨fun differs member => ?_, ?_⟩
  · exact differs _ member rfl
  · rintro noColon character member rfl
    exact noColon member

/-- A placeholder that can be written is what is spelled between its two braces. -/
theorem isWritable_and_source_eq_iff {placeholder : Placeholder} {inner : Text} :
    placeholder.IsWritable ∧ placeholder.source = .scalar '{' :: (inner ++ [.scalar '}']) ↔
      placeholder.IsSpelled inner ∧ ∀ character ∈ inner, ¬ character.IsBrace := by
  constructor
  · rintro ⟨⟨namePart, formatPart⟩, spelled⟩
    obtain ⟨name, format⟩ := placeholder
    obtain ⟨nameNotEmpty, noColonInName, nameBraceless⟩ := isPart_iff.1 namePart
    cases format with
    | none =>
      obtain rfl : name = inner := by simpa [source] using spelled
      exact ⟨.named nameNotEmpty noColonInName, nameBraceless⟩
    | some format =>
      obtain ⟨formatNotEmpty, noColonInFormat, formatBraceless⟩ :=
        isPart_iff.1 (formatPart format rfl)
      obtain rfl : name ++ .scalar ':' :: format = inner := by
        refine (List.append_left_inj [.scalar '}']).1 ?_
        simpa [source] using spelled
      refine ⟨.formatted nameNotEmpty formatNotEmpty noColonInName noColonInFormat, ?_⟩
      intro character member
      rcases List.mem_append.1 member with member | member
      · exact nameBraceless character member
      · rcases List.mem_cons.1 member with rfl | member
        · simp [Character.IsBrace]
        · exact formatBraceless character member
  · rintro ⟨spelled, braceless⟩
    cases spelled with
    | named notEmpty noColon =>
      exact ⟨⟨isPart_iff.2 ⟨notEmpty, noColon, braceless⟩, by simp⟩, by simp [source]⟩
    | formatted nameNotEmpty formatNotEmpty noColonInName noColonInFormat =>
      refine ⟨⟨isPart_iff.2 ⟨nameNotEmpty, noColonInName, ?_⟩, ?_⟩, by simp [source]⟩
      · exact fun character member => braceless character (by simp [member])
      · rintro format ⟨⟩
        exact isPart_iff.2 ⟨formatNotEmpty, noColonInFormat, fun character member =>
          braceless character (by simp [member])⟩

theorem StandsAt.braceless_between {placeholder : Placeholder} {text : Text} {start stop : Nat}
    (stands : placeholder.StandsAt text start stop) :
    ∀ character ∈ (text.take stop).drop (start + 1), ¬ character.IsBrace := by
  intro character member
  obtain ⟨place, found⟩ := List.mem_iff_getElem?.1 member
  rw [List.getElem?_drop, List.getElem?_take] at found
  split at found
  · next before => exact stands.braceless _ (by omega) before character found
  · cases found

/-- A placeholder stands where its text is between two braces. -/
theorem IsSpelled.standsAt_append {placeholder : Placeholder} {inner : Text}
    (spelled : placeholder.IsSpelled inner) (braceless : ∀ character ∈ inner, ¬ character.IsBrace)
    (before after : Text) :
    placeholder.StandsAt (before ++ .scalar '{' :: (inner ++ .scalar '}' :: after)) before.length
      (before.length + 1 + inner.length) := by
  have behind : ∀ place, (before ++ .scalar '{' :: (inner ++ .scalar '}' :: after))[before.length +
      1 + place]? = (inner ++ .scalar '}' :: after)[place]? := by
    intro place
    rw [List.getElem?_append_right (by omega), Nat.add_assoc, Nat.add_sub_cancel_left,
      Nat.add_comm 1, List.getElem?_cons_succ]
  refine ⟨by simp, by simp [behind], by omega, fun place isBehind isBefore character found => ?_, ?_⟩
  · obtain ⟨offset, rfl⟩ := Nat.exists_eq_add_of_lt isBehind
    rw [Nat.add_right_comm, behind, List.getElem?_append_left (by omega)] at found
    exact braceless character (List.mem_of_getElem? found)
  · have regrouped : before ++ .scalar '{' :: (inner ++ .scalar '}' :: after) =
        (before ++ [.scalar '{']) ++ inner ++ .scalar '}' :: after := by simp
    rwa [regrouped, List.take_left' (by simp; omega), List.drop_left' (by simp)]

/-- Where a placeholder stands, the text is cut into what is before it, its source and the rest. -/
theorem exists_standsAt_iff {placeholder : Placeholder} {text : Text} {start : Nat} :
    (∃ stop, placeholder.StandsAt text start stop) ↔
      placeholder.IsWritable ∧
        ∃ before after, text = before ++ (placeholder.source ++ after) ∧ before.length = start := by
  constructor
  · rintro ⟨stop, stands⟩
    have cut := Text.eq_append_of_getElem? stands.opens stands.closes stands.ordered
    obtain ⟨writable, source⟩ :=
      isWritable_and_source_eq_iff.2 ⟨stands.spelled, stands.braceless_between⟩
    have inside : start ≤ text.length := (List.getElem?_eq_some_iff.1 stands.opens).1.le
    refine ⟨writable, text.take start, text.drop (stop + 1), ?_, List.length_take_of_le inside⟩
    rw [source]
    simpa using cut
  · rintro ⟨writable, before, after, rfl, rfl⟩
    obtain ⟨inner, source⟩ := exists_source_eq placeholder
    obtain ⟨spelled, braceless⟩ := isWritable_and_source_eq_iff.1 ⟨writable, source⟩
    have stands := spelled.standsAt_append braceless before after
    exact ⟨_, by simpa [source] using stands⟩

end Placeholder

namespace Pattern

open Placeholder

/-- The placeholders of a pattern, each with the place of its first character when the pattern is
written from a place on. -/
def occurrences (start : Nat) : Pattern → List (Nat × Placeholder)
  | [] => []
  | .literal _ :: pattern => occurrences (start + 1) pattern
  | .gap placeholder :: pattern =>
    (start, placeholder) :: occurrences (start + placeholder.source.length) pattern

/-- A text from a place on, with the text for each placeholder that occurs in place of its source. -/
def replaced (texts : Placeholder → Text) (start : Nat) :
    (occurrences : List (Nat × Placeholder)) → Text → Text
  | [], text => text
  | (place, placeholder) :: occurrences, text =>
    let stop := place + placeholder.source.length
    text.take (place - start) ++
      (texts placeholder ++ replaced texts stop occurrences (text.drop (stop - start)))

@[simp] theorem source_nil : source [] = [] := rfl

@[simp] theorem source_cons (piece : Piece) (pattern : Pattern) :
    source (piece :: pattern) = piece.source ++ source pattern := rfl

theorem map_snd_occurrences (start : Nat) (pattern : Pattern) :
    (occurrences start pattern).map Prod.snd = pattern.placeholders := by
  fun_induction occurrences start pattern with
  | case1 => rfl
  | case2 _ _ _ inductionHypothesis => exact inductionHypothesis
  | case3 _ placeholder _ inductionHypothesis =>
    rw [List.map_cons, inductionHypothesis, placeholders_gap_cons]

/-- A placeholder occurs where the pieces before it end. -/
theorem mem_occurrences_iff {start place : Nat} {placeholder : Placeholder} {pattern : Pattern} :
    (place, placeholder) ∈ occurrences start pattern ↔
      ∃ before after, pattern = before ++ .gap placeholder :: after ∧
        place = start + (source before).length := by
  fun_induction occurrences start pattern with
  | case1 => simp
  | case2 start character pattern inductionHypothesis =>
    rw [inductionHypothesis]
    constructor
    · rintro ⟨before, after, rfl, rfl⟩
      exact ⟨.literal character :: before, after, rfl, by simp [Piece.source]; omega⟩
    · rintro ⟨before, after, cut, rfl⟩
      cases before with
      | nil => cases cut
      | cons piece before =>
        obtain ⟨rfl, rfl⟩ := List.cons.inj cut
        exact ⟨before, after, rfl, by simp [Piece.source]; omega⟩
  | case3 start found pattern inductionHypothesis =>
    rw [List.mem_cons, inductionHypothesis]
    constructor
    · rintro (same | ⟨before, after, rfl, rfl⟩)
      · obtain ⟨rfl, rfl⟩ := Prod.mk.inj same
        exact ⟨[], pattern, rfl, rfl⟩
      · exact ⟨.gap found :: before, after, rfl, by simp [Piece.source, Nat.add_assoc]⟩
    · rintro ⟨before, after, cut, rfl⟩
      cases before with
      | nil =>
        obtain ⟨same, rfl⟩ := List.cons.inj cut
        cases same
        exact .inl rfl
      | cons piece before =>
        obtain ⟨rfl, rfl⟩ := List.cons.inj cut
        exact .inr ⟨before, after, rfl, by simp [Piece.source, Nat.add_assoc]⟩

theorem le_of_mem_occurrences {start : Nat} {pattern : Pattern} {occurrence : Nat × Placeholder}
    (member : occurrence ∈ occurrences start pattern) : start ≤ occurrence.1 := by
  obtain ⟨before, _, _, place⟩ := mem_occurrences_iff.1 member
  omega

/-- The placeholders of a pattern are listed in the order of their places. -/
theorem pairwise_occurrences (start : Nat) (pattern : Pattern) :
    (occurrences start pattern).Pairwise fun one other => one.1 < other.1 := by
  fun_induction occurrences start pattern with
  | case1 => exact .nil
  | case2 _ _ _ inductionHypothesis => exact inductionHypothesis
  | case3 start placeholder pattern inductionHypothesis =>
    refine .cons (fun other member => ?_) inductionHypothesis
    have isBehind := le_of_mem_occurrences member
    have sourceLength := List.length_pos_iff.2 placeholder.source_ne_nil
    show start < other.1
    omega

/-- The placeholders of the pattern that a text is cut into are those that are written in the text. -/
theorem mem_occurrences_ofText_iff_source {start place : Nat} {placeholder : Placeholder}
    {text : Text} :
    (place, placeholder) ∈ (ofText text).occurrences start ↔
      placeholder.IsWritable ∧
        ∃ before after, text = before ++ (placeholder.source ++ after) ∧
          place = start + before.length := by
  rw [mem_occurrences_iff]
  constructor
  · rintro ⟨before, after, cut, rfl⟩
    have member : placeholder ∈ (ofText text).placeholders :=
      mem_placeholders_iff.2 (by simp [cut])
    refine ⟨(mem_placeholders_ofText_iff.1 member).1, source before, source after, ?_, rfl⟩
    rw [← source_ofText text, cut]
    simp [source, Piece.source]
  · rintro ⟨writable, before, after, rfl, rfl⟩
    exact ⟨_, _, ofText_append_source writable before after, by simp⟩

/-- The placeholders of the pattern that a text is cut into are those that stand in the text. -/
theorem mem_occurrences_ofText_iff {place : Nat} {placeholder : Placeholder} {text : Text} :
    (place, placeholder) ∈ (ofText text).occurrences 0 ↔
      ∃ stop, placeholder.StandsAt text place stop := by
  rw [mem_occurrences_ofText_iff_source, exists_standsAt_iff]
  simp only [Nat.zero_add, eq_comm]

theorem lt_of_mem_occurrences {start : Nat} {text : Text} {occurrence : Nat × Placeholder}
    (member : occurrence ∈ (ofText text).occurrences start) : occurrence.1 < start + text.length := by
  obtain ⟨-, before, after, rfl, place⟩ := mem_occurrences_ofText_iff_source.1 member
  have sourceLength := List.length_pos_iff.2 occurrence.2.source_ne_nil
  simp only [List.length_append]
  omega

/-- Where a placeholder is written, the text has its characters. -/
theorem exists_mem_source_of_mem_occurrences {text : Text} {occurrence : Nat × Placeholder} {place : Nat}
    (member : occurrence ∈ (ofText text).occurrences 0) (isBehind : occurrence.1 ≤ place)
    (isBefore : place < occurrence.1 + occurrence.2.source.length) :
    ∃ character ∈ occurrence.2.source, text[place]? = some character := by
  obtain ⟨-, before, after, spelled, start⟩ := mem_occurrences_ofText_iff_source.1 member
  rw [Nat.zero_add] at start
  obtain ⟨offset, rfl⟩ := Nat.exists_eq_add_of_le isBehind
  have isInside : offset < occurrence.2.source.length := Nat.lt_of_add_lt_add_left isBefore
  refine ⟨occurrence.2.source[offset], List.getElem_mem isInside, ?_⟩
  rw [spelled, start, List.getElem?_append_right (Nat.le_add_right _ _), Nat.add_sub_cancel_left,
    List.getElem?_append_left isInside, List.getElem?_eq_getElem isInside]

/-- A placeholder is written in a part of a text where it is written in the text, with all of it inside
the part. -/
theorem mem_occurrences_ofText_append_iff {before part after : Text} {place : Nat}
    {placeholder : Placeholder} :
    (place, placeholder) ∈ (ofText part).occurrences before.length ↔
      (place, placeholder) ∈ (ofText (before ++ (part ++ after))).occurrences 0 ∧
        before.length ≤ place ∧
          place + placeholder.source.length ≤ before.length + part.length := by
  rw [mem_occurrences_ofText_iff_source, mem_occurrences_ofText_iff_source]
  constructor
  · rintro ⟨writable, start, rest, rfl, rfl⟩
    refine ⟨⟨writable, before ++ start, rest ++ after, by simp, by simp⟩, by omega, ?_⟩
    simp only [List.length_append]
    omega
  · rintro ⟨⟨writable, start, rest, spelled, rfl⟩, isBehind, isBefore⟩
    rw [Nat.zero_add] at isBehind isBefore ⊢
    obtain ⟨between, rfl⟩ : before <+: start :=
      List.prefix_of_prefix_length_le (spelled ▸ List.prefix_append before _)
        (List.prefix_append start _) isBehind
    rw [List.append_assoc, List.append_cancel_left_eq, ← List.append_assoc] at spelled
    obtain ⟨left, rfl⟩ : between ++ placeholder.source <+: part := by
      refine List.prefix_of_prefix_length_le (List.prefix_append _ rest)
        (spelled ▸ List.prefix_append part _) ?_
      simp only [List.length_append] at isBefore ⊢
      omega
    exact ⟨writable, between, left, List.append_assoc .., List.length_append⟩

/-- What stands before the first placeholder is kept, character by character. -/
theorem replaced_cons {texts : Placeholder → Text} {start : Nat}
    {occurrences : List (Nat × Placeholder)} (character : Character) (text : Text)
    (isBehind : ∀ occurrence ∈ occurrences, start < occurrence.1) :
    replaced texts start occurrences (character :: text) =
      character :: replaced texts (start + 1) occurrences text := by
  cases occurrences with
  | nil => rfl
  | cons occurrence occurrences =>
    obtain ⟨place, placeholder⟩ := occurrence
    obtain ⟨distance, rfl⟩ := Nat.exists_eq_add_of_lt (isBehind _ List.mem_cons_self)
    have taken : start + distance + 1 - start = distance + 1 := by omega
    have left : start + distance + 1 - (start + 1) = distance := by omega
    have dropped : start + distance + 1 + placeholder.source.length - start =
        distance + placeholder.source.length + 1 := by omega
    have dropLeft : start + distance + 1 + placeholder.source.length - (start + 1) =
        distance + placeholder.source.length := by omega
    simp only [replaced, taken, left, dropped, dropLeft, List.take_succ_cons, List.drop_succ_cons,
      List.cons_append]

/-- To fill a pattern is to replace its placeholders where they stand. -/
theorem replaced_occurrences (texts : Placeholder → Text) (start : Nat) (pattern : Pattern) :
    replaced texts start (occurrences start pattern) pattern.source = pattern.filled texts := by
  fun_induction occurrences start pattern with
  | case1 => rfl
  | case2 start character pattern inductionHypothesis =>
    have isBehind : ∀ occurrence ∈ occurrences (start + 1) pattern, start < occurrence.1 :=
      fun _ member => le_of_mem_occurrences member
    rw [source_cons, Piece.source, List.singleton_append, replaced_cons character _ isBehind,
      inductionHypothesis]
    rfl
  | case3 start placeholder pattern inductionHypothesis =>
    simp only [replaced, source_cons, Piece.source, Nat.sub_self, List.take_zero, List.nil_append,
      Nat.add_sub_cancel_left, List.drop_left, inductionHypothesis]
    rfl

end Pattern

end VerbExpansion
