import VerbExpansion.Proofs.Expansion.Lookups
import VerbExpansion.Proofs.Pattern.Positions

/-!
# What filling replaces

Filling a text replaces the placeholders that stand in it, each at its place, and nothing else. What
was filled in is not looked at again: the places are those of the text itself
(`mem_occurrences_iff_and_fill_eq_ok`).
-/

namespace VerbExpansion.Context

/-- The placeholders of a text are those that stand at its places, in order. Where no lookup is denied,
filling the text puts in the place of each of them what fills it, or its own source when nothing does.
Only a line that is too long to be written ends the filling. -/
theorem mem_occurrences_iff_and_fill_eq_ok (surroundings : Surroundings) (context : Context)
    (style : PathStyle) (text : Text) :
    let occurrences := (Pattern.ofText text).occurrences 0
    ((∀ place placeholder, (place, placeholder) ∈ occurrences ↔
          ∃ stop, placeholder.StandsAt text place stop) ∧
        occurrences.Pairwise (fun one other => one.1 < other.1) ∧
        occurrences.map Prod.snd = (Pattern.ofText text).placeholders) ∧
      (Undenied surroundings context text →
        (¬ AsksForLongLine context text →
          ∃ texts : Placeholder → Text,
            (∀ place placeholder, (place, placeholder) ∈ occurrences →
              ∃ answer, filling? surroundings context style placeholder = .ok answer ∧
                texts placeholder = answer.getD placeholder.source) ∧
            Filling.fill (filling? surroundings context style) text =
              .ok (Pattern.replaced texts 0 occurrences text)) ∧
        (AsksForLongLine context text →
          Filling.fill (filling? surroundings context style) text = .error .oversizedLine)) := by
  intro occurrences
  refine ⟨⟨fun place placeholder => Pattern.mem_occurrences_ofText_iff,
    Pattern.pairwise_occurrences 0 _, Pattern.map_snd_occurrences 0 _⟩,
    fun undenied => ⟨fun short => ?_, fun long => ?_⟩⟩
  · have answers := answers_of_undenied undenied short style
    refine ⟨(filling? surroundings context style).text, fun place placeholder occurs => ?_, ?_⟩
    · have member : placeholder ∈ (Pattern.ofText text).placeholders := by
        rw [← Pattern.map_snd_occurrences 0]
        exact List.mem_map_of_mem occurs
      obtain ⟨answer, answered⟩ := answers placeholder member
      exact ⟨answer, answered, Filling.text_eq_getD answered⟩
    · have replaced := Pattern.replaced_occurrences (filling? surroundings context style).text 0
        (Pattern.ofText text)
      rw [Pattern.source_ofText] at replaced
      rw [replaced]
      exact Filling.fill_eq_ok answers
  · obtain ⟨isLong, _, member, named⟩ := long
    have settled := (Filling.looksUp_fill text).settled (filling? surroundings context style)
    exact eq_oversizedLine_of_settled settled undenied isLong member named

/-- Braces within braces, a part too many, and a path and a value that look like placeholders. -/
theorem fill_eq_ok_of_many_braces :
    let surroundings := Surroundings.ofDirectories "/home/me" []
    let context : Context :=
      { selection := { path := Path.ofText "/{line}" }, values := some [("x", "{file}")] }
    let text : Text := "{{file}} {a:b:c}{x} {y:z}\x7b"
    Undenied surroundings context text ∧ ¬ AsksForLongLine context text ∧
      ∃ texts : Placeholder → Text,
        (Pattern.ofText text).occurrences 0 =
          [(1, ⟨"file", none⟩), (16, ⟨"x", none⟩), (20, ⟨"y", some "z"⟩)] ∧
        Filling.fill (filling? surroundings context .plain) text =
          .ok (Pattern.replaced texts 0 ((Pattern.ofText text).occurrences 0) text) ∧
        Filling.fill (filling? surroundings context .plain) text =
          .ok "{/{line}} {a:b:c}{file} {y:z}\x7b" := by
  intro surroundings context text
  have undenied := undenied_ofDirectories "/home/me" [] context text
  have short : ¬ AsksForLongLine context text :=
    not_asksForLongLine_of_hasShortLine (by decide +kernel) text
  obtain ⟨texts, _, filled⟩ :=
    ((mem_occurrences_iff_and_fill_eq_ok surroundings context .plain text).2 undenied).1 short
  exact ⟨undenied, short, texts, by decide +kernel, filled, by decide +kernel⟩

end VerbExpansion.Context
