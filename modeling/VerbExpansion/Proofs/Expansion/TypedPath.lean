import VerbExpansion.Proofs.Expansion.SelectedPath

/-!
# Typed paths in a command line

A path that was typed is written into a command line as it is. A shell reads it as one word exactly
when it has no blanks and no quotes (`words?_commandLine_typedPath_iff`). As an argument of its own it
is one whatever it holds, unless the name of the placeholder is cut.
-/

namespace VerbExpansion

namespace Token

/-! ## Texts that are one token -/

/-- A text without blanks and quotes is joined as it was. -/
theorem joined_of_isBare {text : Text} (isBare : Shell.IsBare text) : joined .paired text = text := by
  cases text with
  | nil => exact absurd rfl isBare.notEmpty
  | cons first rest =>
    obtain ⟨notBlank, _, notDouble⟩ := isBare.ordinary first List.mem_cons_self
    have tokens := listOfText_append_of_passesBare notBlank notDouble
      (isSealed_of_isBare isBare).bare (show endsHere [] = true from rfl)
    rw [List.append_nil] at tokens
    rw [joined_of_listOfText tokens, joinedRest_nil, List.append_nil, value]

/-- What is read from a joined text as one word is the text only where it has no blanks and no
quotes. -/
theorem words?_joined_iff {text : Text} :
    Shell.words? (joined .paired text) = some [text] ↔ Shell.IsBare text := by
  constructor
  · intro read
    have bound := countP_joined_le (fun _ => true) (fun _ _ _ => rfl) text
    rw [List.countP_true] at bound
    rcases Shell.length_of_words? read with longer | ⟨_, isBare⟩
    · omega
    · exact isBare
  · intro isBare
    rw [joined_of_isBare isBare]
    exact Shell.words?_of_isBare isBare

/-- A text without tokens is blank. -/
theorem isBlank_of_listOfText_eq_nil {quotes : InnerQuotes} {text : Text}
    (noTokens : listOfText quotes text = []) : ∀ character ∈ text, Text.isBlank character = true := by
  induction text with
  | nil => simp
  | cons first rest inductionHypothesis =>
    cases blank : Text.isBlank first with
    | true =>
      rw [listOfText_cons_of_isBlank blank] at noTokens
      rintro character (_ | ⟨_, member⟩)
      · exact blank
      · exact inductionHypothesis noTokens character member
    | false =>
      by_cases double : first = '"'
      · subst double
        cases closed : closeQuoted? quotes none rest with
        | none =>
          rw [listOfText_cons_of_not_closeQuoted? closed] at noTokens
          cases noTokens
        | some cut =>
          rw [listOfText_cons_of_closeQuoted? closed] at noTokens
          cases noTokens
      · rw [listOfText_cons_of_takeBare blank double rfl] at noTokens
        cases noTokens

/-- A text in braces is one token only where no blank is in the braces. -/
theorem isBlank_of_listOfText_braced {inner : Text} {token : Token}
    (tokens : listOfText .ordinary (.scalar '{' :: inner ++ [.scalar '}']) = [token]) :
    ∀ character ∈ inner, Text.isBlank character = false := by
  rw [List.cons_append] at tokens
  cases cut : takeBare .ordinary none (.scalar '{' :: (inner ++ [.scalar '}'])) with
  | mk taken left =>
    have spelled := eq_append_of_takeBare cut
    rw [listOfText_cons_of_takeBare (by decide) (by decide) cut] at tokens
    -- Nothing but blanks is left of the text, and so nothing at all: a brace ends it.
    have blank := isBlank_of_listOfText_eq_nil (List.cons.inj tokens).2
    rcases List.eq_nil_or_concat left with rfl | ⟨start, last, rfl⟩
    · intro character member
      refine not_isBlank_of_takeBare cut character ?_
      rw [List.append_nil] at spelled
      rw [← spelled]
      exact List.mem_cons_of_mem _ (List.mem_append_left _ member)
    · rw [List.concat_eq_append, ← List.append_assoc, ← List.cons_append] at spelled
      have brace := List.singleton_inj.1 (List.append_inj_right' spelled rfl)
      have braceBlank := blank last (by simp)
      rw [← brace] at braceBlank
      exact absurd braceBlank (by decide)

theorem listOfText_braced {inner : Text}
    (blankless : ∀ character ∈ inner, Text.isBlank character = false) :
    listOfText .ordinary (.scalar '{' :: inner ++ [.scalar '}']) =
      [bare (.scalar '{' :: inner ++ [.scalar '}'])] := by
  have bracedBlankless : ∀ character ∈ (.scalar '{' :: inner ++ [.scalar '}'] : Text),
      Text.isBlank character = false := by
    intro character member
    rcases List.mem_append.1 member with inInner | isBrace
    · rcases List.mem_cons.1 inInner with rfl | inInner
      · decide
      · exact blankless character inInner
    · rw [List.mem_singleton.1 isBrace]
      decide
  have whole : takeBare .ordinary none (.scalar '{' :: inner ++ [.scalar '}'] ++ []) =
      (.scalar '{' :: inner ++ [.scalar '}'], []) :=
    takeBare_append_of_blankless bracedBlankless rfl
  rw [List.append_nil, List.cons_append] at whole
  rw [List.cons_append, listOfText_cons_of_takeBare (by decide) (by decide) whole, listOfText_nil]

end Token

/-! ## Typed paths -/

namespace Context

variable {surroundings : Surroundings} {context : Context} {name value : Text} {base : PathBase}
  {directory : Path}

/-- The placeholder for a typed path, meant from a base directory. -/
def typedPath (name : Text) (base : PathBase) : Placeholder :=
  { name, format := some base.text }

theorem isWritable_typedPath (isPart : Placeholder.IsPart name) (base : PathBase) :
    (typedPath name base).IsWritable := by
  refine ⟨isPart, fun format written => ?_⟩
  cases written
  cases base with
  | directory => exact ⟨by decide, by decide⟩
  | parent => exact ⟨by decide, by decide⟩

/-- A typed path is written as it is in both styles. -/
theorem filling?_typedPath (free : ContextName.ofText? name = none)
    (typed : context.value? name = some value)
    (found : baseDirectory surroundings context base = .ok directory) (style : PathStyle) :
    filling? surroundings context style (typedPath name base) =
      .ok (some (Path.resolve surroundings.home directory value).text) := by
  simp only [filling?, Placeholder.contextName?, typedPath, free, typed, formatted,
    PathBase.ofText?_text, found]
  rfl

theorem ofText_source_typedPath (isPart : Placeholder.IsPart name) (base : PathBase) :
    Pattern.ofText (typedPath name base).source = [.gap (typedPath name base)] := by
  have pieces := Pattern.ofText_source_append (isWritable_typedPath isPart base) []
  rwa [List.append_nil, Pattern.ofText_nil] at pieces

theorem filled_source_typedPath (isPart : Placeholder.IsPart name)
    (free : ContextName.ofText? name = none) (typed : context.value? name = some value)
    (found : baseDirectory surroundings context base = .ok directory) (style : PathStyle) :
    (Pattern.ofText (typedPath name base).source).filled
        (filling? surroundings context style).text =
      (Path.resolve surroundings.home directory value).text := by
  rw [ofText_source_typedPath isPart, Pattern.filled_cons, Pattern.filled_nil, List.append_nil,
    Piece.filled, Filling.text_eq_getD (filling?_typedPath free typed found style), Option.getD_some]

theorem answers_typedPath (isPart : Placeholder.IsPart name)
    (free : ContextName.ofText? name = none) (typed : context.value? name = some value)
    (found : baseDirectory surroundings context base = .ok directory) (style : PathStyle) :
    (filling? surroundings context style).Answers (typedPath name base).source := by
  intro placeholder member
  rw [ofText_source_typedPath isPart, Pattern.mem_placeholders_iff, List.mem_singleton] at member
  cases member
  exact ⟨_, filling?_typedPath free typed found style⟩

theorem source_typedPath (name : Text) (base : PathBase) : (typedPath name base).source =
    .scalar '{' :: (name ++ .scalar ':' :: base.text) ++ [.scalar '}'] := by
  simp [Placeholder.source, typedPath]

/-- What a typed path becomes in a command line is read as one word exactly when it has no blanks and
no quotes. It is one argument exactly when the name of the placeholder has no blanks. -/
theorem words?_commandLine_typedPath_iff (surroundings : Surroundings) (context : Context)
    (name value : Text) (base : PathBase) (directory : Path) (isPart : Placeholder.IsPart name)
    (free : ContextName.ofText? name = none) (typed : context.value? name = some value)
    (found : baseDirectory surroundings context base = .ok directory) :
    ∃ line arguments,
      commandLine surroundings context (typedPath name base).source = .ok line ∧
      Context.arguments surroundings context (typedPath name base).source = .ok arguments ∧
      (Shell.words? line = some [(Path.resolve surroundings.home directory value).text] ↔
        Shell.IsBare (Path.resolve surroundings.home directory value).text) ∧
      (arguments = [(Path.resolve surroundings.home directory value).text] ↔
        ∀ character ∈ name, Text.isBlank character = false) := by
  have line := Filling.commandLine_eq_ok (answers_typedPath isPart free typed found .shellWord)
  have arguments := Filling.arguments_eq_ok (answers_typedPath isPart free typed found .plain)
  rw [filled_source_typedPath isPart free typed found] at line
  refine ⟨_, _, line, arguments, Token.words?_joined_iff, fun same => ?_, fun blankless => ?_⟩
  · have single := congrArg List.length same
    rw [List.length_map, List.length_singleton] at single
    obtain ⟨token, tokens⟩ := List.length_eq_one_iff.1 single
    rw [source_typedPath] at tokens
    exact fun character member =>
      Token.isBlank_of_listOfText_braced tokens character (List.mem_append_left _ member)
  · have formatBlankless : ∀ character ∈ (.scalar ':' :: base.text : Text),
        Text.isBlank character = false := by
      cases base <;> decide
    have inner : ∀ character ∈ name ++ .scalar ':' :: base.text, Text.isBlank character = false := by
      intro character member
      rcases List.mem_append.1 member with inName | inFormat
      · exact blankless character inName
      · exact formatBlankless character inFormat
    have token := Token.listOfText_braced inner
    rw [← source_typedPath] at token
    rw [token, List.map_singleton, Token.value, filled_source_typedPath isPart free typed found]

/-- A typed path without blanks and quotes, meant from the parent of the selection. -/
theorem words?_commandLine_of_typed_file :
    let surroundings := Surroundings.ofDirectories "/home/me" []
    let context : Context :=
      { selection := { path := Path.ofText "/a/f" }, values := some [("n", "../$x;y")] }
    Placeholder.IsPart "n" ∧ ContextName.ofText? "n" = none ∧
      context.value? "n" = some "../$x;y" ∧
      baseDirectory surroundings context .parent = .ok (Path.ofText "/a") ∧
      ∃ line arguments,
        commandLine surroundings context "{n:path-from-parent}" = .ok line ∧
        Context.arguments surroundings context "{n:path-from-parent}" = .ok arguments ∧
        (Shell.words? line = some [("/$x;y" : Text)] ↔ Shell.IsBare "/$x;y") ∧
        (arguments = ["/$x;y"] ↔ ∀ character ∈ ("n" : Text), Text.isBlank character = false) := by
  intro surroundings context
  have isPart : Placeholder.IsPart "n" := ⟨by decide, by decide⟩
  have free : ContextName.ofText? "n" = none := by decide
  have typed : context.value? "n" = some "../$x;y" := by decide
  have found : baseDirectory surroundings context .parent = .ok (Path.ofText "/a") := by decide +kernel
  have meant : (Path.resolve surroundings.home (Path.ofText "/a") "../$x;y").text = "/$x;y" := by
    decide +kernel
  have written : (typedPath "n" .parent).source = "{n:path-from-parent}" := by decide
  have expanded := words?_commandLine_typedPath_iff surroundings context "n" "../$x;y" .parent
    (Path.ofText "/a") isPart free typed found
  rw [meant, written] at expanded
  exact ⟨isPart, free, typed, found, expanded⟩

/-- A blank in the parent of the selection cuts a typed path in two. -/
theorem words?_commandLine_of_blank_parent :
    let surroundings := Surroundings.ofDirectories "/home/me" []
    let context : Context :=
      { selection := { path := Path.ofText "/a b/f" }, values := some [("n", "x")] }
    commandLine surroundings context "{n:path-from-parent}" = .ok "/a b/x" ∧
      Context.arguments surroundings context "{n:path-from-parent}" = .ok ["/a b/x"] ∧
      Shell.words? "/a b/x" = some [("/a" : Text), "b/x"] := by
  decide +kernel

end Context

end VerbExpansion
