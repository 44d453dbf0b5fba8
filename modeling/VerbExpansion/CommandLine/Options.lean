import VerbExpansion.Text.Numeral

/-!
# Options on command lines

A command line is read against a grammar of flags, settings and places. A flag is a word after two
dashes, or a letter after one dash, where letters may be bundled. A setting is a word after two
dashes with a value, which follows an equals sign or is the next argument. Any start of a word will do
that no other word has. Options may stand anywhere before an argument of two dashes alone, which
separates them from plain arguments. Plain arguments fill the places in order.

A separator is taken away wherever it is found. So there is no value where the value of a setting
would be a separator, nor where a second separator fills a place.

Reading gives what was found in order. Where it cannot go on, or when the arguments do not fill the
places exactly, the reading is not complete.
-/

namespace VerbExpansion.CommandLine

/-- What may stand on a command line. Options are told apart by the names they have here. -/
structure Grammar (Name : Type) where
  /-- The letter and the word of each flag. -/
  flags : List (Name × Character × Text)
  /-- The word of each setting. -/
  settings : List (Name × Text)
  /-- How many plain arguments there have to be. -/
  places : Nat

/-- What was found on a command line. -/
inductive Finding (Name : Type) where
  | flag (name : Name)
  /-- A setting and its value, if a separator did not take it away. -/
  | setting (name : Name) (value : Option Text)
  /-- A plain argument, if a separator did not take it away. -/
  | plain (argument : Option Text)

/-- What one argument is, seen for itself. -/
inductive Mark (Name : Type) where
  | plain (argument : Text)
  | separator
  | flags (names : List Name)
  /-- A setting, with its value if that is part of the argument. -/
  | setting (name : Name) (value : Option Text)
  /-- An option that is not known. -/
  | unknown
  /-- A known option in a form that it cannot have. -/
  | misused

/-- The findings of a command line, in order, up to where reading had to stop. -/
structure Reading (Name : Type) where
  findings : List (Finding Name)
  isComplete : Bool

/-- The reading with something found before it. -/
def Reading.preceded {Name : Type} (finding : Finding Name) (reading : Reading Name) :
    Reading Name :=
  ⟨finding :: reading.findings, reading.isComplete⟩

/-- The reading when something before it is out of place. -/
def Reading.spoilt {Name : Type} (reading : Reading Name) : Reading Name :=
  ⟨reading.findings, false⟩

/-- Whether the text is some decimal digits, perhaps before a line end that ends it. -/
def endsInDigits (text : Text) : Bool :=
  let rest := text.dropWhile Text.isDecimalDigit
  (text.head?.any Text.isDecimalDigit) && (rest == [] || rest == [.scalar '\n'])

/-- Whether an argument is a negative number: a dash with digits after it, perhaps with a point
before the last of them. -/
def isNegativeNumber : Text → Bool
  | .scalar '-' :: text =>
    endsInDigits text ||
      match text.dropWhile Text.isDecimalDigit with
      | .scalar '.' :: fraction => endsInDigits fraction
      | _ => false
  | _ => false

/-- The separator of options and plain arguments. -/
def separator : Text :=
  [.scalar '-', .scalar '-']

namespace Grammar

variable {Name : Type} (grammar : Grammar Name)

/-- What a word stands for: a flag, or else a setting. -/
def words : List (Text × Name × Bool) :=
  grammar.flags.map (fun (name, _, word) => (word, name, true)) ++
    grammar.settings.map (fun (name, word) => (word, name, false))

/-- The words that a text may be a start of: only the word itself, when it is one. -/
def completions (start : Text) : List (Text × Name × Bool) :=
  match grammar.words.filter (·.1 == start) with
  | [] => grammar.words.filter (start.isPrefixOf ·.1)
  | exact => exact

/-- The flag with this letter. -/
def flagOfLetter? (letter : Character) : Option Name :=
  (grammar.flags.find? (·.2.1 == letter)).map (·.1)

/-- The letters of a bundle after its first letter. An equals sign may stand before them. -/
def moreLetters : Text → Text
  | .scalar '=' :: letter :: letters => letter :: letters
  | letters => letters

/-- The bundle of a flag and of the flags whose letters follow. -/
def bundle (first : Name) (rest : Text) : Mark Name :=
  match (moreLetters rest).mapM grammar.flagOfLetter? with
  | some names => .flags (first :: names)
  | none => .misused

/-- An argument that is no option that is known: a plain argument when it is a negative number or
holds a space. -/
def markOther (argument : Text) : Mark Name :=
  if isNegativeNumber argument || argument.contains (.scalar ' ') then .plain argument else .unknown

/-- What an argument is before the separator; nothing when it starts several words. -/
def mark? (argument : Text) : Option (Mark Name) :=
  match argument with
  | .scalar '-' :: .scalar '-' :: body =>
    let value :=
      match body.dropWhile (· != .scalar '=') with
      | [] => none
      | _ :: value => some value
    match grammar.completions (body.takeWhile (· != .scalar '=')) with
    | [] => some (markOther argument)
    | [(_, name, true)] => some (if value.isNone then .flags [name] else .misused)
    | [(_, name, false)] => some (.setting name value)
    | _ => none
  | .scalar '-' :: letter :: rest =>
    match grammar.flagOfLetter? letter with
    | none => some (markOther argument)
    | some first => some (grammar.bundle first rest)
  | _ => some (.plain argument)

/-- What the arguments are; nothing when one of them starts several words. -/
def marks? : List Text → Option (List (Mark Name))
  | [] => some []
  | argument :: rest =>
    if argument = separator then some (.separator :: rest.map .plain)
    else
      match grammar.mark? argument, marks? rest with
      | some mark, some marks => some (mark :: marks)
      | _, _ => none

end Grammar

namespace Reading

variable {Name : Type}

/-- The value that an argument gives: none, when it is a separator. -/
def valueOf? (argument : Text) : Option Text :=
  if argument = separator then none else some argument

/-- The reading of what follows the separator. -/
def afterSeparator : (places : Nat) → List (Mark Name) → Reading Name
  | places, [] => ⟨[], places == 0⟩
  | places + 1, .plain argument :: rest =>
    (afterSeparator places rest).preceded (.plain (valueOf? argument))
  | _, _ :: _ => ⟨[], false⟩

/-- The reading of marks, with so many places still to fill. The separator belongs to the plain
argument that stands directly before it, or else to the one after it; there has to be one. -/
def ofMarks : (places : Nat) → (afterPlain : Bool) → List (Mark Name) → Reading Name
  | places, _, [] => ⟨[], places == 0⟩
  | 0, _, .plain _ :: rest => (ofMarks 0 false rest).spoilt
  | places + 1, _, .plain argument :: rest =>
    (ofMarks places true rest).preceded (.plain (some argument))
  | places, true, .separator :: rest => afterSeparator places rest
  | places + 1, false, .separator :: .plain argument :: rest =>
    (afterSeparator places rest).preceded (.plain (some argument))
  | _, false, .separator :: _ => ⟨[], false⟩
  | places, _, .flags names :: rest =>
    names.foldr (fun name => preceded (.flag name)) (ofMarks places false rest)
  | places, _, .setting name (some value) :: rest =>
    (ofMarks places false rest).preceded (.setting name (valueOf? value))
  | places, _, .setting name none :: .plain value :: rest =>
    (ofMarks places false rest).preceded (.setting name (some value))
  | _, _, .setting _ none :: _ => ⟨[], false⟩
  | places, _, .unknown :: rest => (ofMarks places false rest).spoilt
  | _, _, .misused :: _ => ⟨[], false⟩

/-- The reading of a command line. -/
def ofArguments (grammar : Grammar Name) (arguments : List Text) : Reading Name :=
  match grammar.marks? arguments with
  | some marks => ofMarks grammar.places false marks
  | none => ⟨[], false⟩

end Reading

end VerbExpansion.CommandLine
