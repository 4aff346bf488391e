import LockPrefetch.Text.Decimal
import LockPrefetch.Text.Quoted
import LockPrefetch.Text.Split

/-! # Arguments

How the words of a command line are understood. Options may be shortened as long as it is clear
which one is meant, take their value from behind an equals sign or from the next word, and may
stand anywhere; `--` ends them. What is no option is an argument, first the lockfile, then the
output directory. Both are settled at the first run of arguments: an argument that comes after a
later option has no place. -/

set_option autoImplicit false

namespace LockPrefetch.CommandLine

/-! ## Options -/

/-- The options. -/
inductive Switch where
  | help
  | jobs
  | requireIntegrity
  | mutableRefs
  | report
deriving DecidableEq, Repr

/-- The spellings of the options. -/
def spellings : List (String × Switch) :=
  [("-h", .help), ("--help", .help), ("--jobs", .jobs),
   ("--require-integrity", .requireIntegrity), ("--mutable-refs", .mutableRefs),
   ("--report", .report)]

/-- How messages name an option. -/
def Switch.name : Switch → String
  | .help => "-h/--help"
  | .jobs => "--jobs"
  | .requireIntegrity => "--require-integrity"
  | .mutableRefs => "--mutable-refs"
  | .report => "--report"

/-- Whether an option takes a value. -/
def Switch.takesValue : Switch → Bool
  | .jobs | .mutableRefs | .report => true
  | .help | .requireIntegrity => false

/-- The values that the option on mutable refs takes. -/
def refChoices : List String := ["warn", "error", "allow"]

/-! ## Misuse -/

/-- Why a command line cannot be understood. -/
inductive Misuse where
  | ambiguous (word : String) (candidates : List String)
  | noValue (switch : Switch)
  | unwantedValue (switch : Switch) (value : String)
  | notANumber (value : String)
  | notAChoice (value : String)
  | unrecognized (words : List String)
deriving DecidableEq, Repr

/-- The wording of a misuse. -/
def Misuse.message : Misuse → String
  | .ambiguous word candidates =>
    "ambiguous option: " ++ word ++ " could match " ++ ", ".intercalate candidates
  | .noValue switch => "argument " ++ switch.name ++ ": expected one argument"
  | .unwantedValue switch value =>
    "argument " ++ switch.name ++ ": ignored explicit argument " ++ Text.quoted value
  | .notANumber value =>
    "argument " ++ Switch.jobs.name ++ ": invalid int value: " ++ Text.quoted value
  | .notAChoice value =>
    "argument " ++ Switch.mutableRefs.name ++ ": invalid choice: " ++ Text.quoted value ++
      " (choose from " ++ ", ".intercalate (refChoices.map Text.quoted) ++ ")"
  | .unrecognized words => "unrecognized arguments: " ++ " ".intercalate words

/-! ## Kinds of words -/

/-- What a word is. An option comes with its spelling's length and the value attached to it;
one that is not known comes without a meaning. -/
inductive Kind where
  | argument
  | separator
  | option (switch : Option Switch) (short : Bool) (value : Option String)
deriving DecidableEq, Repr

/-- A word and what it is. -/
structure Word where
  text : String
  kind : Kind
deriving DecidableEq, Repr

/-- Whether a word is a negative number, with or without a fraction. A line end may follow. -/
def isNegativeNumber (word : List Char) : Bool :=
  let digits := fun cs : List Char => cs.all fun c => (Text.digitValue? c).isSome
  match word with
  | '-' :: rest =>
    let body := if rest.getLast? = some '\n' then rest.dropLast else rest
    match Text.cut '.' body with
    | (whole, none) => !whole.isEmpty && digits whole
    | (whole, some fraction) => digits whole && !fraction.isEmpty && digits fraction
  | _ => false

/-- The options that a word may mean, by the rules for shortened spellings. -/
def candidates (word : List Char) : List (String × Kind) :=
  match word with
  | '-' :: '-' :: _ =>
    let (start, value) := Text.cut '=' word
    (spellings.filter fun s => start.isPrefixOf s.1.toList).map fun s =>
      (s.1, .option (some s.2) false (value.map String.ofList))
  | _ =>
    (spellings.filter fun s => s.1.toList == word.take 2).map fun s =>
      (s.1, .option (some s.2) true (some (String.ofList (word.drop 2))))

/-- The option that is spelled out in full. -/
def spelled? (spelling : List Char) : Option Switch :=
  (spellings.find? fun s => s.1.toList == spelling).map Prod.snd

/-- The option that is spelled out in full, alone or in front of an equals sign. -/
def inFull? (word : List Char) : Option Kind :=
  let short := word.drop 1 |>.head?.any (· != '-')
  match spelled? word with
  | some switch => some (.option (some switch) short none)
  | none =>
    match Text.cut '=' word with
    | (spelling, some value) =>
      (spelled? spelling).map fun switch =>
        .option (some switch) short (some (String.ofList value))
    | (_, none) => none

/-- What a word in front of the separator is. -/
def kindOf (text : String) : Except Misuse Kind :=
  let word := text.toList
  if word.head? != some '-' || word.length == 1 then .ok .argument
  else
    match inFull? word with
    | some kind => .ok kind
    | none =>
      match candidates word with
      | [(_, kind)] => .ok kind
      | [] =>
        if isNegativeNumber word || word.contains ' ' then .ok .argument
        else .ok (.option none false none)
      | several => .error (.ambiguous text (several.map Prod.fst))

/-- The kinds of all words. -/
def classify : List String → Except Misuse (List Word)
  | [] => .ok []
  | text :: rest =>
    if text = "--" then .ok (⟨text, .separator⟩ :: rest.map fun t => ⟨t, .argument⟩)
    else do
      let kind ← kindOf text
      return ⟨text, kind⟩ :: (← classify rest)

/-! ## Settings -/

/-- The value of an option. An option whose value is `--` has been given nothing. -/
inductive Given (α : Type) where
  | missing
  | nothing
  | value (a : α)
deriving DecidableEq, Repr

/-- What a command line asks for. -/
structure Settings where
  lockfile : Option String
  outputDirectory : Option String
  jobs : Given Int
  requireIntegrity : Bool
  mutableRefs : Given String
  report : Given String
deriving DecidableEq, Repr

/-- The settings of an empty command line. -/
def Settings.start : Settings := ⟨none, none, .missing, false, .missing, .missing⟩

/-- Why reading a command line ends early: help is asked for, or it cannot be understood. -/
inductive Stop where
  | help
  | misuse (misuse : Misuse)
deriving DecidableEq, Repr

/-- The settings with an option's value. -/
def assign (settings : Settings) (switch : Switch) (value : String) : Except Stop Settings :=
  match switch with
  | .jobs =>
    if value = "--" then .ok { settings with jobs := .nothing }
    else
      match Text.wholeNumber? value.toList with
      | some n => .ok { settings with jobs := .value n }
      | none => .error (.misuse (.notANumber value))
  | .mutableRefs =>
    if value = "--" then .ok { settings with mutableRefs := .nothing }
    else if refChoices.contains value then .ok { settings with mutableRefs := .value value }
    else .error (.misuse (.notAChoice value))
  | .report =>
    if value = "--" then .ok { settings with report := .nothing }
    else .ok { settings with report := .value value }
  | .help | .requireIntegrity => .ok settings

/-- The end of reading at a short help option with letters attached: every letter has to be the
same option again. -/
def attachedHelp : List Char → Stop
  | [] => .help
  | c :: rest =>
    if c = 'h' then attachedHelp rest
    else .misuse (.unwantedValue .help (String.ofList (c :: rest)))

/-- The settings with an option that takes no value. -/
def turnOn (settings : Settings) (switch : Switch) (short : Bool) (value : Option String) :
    Except Stop Settings :=
  match value, switch with
  | none, .help => .error .help
  | none, _ => .ok { settings with requireIntegrity := true }
  | some value, _ =>
    if short && value != "" then .error (attachedHelp value.toList)
    else .error (.misuse (.unwantedValue switch value))

/-! ## Arguments in their places -/

/-- The words that fill one place: an argument at most, and separators around it; and the words
behind them. -/
def takePlace (words : List Word) : List Word × List Word :=
  let isSeparator := fun w : Word => w.kind == .separator
  let before := words.takeWhile isSeparator
  let rest := words.dropWhile isSeparator
  match rest with
  | ⟨text, .argument⟩ :: more =>
    (before ++ ⟨text, .argument⟩ :: more.takeWhile isSeparator, more.dropWhile isSeparator)
  | _ => (before, rest)

/-- The argument in a place, after one `--` has been removed. -/
def placeValue (words : List Word) : Option String :=
  ((words.map Word.text).erase "--").head?

/-- Fills both places with the arguments at the start of some words. -/
def fillPlaces (settings : Settings) (words : List Word) : Settings × List Word :=
  let (first, rest) := takePlace words
  let (second, rest) := takePlace rest
  ({ settings with lockfile := placeValue first, outputDirectory := placeValue second }, rest)

/-! ## Reading -/

/-- Reads the options among some words. Arguments fill the places when the first of them comes
and `placesOpen` is true; other words that fit nowhere are left over. `fuel` bounds the number of
steps by the number of words. -/
def readOptions (fuel : Nat) (settings : Settings) (placesOpen : Bool) (left : List String)
    (words : List Word) : Except Stop (Settings × List String) :=
  match fuel, words with
  | fuel + 1, ⟨text, .option switch short value⟩ :: rest =>
    match switch with
    | none => readOptions fuel settings placesOpen (left ++ [text]) rest
    | some switch =>
      if switch.takesValue then
        match value, rest with
        | some value, rest => do
          readOptions fuel (← assign settings switch value) placesOpen left rest
        | none, ⟨next, .argument⟩ :: rest => do
          readOptions fuel (← assign settings switch next) placesOpen left rest
        | none, _ => .error (.misuse (.noValue switch))
      else do
        readOptions fuel (← turnOn settings switch short value) placesOpen left rest
  | fuel + 1, word :: rest =>
    if placesOpen then
      let (settings, behind) := fillPlaces settings (word :: rest)
      readOptions fuel settings false left behind
    else readOptions fuel settings placesOpen (left ++ [word.text]) rest
  | _, _ =>
    .ok ((if placesOpen then (fillPlaces settings []).1 else settings), left)

/-- Reads a command line. -/
def parse (arguments : List String) : Except Stop Settings := do
  let words ← (classify arguments).mapError .misuse
  let (settings, left) ← readOptions (words.length + 1) Settings.start true [] words
  if left.isEmpty then return settings else .error (.misuse (.unrecognized left))

end LockPrefetch.CommandLine
