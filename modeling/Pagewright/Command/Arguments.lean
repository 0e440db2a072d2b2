import Pagewright.Config.Basic

/-! # `Command.Arguments`: what is asked for on the command line

The words of the command line are read by the options that a command knows: `--name value`, `--name=value`,
`-n value`, `-nvalue`, `-n=value`, and flags without a value, of which several may stand behind one dash. An
option is given once at most. Behind `--` no word is an option.
-/

namespace Pagewright.Command

open Config (Environment)

/-- Why no command is run. -/
inductive Stop
  /-- The words make no sense. -/
  | usage
  | help
  | version
deriving DecidableEq, Inhabited

/-! ## Options -/

/-- An option that a command knows. -/
structure OptionForm where
  name : Text
  letter : Option Char
  takesValue : Bool
deriving DecidableEq, Inhabited

/-- What was read: options with their values, and the other words. -/
structure Words where
  options : List (Text × Text)
  others : List Text
deriving DecidableEq, Inhabited

/-- Is the word meant as an option? -/
def looksLikeOption : Text → Bool
  | '-' :: _ :: _ => true
  | _ => false

/-- Puts an option with its value in front of what was read, unless it is given twice. -/
def Words.addOption (name value : Text) (w : Words) : Except Stop Words :=
  if (w.options.lookup name).isSome then .error .usage
  else .ok { w with options := (name, value) :: w.options }

/-- What the letters behind one dash say: the flags, and an option with the value behind its letter, which
may be missing. -/
def readLetters (forms : List OptionForm) : Text → Except Stop (List Text × Option (Text × Option Text))
  | [] => .ok ([], none)
  | c :: r =>
    if c = 'h' then .error .help
    else match forms.find? (·.letter = some c) with
      | none => .error .usage
      | some form =>
        if form.takesValue then
          .ok ([], some (form.name, match r with
            | [] => none
            | '=' :: value => some value
            | value => some value))
        else do
          let (flags, last) ← readLetters forms r
          return (form.name :: flags, last)

/-- The name of a long option and the value behind an equal sign. -/
def splitLong (t : Text) : Text × Option Text :=
  match Text.splitOnce? '=' t with
  | some (name, value) => (name, some value)
  | none => (t, none)

/-- What a word that looks like an option says: flags, and an option with its value, which may be missing. -/
def readOption (forms : List OptionForm) (t : Text) :
    Except Stop (List Text × Option (Text × Option Text)) :=
  match Text.after? ['-', '-'] t with
  | some long =>
    let (name, value) := splitLong long
    if name = "help".toList && value.isNone then .error .help
    else match forms.find? (·.name = name) with
      | none => .error .usage
      | some form =>
        if form.takesValue then .ok ([], some (name, value))
        else if value.isSome then .error .usage
        else .ok ([name], none)
  | none => readLetters forms (t.drop 1)

/-- Puts flags in front of what was read. -/
def Words.addFlags (flags : List Text) (w : Words) : Except Stop Words :=
  flags.foldrM (fun name w => w.addOption name []) w

/-- Reads words, behind others of which so many were no options. -/
def readWords (forms : List OptionForm) (most : Nat) : Nat → List Text → Except Stop Words
  | _, [] => .ok ⟨[], []⟩
  | others, t :: rest =>
    if t = ['-', '-'] then
      if others + rest.length ≤ most then .ok ⟨[], rest⟩ else .error .usage
    else if looksLikeOption t then do
      match ← readOption forms t with
      | (flags, none) => (← readWords forms most others rest).addFlags flags
      | (flags, some (name, some value)) =>
        let w ← (← readWords forms most others rest).addOption name value
        w.addFlags flags
      | (flags, some (name, none)) =>
        match rest with
        | value :: rest =>
          -- the value of an option stands in the next word, which must not look like an option
          if looksLikeOption value then .error .usage
          else do
            let w ← (← readWords forms most others rest).addOption name value
            w.addFlags flags
        | [] => .error .usage
    else if others < most then do
      let w ← readWords forms most (others + 1) rest
      return { w with others := t :: w.others }
    else .error .usage

/-- A path given as the value of an option, which may be missing but not empty. -/
def Words.path? (w : Words) (name : String) : Except Stop (Option Path) :=
  match w.options.lookup name.toList with
  | none => .ok none
  | some t => if t.isEmpty then .error .usage else .ok (some ⟨t⟩)

/-- Is a flag given? -/
def Words.flag (w : Words) (name : String) : Bool := (w.options.lookup name.toList).isSome

/-! ## Commands -/

/-- What every command is told about the site. -/
structure SiteOptions where
  config : Option Path
  root : Option Path
  url : Option Text
  dev : Bool
  verbose : Bool
deriving DecidableEq, Inhabited

/-- What can be asked for. -/
inductive Request
  /-- Make all documents. -/
  | build (site : SiteOptions) (outputDir : Option Path)
  /-- Make one document, which may be written to a file. -/
  | render (site : SiteOptions) (file : Path) (output : Option Path)
deriving DecidableEq, Inhabited

/-- The options about the site. -/
def siteForms : List OptionForm :=
  [⟨"config".toList, some 'c', true⟩, ⟨"root".toList, some 'r', true⟩, ⟨"url".toList, none, true⟩,
    ⟨"dev".toList, none, false⟩, ⟨"verbose".toList, some 'v', false⟩]

/-- The options of the command that makes all documents. -/
def buildForms : List OptionForm := siteForms ++ [⟨"output-dir".toList, some 'o', true⟩]

/-- The options of the command that makes one document. -/
def renderForms : List OptionForm := siteForms ++ [⟨"output".toList, some 'o', true⟩]

/-- The variable that says what links begin with, if no option does. -/
def urlVariable : Text := "QUILL_URL".toList

/-- What was said about the site. -/
def siteOptions (env : Environment) (w : Words) : Except Stop SiteOptions := do
  let config ← w.path? "config"
  let root ← w.path? "root"
  let url := (w.options.lookup "url".toList).or (env.lookup urlVariable)
  return ⟨config, root, url, w.flag "dev", w.flag "verbose"⟩

/-- Reads the words behind `build`. -/
def readBuild (env : Environment) (args : List Text) : Except Stop Request := do
  let w ← readWords buildForms 0 0 args
  return .build (← siteOptions env w) (← w.path? "output-dir")

/-- Reads the words behind `render`. -/
def readRender (env : Environment) (args : List Text) : Except Stop Request := do
  let w ← readWords renderForms 1 0 args
  match w.others with
  | [file] =>
    if file.isEmpty then .error .usage
    else return .render (← siteOptions env w) ⟨file⟩ (← w.path? "output")
  | _ => .error .usage

/-- The names of the commands. -/
def commandNames : List Text := ["build".toList, "render".toList, "help".toList]

/-- Reads the words of the command line. -/
def read (env : Environment) : List Text → Except Stop Request
  | [] => .error .usage
  | t :: rest =>
    if t = "build".toList then readBuild env rest
    else if t = "render".toList then readRender env rest
    else if t = "help".toList then
      match rest with
      | [] => .error .help
      | [name] => if commandNames.any (· = name) then .error .help else .error .usage
      | _ => .error .usage
    else if t = "--help".toList then .error .help
    else if t = "--version".toList then .error .version
    else match t with
      | '-' :: 'h' :: _ => .error .help
      | '-' :: 'V' :: _ => .error .version
      | _ => .error .usage

end Pagewright.Command
