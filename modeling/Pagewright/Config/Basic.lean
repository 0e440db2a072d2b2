import Pagewright.Config.File
import Pagewright.Config.Variables
import Pagewright.Storage.Disk

/-! # `Config`: where a site is and how its documents are made

A configuration comes from a file that is named, or from the next configuration file in the working directory
and those above it, or is the default for the working directory (`Config.load`). Variables in the file are
replaced first; then its paths are taken from its own directory; then what the command line says takes
precedence. Whatever is loaded is valid (`Config.problem?`).
-/

namespace Pagewright

open Config (ConfigFile Environment)

/-- A configuration. -/
structure Config where
  /-- The directory of the site. -/
  root : Path
  /-- The directory that the documents are written to. -/
  outputDir : Path
  settings : SiteSettings
  /-- The file that it comes from. -/
  file : Option Path
deriving DecidableEq, Inhabited

namespace Config

/-! ## Errors -/

/-- What can be wrong with a configuration. -/
inductive Problem
  | emptyUrl | badUrl | zeroDepth | greatDepth | emptySortKey
deriving DecidableEq, Inhabited

/-- The greatest depth of partials that can be set. -/
def maxDepthLimit : Nat := 1000

/-- The text of a problem. -/
def Problem.message : Problem → Text
  | emptyUrl => "build.url cannot be empty".toList
  | badUrl =>
    "build.url must be \"relative\", start with http:// or https://, or start with /".toList
  | zeroDepth => "template.max_depth must be greater than 0".toList
  | greatDepth => "template.max_depth cannot exceed ".toList ++ Text.ofNat maxDepthLimit
  | emptySortKey => "template.sort_key cannot be empty".toList

end Config

/-- Why there is no configuration. -/
inductive ConfigError
  /-- The file that was named is not there. -/
  | notFound (p : Path)
  | system (e : SystemError)
  /-- The file is no TOML, or a value in it is of the wrong kind. -/
  | malformed
  | invalid (p : Config.Problem)
  /-- A field needs a variable that is not set. -/
  | unsetVariable (field name : Text)
deriving DecidableEq, Inhabited

/-- The text of an error. -/
def ConfigError.message : ConfigError → Text
  | notFound p => "Configuration file not found: ".toList ++ p.text
  | system e => "I/O error: ".toList ++ e.text
  | malformed => "TOML parse error".toList
  | invalid p => "Configuration error: ".toList ++ p.message
  | unsetVariable field name =>
    field ++ " references $\x7b".toList ++ name ++ "\x7d: environment variable not found".toList

namespace Config

/-! ## Validity -/

/-- Can links begin with the text? -/
def isBaseUrl (url : Text) : Bool :=
  url = SiteSettings.relativeUrl || Text.startsWith "http://".toList url ||
    Text.startsWith "https://".toList url || Text.startsWith ['/'] url

/-- The first problem of settings. -/
def problem? (s : SiteSettings) : Option Problem :=
  if s.url.isEmpty then some .emptyUrl
  else if !isBaseUrl s.url then some .badUrl
  else if s.maxDepth = 0 then some .zeroDepth
  else if maxDepthLimit < s.maxDepth then some .greatDepth
  else if s.sortKey.isEmpty then some .emptySortKey
  else none

/-- The configuration, if its settings are valid. -/
def validate (c : Config) : Except ConfigError Config :=
  match problem? c.settings with
  | some p => .error (.invalid p)
  | none => .ok c

/-! ## Files -/

/-- The name of a configuration file. -/
def fileName : Text := "quill.toml".toList

/-- The directory that documents are written to if nothing else is said. -/
def defaultOutputDir : Text := "_site".toList

/-- Replaces the variables in a field of a given name. -/
def expandNamed (env : Environment) (field : String) (t : Text) : Except ConfigError Text :=
  (expandField env t).mapError (.unsetVariable field.toList)

/-- Replaces the variables in a field that may be missing. -/
def expandOptional (env : Environment) (field : String) : Option Text → Except ConfigError (Option Text)
  | none => .ok none
  | some t => (expandNamed env field t).map some

/-- What a file says, with its variables replaced. -/
def expandFile (env : Environment) (f : ConfigFile) : Except ConfigError ConfigFile := do
  let root ← expandOptional env "site.root" f.root
  let url ← expandNamed env "build.url" f.url
  let outputDir ← expandOptional env "build.output_dir" f.outputDir
  return { f with root, url, outputDir }

/-- The configuration of a file at a path. -/
def ofFile (p : Path) (f : ConfigFile) : Config :=
  let directory := p.parent?.getD ⟨['.']⟩
  { root := (f.root.map directory.joinText).getD directory
    outputDir := directory.joinText (f.outputDir.getD defaultOutputDir)
    settings := ⟨f.dev, f.url, f.maxDepth, f.sortKey⟩
    file := some p }

/-- The configuration that the text of a file at a path is. -/
def ofText (env : Environment) (p : Path) (t : Text) : Except ConfigError Config :=
  match ConfigFile.parse? t with
  | none => .error .malformed
  | some f => do (ofFile p (← expandFile env f)).validate

/-- The configuration in a file. -/
def loadFile (d : Disk) (env : Environment) (p : Path) : Except ConfigError Config := do
  ofText env p (← (d.readText p).mapError .system)

/-- The configuration of a directory without a file. -/
def ofDirectory (directory : Path) : Config :=
  ⟨directory, directory.joinText defaultOutputDir, .default, none⟩

/-- The next configuration file in a directory and so many above it. -/
def discover (d : Disk) : Nat → Path → Option Path
  | 0, _ => none
  | n + 1, directory =>
    let candidate := directory.joinText fileName
    if d.isPresent candidate then some candidate else directory.parent?.bind (discover d n)

/-! ## The command line -/

/-- What the command line says in place of the file. -/
structure Overrides where
  root : Option Path
  outputDir : Option Path
  url : Option Text
  dev : Option Bool
deriving DecidableEq, Inhabited

/-- A configuration where the command line takes precedence. -/
def override (c : Config) (o : Overrides) : Config :=
  { c with
    root := o.root.getD c.root
    outputDir := o.outputDir.getD c.outputDir
    settings := { c.settings with
      url := o.url.getD c.settings.url
      dev := o.dev.getD c.settings.dev } }

/-- The configuration before the command line takes precedence. -/
def loadBase (d : Disk) (env : Environment) : Option Path → Except ConfigError Config
  | some p => if d.isPresent p then loadFile d env p else .error (.notFound p)
  | none =>
    match discover d (d.workingDirectory.length + 1) d.workingPath with
    | some p => loadFile d env p
    | none => .ok (ofDirectory d.workingPath)

/-- The configuration in a file that may be named, under what the command line may say. -/
def load (d : Disk) (env : Environment) (file : Option Path) (overrides : Option Overrides) :
    Except ConfigError Config := do
  let base ← loadBase d env file
  match overrides with
  | some o => (base.override o).validate
  | none => return base

/-- Are links relative? -/
def isRelative (c : Config) : Bool := c.settings.url = SiteSettings.relativeUrl

end Config

end Pagewright
