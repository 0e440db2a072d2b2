import Pagewright.Command.Arguments
import Pagewright.Site.Target

/-! # `Command.Run`: running a command

A command turns a disk into another one and reports what it did (`Outcome`). A document that cannot be made
is reported and passed over; the others are made all the same. A command has no outcome (`none`) when making
one of its documents uses up the stack.
-/

namespace Pagewright.Command

open Config (Environment)

/-- What a command has done. -/
structure Outcome where
  /-- 0 if all went well, 1 if something failed, 2 if the command line made no sense. -/
  exitCode : Nat
  stdout : Text
  stderr : Text
  disk : Disk
deriving Inhabited

/-- A text as a line. -/
def line (t : Text) : Text := t ++ ['\n']

/-- A command that has failed after reporting something. -/
def failed (stderr message : Text) (d : Disk) : Outcome :=
  ⟨1, [], stderr ++ line ("Error: ".toList ++ message), d⟩

/-- A site on a disk. -/
def siteOf (c : Config) (d : Disk) : Site DirectoryStore := .ofStore ⟨c.root, d⟩ c.settings

/-- The configuration under what was said about the site. -/
def SiteOptions.load (o : SiteOptions) (d : Disk) (env : Environment) (outputDir : Option Path) :
    Except ConfigError Config :=
  Config.load d env o.config
    (some ⟨o.root, outputDir, o.url, if o.dev then some true else none⟩)

/-! ## All documents -/

/-- Makes a document and writes it below a directory; the message if that fails. -/
def makeAndWrite (out : Path) (job : Site.Job) (site : Site DirectoryStore) :
    Option (Except Text Unit × Site DirectoryStore) := do
  match ← (Site.makeJob job).run.run site with
  | (.error e, site) => return (.error e.message, site)
  | (.ok html, site) =>
    let (written, target) := DirectoryStore.write ⟨out, site.store.disk⟩ job.target html
    return (written.mapError StorageError.message,
      { site with store := { site.store with disk := target.disk } })

/-- Makes documents and writes them; those that failed, each with a message. -/
def makeAll (out : Path) : List Site.Job → Site DirectoryStore →
    Option (List (Path × Text) × Site DirectoryStore)
  | [], site => some ([], site)
  | job :: rest, site => do
    let (result, site) ← makeAndWrite out job site
    let (failures, site) ← makeAll out rest site
    match result with
    | .ok () => return (failures, site)
    | .error message => return ((job.source, message) :: failures, site)

/-- The lines that name a site and where it is written to. -/
def siteLines (c : Config) : Text :=
  line ("Site:   ".toList ++ c.root.text) ++ line ("Output: ".toList ++ c.outputDir.text)

/-- The line for a document that failed. -/
def failureLine : Path × Text → Text
  | (source, message) => line ("  skipped ".toList ++ source.text ++ ": ".toList ++ message)

/-- The line that says how many documents were written. -/
def summaryLine (written total : Nat) (out : Path) : Text :=
  line ("Built ".toList ++ Text.ofNat written ++ " of ".toList ++ Text.ofNat total ++
    " documents to ".toList ++ out.text)

/-- Makes all documents of a site. -/
def buildSite (c : Config) (d : Disk) : Option Outcome :=
  let site := siteOf c d
  match Site.jobs site.store with
  | .error e => some (failed (siteLines c) e.message d)
  | .ok jobs => do
    let (failures, site) ← makeAll c.outputDir jobs site
    let report := siteLines c ++ (failures.map failureLine).flatten ++
      summaryLine (jobs.length - failures.length) jobs.length c.outputDir
    return if failures.isEmpty then ⟨0, [], report, site.store.disk⟩
      else failed report (Text.ofNat failures.length ++ " of ".toList ++ Text.ofNat jobs.length ++
        " documents failed to render".toList) site.store.disk

/-! ## One document -/

/-- How the document of a file is made: a content file by its page, a page by itself. -/
def jobFor? (file : Path) : Option (Site.Work DirectoryStore Text) :=
  match file.extension? with
  | some e =>
    if e = "md".toList then some (Site.processContent file)
    else if e = "html".toList then some (Site.processFile file none)
    else none
  | none => none

/-- Writes a text to a file, after making the directories above it. -/
def writeFile (p : Path) (t : Text) (d : Disk) : Except SystemError Unit × Disk :=
  let (made, d) : Except SystemError Unit × Disk := match p.parent? with
    | some parent => if parent.text.isEmpty then (.ok (), d) else d.makePath parent
    | none => (.ok (), d)
  match made with
  | .error e => (.error e, d)
  | .ok () =>
    match d.writeText p t with
    | .ok d => (.ok (), d)
    | .error e => (.error e, d)

/-- Makes one document of a site. -/
def renderFile (c : Config) (file : Path) (output : Option Path) (d : Disk) : Option Outcome :=
  match jobFor? file with
  | none =>
    some (failed [] ("Cannot render ".toList ++ file.text ++
      ": expected an .html page or .md content file".toList) d)
  | some work => do
    let (made, site) ← work.run.run (siteOf c d)
    let d := site.store.disk
    match made, output with
    | .error e, _ => return failed [] e.message d
    | .ok html, none => return ⟨0, html, [], d⟩
    | .ok html, some p =>
      match writeFile p html d with
      | (.ok (), d) => return ⟨0, [], line ("Wrote ".toList ++ p.text), d⟩
      | (.error e, d) => return failed [] e.text d

/-! ## Commands -/

/-- The name and the version of the program. -/
def versionLine : Text := line "quill 0.1.0".toList

/-- How the program is called. -/
def usageText : Text :=
  line "Usage: quill build [OPTIONS]".toList ++ line "       quill render [OPTIONS] <FILE>".toList

/-- Runs a command. -/
def Request.run (env : Environment) (d : Disk) : Request → Option Outcome
  | .build site outputDir =>
    match site.load d env outputDir with
    | .error e => some (failed [] e.message d)
    | .ok c => buildSite c d
  | .render site file output =>
    match site.load d env none with
    | .error e => some (failed [] e.message d)
    | .ok c => renderFile c file output d

/-- Runs what the words of the command line ask for. -/
def run (env : Environment) (d : Disk) (args : List Text) : Option Outcome :=
  match read env args with
  | .error .usage => some ⟨2, [], usageText, d⟩
  | .error .help => some ⟨0, usageText, [], d⟩
  | .error .version => some ⟨0, versionLine, [], d⟩
  | .ok request => request.run env d

end Pagewright.Command
