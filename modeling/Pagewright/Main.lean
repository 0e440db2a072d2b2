import Pagewright.Command.Run

/-! # `Main`: the program

The program reads the parts of the disk that a command can need, runs the command on them, and then writes
what has changed. It looks for the configuration first, since that says where the site is.
-/

namespace Pagewright.Main

/-- The name of a place. -/
def nameOf (place : Place) : String := String.ofList ('/' :: Text.join ['/'] place)

/-- The place of a path, as seen from a directory. -/
def placeFrom (directory : Place) (p : Path) : Place :=
  (p.components).foldl (fun place c =>
    match c with
    | .root => []
    | .current => place
    | .parent => place.dropLast
    | .name t => place ++ [t]) directory

/-- Reads what is at a place and below it, down to a depth. -/
def readTree : Nat → Disk → Place → IO Disk
  | 0, d, _ => return d
  | depth + 1, d, place => do
    match ← (IO.FS.realPath (nameOf place)).toBaseIO with
    | .error _ => return d
    | .ok found =>
      if ← found.isDir then
        let mut d := d.putDeep place .directory
        for e in ← found.readDir do
          d ← readTree depth d (place ++ [e.fileName.toList])
        return d
      else
        match ← (IO.FS.readFile (nameOf place)).toBaseIO with
        | .ok t => return d.putDeep place (.file (some t.toList))
        | .error _ => return d.putDeep place (.file none)

/-- How deep trees are read. -/
def maxDepth : Nat := 64

/-- The files that may hold the configuration. -/
def configPlaces (directory : Place) : Option Path → List Place
  | some p => [placeFrom directory p]
  | none => (List.range (directory.length + 1)).map fun n => directory.take n ++ [Config.fileName]

/-- The names of the variables that a text refers to. -/
def variableNames : Text → List Text
  | [] => []
  | '$' :: '\x7b' :: r =>
    let name := (Config.splitDefault (r.takeWhile (· ≠ '\x7d'))).1
    name :: variableNames r
  | '$' :: r => r.takeWhile Config.isVariableChar :: variableNames r
  | _ :: r => variableNames r

/-- Reads the variables of the environment that have one of the names. -/
def readEnvironment (names : List Text) : IO Config.Environment :=
  names.eraseDups.filterMapM fun name => do
    return (← IO.getEnv (String.ofList name)).map fun value => (name, value.toList)

/-- The texts of the files of a disk. -/
def texts (d : Disk) : List Text :=
  d.entries.filterMap fun (_, e) =>
    match e with
    | .file t => t
    | .directory => none

/-- What a command is told about the site, and the directory or the file that it writes to. -/
def sitePart : Command.Request → Command.SiteOptions × Option Path × Option Path
  | .build site outputDir => (site, outputDir, none)
  | .render site _ output => (site, none, output)

/-- Reads the parts of the disk that a command can need, and the variables that it can refer to. -/
def gather (directory : Place) (base : Config.Environment) (c : Command.Request) :
    IO (Config.Environment × Disk) := do
  let (site, outputDir, output) := sitePart c
  let mut d : Disk := ⟨[], directory⟩
  d := d.putDeep directory .directory
  for place in configPlaces directory site.config do
    d ← readTree 1 d place
  let env := base ++ (← readEnvironment ((texts d).flatMap variableNames))
  match site.load d env outputDir with
  | .error _ => return (env, d)
  | .ok config =>
    for p in [config.root, config.outputDir] ++ output.toList do
      d ← readTree maxDepth d (placeFrom directory p)
    return (env, d)

/-- Writes what has changed. -/
def writeChanges (before after : Disk) : IO Unit := do
  for (place, e) in after.entries do
    if before.entry? place ≠ some e then
      match e with
      | .directory => IO.FS.createDirAll (nameOf place)
      | .file (some t) => IO.FS.writeFile (nameOf place) (String.ofList t)
      | .file none => pure ()

end Pagewright.Main

open Pagewright in
/-- Runs the command that the words of the command line ask for. -/
def main (args : List String) : IO UInt32 := do
  let words := args.map String.toList
  let directory := Main.placeFrom [] ⟨(← IO.currentDir).toString.toList⟩
  let base ← Main.readEnvironment [Command.urlVariable]
  let (env, disk) ← match Command.read base words with
    | .ok c => Main.gather directory base c
    | .error _ => pure (base, ⟨[], directory⟩)
  -- a command without an end does not get past this line
  let some outcome := Command.run env disk words | return 1
  Main.writeChanges disk outcome.disk
  (← IO.getStdout).putStr (String.ofList outcome.stdout)
  (← IO.getStderr).putStr (String.ofList outcome.stderr)
  return outcome.exitCode.toUInt32
