import Pagewright.Storage.Basic

/-! # `Storage.Disk`: files in directories

A disk is a tree of directories and files, kept as a list of places (`Disk.entries`). A path is followed
name by name from the working directory or the root (`Disk.resolve`); each name but the last must be a
directory. The operations fail as the operating system does, with its texts.

A `DirectoryStore` keeps the files of a site below a directory. It refuses paths with a step upwards.
-/

namespace Pagewright

/-- What is at a place of a disk; a file that is no text has no content here. -/
inductive DiskEntry
  | directory
  | file (content : Option Text)
deriving DecidableEq, Inhabited

/-- A place on a disk: the names from the root down. -/
abbrev Place := List Text

/-- Directories and files, and the directory where relative paths begin. The root is always there. -/
structure Disk where
  entries : List (Place × DiskEntry)
  workingDirectory : Place
deriving DecidableEq, Inhabited

namespace SystemError

/-- An error with the text and the number that the operating system gives it. -/
def numbered (kind : SystemErrorKind) (text : String) (number : Nat) : SystemError :=
  ⟨kind, text.toList ++ " (os error ".toList ++ Text.ofNat number ++ [')']⟩

/-- There is nothing of that name. -/
def noEntry : SystemError := numbered .notFound "No such file or directory" 2

/-- There is something of that name already. -/
def alreadyThere : SystemError := numbered .other "File exists" 17

/-- A file stands where a directory is needed. -/
def notDirectory : SystemError := numbered .other "Not a directory" 20

/-- A directory stands where a file is needed. -/
def isDirectory : SystemError := numbered .other "Is a directory" 21

/-- A name is longer than names can be. -/
def nameTooLong : SystemError := numbered .other "File name too long" 36

/-- A name holds a character that no name can hold. -/
def zeroInName : SystemError := ⟨.other, "file name contained an unexpected NUL byte".toList⟩

/-- A file is no text. -/
def notText : SystemError := ⟨.invalidData, "stream did not contain valid UTF-8".toList⟩

end SystemError

namespace Disk

/-- An empty disk. -/
def empty : Disk := ⟨[], []⟩

/-- The path of the directory where relative paths begin. -/
def workingPath (d : Disk) : Path := ⟨'/' :: Text.join ['/'] d.workingDirectory⟩

/-- What is at a place. -/
def entry? (d : Disk) (place : Place) : Option DiskEntry :=
  if place.isEmpty then some .directory else d.entries.lookup place

/-- Puts something at a place. -/
def put (d : Disk) (place : Place) (e : DiskEntry) : Disk :=
  let rec go : List (Place × DiskEntry) → List (Place × DiskEntry)
    | [] => [(place, e)]
    | (q, f) :: rest => if q = place then (q, e) :: rest else (q, f) :: go rest
  { d with entries := go d.entries }

/-- Puts something at a place, with the directories above it. -/
def putDeep (d : Disk) (place : Place) (e : DiskEntry) : Disk :=
  let above := (List.range place.length).map fun n => place.take n
  let d := above.foldl (fun d p => if (d.entry? p).isSome then d else d.put p .directory) d
  d.put place e

/-! ## Following paths -/

/-- The longest name in bytes. -/
def maxNameSize : Nat := 255

/-- Follows segments from a place. What is at the last one need not be there. -/
def follow (d : Disk) (place : Place) : List Text → Except SystemError Place
  | [] => .ok place
  | s :: rest =>
    match d.entry? place with
    | none => .error .noEntry
    | some (.file _) => .error .notDirectory
    | some .directory =>
      if Path.isFiller s then follow d place rest
      else if s = ['.', '.'] then follow d place.dropLast rest
      else if maxNameSize < Text.size s then .error .nameTooLong
      else follow d (place ++ [s]) rest

/-- The place that a path names, whether or not there is anything. -/
def resolve (d : Disk) (p : Path) : Except SystemError Place :=
  if p.text.any (· = '\x00') then .error .zeroInName
  else match p.text with
    | [] => .error .noEntry
    | '/' :: r => d.follow [] (Text.split '/' r)
    | t => d.follow d.workingDirectory (Text.split '/' t)

/-- What a path names. -/
def find (d : Disk) (p : Path) : Except SystemError (Place × DiskEntry) := do
  let place ← d.resolve p
  match d.entry? place with
  | some e => return (place, e)
  | none => .error .noEntry

/-- Is there anything of this name? -/
def isPresent (d : Disk) (p : Path) : Bool :=
  match d.find p with
  | .ok _ => true
  | .error _ => false

/-- Is there a directory of this name? -/
def isDirectory (d : Disk) (p : Path) : Bool :=
  match d.find p with
  | .ok (_, .directory) => true
  | _ => false

/-! ## Reading -/

/-- The text of a file. -/
def readText (d : Disk) (p : Path) : Except SystemError Text :=
  match d.find p with
  | .error e => .error e
  | .ok (_, .directory) => .error .isDirectory
  | .ok (_, .file none) => .error .notText
  | .ok (_, .file (some t)) => .ok t

/-- The names directly inside a place, with what they name. -/
def children (d : Disk) (place : Place) : List (Text × DiskEntry) :=
  d.entries.filterMap fun (q, e) =>
    match q.getLast? with
    | some name => if q.dropLast = place then some (name, e) else none
    | none => none

/-- What is directly inside a directory. -/
def readDirectory (d : Disk) (p : Path) : Except SystemError (List (Text × DiskEntry)) :=
  match d.find p with
  | .error e => .error e
  | .ok (_, .file _) => .error .notDirectory
  | .ok (place, .directory) => .ok (d.children place)

/-- The files below a place, relative to it, without hidden ones; at most so deep. -/
def filesBelow (d : Disk) : Nat → Place → Path → List Path
  | 0, _, _ => []
  | depth + 1, place, base =>
    (d.children place).flatMap fun (name, e) =>
      if Storage.isHidden name then []
      else match e with
        | .directory => filesBelow d depth (place ++ [name]) (base.joinText name)
        | .file _ => [base.joinText name]

/-- The greatest depth of a place. -/
def depth (d : Disk) : Nat := d.entries.foldl (fun n (q, _) => max n q.length) 0

/-! ## Writing -/

/-- Makes a directory. -/
def makeDirectory (d : Disk) (p : Path) : Except SystemError Disk := do
  let place ← d.resolve p
  if (d.entry? place).isSome then .error .alreadyThere
  else return d.put place .directory

/-- Makes a directory and those above it; the directories that could be made stay when it fails. The
first argument bounds how many. -/
def makeDirectories (d : Disk) (p : Path) : Nat → Except SystemError Unit × Disk
  | 0 => (.ok (), d)
  | n + 1 =>
    if p.text.isEmpty then (.ok (), d)
    else match d.makeDirectory p with
      | .ok d => (.ok (), d)
      | .error e =>
        if e.kind = .notFound then
          match p.parent? with
          | none => (.ok (), d)
          | some q =>
            match d.makeDirectories q n with
            | (.error e, d) => (.error e, d)
            | (.ok (), d) =>
              match d.makeDirectory p with
              | .ok d => (.ok (), d)
              | .error e => if d.isDirectory p then (.ok (), d) else (.error e, d)
        else if d.isDirectory p then (.ok (), d)
        else (.error e, d)

/-- Makes a directory and all those above it. -/
def makePath (d : Disk) (p : Path) : Except SystemError Unit × Disk :=
  d.makeDirectories p (p.components.length + 1)

/-- Replaces the text of a file in a directory that is there. -/
def writeText (d : Disk) (p : Path) (t : Text) : Except SystemError Disk := do
  -- a slash at the end asks for a directory
  let trimmed := (p.text.reverse.dropWhile (· = '/')).reverse
  let name : Path := if trimmed.isEmpty then p else ⟨trimmed⟩
  let place ← d.resolve name
  if trimmed.length < p.text.length || d.entry? place = some .directory then .error .isDirectory
  else return d.put place (.file (some t))

end Disk

/-! ## A directory of a disk as a storage -/

/-- A directory of a disk. -/
structure DirectoryStore where
  root : Path
  disk : Disk
deriving DecidableEq, Inhabited

namespace DirectoryStore

/-- An error of a storage on a disk. -/
def failure (e : SystemError) (p : Path) : StorageError :=
  (StorageError.ofSystem e (some p)).inBackend .disk

/-- Has a path a step upwards? -/
def climbs (p : Path) : Bool := p.components.any (· = .parent)

/-- The path of a file on the disk; a path that climbs is refused. -/
def locate (s : DirectoryStore) (p : Path) : Except StorageError Path :=
  if climbs p then .error ({ StorageError.ofKind .invalidPath with path := some p }.inBackend .disk)
  else .ok (s.root.join p)

/-- The text of a file. -/
def read (s : DirectoryStore) (p : Path) : Except StorageError Text := do
  let full ← s.locate p
  (s.disk.readText full).mapError (failure · full)

/-- Is there a file or a directory of this name? -/
def isPresent (s : DirectoryStore) (p : Path) : Bool :=
  match s.locate p with
  | .ok full => s.disk.isPresent full
  | .error _ => false

/-- The files directly inside a directory. -/
def list (s : DirectoryStore) (directory : Path) : Except StorageError (List Path) := do
  let full ← s.locate directory
  let found ← (s.disk.readDirectory full).mapError (failure · full)
  return Storage.sortPaths (found.filterMap fun (name, e) =>
    match e with
    | .file _ => some (directory.joinText name)
    | .directory => none)

/-- The files below a directory at any depth. -/
def walk (s : DirectoryStore) (directory : Path) : Except StorageError (List Path) := do
  let full ← s.locate directory
  match s.disk.find full with
  | .ok (place, .directory) =>
    return Storage.sortPaths (s.disk.filesBelow (s.disk.depth + 1) place directory)
  | _ => return []

/-- Replaces the text of a file, after making the directories above it. -/
def write (s : DirectoryStore) (p : Path) (t : Text) : Except StorageError Unit × DirectoryStore :=
  match s.locate p with
  | .error e => (.error e, s)
  | .ok full =>
    let (made, disk) := match full.parent? with
      | some parent =>
        let (made, disk) := s.disk.makePath parent
        (made.mapError (failure · parent), disk)
      | none => (.ok (), s.disk)
    match made with
    | .error e => (.error e, { s with disk := disk })
    | .ok () =>
      match disk.writeText full t with
      | .ok disk => (.ok (), { s with disk := disk })
      | .error e => (.error (failure e full), { s with disk := disk })

instance : Storage DirectoryStore where
  read := read
  isPresent := isPresent
  list := list
  walk := walk
  write := write

end DirectoryStore

end Pagewright
