import Pagewright.Storage.Basic

/-! # `Storage.Memory`: files kept in a list

Files are kept in the order of their paths, one for each name. Directories are not kept: a directory is
there when a file is below it.
-/

namespace Pagewright

/-- Files with their texts, in ascending order of the paths. -/
structure MemoryStore where
  files : List (Path × Text)
deriving DecidableEq, Inhabited

namespace MemoryStore

/-- A store without files. -/
def empty : MemoryStore := ⟨[]⟩

/-- Puts a file in its place; one of the same name keeps its path and gets the new text. -/
def insertFile (p : Path) (t : Text) : List (Path × Text) → List (Path × Text)
  | [] => [(p, t)]
  | (q, u) :: rest =>
    match p.compare q with
    | .lt => (p, t) :: (q, u) :: rest
    | .eq => (q, t) :: rest
    | .gt => (q, u) :: insertFile p t rest

/-- The store with a file. -/
def insert (s : MemoryStore) (p : Path) (t : Text) : MemoryStore := ⟨insertFile p t s.files⟩

/-- The store with the files of a list, a later one in place of an earlier one of the same name. -/
def ofList (files : List (Path × Text)) : MemoryStore :=
  files.foldl (fun s (p, t) => s.insert p t) empty

/-- The text of a file. -/
def get? (s : MemoryStore) (p : Path) : Option Text :=
  (s.files.find? fun (q, _) => q.same p).map Prod.snd

/-- The paths of the files below a directory. -/
def below (s : MemoryStore) (directory : Path) : List Path :=
  (s.files.map Prod.fst).filter fun p => directory.isPrefixOf p && !p.same directory

/-- Is a component below a directory hidden? -/
def isHiddenBelow (directory p : Path) : Bool :=
  match p.relativeTo? directory with
  | some rest => rest.components.any fun c => Storage.isHidden c.text
  | none => true

/-- Is a path directly inside a directory? -/
def isInside (directory p : Path) : Bool :=
  match p.parent? with
  | some q => q.same directory
  | none => false

/-- There is no such file here. -/
def notFound (p : Path) : StorageError := (StorageError.notFound p).inBackend .memory

instance : Storage MemoryStore where
  read s p :=
    match s.get? p with
    | some t => .ok t
    | none => .error (notFound p)
  isPresent s p := s.files.any fun (q, _) => p.isPrefixOf q
  list s directory :=
    if (s.below directory).isEmpty then .error (notFound directory)
    else .ok ((s.below directory).filter (isInside directory))
  walk s directory := .ok ((s.below directory).filter (!isHiddenBelow directory ·))
  write s p t := (.ok (), s.insert p t)

end MemoryStore

end Pagewright
