import Pagewright.Path

/-! # `Storage.Error`: why a file could not be read or written

A storage error has a kind, on which callers decide, and what a message needs besides: the storage that
failed, the error of the operating system behind it and the path.
-/

namespace Pagewright

/-- The kinds of errors that callers tell apart. -/
inductive StorageErrorKind
  | notFound | permissionDenied | invalidPath | invalidData | other
deriving DecidableEq, Inhabited

/-- The storages that can fail. -/
inductive Backend
  | disk | memory
deriving DecidableEq, Inhabited

/-- The kinds of errors of the operating system that matter here. -/
inductive SystemErrorKind
  | notFound | permissionDenied | invalidData | other
deriving DecidableEq, Inhabited

/-- An error of the operating system. -/
structure SystemError where
  kind : SystemErrorKind
  text : Text
deriving DecidableEq, Inhabited

/-- An error of a storage. -/
structure StorageError where
  kind : StorageErrorKind
  path : Option Path
  backend : Option Backend
  /-- The text of the error that caused this one. -/
  source : Option Text
deriving DecidableEq, Inhabited

/-- The name of a storage in messages. -/
def Backend.name : Backend → Text
  | disk => "Fs".toList
  | memory => "Mock".toList

/-- What a kind of error is called in messages. -/
def StorageErrorKind.message : StorageErrorKind → Text
  | notFound => "Not found".toList
  | permissionDenied => "Permission denied".toList
  | invalidPath => "Invalid path".toList
  | invalidData => "Invalid data".toList
  | other => "Error".toList

/-- The kind of a storage error that an error of the operating system causes. -/
def StorageErrorKind.ofSystem : SystemErrorKind → StorageErrorKind
  | .notFound => notFound
  | .permissionDenied => permissionDenied
  | .invalidData => invalidData
  | .other => other

namespace StorageError

/-- An error of a kind about which nothing else is known. -/
def ofKind (kind : StorageErrorKind) : StorageError := ⟨kind, none, none, none⟩

/-- There is no such file. -/
def notFound (path : Path) : StorageError := { ofKind .notFound with path := some path }

/-- An error that the operating system reported. -/
def ofSystem (e : SystemError) (path : Option Path) : StorageError :=
  ⟨.ofSystem e.kind, path, none, some e.text⟩

/-- The same error with the storage where it arose. -/
def inBackend (b : Backend) (e : StorageError) : StorageError := { e with backend := some b }

/-- The text of the error: storage, kind, cause and path, as far as they are known. -/
def message (e : StorageError) : Text :=
  (match e.backend with
    | some b => '[' :: b.name ++ "] ".toList
    | none => []) ++
  e.kind.message ++
  (match e.source with
    | some s => ": ".toList ++ s
    | none => []) ++
  (match e.path with
    | some p => " (path: ".toList ++ p.text ++ [')']
    | none => [])

end StorageError

end Pagewright
