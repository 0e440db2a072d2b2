import Pagewright.Storage.Error

/-! # `Storage`: where the files of a site are kept

The engine reads and writes files through this class, with paths relative to the site. A storage is a
value: writing gives the storage afterwards, also when it fails.
-/

namespace Pagewright

/-- A place where files are kept. -/
class Storage (σ : Type) where
  /-- The text of a file. -/
  read : σ → Path → Except StorageError Text
  /-- Is there a file or a directory of this name? -/
  isPresent : σ → Path → Bool
  /-- The files directly inside a directory, in the order of paths. -/
  list : σ → Path → Except StorageError (List Path)
  /-- The files below a directory at any depth, in the order of paths, without hidden ones. A directory
  that is missing has none. -/
  walk : σ → Path → Except StorageError (List Path)
  /-- Replaces the text of a file; directories above it are made if need be. -/
  write : σ → Path → Text → Except StorageError Unit × σ

namespace Storage

/-- Is a name hidden? -/
def isHidden (name : Text) : Bool := name.head? = some '.'

/-- Puts paths in order. -/
def sortPaths (paths : List Path) : List Path := paths.mergeSort fun p q => p.compare q != .gt

end Storage

end Pagewright
