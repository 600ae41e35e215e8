/-!
# Storage

Commands read and write whole files by their paths.
-/

namespace Curves.CommandLine

/-- Why a file cannot be read or written. -/
inductive StorageError where
  | noFile
  | notADirectory
  | isADirectory
  | nameTooLong
  | other (reason : String)
  deriving DecidableEq

def StorageError.message : StorageError → String
  | .noFile => "No such file or directory (os error 2)"
  | .notADirectory => "Not a directory (os error 20)"
  | .isADirectory => "Is a directory (os error 21)"
  | .nameTooLong => "File name too long (os error 36)"
  | .other reason => reason

/-- A place for files. -/
structure Storage (m : Type → Type) where
  read : String → m (Except StorageError (List UInt8))
  write : String → List UInt8 → m (Except StorageError Unit)

end Curves.CommandLine
