/-!
# Access to files

What the library asks of a file system. Each operation gives its result or the fault that kept it
from being done.
-/

namespace Keybinds

/-- Why an operation on a file could not be done. -/
inductive FileFault where
  | missing
  | denied
  | present
  | notDirectory
  | isDirectory
  | nameTooLong
  | notEmpty
  | notText
  | other (reason : String)
  deriving DecidableEq, Repr

/-- The reason, with its number if the system has one for it. -/
def FileFault.message : FileFault → String
  | missing => "No such file or directory (os error 2)"
  | denied => "Permission denied (os error 13)"
  | present => "File exists (os error 17)"
  | notDirectory => "Not a directory (os error 20)"
  | isDirectory => "Is a directory (os error 21)"
  | nameTooLong => "File name too long (os error 36)"
  | notEmpty => "Directory not empty (os error 39)"
  | notText => "stream did not contain valid UTF-8"
  | other reason => reason

/-- Operations on files that hold texts. -/
class FileAccess (m : Type → Type) where
  isPresent : String → m Bool
  readText : String → m (Except FileFault String)
  /-- Replaces the text of a file, which is new unless it is there. -/
  writeText : String → String → m (Except FileFault Unit)
  /-- Gives a file another path, in place of the file that has it. -/
  moveFile : String → String → m (Except FileFault Unit)
  /-- Creates a directory and those that it lies in, as far as they are missing. -/
  createDirectories : String → m (Except FileFault Unit)

/-- Operations that look into directories. -/
class DirectoryAccess (m : Type → Type) where
  isDirectory : String → m Bool
  /-- The names of the regular files in a directory. -/
  fileNames : String → m (Except FileFault (List String))

end Keybinds
