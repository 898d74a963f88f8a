/-!
# Failures of the file system

What can go wrong with a file or directory, as far as a run tells the cases apart.
-/

namespace Blueprint

/-- Why an operation on a file or directory fails. -/
inductive FileError where
  | notFound
  | alreadyExists
  | notADirectory
  | isADirectory
  /-- a name or a whole path is longer than the system allows -/
  | nameTooLong
  /-- a path holds the character NUL, which no name may -/
  | nulInName
  /-- a file that should be text is not UTF-8 -/
  | notUtf8
  /-- anything else, in the words of the system -/
  | other (text : String)
deriving DecidableEq, Repr

/-- What went wrong. -/
def FileError.message : FileError → String
  | notFound => "No such file or directory (os error 2)"
  | alreadyExists => "File exists (os error 17)"
  | notADirectory => "Not a directory (os error 20)"
  | isADirectory => "Is a directory (os error 21)"
  | nameTooLong => "File name too long (os error 36)"
  | nulInName => "file name contained an unexpected NUL byte"
  | notUtf8 => "stream did not contain valid UTF-8"
  | other text => text

end Blueprint
