import ScenePreview.Text.Decimal

/-!
# Operating-system errors

The errors that file and process operations report, by their number, and any other input
or output error by its text.

## Main definitions

* `OsError` — the errors that the operating system names.
* `IoError`, `IoError.message` — an input or output error and its text.
-/

namespace ScenePreview

/-- An error that the operating system names. -/
inductive OsError where
  | notFound
  | argumentsTooLong
  | execFormat
  | outOfMemory
  | permissionDenied
  | alreadyExists
  | notADirectory
  | isADirectory
  | noSpace
  | brokenPipe
  | nameTooLong
  | tooManyLinks
  deriving Repr, DecidableEq

namespace OsError

/-- All named errors. -/
def all : List OsError :=
  [.notFound, .argumentsTooLong, .execFormat, .outOfMemory, .permissionDenied, .alreadyExists,
    .notADirectory, .isADirectory, .noSpace, .brokenPipe, .nameTooLong, .tooManyLinks]

/-- The number of an error. -/
def code : OsError → Nat
  | .notFound => 2
  | .argumentsTooLong => 7
  | .execFormat => 8
  | .outOfMemory => 12
  | .permissionDenied => 13
  | .alreadyExists => 17
  | .notADirectory => 20
  | .isADirectory => 21
  | .noSpace => 28
  | .brokenPipe => 32
  | .nameTooLong => 36
  | .tooManyLinks => 40

/-- What an error says. -/
def reason : OsError → String
  | .notFound => "No such file or directory"
  | .argumentsTooLong => "Argument list too long"
  | .execFormat => "Exec format error"
  | .outOfMemory => "Cannot allocate memory"
  | .permissionDenied => "Permission denied"
  | .alreadyExists => "File exists"
  | .notADirectory => "Not a directory"
  | .isADirectory => "Is a directory"
  | .noSpace => "No space left on device"
  | .brokenPipe => "Broken pipe"
  | .nameTooLong => "File name too long"
  | .tooManyLinks => "Too many levels of symbolic links"

/-- The text of an error: what it says and its number. -/
def message (e : OsError) : String :=
  e.reason ++ " (os error " ++ Text.decimal e.code ++ ")"

/-- The error with a number, if it is one of the named ones. -/
def ofCode? (n : Nat) : Option OsError := all.find? (·.code == n)

end OsError

/-- An input or output error. -/
inductive IoError where
  /-- One that the operating system names. -/
  | os (e : OsError)
  /-- Any other one, by its text. -/
  | other (text : String)
  deriving Repr, DecidableEq

/-- The text of an input or output error. -/
def IoError.message : IoError → String
  | .os e => e.message
  | .other text => text

end ScenePreview
