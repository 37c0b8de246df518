import TokenSearch.Text.Quoted

namespace TokenSearch.Disk

/-! Why an operation on files fails. -/

inductive Cause where
  | notFound
  | inputOutput
  | permissionDenied
  | alreadyExists
  | notDirectory
  | isDirectory
  | invalid
  | nameTooLong
  | notEmpty
  | tooManyLinks
deriving DecidableEq, Repr

namespace Cause

def number : Cause → Nat
  | .notFound => 2
  | .inputOutput => 5
  | .permissionDenied => 13
  | .alreadyExists => 17
  | .notDirectory => 20
  | .isDirectory => 21
  | .invalid => 22
  | .nameTooLong => 36
  | .notEmpty => 39
  | .tooManyLinks => 40

def words : Cause → String
  | .notFound => "No such file or directory"
  | .inputOutput => "Input/output error"
  | .permissionDenied => "Permission denied"
  | .alreadyExists => "File exists"
  | .notDirectory => "Not a directory"
  | .isDirectory => "Is a directory"
  | .invalid => "Invalid argument"
  | .nameTooLong => "File name too long"
  | .notEmpty => "Directory not empty"
  | .tooManyLinks => "Too many levels of symbolic links"

end Cause

/-- What an operation was about: nothing that it names, one path, or a path and its new name. -/
inductive Subject where
  | unnamed
  | path (text : Text.RawText)
  | move (source target : Text.RawText)
deriving DecidableEq, Repr

/-- An operation is refused for a cause, or its path holds a null and is not even tried. -/
inductive Error where
  | refused (cause : Cause) (subject : Subject)
  | nullByte
deriving DecidableEq, Repr

namespace Error

def message : Error → String
  | .nullByte => "embedded null byte"
  | .refused cause subject =>
      let words := "[Errno " ++ toString cause.number ++ "] " ++ cause.words
      match subject with
      | .unnamed => words
      | .path text => words ++ ": " ++ Text.Quoted.raw text
      | .move source target =>
          words ++ ": " ++ Text.Quoted.raw source ++ " -> " ++ Text.Quoted.raw target

/-- Why an operation failed, without what it was about. -/
def reason : Error → String
  | .refused cause _ => cause.words
  | .nullByte => message .nullByte

/-- Whether something on the way is missing. -/
def isMissing : Error → Bool
  | .refused .notFound _ => true
  | _ => false

/-- The same error about something else. -/
def about (subject : Subject) : Error → Error
  | .refused cause _ => .refused cause subject
  | .nullByte => .nullByte

end Error

end TokenSearch.Disk
