import CompactSchema.Text.Quoted

set_option autoImplicit false

/-!
# File faults

Why a file or directory cannot be reached, read or written. A fault of the system has a number.
-/

namespace CompactSchema.Files

inductive Fault
  | notFound
  | alreadyExists
  | notADirectory
  | isADirectory
  | nameTooLong
  | tooManyLinks
  | nulInName
  | notText
  | other (number : Nat) (text : String)
deriving Repr, DecidableEq

namespace Fault

def number? : Fault → Option Nat
  | notFound => some 2
  | alreadyExists => some 17
  | notADirectory => some 20
  | isADirectory => some 21
  | nameTooLong => some 36
  | tooManyLinks => some 40
  | nulInName | notText => none
  | other number _ => some number

def kind : Fault → String
  | notFound => "NotFound"
  | alreadyExists => "AlreadyExists"
  | notADirectory => "NotADirectory"
  | isADirectory => "IsADirectory"
  | nameTooLong => "InvalidFilename"
  | tooManyLinks => "FilesystemLoop"
  | nulInName => "InvalidInput"
  | notText => "InvalidData"
  | other _ _ => "Uncategorized"

def words : Fault → String
  | notFound => "No such file or directory"
  | alreadyExists => "File exists"
  | notADirectory => "Not a directory"
  | isADirectory => "Is a directory"
  | nameTooLong => "File name too long"
  | tooManyLinks => "Too many levels of symbolic links"
  | nulInName => "file name contained an unexpected NUL byte"
  | notText => "stream did not contain valid UTF-8"
  | other _ text => text

def message (f : Fault) : String :=
  match f.number? with
  | some number => f.words ++ " (os error " ++ toString number ++ ")"
  | none => f.words

/-- All that is known of a fault, field by field. -/
def details (f : Fault) : String :=
  match f.number? with
  | some number =>
    "Os \x7b code: " ++ toString number ++ ", kind: " ++ f.kind ++ ", message: " ++
      Text.quoted f.words ++ " \x7d"
  | none => "Error \x7b kind: " ++ f.kind ++ ", message: " ++ Text.quoted f.words ++ " \x7d"

end Fault

end CompactSchema.Files
