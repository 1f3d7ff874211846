import Pcopy.Lib.Exec

/-!
# Errors of the operating system and of the protocol code

`std::io::Error` with its kind and its text.  Only the kinds that the program builds or
that the file system model returns are listed.
-/

namespace Pcopy

/-- `std::io::ErrorKind`. -/
inductive ErrorKind where
  | invalidData : ErrorKind
  | invalidInput : ErrorKind
  | other : ErrorKind
  | brokenPipe : ErrorKind
  | connectionReset : ErrorKind
  | notFound : ErrorKind
  | alreadyExists : ErrorKind
  | notADirectory : ErrorKind
  | isADirectory : ErrorKind
  | permissionDenied : ErrorKind
  | unexpectedEof : ErrorKind
  deriving DecidableEq, Repr

/-- `std::io::Error`: a kind and a text. -/
structure IoError where
  kind : ErrorKind
  message : String
  deriving DecidableEq, Repr

end Pcopy
