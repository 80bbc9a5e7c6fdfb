import Vynkor.Text

/-! The exceptions of `vynkor/errors.py`, down to `internal`, and the built-in ones the
modelled code can let through. Arguments are those the constructors receive. -/
namespace Vynkor
open Text

inductive Error where
  | ioError (message : Str)
  | protoError (message : Str)
  | frameMagicMismatch
  | frameCrcMismatch
  | frameReadTimeout
  | payloadTooLarge (size : Nat)
  | timeout
  | permissionDenied (message : Str)
  | internal (message : Str)
  | incompleteRead
  | structError
  | unicodeEncode
  | keyError
  | valueError (message : Str)
  | overflowError
  | connectionError (message : Str)
  | assertionError (message : Str)
  | cancelled
  deriving DecidableEq, Repr

namespace Error

def isVynkorError : Error → Bool
  | ioError _ | protoError _ | frameMagicMismatch | frameCrcMismatch | frameReadTimeout
  | payloadTooLarge _ | timeout | permissionDenied _ | internal _ => true
  | _ => false

end Error
end Vynkor
