import SqlxMonetdb.TextPrimitives

set_option autoImplicit false

namespace SqlxMonetdb.DriverError
open TextPrimitives

/-- What a format string writes: its literal pieces and the values put between
them, as `{}` (`display`) or as `{:?}` (`debug`). -/
inductive Fragment where
  | text (piece : String)
  | display (value : Text)
  | debug (value : Text)
  | debugChar (value : Char)
  | debugList (values : List Text)
  | number (value : ℕ)
  | utf8Error (bytes : List UInt8)
  deriving DecidableEq

abbrev Message := List Fragment

structure MonetDatabaseError where
  message : Text
  deriving DecidableEq

inductive IoError where
  | unexpectedEof
  | other
  deriving DecidableEq

inductive MonetError where
  | io (error : IoError)
  | handshake (message : Message)
  | protocol (message : Message)
  deriving DecidableEq

/-- The variants of `sqlx_core::Error` this driver returns. -/
inductive Error where
  | io (error : IoError)
  | protocol (message : Message)
  | database (error : MonetDatabaseError)
  | encode (message : Message)
  | columnIndexOutOfBounds (index len : ℕ)
  | columnNotFound (name : Text)
  deriving DecidableEq

def MonetError.toError : MonetError → Error
  | .io error => .io error
  | .handshake message => .protocol (.text "handshake failed: " :: message)
  | .protocol message => .protocol message

inductive ResponseError where
  | protocol (error : MonetError)
  | database (error : MonetDatabaseError)
  deriving DecidableEq

def ResponseError.toError : ResponseError → Error
  | .protocol error => error.toError
  | .database error => .database error

section Results

variable {α β ε ε' : Type}

theorem bind_eq_ok {x : Except ε α} {f : α → Except ε β} {b : β} :
    (x >>= f) = .ok b ↔ ∃ a, x = .ok a ∧ f a = .ok b := by
  cases x <;> simp [bind, Except.bind]

theorem map_eq_ok {x : Except ε α} {f : α → β} {b : β} :
    x.map f = .ok b ↔ ∃ a, x = .ok a ∧ f a = b := by
  cases x <;> simp [Except.map]

theorem mapError_eq_ok {x : Except ε α} {f : ε → ε'} {a : α} :
    x.mapError f = .ok a ↔ x = .ok a := by
  cases x <;> simp [Except.mapError]

end Results

end SqlxMonetdb.DriverError
