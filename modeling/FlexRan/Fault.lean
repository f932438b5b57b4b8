import Mathlib

/-!
# Abnormal completion

What an operation of the program does when it does not complete: an exception escapes it, or
it performs an access the language leaves undefined.  Every fallible definition of the model
returns `Except Fault`, so that the absence of a fault is a statement about the code.
-/
namespace FlexRan

inductive Fault
  /-- A `std::runtime_error` with this text. -/
  | runtimeError (what : String)
  /-- An allocation that can not be served. -/
  | badAlloc
  /-- A null pointer is dereferenced. -/
  | nullDereference
  /-- A past-the-end iterator is dereferenced. -/
  | endDereference
  /-- An index or a copy leaves the bounds of an array. -/
  | outOfBounds
  /-- A variable or a byte of memory that was never written is read. -/
  | uninitialised
  /-- The front of an empty container is used. -/
  | emptyContainer
deriving DecidableEq

/-- What ends an operation before it returns, as its caller sees it. -/
inductive Abort
  /-- A `std::invalid_argument` with this text. -/
  | invalidArgument (what : String)
  /-- A `std::out_of_range`. -/
  | outOfRange
  /-- A cell configuration is read at an index at which there is none. -/
  | missingCell
  /-- Any other fault. -/
  | fault (f : Fault)
deriving DecidableEq

end FlexRan
