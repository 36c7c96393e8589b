import Fsapfs.Program.Outcome

namespace Fsapfs

/-- The libcerror code of the check that failed; the accompanying message text is left out. -/
inductive ErrorCode
  | invalidValue
  | valueTooSmall
  | valueTooLarge
  | valueExceedsMaximum
  | valueOutOfBounds
  | valueMissing
  | valueAlreadySet
  | valueMismatch
  | valueZeroOrLess
  | unsupportedValue
  | checksumMismatch
  | getFailed
  | setFailed
  | readFailed
  | appendFailed
  | initializeFailed
  | memoryInsufficient
  deriving Repr, DecidableEq

abbrev Failure := Program.Failure ErrorCode

/-- A C function returning 1 or -1; one that also returns 0 yields an optional value. -/
abbrev Result := Except Failure

def fail {α : Type} (code : ErrorCode) : Result α := .error (.error code)

@[simp] theorem outcome_fail {α : Type} (code : ErrorCode) (post : α → Prop) (refused : Prop) :
    Program.Outcome (fail code : Result α) post refused ↔ refused := Iff.rfl

def ssizeMax : Nat := 2 ^ 63 - 1

def off64Max : Nat := 2 ^ 63 - 1

def intMax : Nat := 2 ^ 31 - 1

def int16Max : Nat := 2 ^ 15 - 1

def memoryMaximumAllocationSize : Nat := 128 * 1024 * 1024

end Fsapfs
