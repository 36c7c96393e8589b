import Fsapfs.Coding.Hexadecimal
import Fsapfs.Name

/-! The escaped forms of the paths of file entries, in a build with UTF-8 system strings on a platform other than
Windows. -/

namespace Fsapfs
open Program Coding

/-- The functions of libuna on single characters. -/
structure Characters extends CharacterEncoding UInt8 where
  copyTo : Nat → Except ErrorCode (List UInt8)

def escapeCharacter : UInt8 := 92

/-- `LIBCPATH_SEPARATOR`, with which libcpath joins paths. -/
def cpathSeparator : UInt8 := 47

/-- `LIBFSAPFS_SEPARATOR`, with which the library joins paths. -/
def separator : UInt8 := 47

/-- A number with one more digit, kept in 32 bits. -/
def addHexadecimal (value : Nat) (character : UInt8) : Result Nat :=
  match hexDigitValue character with
  | some digit => .ok ((value <<< 4) % 2 ^ 32 ||| digit)
  | none => fail .unsupportedValue

def copyHexadecimalToInteger32Bit (string : List UInt8) : Result Nat :=
  if string.length = 0 ∨ string.length > ssizeMax then fail .valueOutOfBounds
  else string.foldlM addHexadecimal 0

/-- The characters that are escaped by eight digits: surrogates, undefined and unprintable ones. -/
def IsUnprintable (character : Nat) : Prop :=
  (0x2028 ≤ character ∧ character ≤ 0x2029) ∨ (0xd800 ≤ character ∧ character ≤ 0xdfff) ∨
    character = 0xe000 ∨ character = 0xf8ff ∨ (0xfdd0 ≤ character ∧ character ≤ 0xfddf) ∨
    (0xfffe ≤ character &&& 0xffff ∧ character &&& 0xffff ≤ 0xffff) ∨
    character = 0xf0000 ∨ character = 0xffffd ∨ character = 0x100000 ∨ 0x10fffd ≤ character

instance : DecidablePred IsUnprintable := fun _ => by unfold IsUnprintable; infer_instance

section escaping

variable (libuna : Characters)

/-- Prints an escaped character behind the string. Where it does not fit the index passes the end of the buffer, and
the string is refused when it is ended or the next pointer is undefined. -/
def printEscaped (size : Nat) (path : List UInt8) (letter : UInt8) (width character : Nat) : Result (List UInt8) :=
  if path.length ≤ size then .ok (path ++ escapeCharacter :: letter :: hexDigits width character)
  else .error .undefined

def copyCharacterTo (size : Nat) (path : List UInt8) (character : Nat) : Result (List UInt8) :=
  match libuna.copyTo character with
  | .ok bytes => if path.length + bytes.length > size then fail .valueOutOfBounds else .ok (path ++ bytes)
  | .error code => fail code

/-- Copies a character; those that `short` tells are escaped by two digits. -/
def escapeCharacterTo (short : Nat → Bool) (size : Nat) (path : List UInt8) (character : Nat) :
    Result (List UInt8) :=
  if short character then printEscaped size path 120 2 character
  else if IsUnprintable character then printEscaped size path 85 8 character
  else if character = escapeCharacter.toNat then
    if path.length + 2 > size then fail .valueOutOfBounds
    else .ok (path ++ [escapeCharacter, UInt8.ofNat character])
  else copyCharacterTo libuna size path character

/-- The character of an escape that `accepted` or the eight digits allow, and what follows it. -/
def readEscaped (accepted : Nat → Bool) : List UInt8 → Result (Nat × List UInt8)
  | [] => fail .valueOutOfBounds
  | character :: path =>
      if character = escapeCharacter then .ok (character.toNat, path)
      else if character = 120 then
        if path.length < 2 then fail .valueOutOfBounds
        else do
          let escapedValue ← copyHexadecimalToInteger32Bit (path.take 2)
          if accepted escapedValue then return (escapedValue, path.drop 2) else fail .valueOutOfBounds
      else if character = 85 then
        if path.length < 8 then fail .valueOutOfBounds
        else do
          let escapedValue ← copyHexadecimalToInteger32Bit (path.take 8)
          if IsUnprintable escapedValue then return (escapedValue, path.drop 8) else fail .valueOutOfBounds
      else fail .unsupportedValue

/-- Copies the characters of a name; one that `ends` a name by an end of string stops at it. -/
def copyEscaped (ends : Bool) (short : Nat → Bool) (size : Nat) : Nat → List UInt8 → List UInt8 → Result (List UInt8)
  | _, path, [] => .ok path
  | 0, _, _ :: _ => .error .unfinished
  | fuel + 1, path, byte :: fileEntryPath => do
      let (unicodeCharacter, fileEntryPath) ← libuna.next (byte :: fileEntryPath)
      if ends ∧ unicodeCharacter = 0 then return path
      else do
        let path ← escapeCharacterTo libuna short size path unicodeCharacter
        copyEscaped ends short size fuel path fileEntryPath

def copyUnescaped (readCharacter : Nat → List UInt8 → Result (Nat × List UInt8)) (size : Nat) :
    Nat → List UInt8 → List UInt8 → Result (List UInt8)
  | _, fileEntryPath, [] => .ok fileEntryPath
  | 0, _, _ :: _ => .error .unfinished
  | fuel + 1, fileEntryPath, byte :: path => do
      let (unicodeCharacter, path) ← libuna.next (byte :: path)
      let (unicodeCharacter, path) ← readCharacter unicodeCharacter path
      let fileEntryPath ← copyCharacterTo libuna size fileEntryPath unicodeCharacter
      copyUnescaped readCharacter size fuel fileEntryPath path

/-- The sizes of names that can be escaped, at a worst-case of a 1 to 10 ratio. -/
def requireEscapable (fileEntryPathLength : Nat) : Result Unit :=
  if fileEntryPathLength = 0 ∨ fileEntryPathLength > ssizeMax - 1 then fail .valueOutOfBounds
  else if fileEntryPathLength > (ssizeMax - 1) / 10 then fail .valueExceedsMaximum
  else .ok ()

def requireUnescapable (pathLength : Nat) : Result Unit :=
  if pathLength = 0 ∨ pathLength > ssizeMax - 1 then fail .valueOutOfBounds
  else .ok ()

def unescapePath (readCharacter : Nat → List UInt8 → Result (Nat × List UInt8)) (path : List UInt8) :
    Result (List UInt8 × Nat) := do
  let fileEntryPathSize := path.length + 1
  if fileEntryPathSize > ssizeMax then fail .valueExceedsMaximum
  else do
    let fileEntryPath ← copyUnescaped libuna readCharacter fileEntryPathSize path.length [] path
    if fileEntryPath.length ≥ fileEntryPathSize then fail .valueOutOfBounds
    else return (fileEntryPath, fileEntryPathSize)

end escaping

namespace MountPathString

variable (libuna : Characters)

def escapedShort (character : Nat) : Bool :=
  character ≤ 0x1f ∨ character = cpathSeparator.toNat ∨ (0x7f ≤ character ∧ character ≤ 0x9f)

def acceptedShort (escapedValue : Nat) : Bool :=
  (0x01 ≤ escapedValue ∧ escapedValue ≤ 0x1f) ∨ escapedValue = cpathSeparator.toNat ∨
    (0x7f ≤ escapedValue ∧ escapedValue ≤ 0x9f)

def copyFromFileEntryPath (fileEntryPath : List UInt8) : Result (List UInt8 × Nat) := do
  requireEscapable fileEntryPath.length
  let pathSize := fileEntryPath.length * 10 + 1
  let path ← copyEscaped libuna true escapedShort pathSize fileEntryPath.length [] fileEntryPath
  if path.length ≥ pathSize then fail .valueOutOfBounds
  else return (path, pathSize)

/-- A character of a path, a separator by that of the library, and what follows it. -/
def readCharacter (unicodeCharacter : Nat) (path : List UInt8) : Result (Nat × List UInt8) :=
  if unicodeCharacter = cpathSeparator.toNat then .ok (separator.toNat, path)
  else if unicodeCharacter = escapeCharacter.toNat then readEscaped acceptedShort path
  else .ok (unicodeCharacter, path)

def copyToFileEntryPath (path : List UInt8) : Result (List UInt8 × Nat) := do
  requireUnescapable path.length
  let first ← load path 0
  if first ≠ cpathSeparator then fail .unsupportedValue
  else unescapePath libuna readCharacter path

end MountPathString

namespace PathString

variable (libuna : Characters)

def escapedShort (character : Nat) : Bool := character ≤ 0x1f ∨ (0x7f ≤ character ∧ character ≤ 0x9f)

def acceptedShort (escapedValue : Nat) : Bool :=
  (0x01 ≤ escapedValue ∧ escapedValue ≤ 0x1f) ∨ (0x7f ≤ escapedValue ∧ escapedValue ≤ 0x9f)

/-- The end of string is written without a check of its index. -/
def copyFromFileEntryPath (fileEntryPath : List UInt8) : Result (List UInt8 × Nat) := do
  requireEscapable fileEntryPath.length
  let pathSize := fileEntryPath.length * 10 + 1
  let path ← copyEscaped libuna false escapedShort pathSize fileEntryPath.length [] fileEntryPath
  if path.length ≥ pathSize then .error .undefined
  else return (path, pathSize)

def readUnescaped (unicodeCharacter : Nat) (path : List UInt8) : Result (Nat × List UInt8) :=
  if unicodeCharacter = escapeCharacter.toNat then readEscaped acceptedShort path
  else .ok (unicodeCharacter, path)

/-- A character of a path; a path segment separator, also an escaped one, is replaced by that of the library. -/
def readCharacter (pathSegmentSeparator : UInt8) (unicodeCharacter : Nat) (path : List UInt8) :
    Result (Nat × List UInt8) := do
  let read ← readUnescaped unicodeCharacter path
  return (if read.1 = pathSegmentSeparator.toNat then separator.toNat else read.1, read.2)

def copyToFileEntryPath (path : List UInt8) (pathSegmentSeparator : UInt8) : Result (List UInt8 × Nat) := do
  requireUnescapable path.length
  unescapePath libuna (readCharacter pathSegmentSeparator) path

end PathString

end Fsapfs
