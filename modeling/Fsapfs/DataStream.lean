import Fsapfs.Basic
import Fsapfs.Program.Gather

namespace Fsapfs
open Program

/-- A libfdata stream: its size, and the bytes a read of some size at an offset returns. -/
structure DataStream where
  size : Nat
  bytesAt : Nat → Nat → Option (List UInt8)
  fits : ∀ {readSize offset : Nat} {data : List UInt8},
    bytesAt readSize offset = some data → data.length ≤ readSize

namespace DataStream

def readBufferAtOffset (stream : DataStream) (readSize offset : Nat) : Result (List UInt8) :=
  if readSize > ssizeMax then fail .valueExceedsMaximum
  else
    match stream.bytesAt readSize offset with
    | some data => .ok data
    | none => fail .readFailed

/-- A read whose caller rejects any other read count than the size it asked for. -/
def readExactly (stream : DataStream) (readSize offset : Nat) : Result (List UInt8) := do
  let data ← stream.readBufferAtOffset readSize offset
  if data.length ≠ readSize then fail .readFailed
  else return data

/-- A stream of stored bytes: a read returns what there is of the range it asks for. -/
def ofContent (content : Nat → UInt8) (size : Nat) : DataStream where
  size := size
  bytesAt readSize offset := some (contents content offset (min readSize (size - offset)))
  fits := by
    intro readSize offset data h
    cases h
    rw [contents_length]
    exact Nat.min_le_left ..

theorem readExactly_ok {stream : DataStream} {readSize offset : Nat} {data : List UInt8} :
    stream.readExactly readSize offset = .ok data ↔
      readSize ≤ ssizeMax ∧ stream.bytesAt readSize offset = some data ∧ data.length = readSize := by
  unfold readExactly readBufferAtOffset
  split_ifs with large
  · constructor
    · intro h
      cases h
    · intro h
      omega
  · cases stream.bytesAt readSize offset with
    | none =>
        constructor
        · intro h
          cases h
        · intro h
          cases h.2.1
    | some found =>
        rw [ok_bind]
        split_ifs with short
        · constructor
          · intro h
            cases h
          · intro h
            cases h.2.1
            exact absurd h.2.2 short
        · constructor
          · intro h
            cases h
            exact ⟨Nat.le_of_not_lt large, rfl, Decidable.not_not.mp short⟩
          · intro h
            cases h.2.1
            rfl

theorem readExactly_ofContent_iff {content : Nat → UInt8} {size readSize offset : Nat} {data : List UInt8} :
    (ofContent content size).readExactly readSize offset = .ok data ↔
      readSize ≤ ssizeMax ∧ readSize ≤ size - offset ∧ data = contents content offset readSize := by
  have bytes : (ofContent content size).bytesAt readSize offset =
      some (contents content offset (min readSize (size - offset))) := rfl
  rw [readExactly_ok, bytes]
  constructor
  · rintro ⟨small, same, length⟩
    cases same
    rw [contents_length] at length
    exact ⟨small, by omega, by rw [length]⟩
  · rintro ⟨small, inside, rfl⟩
    rw [Nat.min_eq_left inside]
    exact ⟨small, rfl, contents_length ..⟩

theorem readExactly_ofContent (content : Nat → UInt8) {size readSize offset : Nat}
    (small : readSize ≤ ssizeMax) (inside : offset + readSize ≤ size) :
    (ofContent content size).readExactly readSize offset = .ok (contents content offset readSize) := by
  rw [readExactly_ok]
  refine ⟨small, ?_, contents_length ..⟩
  change some (contents content offset (min readSize (size - offset))) = _
  rw [Nat.min_eq_left (by omega)]

end DataStream

end Fsapfs
