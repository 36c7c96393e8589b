import Fsapfs.Basic
import Fsapfs.Program.HasAt

namespace Fsapfs
open Program

def littleEndian (bytes : List UInt8) : Nat := bytes.foldr (fun byte value => byte.toNat + 256 * value) 0

def bigEndian (bytes : List UInt8) : Nat := bytes.foldl (fun value byte => value * 256 + byte.toNat) 0

def littleEndianBytes : Nat → Nat → List UInt8
  | 0, _ => []
  | size + 1, value => UInt8.ofNat (value % 256) :: littleEndianBytes size (value / 256)

def loadLittleEndian (size : Nat) (data : List UInt8) (offset : Nat) : Result Nat := do
  let bytes ← slice data offset size
  return littleEndian bytes

def loadLittleEndian16 (data : List UInt8) (offset : Nat) : Result Nat := loadLittleEndian 2 data offset

def loadLittleEndian32 (data : List UInt8) (offset : Nat) : Result Nat := loadLittleEndian 4 data offset

def loadLittleEndian64 (data : List UInt8) (offset : Nat) : Result Nat := loadLittleEndian 8 data offset

def loadBigEndian32 (data : List UInt8) (offset : Nat) : Result Nat := do
  let bytes ← slice data offset 4
  return bigEndian bytes

theorem loadLittleEndian_ok {size offset : Nat} {data : List UInt8} (inside : offset + size ≤ data.length) :
    loadLittleEndian size data offset = .ok (littleEndian ((data.drop offset).take size)) := by
  unfold loadLittleEndian
  rw [slice_of_le inside]
  rfl

theorem littleEndian_lt (bytes : List UInt8) : littleEndian bytes < 256 ^ bytes.length := by
  induction bytes with
  | nil => simp [littleEndian]
  | cons byte bytes ih =>
      have first := byte.toNat_lt
      rw [show littleEndian (byte :: bytes) = byte.toNat + 256 * littleEndian bytes from rfl, List.length_cons, Nat.pow_succ]
      omega

@[simp] theorem littleEndianBytes_length (size value : Nat) : (littleEndianBytes size value).length = size := by
  induction size generalizing value with
  | zero => rfl
  | succ size ih => rw [littleEndianBytes, List.length_cons, ih]

theorem littleEndian_littleEndianBytes (size value : Nat) :
    littleEndian (littleEndianBytes size value) = value % 256 ^ size := by
  induction size generalizing value with
  | zero => simp [littleEndianBytes, littleEndian, Nat.mod_one]
  | succ size ih =>
      have first : (UInt8.ofNat (value % 256)).toNat = value % 256 := by simp
      rw [Nat.pow_succ', Nat.mod_mul, ← ih, ← first]
      rfl

theorem loadLittleEndian_of_hasAt {size value offset : Nat} {data : List UInt8}
    (has : HasAt data offset (littleEndianBytes size value)) (fits : value < 256 ^ size) :
    loadLittleEndian size data offset = .ok value := by
  rw [loadLittleEndian, has.slice (littleEndianBytes_length size value).symm, ok_bind, littleEndian_littleEndianBytes,
    Nat.mod_eq_of_lt fits]
  rfl

theorem loadLittleEndian_value {size offset value : Nat} {data : List UInt8}
    (load : loadLittleEndian size data offset = .ok value) : value = littleEndian ((data.drop offset).take size) := by
  unfold loadLittleEndian slice at load
  split at load
  · exact (Except.ok.inj load).symm
  · cases load

theorem littleEndian_take_lt (bytes : List UInt8) (size : Nat) : littleEndian (bytes.take size) < 256 ^ size :=
  Nat.lt_of_lt_of_le (littleEndian_lt _) (Nat.pow_le_pow_right (by simp) (List.length_take_le size bytes))

end Fsapfs
