import Fsapfs.Btree.NameComparison
import Fsapfs.Coding.Crc
import Fsapfs.Coding.Fletcher
import Fsapfs.ContainerSuperblock

namespace Fsapfs
open Program Coding

section crc

def initializeCrc32Table (polynomial : Nat) : List Nat :=
  (List.range 256).map fun tableIndex =>
    (List.range 8).foldl
      (fun checksum _ => if checksum &&& 1 ≠ 0 then polynomial ^^^ (checksum >>> 1) else checksum >>> 1) tableIndex

def addByteValue (checksumTable : List Nat) (checksum : Nat) (byteValue : UInt8) : Result Nat := do
  let value ← load checksumTable ((checksum ^^^ byteValue.toNat) &&& 0xff)
  return value ^^^ (checksum >>> 8)

/-- The checksum by the table, which the first call builds. -/
def calculateWeakCrc32 (buffer : List UInt8) (initialValue : Nat) : Result Nat :=
  if buffer.length > ssizeMax then fail .valueExceedsMaximum
  else buffer.foldlM (addByteValue (initializeCrc32Table crc32Polynomial)) initialValue

def utf32Stream (characters : List Nat) : List UInt8 := characters.flatMap (littleEndianBytes 4)

theorem and_255 (value : Nat) : value &&& 0xff = value % 2 ^ 8 := Nat.and_two_pow_sub_one_eq_mod value 8

theorem crc32Table_eq (tableIndex : Nat) : crc32Table tableIndex = (crcShift crc32Polynomial)^[8] tableIndex := by
  have step : (fun checksum (_ : Nat) =>
      if checksum &&& 1 ≠ 0 then crc32Polynomial ^^^ (checksum >>> 1) else checksum >>> 1) =
      fun checksum _ => crcShift crc32Polynomial checksum := by
    funext checksum _
    simp [crcShift, Nat.testBit, Nat.and_comm]
  rw [crc32Table, step, List.foldl_const]
  rfl

theorem updateChecksum_eq (checksum : Nat) (byteValue : UInt8) :
    updateChecksum checksum byteValue.toNat = crcBits crc32Polynomial checksum (byteBits byteValue) := by
  rw [updateChecksum, and_255, crc32Table_eq, crcBits_byteBits]

theorem addByteValue_ok (checksum : Nat) (byteValue : UInt8) :
    addByteValue (initializeCrc32Table crc32Polynomial) checksum byteValue =
      .ok (crcBits crc32Polynomial checksum (byteBits byteValue)) := by
  have inside : (checksum ^^^ byteValue.toNat) &&& 0xff < 256 := by
    rw [and_255]
    exact Nat.mod_lt _ (Nat.two_pow_pos 8)
  have entry : (initializeCrc32Table crc32Polynomial)[(checksum ^^^ byteValue.toNat) &&& 0xff]? =
      some (crc32Table ((checksum ^^^ byteValue.toNat) &&& 0xff)) := by
    simp only [initializeCrc32Table, List.getElem?_map, List.getElem?_range inside, Option.map_some]
    rfl
  rw [addByteValue, load_of_getElem? entry, ← updateChecksum_eq]
  rfl

theorem foldlM_addByteValue (buffer : List UInt8) (checksum : Nat) :
    buffer.foldlM (addByteValue (initializeCrc32Table crc32Polynomial)) checksum =
      .ok (crcBits crc32Polynomial checksum (bytesBits buffer)) := by
  induction buffer generalizing checksum with
  | nil => rfl
  | cons byteValue buffer ih => rw [List.foldlM_cons, addByteValue_ok, ok_bind, ih, bytesBits_cons, crcBits_append]

theorem calculateWeakCrc32_eq (buffer : List UInt8) (initialValue : Nat) :
    calculateWeakCrc32 buffer initialValue =
      if buffer.length > ssizeMax then fail .valueExceedsMaximum
      else .ok (crcBits crc32Polynomial initialValue (bytesBits buffer)) := by
  rw [calculateWeakCrc32, foldlM_addByteValue]

example : calculateWeakCrc32 [0x31, 0x32, 0x33, 0x34, 0x35, 0x36, 0x37, 0x38, 0x39] 0xffffffff = .ok 0x1cf96d7c := by
  decide +kernel

theorem addCharacter_eq (checksum character : Nat) :
    addCharacter checksum character =
      crcBits crc32Polynomial checksum (bytesBits (littleEndianBytes 4 character)) := by
  have byte (value : Nat) : (UInt8.ofNat (value % 256)).toNat = value &&& 0xff := by
    rw [and_255]
    simp
  simp only [littleEndianBytes, bytesBits_cons, bytesBits_nil, crcBits_append, crcBits_nil, ← updateChecksum_eq, byte]
  simp [addCharacter, List.range_succ, Nat.shiftRight_eq_div_pow, Nat.div_div_eq_div_mul]

theorem foldl_addCharacter (characters : List Nat) (checksum : Nat) :
    characters.foldl addCharacter checksum =
      crcBits crc32Polynomial checksum (bytesBits (utf32Stream characters)) := by
  induction characters generalizing checksum with
  | nil => rfl
  | cons character characters ih =>
      have stream : utf32Stream (character :: characters) = littleEndianBytes 4 character ++ utf32Stream characters := rfl
      rw [List.foldl_cons, addCharacter_eq, ih, stream, bytesBits_append, crcBits_append]

/-- The checksum by the table is that of the bits one at a time; that of joined buffers continues from that of the
first; and the hash of a name is that of the stream of its characters. -/
theorem calculateWeakCrc32_bitwise :
    (∀ (buffer : List UInt8) (initialValue : Nat), calculateWeakCrc32 buffer initialValue =
      if buffer.length > ssizeMax then fail .valueExceedsMaximum
      else .ok (crcBits crc32Polynomial initialValue (bytesBits buffer))) ∧
    (∀ (first second : List UInt8) (initialValue : Nat), calculateWeakCrc32 (first ++ second) initialValue =
      if (first ++ second).length > ssizeMax then fail .valueExceedsMaximum
      else calculateWeakCrc32 first initialValue >>= calculateWeakCrc32 second) ∧
    (∀ (mappings : NameMappings) (encoding : CharacterEncoding UInt8) (useCaseFolding : Bool) (string : List UInt8),
      calculateNameHash mappings encoding useCaseFolding string =
        (hashedString mappings encoding useCaseFolding string).map fun characters =>
          crcBits crc32Polynomial 0xffffffff (bytesBits (utf32Stream characters)) &&& 0x003fffff) := by
  refine ⟨calculateWeakCrc32_eq, ?_, ?_⟩
  · intro first second initialValue
    rw [calculateWeakCrc32_eq, List.length_append]
    by_cases exceeds : first.length + second.length > ssizeMax
    · rw [if_pos exceeds, if_pos exceeds]
    · rw [if_neg exceeds, if_neg exceeds, calculateWeakCrc32_eq, if_neg (by omega), ok_bind, calculateWeakCrc32_eq,
        if_neg (by omega), bytesBits_append, crcBits_append]
  · intro mappings encoding useCaseFolding string
    rw [calculateNameHash_hashed]
    congr 1
    funext characters
    rw [foldl_addCharacter]

end crc

section fletcher

open Fletcher

namespace Checksum

def calculateFletcher64 (buffer : List UInt8) (initialValue : Nat) : Result Nat :=
  if buffer.length > ssizeMax then fail .valueExceedsMaximum
  else if buffer.length % 4 ≠ 0 then fail .valueOutOfBounds
  else
    let sums := fletcher64Sums buffer (initialValue &&& 0xffffffff) ((initialValue >>> 32) &&& 0xffffffff)
    let lower := sums.1 % 0xffffffff
    let upper := sums.2 % 0xffffffff
    let value := 0xffffffff - (lower + upper) % 0xffffffff
    let upper := 0xffffffff - (lower + value) % 0xffffffff
    .ok (upper * 2 ^ 32 + value)

end Checksum

theorem calculateFletcher64_zero (buffer : List UInt8) :
    calculateFletcher64 buffer = Checksum.calculateFletcher64 buffer 0 := rfl

def values32 : List UInt8 → List Nat
  | first :: second :: third :: fourth :: rest => littleEndian [first, second, third, fourth] :: values32 rest
  | _ => []

/-- The sum of the values of a buffer and of the low half of the initial value, over unbounded numbers. -/
def fletcherLower (buffer : List UInt8) (initialValue : Nat) : Nat :=
  lowerSum (initialValue % 2 ^ 32) (values32 buffer)

/-- The sum of these sums up to each value and of the high half of the initial value, over unbounded numbers. -/
def fletcherUpper (buffer : List UInt8) (initialValue : Nat) : Nat :=
  upperSum (initialValue % 2 ^ 32) (initialValue / 2 ^ 32 % 2 ^ 32) (values32 buffer)

structure IsFletcher64 (buffer : List UInt8) (initialValue checksum : Nat) : Prop where
  low : checksum % 2 ^ 32 =
    0xffffffff - (fletcherLower buffer initialValue + fletcherUpper buffer initialValue) % 0xffffffff
  high : checksum / 2 ^ 32 = 0xffffffff - (fletcherLower buffer initialValue + checksum % 2 ^ 32) % 0xffffffff

theorem values32_length (buffer : List UInt8) : (values32 buffer).length = buffer.length / 4 := by
  induction buffer using values32.induct with
  | case1 first second third fourth rest ih =>
      simp only [values32, List.length_cons, ih]
      omega
  | case2 buffer short =>
      rw [values32]
      · rcases buffer with _ | ⟨first, _ | ⟨second, _ | ⟨third, _ | ⟨fourth, rest⟩⟩⟩⟩
        · rfl
        · simp
        · simp
        · simp
        · exact absurd rfl (short first second third fourth rest)
      · exact short

theorem values32_append {buffer : List UInt8} (whole : buffer.length % 4 = 0) (more : List UInt8) :
    values32 (buffer ++ more) = values32 buffer ++ values32 more := by
  induction buffer using values32.induct with
  | case1 first second third fourth rest ih =>
      have tail : rest.length % 4 = 0 := by
        simp only [List.length_cons] at whole
        omega
      simp only [List.cons_append, values32, ih tail]
  | case2 buffer short =>
      rcases buffer with _ | ⟨first, _ | ⟨second, _ | ⟨third, _ | ⟨fourth, rest⟩⟩⟩⟩
      · rfl
      · simp at whole
      · simp at whole
      · simp at whole
      · exact absurd rfl (short first second third fourth rest)

theorem values32_le (buffer : List UInt8) : ∀ value ∈ values32 buffer, value ≤ 0xffffffff := by
  induction buffer using values32.induct with
  | case1 first second third fourth rest ih =>
      have small : littleEndian [first, second, third, fourth] < 256 ^ 4 := littleEndian_lt _
      exact List.forall_mem_cons.mpr ⟨by omega, ih⟩
  | case2 buffer short =>
      rw [values32]
      · simp
      · exact short

theorem fletcher64Sums_eq (buffer : List UInt8) (lower upper : Nat) :
    fletcher64Sums buffer (lower % 2 ^ 64) (upper % 2 ^ 64) =
      (lowerSum lower (values32 buffer) % 2 ^ 64, upperSum lower upper (values32 buffer) % 2 ^ 64) := by
  induction buffer using values32.induct generalizing lower upper with
  | case1 first second third fourth rest ih =>
      simp only [fletcher64Sums, values32, lowerSum_cons, upperSum_cons, Nat.mod_add_mod, Nat.add_mod_mod, ih]
  | case2 buffer short =>
      rw [fletcher64Sums, values32, lowerSum_nil, upperSum_nil]
      · exact short
      · exact short

theorem values32_littleEndianBytes (value : Nat) :
    values32 (littleEndianBytes 8 value) = [value % 2 ^ 32, value / 2 ^ 32 % 2 ^ 32] := by
  have halves : littleEndianBytes 8 value = littleEndianBytes 4 value ++ littleEndianBytes 4 (value / 2 ^ 32) := by
    simp [littleEndianBytes, Nat.div_div_eq_div_mul]
  have first := littleEndian_littleEndianBytes 4 value
  have second := littleEndian_littleEndianBytes 4 (value / 2 ^ 32)
  rw [halves, values32_append (by simp)]
  simp only [littleEndianBytes, values32] at *
  rw [first, second]
  rfl

variable {buffer : List UInt8} {initialValue : Nat}

theorem and_half (value : Nat) : value &&& 0xffffffff = value % 2 ^ 32 := Nat.and_two_pow_sub_one_eq_mod value 32

theorem calculateFletcher64_eq (initialValue : Nat) (size : buffer.length ≤ ssizeMax) (whole : buffer.length % 4 = 0) :
    ∃ low high, low < 2 ^ 32 ∧ high < 2 ^ 32 ∧
      checkWords 0xffffffff (fletcherLower buffer initialValue % 2 ^ 64) (fletcherUpper buffer initialValue % 2 ^ 64) =
        [low, high] ∧
      Checksum.calculateFletcher64 buffer initialValue = .ok (high * 2 ^ 32 + low) := by
  have lowHalf : initialValue &&& 0xffffffff = initialValue % 2 ^ 32 % 2 ^ 64 := by
    rw [and_half]
    omega
  have highHalf : (initialValue >>> 32) &&& 0xffffffff = initialValue / 2 ^ 32 % 2 ^ 32 % 2 ^ 64 := by
    rw [and_half, Nat.shiftRight_eq_div_pow]
    omega
  have sums := fletcher64Sums_eq buffer (initialValue % 2 ^ 32) (initialValue / 2 ^ 32 % 2 ^ 32)
  refine ⟨_, _, ?_, ?_, rfl, ?_⟩
  · omega
  · omega
  · unfold Checksum.calculateFletcher64
    rw [if_neg (by omega), if_neg (by omega), lowHalf, highHalf, sums]
    simp only [fletcherLower, fletcherUpper, Nat.mod_add_mod, Nat.add_mod_mod]

theorem IsFletcher64.dvd {checksum : Nat} (fletcher : IsFletcher64 buffer initialValue checksum)
    (whole : buffer.length % 4 = 0) :
    0xffffffff ∣ fletcherLower (buffer ++ littleEndianBytes 8 checksum) initialValue ∧
      0xffffffff ∣ fletcherUpper (buffer ++ littleEndianBytes 8 checksum) initialValue := by
  have high : checksum / 2 ^ 32 % 2 ^ 32 = checksum / 2 ^ 32 := by
    rw [fletcher.high]
    omega
  have check : values32 (littleEndianBytes 8 checksum) =
      checkWords 0xffffffff (fletcherLower buffer initialValue) (fletcherUpper buffer initialValue) := by
    rw [values32_littleEndianBytes, high, fletcher.high, fletcher.low]
    rfl
  have divisible := append_check_dvd (show 0 < 0xffffffff by simp) (initialValue % 2 ^ 32)
    (initialValue / 2 ^ 32 % 2 ^ 32) (values32 buffer)
  unfold fletcherLower fletcherUpper
  rw [values32_append whole, check]
  exact divisible

theorem fletcherLower_carries (size : buffer.length ≤ ssizeMax) :
    0xffffffff ∣ fletcherLower buffer initialValue / 2 ^ 64 ↔ fletcherLower buffer initialValue < 2 ^ 64 := by
  have bound := lowerSum_le (values32_le buffer) (initialValue % 2 ^ 32)
  have count := values32_length buffer
  have small : fletcherLower buffer initialValue / 2 ^ 64 < 0xffffffff := by
    unfold fletcherLower ssizeMax at *
    omega
  constructor
  · intro multiple
    have none := Nat.eq_zero_of_dvd_of_lt multiple small
    omega
  · intro fits
    rw [Nat.div_eq_of_lt fits]
    exact dvd_zero _

theorem fletcher_fits (initialValue : Nat) (short : buffer.length / 4 ≤ 92680) :
    fletcherLower buffer initialValue < 2 ^ 64 ∧ fletcherUpper buffer initialValue < 2 ^ 64 := by
  have lower := lowerSum_le (values32_le buffer) (initialValue % 2 ^ 32)
  have upper := upperSum_le (values32_le buffer)
  have count := values32_length buffer
  have weighted : (values32 buffer).length * (initialValue % 2 ^ 32) ≤ 92680 * 0xffffffff :=
    Nat.mul_le_mul (by omega) (by omega)
  have triangle : (values32 buffer).length * ((values32 buffer).length + 1) ≤ 92680 * 92681 :=
    Nat.mul_le_mul (by omega) (by omega)
  have all : 0xffffffff * ((values32 buffer).length * ((values32 buffer).length + 1)) ≤ 0xffffffff * (92680 * 92681) :=
    Nat.mul_le_mul_left _ triangle
  unfold fletcherLower fletcherUpper
  rw [upperSum_eq]
  constructor
  · omega
  · omega

theorem calculateFletcher64_fletcher_iff (whole : buffer.length % 4 = 0) :
    (∃ checksum, Checksum.calculateFletcher64 buffer initialValue = .ok checksum ∧
      IsFletcher64 buffer initialValue checksum) ↔
    buffer.length ≤ ssizeMax ∧ fletcherLower buffer initialValue < 2 ^ 64 ∧
      0xffffffff ∣ fletcherUpper buffer initialValue / 2 ^ 64 := by
  by_cases size : buffer.length ≤ ssizeMax
  · obtain ⟨low, high, lowFits, highFits, words, calculated⟩ :=
      calculateFletcher64_eq initialValue size whole
    have modulus : 2 ^ 64 ≡ 1 [MOD 0xffffffff] := by decide
    have low_eq : (high * 2 ^ 32 + low) % 2 ^ 32 = low := by omega
    have high_eq : (high * 2 ^ 32 + low) / 2 ^ 32 = high := by omega
    have meaning : IsFletcher64 buffer initialValue (high * 2 ^ 32 + low) ↔
        [low, high] = checkWords 0xffffffff (fletcherLower buffer initialValue) (fletcherUpper buffer initialValue) := by
      constructor
      · rintro ⟨lows, highs⟩
        rw [high_eq, lows] at highs
        rw [low_eq] at lows
        rw [checkWords, ← lows, highs, ← lows]
      · intro same
        obtain ⟨lows, highs⟩ := List.cons.inj same
        refine ⟨by rw [low_eq, lows], ?_⟩
        rw [high_eq, low_eq, lows]
        exact (List.cons.inj highs).1
    simp only [calculated, Except.ok.injEq, exists_eq_left', size, true_and]
    rw [meaning, ← words, checkWords_eq_iff (by simp), mod_modEq_iff modulus, mod_modEq_iff modulus,
      fletcherLower_carries size]
  · have refused : Checksum.calculateFletcher64 buffer initialValue = fail .valueExceedsMaximum :=
      if_pos (Nat.lt_of_not_le size)
    simp [refused, size, fail]

/-- The calculation gives the Fletcher-64 of exactly the buffers whose first sum stays within 64 bits and whose second
passes them a multiple of the modulus times; the checksum behind the buffer then makes both sums divisible by it. -/
theorem calculateFletcher64_exact (buffer : List UInt8) (initialValue : Nat) (whole : buffer.length % 4 = 0) :
    (∃ checksum, Checksum.calculateFletcher64 buffer initialValue = .ok checksum ∧
      IsFletcher64 buffer initialValue checksum ∧
      0xffffffff ∣ fletcherLower (buffer ++ littleEndianBytes 8 checksum) initialValue ∧
      0xffffffff ∣ fletcherUpper (buffer ++ littleEndianBytes 8 checksum) initialValue) ↔
    buffer.length ≤ ssizeMax ∧ fletcherLower buffer initialValue < 2 ^ 64 ∧
      0xffffffff ∣ fletcherUpper buffer initialValue / 2 ^ 64 := by
  rw [← calculateFletcher64_fletcher_iff whole]
  constructor
  · rintro ⟨checksum, calculated, fletcher, _⟩
    exact ⟨checksum, calculated, fletcher⟩
  · rintro ⟨checksum, calculated, fletcher⟩
    refine ⟨checksum, calculated, fletcher, ?_⟩
    exact fletcher.dvd whole

theorem calculateFletcher64_short (short : buffer.length / 4 ≤ 92680) (whole : buffer.length % 4 = 0) :
    ∃ checksum, Checksum.calculateFletcher64 buffer initialValue = .ok checksum ∧
      IsFletcher64 buffer initialValue checksum := by
  obtain ⟨lower, upper⟩ := fletcher_fits initialValue short
  refine (calculateFletcher64_fletcher_iff whole).mpr ⟨?_, lower, ?_⟩
  · unfold ssizeMax
    omega
  · rw [Nat.div_eq_of_lt upper]
    exact dvd_zero _

theorem calculateFletcher64_exact_word :
    let words : List UInt8 := [1, 0, 0, 0, 0xff, 0xff, 0xff, 0xff, 2, 3, 4, 5]
    ∃ checksum, Checksum.calculateFletcher64 words 7 = .ok checksum ∧ IsFletcher64 words 7 checksum ∧
      0xffffffff ∣ fletcherLower (words ++ littleEndianBytes 8 checksum) 7 ∧
      0xffffffff ∣ fletcherUpper (words ++ littleEndianBytes 8 checksum) 7 :=
  (calculateFletcher64_exact _ 7 (by decide)).mpr ⟨by decide, by decide, by decide⟩

theorem values32_replicate (n : Nat) : values32 (List.replicate (4 * n) 0xff) = List.replicate n 0xffffffff := by
  induction n with
  | zero => rfl
  | succ n ih =>
      have value : littleEndian [0xff, 0xff, 0xff, 0xff] = 0xffffffff := rfl
      rw [Nat.mul_succ]
      simp only [List.replicate_succ, values32, ih, value]

/-- A key bag of 100 blocks of 4096 bytes has this many bytes behind its checksum: the second sum passes 64 bits. -/
theorem calculateFletcher64_overflows :
    Checksum.calculateFletcher64 (List.replicate 409592 0xff) 0 = .ok (0xfffffffe * 2 ^ 32 + 1) ∧
      ¬IsFletcher64 (List.replicate 409592 0xff) 0 (0xfffffffe * 2 ^ 32 + 1) := by
  have values : values32 (List.replicate 409592 0xff) = List.replicate 102398 0xffffffff := values32_replicate 102398
  have lower : fletcherLower (List.replicate 409592 0xff) 0 = 102398 * 0xffffffff := by
    rw [fletcherLower, values, lowerSum_replicate, Nat.zero_mod, Nat.zero_add]
  have upper : fletcherUpper (List.replicate 409592 0xff) 0 = 5242726401 * 0xffffffff := by
    have twice := upperSum_replicate 102398 0xffffffff
    rw [fletcherUpper, values, Nat.zero_div, Nat.zero_mod]
    omega
  constructor
  · obtain ⟨low, high, _, _, words, calculated⟩ := calculateFletcher64_eq 0
      (show (List.replicate 409592 (0xff : UInt8)).length ≤ ssizeMax by rw [List.length_replicate]; decide)
      (by rw [List.length_replicate])
    rw [lower, upper] at words
    obtain ⟨rfl, highs⟩ := List.cons.inj words
    obtain ⟨rfl, _⟩ := List.cons.inj highs
    exact calculated
  · rintro ⟨low, _⟩
    rw [lower, upper] at low
    exact absurd low (by decide)

end fletcher

end Fsapfs
