import Fsapfs.Coding.Unicode
import Fsapfs.SnapshotMetadataTree

namespace Fsapfs
open Program Coding

/-- The functions of libuna on UTF-8 streams, by the bytes of the stream up to its end of string. -/
structure Utf8Streams where
  stringSize : List UInt8 → Result Nat
  stringCopy : List UInt8 → Nat → Result (List UInt8)

/-- What is relied on of them: text is copied with an end of string, and text that ends inside a character is
refused. -/
structure Utf8Streams.Copies (libuna : Utf8Streams) : Prop where
  size : ∀ characters, Char.ofNat 0 ∉ characters →
    libuna.stringSize (utf8Bytes characters) = .ok ((utf8Bytes characters).length + 1)
  copy : ∀ characters, Char.ofNat 0 ∉ characters →
    libuna.stringCopy (utf8Bytes characters) ((utf8Bytes characters).length + 1) = .ok (utf8Bytes characters ++ [0])
  cut : ∀ characters character count, Char.ofNat 0 ∉ characters → 0 < count →
    count < (String.utf8EncodeChar character).length →
      ∃ code, libuna.stringSize (utf8Bytes characters ++ (String.utf8EncodeChar character).take count) = fail code

def readStream (stream : List UInt8) : Nat → Nat → Result (List UInt8)
  | 0, _ => .ok []
  | streamSize + 1, streamIndex => do
      let byte ← load stream streamIndex
      if byte = 0 then return []
      else do
        let bytes ← readStream stream streamSize (streamIndex + 1)
        return byte :: bytes

namespace SnapshotMetadata

variable (libuna : Utf8Streams)

def getUtf8NameSize (metadata : SnapshotMetadata) : Result Nat := do
  let stream ← readStream metadata.name 256 0
  libuna.stringSize stream

def getUtf8Name (metadata : SnapshotMetadata) (utf8StringSize : Nat) : Result (List UInt8) := do
  let stream ← readStream metadata.name 256 0
  libuna.stringCopy stream utf8StringSize

def storedName (data : List UInt8) : List UInt8 := (data.drop 50).take (littleEndian ((data.drop 48).take 2))

/-- The getters return a name up to its end of string. -/
def Returns (metadata : SnapshotMetadata) (name : List UInt8) : Prop :=
  ∃ utf8StringSize, getUtf8NameSize libuna metadata = .ok utf8StringSize ∧
    getUtf8Name libuna metadata utf8StringSize = .ok (name.takeWhile (· ≠ 0) ++ [0])

end SnapshotMetadata

section stream

variable {stream : List UInt8}

theorem readStream_inside {size index : Nat} (inside : size ≤ (stream.drop index).length ∨ 0 ∈ stream.drop index) :
    readStream stream size index = .ok (((stream.drop index).takeWhile (· ≠ 0)).take size) := by
  induction size generalizing index with
  | zero => rfl
  | succ size ih =>
      have bound : index < stream.length := by
        rcases inside with short | ended
        · rw [List.length_drop] at short
          omega
        · by_contra beyond
          rw [List.drop_eq_nil_of_le (by omega)] at ended
          cases ended
      rw [readStream, load_of_lt bound, ok_bind]
      rw [List.drop_eq_getElem_cons bound] at inside ⊢
      by_cases last : stream[index] = 0
      · rw [if_pos last, List.takeWhile_cons_of_neg (by simpa using last)]
        rfl
      · have rest : size ≤ (stream.drop (index + 1)).length ∨ 0 ∈ stream.drop (index + 1) := by
          rcases inside with short | ended
          · exact Or.inl (Nat.le_of_succ_le_succ short)
          · exact Or.inr ((List.mem_cons.mp ended).resolve_left (Ne.symm last))
        rw [if_neg last, ih rest, ok_bind, List.takeWhile_cons_of_pos (by simpa using last), List.take_succ_cons]
        rfl

theorem readStream_outside {size index : Nat} (short : (stream.drop index).length < size)
    (unended : 0 ∉ stream.drop index) : readStream stream size index = .error .undefined := by
  induction size generalizing index with
  | zero => cases short
  | succ size ih =>
      rw [readStream]
      by_cases bound : index < stream.length
      · rw [List.drop_eq_getElem_cons bound] at short unended
        obtain ⟨first, rest⟩ := not_or.mp (List.mem_cons.not.mp unended)
        rw [load_of_lt bound, ok_bind, if_neg (Ne.symm first), ih (Nat.lt_of_succ_lt_succ short) rest]
        rfl
      · rw [load, List.getElem?_eq_none (by omega)]
        rfl

end stream

namespace SnapshotMetadata

variable {libuna : Utf8Streams} {data : List UInt8} {metadata : SnapshotMetadata}

theorem readValueData_name (read : readValueData data = .ok metadata) : metadata.name = storedName data := by
  obtain ⟨_, required, read⟩ := bind_eq_ok.mp read
  obtain ⟨_, _, read⟩ := bind_eq_ok.mp read
  obtain ⟨nameSize, size, read⟩ := bind_eq_ok.mp read
  have room := (requireData_ok (by simp)).mp required
  rw [loadLittleEndian16, loadLittleEndian_ok (by omega)] at size
  obtain rfl := Except.ok.inj size
  split_ifs at read with unfit
  · cases read
  · obtain ⟨name, sliced, read⟩ := bind_eq_ok.mp read
    rw [slice_of_le (by omega)] at sliced
    obtain rfl := Except.ok.inj sliced
    cases read
    rfl

theorem returns_iff (copies : libuna.Copies) (text : IsUtf8 metadata.name) :
    Returns libuna metadata metadata.name ↔
      (metadata.name.takeWhile (· ≠ 0)).length ≤ 256 ∧ (0 ∈ metadata.name ∨ metadata.name.length = 256) := by
  obtain ⟨characters, text⟩ := text
  have unended : Char.ofNat 0 ∉ characters.takeWhile (· ≠ Char.ofNat 0) := fun member => by
    simpa using List.mem_takeWhile_imp member
  have before : metadata.name.takeWhile (· ≠ 0) = utf8Bytes (characters.takeWhile (· ≠ Char.ofNat 0)) := by
    rw [text, takeWhile_utf8Bytes]
  by_cases inside : 256 ≤ metadata.name.length ∨ 0 ∈ metadata.name
  · have stream : readStream metadata.name 256 0 = .ok ((metadata.name.takeWhile (· ≠ 0)).take 256) :=
      readStream_inside inside
    unfold Returns getUtf8NameSize getUtf8Name
    simp only [stream, ok_bind]
    rcases Nat.lt_or_ge 256 (metadata.name.takeWhile (· ≠ 0)).length with long | fits
    · refine iff_of_false ?_ fun returned => absurd returned.1 (Nat.not_le.mpr long)
      rintro ⟨size, sized, copied⟩
      obtain ⟨front, members, parts⟩ := take_utf8Bytes (characters.takeWhile (· ≠ Char.ofNat 0)) 256
      have unended' : Char.ofNat 0 ∉ front := fun member => unended (members _ member)
      rw [before] at sized copied long
      rcases parts with whole | ⟨character, count, positive, inner, cut⟩
      · rw [whole] at sized copied
        rw [copies.size front unended'] at sized
        obtain rfl := Except.ok.inj sized
        rw [copies.copy front unended'] at copied
        have same := congrArg List.length (Except.ok.inj copied)
        rw [← whole, List.length_append, List.length_append, List.length_take] at same
        omega
      · obtain ⟨code, refused⟩ := copies.cut front character count unended' positive inner
        rw [cut, refused] at sized
        cases sized
    · have ending : 0 ∈ metadata.name ∨ metadata.name.length = 256 := by
        by_cases ended : 0 ∈ metadata.name
        · exact Or.inl ended
        · have whole : metadata.name.takeWhile (· ≠ 0) = metadata.name :=
            List.takeWhile_eq_self_iff.mpr fun byte member => by
              simp only [decide_eq_true_eq]
              exact fun zero => ended (zero ▸ member)
          rw [whole] at fits
          exact Or.inr (Nat.le_antisymm fits (inside.resolve_right ended))
      have size := copies.size _ unended
      have copy := copies.copy _ unended
      rw [List.take_of_length_le fits]
      rw [← before] at size copy
      exact iff_of_true ⟨_, size, copy⟩ ⟨fits, ending⟩
  · obtain ⟨short, missing⟩ := not_or.mp inside
    have stream : readStream metadata.name 256 0 = .error .undefined :=
      readStream_outside (Nat.lt_of_not_le short) missing
    constructor
    · rintro ⟨size, sized, _⟩
      rw [getUtf8NameSize, stream] at sized
      cases sized
    · rintro ⟨_, ended | full⟩
      · exact absurd ended missing
      · exact absurd full.ge short

namespace Sample

def streams : Utf8Streams where
  stringSize stream := if IsUtf8 stream then .ok (stream.length + 1) else fail .unsupportedValue
  stringCopy stream utf8StringSize :=
    if ¬IsUtf8 stream then fail .unsupportedValue
    else if utf8StringSize < stream.length + 1 then fail .valueTooSmall
    else .ok (stream ++ [0])

theorem streams_copies : streams.Copies where
  size characters _ := if_pos ⟨characters, rfl⟩
  copy characters _ := by
    have text : IsUtf8 (utf8Bytes characters) := ⟨characters, rfl⟩
    simp [streams, text]
  cut characters character count _ positive inner := ⟨_, if_neg (not_isUtf8_cut characters positive inner)⟩

def value (name : List UInt8) : List UInt8 :=
  List.replicate 48 0 ++ littleEndianBytes 2 name.length ++ name

theorem text_a (size : Nat) : IsUtf8 (List.replicate size 97) := by
  refine ⟨List.replicate size 'a', ?_⟩
  induction size with
  | zero => rfl
  | succ size ih =>
      rw [List.replicate_succ, List.replicate_succ, utf8Bytes_cons, ← ih]
      rfl

def longName : List UInt8 := List.replicate 257 97 ++ [0]

def shortName : List UInt8 := [97, 98]

end Sample

/-- What the getters of a value that was read return is the stored name up to its end of string exactly if that comes
within 256 bytes, and is there or made up for by the name having 256 bytes. -/
theorem getUtf8Name_exact (copies : libuna.Copies) (read : readValueData data = .ok metadata)
    (text : IsUtf8 (storedName data)) :
    Returns libuna metadata (storedName data) ↔
      ((storedName data).takeWhile (· ≠ 0)).length ≤ 256 ∧ (0 ∈ storedName data ∨ (storedName data).length = 256) := by
  rw [← readValueData_name read] at text ⊢
  exact returns_iff copies text

theorem getUtf8Name_exact_ended :
    Returns Sample.streams { volumeSuperblockBlockNumber := 0, name := [97, 98, 0] }
      (storedName (Sample.value [97, 98, 0])) :=
  (getUtf8Name_exact Sample.streams_copies (by decide +kernel) ⟨['a', 'b', Char.ofNat 0], by decide +kernel⟩).mpr
    (by decide +kernel)

/-- A long name is cut off, and bytes behind a short one are read. -/
theorem getUtf8Name_misses :
    (readValueData (Sample.value Sample.longName) = .ok { volumeSuperblockBlockNumber := 0, name := Sample.longName } ∧
      IsUtf8 Sample.longName ∧
      ¬Returns Sample.streams { volumeSuperblockBlockNumber := 0, name := Sample.longName } Sample.longName) ∧
    readValueData (Sample.value Sample.shortName) =
        .ok { volumeSuperblockBlockNumber := 0, name := Sample.shortName } ∧
      IsUtf8 Sample.shortName ∧
      getUtf8NameSize Sample.streams { volumeSuperblockBlockNumber := 0, name := Sample.shortName } =
        .error .undefined := by
  have text : IsUtf8 Sample.longName := by
    obtain ⟨characters, same⟩ := Sample.text_a 257
    refine ⟨characters ++ [Char.ofNat 0], ?_⟩
    have ended : [0] = utf8Bytes [Char.ofNat 0] := rfl
    rw [Sample.longName, same, ended, utf8Bytes, utf8Bytes, ← List.flatMap_append]
    rfl
  refine ⟨⟨by decide +kernel, text, ?_⟩, by decide +kernel, ⟨['a', 'b'], by decide +kernel⟩, ?_⟩
  · intro returned
    have short := ((returns_iff Sample.streams_copies text).mp returned).1
    exact absurd short (by decide +kernel)
  · rw [getUtf8NameSize, readStream_outside (by decide) (by decide)]
    rfl

end SnapshotMetadata

end Fsapfs
