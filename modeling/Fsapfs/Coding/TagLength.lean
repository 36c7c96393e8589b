import Fsapfs.Program.HasAt
import Mathlib.Tactic.SplitIfs

namespace Fsapfs.Coding

/-- How the size of a value is written: in one byte, or in one or two behind a byte that says so. -/
inductive LengthForm
  | short
  | byte
  | word
  deriving DecidableEq

namespace LengthForm

def Holds : LengthForm → Nat → Prop
  | short, size => size < 0x80
  | byte, size => size < 0x100
  | word, size => size < 0x10000

instance : ∀ (form : LengthForm) (size : Nat), Decidable (form.Holds size)
  | short, size => inferInstanceAs (Decidable (size < 0x80))
  | byte, size => inferInstanceAs (Decidable (size < 0x100))
  | word, size => inferInstanceAs (Decidable (size < 0x10000))

def encode : LengthForm → Nat → List UInt8
  | short, size => [UInt8.ofNat size]
  | byte, size => [0x81, UInt8.ofNat size]
  | word, size => [0x82, UInt8.ofNat (size % 256), UInt8.ofNat (size / 256 % 256)]

/-- The forms that a reader knows, which may leave out the one of a single byte. -/
def Known (byteForm : Bool) (form : LengthForm) : Prop := byteForm = true ∨ form ≠ byte

theorem holds_zero (form : LengthForm) : form.Holds 0 := by
  cases form <;> simp [Holds]

theorem encode_length_pos (form : LengthForm) (size : Nat) : 0 < (form.encode size).length := by
  cases form <;> exact Nat.succ_pos _

end LengthForm

structure Tagged where
  tag : UInt8
  form : LengthForm
  value : List UInt8
  holds : form.Holds value.length

namespace Tagged

def header (element : Tagged) : List UInt8 := element.tag :: element.form.encode element.value.length

def encode (element : Tagged) : List UInt8 := element.header ++ element.value

def Ends (element : Tagged) : Prop := element.tag = 0 ∧ element.value = []

@[simp] theorem encode_length (element : Tagged) :
    element.encode.length = element.header.length + element.value.length := List.length_append

theorem header_length (element : Tagged) : 2 ≤ element.header.length := by
  have size := element.form.encode_length_pos element.value.length
  rw [header, List.length_cons]
  omega

theorem count_le (elements : List Tagged) :
    elements.length ≤ (elements.flatMap Tagged.encode).length := by
  induction elements with
  | nil => exact Nat.le_refl 0
  | cons element elements ih =>
      have header := element.header_length
      rw [List.flatMap_cons, List.length_append, element.encode_length, List.length_cons]
      omega

theorem exists_of_header {bytes rest : List UInt8} {tag : UInt8} {form : LengthForm} {size : Nat}
    (holds : form.Holds size) (same : bytes = tag :: (form.encode size ++ rest)) (room : size ≤ rest.length) :
    ∃ element : Tagged, element.tag = tag ∧ element.form = form ∧ element.value.length = size ∧
      bytes = element.encode ++ rest.drop size := by
  have length : (rest.take size).length = size := List.length_take_of_le room
  refine ⟨⟨tag, form, rest.take size, by rwa [length]⟩, rfl, rfl, length, ?_⟩
  change bytes = (tag :: form.encode (rest.take size).length) ++ rest.take size ++ rest.drop size
  rw [length, same, List.append_assoc, List.take_append_drop]
  rfl

def EndsInValue (elements : List Tagged) : Prop := ∀ element, elements.getLast? = some element → element.value ≠ []

theorem endsInValue_nil : EndsInValue [] := fun _ absent => nomatch absent

theorem endsInValue_singleton {element : Tagged} : EndsInValue [element] ↔ element.value ≠ [] := by
  constructor
  · intro ends
    exact ends element rfl
  · intro some other same
    rwa [← Option.some.inj same]

theorem endsInValue_cons {element next : Tagged} {elements : List Tagged} :
    EndsInValue (element :: next :: elements) ↔ EndsInValue (next :: elements) := by
  rw [EndsInValue, List.getLast?_cons_cons]
  rfl

end Tagged

/-- Bytes that end within a header. -/
inductive CutHeader (byteForm : Bool) : List UInt8 → Prop
  | tag (tag : UInt8) : CutHeader byteForm [tag]
  | byte (tag : UInt8) (known : byteForm = true) : CutHeader byteForm [tag, 0x81]
  | word (tag : UInt8) : CutHeader byteForm [tag, 0x82]
  | half (tag low : UInt8) : CutHeader byteForm [tag, 0x82, low]

theorem CutHeader.length_pos {byteForm : Bool} {bytes : List UInt8} (cut : CutHeader byteForm bytes) :
    0 < bytes.length := by
  cases cut <;> exact Nat.succ_pos _

theorem CutHeader.take {byteForm : Bool} {bytes : List UInt8} (cut : CutHeader byteForm bytes) {size : Nat}
    (some : 0 < size) : CutHeader byteForm (bytes.take size) := by
  obtain ⟨size, rfl⟩ := Nat.exists_eq_succ_of_ne_zero (Nat.pos_iff_ne_zero.mp some)
  cases cut with
  | tag tag => simpa using CutHeader.tag tag
  | byte tag known =>
      cases size with
      | zero => exact .tag tag
      | succ size => simpa using CutHeader.byte tag known
  | word tag =>
      cases size with
      | zero => exact .tag tag
      | succ size => simpa using CutHeader.word tag
  | half tag low =>
      rcases size with _ | _ | size
      · exact .tag tag
      · exact .word tag
      · simpa using CutHeader.half tag low

/-- The byte behind a tag neither is a size nor says how many bytes hold it. -/
structure UnknownForm (byteForm : Bool) (bytes : List UInt8) (tag byte : UInt8) : Prop where
  starts : ∃ rest, bytes = tag :: byte :: rest
  large : ¬byte.toNat < 0x80
  notByte : ¬(byte.toNat = 0x81 ∧ byteForm = true)
  notWord : byte.toNat ≠ 0x82

theorem unknown_of_not_known {byteForm : Bool} {form : LengthForm} (unknown : ¬form.Known byteForm) (tag : UInt8)
    (size : Nat) (rest : List UInt8) : UnknownForm byteForm (tag :: (form.encode size ++ rest)) tag 0x81 := by
  have same : form = .byte := Decidable.not_not.mp fun other => unknown (Or.inr other)
  subst same
  refine ⟨⟨UInt8.ofNat size :: rest, rfl⟩, by decide, fun known => unknown (Or.inl known.2), by decide⟩

theorem header_cases (byteForm : Bool) {bytes : List UInt8} (some : bytes ≠ []) :
    (∃ tag form size rest, LengthForm.Known byteForm form ∧ form.Holds size ∧
      bytes = tag :: (form.encode size ++ rest)) ∨
    CutHeader byteForm bytes ∨ ∃ tag byte, UnknownForm byteForm bytes tag byte := by
  rcases bytes with _ | ⟨tag, _ | ⟨byte, rest⟩⟩
  · exact absurd rfl some
  · exact Or.inr (Or.inl (.tag tag))
  by_cases short : byte.toNat < 0x80
  · refine Or.inl ⟨tag, .short, byte.toNat, rest, Or.inr nofun, short, ?_⟩
    simp [LengthForm.encode]
  by_cases single : byte.toNat = 0x81 ∧ byteForm = true
  · have same : byte = 0x81 := UInt8.toNat_inj.mp single.1
    subst same
    rcases rest with _ | ⟨size, rest⟩
    · exact Or.inr (Or.inl (.byte tag single.2))
    · refine Or.inl ⟨tag, .byte, size.toNat, rest, Or.inl single.2, size.toNat_lt, ?_⟩
      simp [LengthForm.encode]
  by_cases double : byte.toNat = 0x82
  · have same : byte = 0x82 := UInt8.toNat_inj.mp double
    subst same
    rcases rest with _ | ⟨low, _ | ⟨high, rest⟩⟩
    · exact Or.inr (Or.inl (.word tag))
    · exact Or.inr (Or.inl (.half tag low))
    · have lowFits := low.toNat_lt
      have highFits := high.toNat_lt
      refine Or.inl ⟨tag, .word, low.toNat + 256 * high.toNat, rest, Or.inr nofun, ?_, ?_⟩
      · change low.toNat + 256 * high.toNat < 0x10000
        omega
      · have first : (low.toNat + 256 * high.toNat) % 256 = low.toNat := by omega
        have second : (low.toNat + 256 * high.toNat) / 256 % 256 = high.toNat := by omega
        simp [LengthForm.encode, first, second]
  · exact Or.inr (Or.inr ⟨tag, byte, ⟨rest, rfl⟩, short, single, double⟩)

end Fsapfs.Coding
