import Fsapfs.Coding.TagLength
import Fsapfs.KeyEncryptedKey

namespace Fsapfs
open Program Coding

namespace KeyEncryptedKey

section headers

variable {data : List UInt8} {byteForm : Bool} {offset : Nat}

theorem and_0x80_eq_zero {byte : Nat} (fits : byte < 256) : byte &&& 0x80 = 0 ↔ byte < 0x80 := by
  revert byte
  decide +kernel

theorem load_outside {index : Nat} (outside : data.length ≤ index) :
    (load data index : Result UInt8) = .error .undefined := by
  rw [load, List.getElem?_eq_none outside]

theorem readValueHeader_known {tag : UInt8} {form : LengthForm} {size : Nat} (known : form.Known byteForm)
    (holds : form.Holds size) (has : HasAt data offset (tag :: form.encode size)) :
    readValueHeader data byteForm offset = .ok (tag.toNat, size, offset + (tag :: form.encode size).length) := by
  rw [readValueHeader, has.load, ok_bind]
  cases form with
  | short =>
      have small : size < 0x80 := holds
      have value : (UInt8.ofNat size).toNat = size := by
        simp
        omega
      rw [has.tail.load, ok_bind]
      dsimp only
      rw [value, if_pos ((and_0x80_eq_zero (by omega)).mpr small)]
      rfl
  | byte =>
      have small : size < 0x100 := holds
      have value : (UInt8.ofNat size).toNat = size := by
        simp
        omega
      have allowed : byteForm = true := known.resolve_right fun other => other rfl
      rw [has.tail.load, ok_bind]
      dsimp only
      rw [if_neg (by decide), if_pos ⟨rfl, allowed⟩, has.tail.tail.load, ok_bind, value]
      rfl
  | word =>
      have size' : loadLittleEndian16 data (offset + 2) = .ok size := loadLittleEndian_of_hasAt has.tail.tail holds
      rw [has.tail.load, ok_bind]
      dsimp only
      rw [if_neg (by decide), if_neg (by simp), if_pos (by decide), size']
      rfl

theorem readValueHeader_cut (cut : CutHeader byteForm (data.drop offset)) :
    readValueHeader data byteForm offset = .error .undefined := by
  have length := List.length_drop (i := offset) (l := data)
  generalize same : data.drop offset = rest at cut length
  have inside : offset ≤ data.length := by
    cases cut <;> simp only [List.length_cons] at length <;> omega
  have has : HasAt data offset rest := hasAt_of_drop inside (same.trans (List.append_nil rest).symm)
  have ends : data.length = offset + rest.length := by omega
  cases cut with
  | tag tag =>
      rw [readValueHeader, has.load, ok_bind, load_outside (show data.length ≤ offset + 1 from Nat.le_of_eq ends)]
      rfl
  | byte tag known =>
      rw [readValueHeader, has.load, ok_bind, has.tail.load, ok_bind]
      dsimp only
      rw [if_neg (by decide), if_pos ⟨rfl, known⟩, 
        load_outside (show data.length ≤ offset + 2 from Nat.le_of_eq ends)]
      rfl
  | word tag =>
      rw [readValueHeader, has.load, ok_bind, has.tail.load, ok_bind]
      dsimp only
      rw [if_neg (by decide), if_neg (by simp), if_pos (by decide), loadLittleEndian16, loadLittleEndian, slice, if_neg]
      · rfl
      · simp only [ends, List.length_cons, List.length_nil]
        omega
  | half tag low =>
      rw [readValueHeader, has.load, ok_bind, has.tail.load, ok_bind]
      dsimp only
      rw [if_neg (by decide), if_neg (by simp), if_pos (by decide), loadLittleEndian16, loadLittleEndian, slice, if_neg]
      · rfl
      · simp only [ends, List.length_cons, List.length_nil]
        omega

theorem readValueHeader_unknown (inside : offset ≤ data.length) {tag byte : UInt8}
    (unknown : UnknownForm byteForm (data.drop offset) tag byte) :
    readValueHeader data byteForm offset = fail .unsupportedValue := by
  obtain ⟨rest, same⟩ := unknown.starts
  have has : HasAt data offset [tag, byte] := hasAt_of_drop inside same
  rw [readValueHeader, has.load, ok_bind, has.tail.load, ok_bind]
  dsimp only
  rw [if_neg fun zero => unknown.large ((and_0x80_eq_zero byte.toNat_lt).mp zero), if_neg unknown.notByte,
    if_neg unknown.notWord]

end headers

/-- What a loop over values does with them: the tags and sizes that it takes, and what a value at an offset sets. -/
structure Pass (σ : Type) where
  byteForm : Bool
  accepts : Nat → Nat → Bool
  apply : σ → Nat → Nat → List UInt8 → σ

namespace Pass

variable {σ : Type} (pass : Pass σ)

def walk (data : List UInt8) (limit : Nat) : Nat → Nat → σ → Result σ
  | 0, _, _ => .error .unfinished
  | fuel + 1, dataOffset, s =>
      if dataOffset < limit then do
        let header ← readValueHeader data pass.byteForm dataOffset
        if header.1 = 0 ∧ header.2.1 = 0 then return s
        else if header.2.2 ≥ limit ∨ header.2.1 > limit - header.2.2 then fail .valueOutOfBounds
        else if pass.accepts header.1 header.2.1 = true then
          walk data limit fuel (header.2.2 + header.2.1)
            (pass.apply s header.2.2 header.1 ((data.drop header.2.2).take header.2.1))
        else fail .unsupportedValue
      else .ok s

def readSequence (tag : Nat) (data : List UInt8) (limit : Nat) (s : σ) : Result σ := do
  let header ← readValueHeader data pass.byteForm 0
  if header.1 ≠ tag then fail .unsupportedValue
  else if header.2.1 + 2 > limit then fail .valueOutOfBounds
  else pass.walk data limit (limit + 1) header.2.2 s

structure Reads (element : Tagged) : Prop where
  known : element.form.Known pass.byteForm
  continues : ¬element.Ends
  accepted : pass.accepts element.tag.toNat element.value.length = true

def applyAll (s : σ) : Nat → List Tagged → σ
  | _, [] => s
  | dataOffset, element :: elements =>
      applyAll (pass.apply s (dataOffset + element.header.length) element.tag.toNat element.value)
        (dataOffset + element.encode.length) elements

section walk

variable {pass : Pass σ} {data : List UInt8} {limit fuel offset : Nat} {s : σ} {element : Tagged}
  {elements : List Tagged} {rest : List UInt8}

theorem toNat_eq_zero {tag : UInt8} : tag.toNat = 0 ↔ tag = 0 := by
  rw [← UInt8.toNat_inj]
  rfl

theorem walk_element (limited : limit ≤ data.length) (same : data.drop offset = element.encode ++ rest)
    (reads : pass.Reads element) (starts : offset + element.header.length < limit)
    (fits : offset + element.encode.length ≤ limit) :
    pass.walk data limit (fuel + 1) offset s =
      pass.walk data limit fuel (offset + element.encode.length)
        (pass.apply s (offset + element.header.length) element.tag.toNat element.value) := by
  have has : HasAt data offset element.encode := hasAt_of_drop (by omega) same
  have read : readValueHeader data pass.byteForm offset =
      .ok (element.tag.toNat, element.value.length, offset + element.header.length) :=
    readValueHeader_known reads.known element.holds has.left
  have value : (data.drop (offset + element.header.length)).take element.value.length = element.value :=
    (has.right rfl).take_drop
  have continues : ¬(element.tag.toNat = 0 ∧ element.value.length = 0) := by
    rw [toNat_eq_zero, List.length_eq_zero_iff]
    exact reads.continues
  rw [element.encode_length] at fits ⊢
  rw [walk, if_pos (by omega), read, ok_bind]
  dsimp only
  rw [if_neg continues, if_neg (by omega), if_pos reads.accepted, value, Nat.add_assoc]

/-- The data from an offset on are values that are read and a rest, which starts before the limit or at it. -/
structure Splits (pass : Pass σ) (data : List UInt8) (limit offset : Nat) (elements : List Tagged)
    (rest : List UInt8) : Prop where
  same : data.drop offset = elements.flatMap Tagged.encode ++ rest
  reads : ∀ element ∈ elements, pass.Reads element
  inside : offset + (elements.flatMap Tagged.encode).length < limit ∨
    offset + (elements.flatMap Tagged.encode).length = limit ∧ Tagged.EndsInValue elements

/-- What is behind the values ends them: nothing up to the limit, or a tag of zero without a value. -/
def Closes (pass : Pass σ) (limit offset : Nat) (rest : List UInt8) : Prop :=
  offset = limit ∨ ∃ form more, LengthForm.Known pass.byteForm form ∧ rest = 0 :: (form.encode 0 ++ more)

theorem Splits.nil (le : offset ≤ limit) : Splits pass data limit offset [] (data.drop offset) where
  same := rfl
  reads := fun _ member => absurd member List.not_mem_nil
  inside := (Nat.lt_or_eq_of_le le).imp id fun same => ⟨same, Tagged.endsInValue_nil⟩

theorem Splits.cons (reads : pass.Reads element) (starts : offset + element.header.length < limit)
    (first : data.drop offset = element.encode ++ data.drop (offset + element.encode.length))
    (splits : Splits pass data limit (offset + element.encode.length) elements rest) :
    Splits pass data limit offset (element :: elements) rest := by
  refine ⟨?_, List.forall_mem_cons.mpr ⟨reads, splits.reads⟩, ?_⟩
  · rw [first, splits.same, List.flatMap_cons, List.append_assoc]
  · have inside := splits.inside
    rw [List.flatMap_cons, List.length_append, ← Nat.add_assoc]
    refine inside.imp id fun ends => ⟨ends.1, ?_⟩
    cases elements with
    | nil =>
        rw [Tagged.endsInValue_singleton]
        intro empty
        have total := ends.1
        simp only [List.flatMap_nil, List.length_nil, Tagged.encode_length, empty] at total
        omega
    | cons next elements => exact Tagged.endsInValue_cons.mpr ends.2

theorem Splits.uncons (splits : Splits pass data limit offset (element :: elements) rest) :
    data.drop offset = element.encode ++ (elements.flatMap Tagged.encode ++ rest) ∧
      offset + element.header.length < limit ∧ offset + element.encode.length ≤ limit ∧
      Splits pass data limit (offset + element.encode.length) elements rest := by
  have same := splits.same
  have inside := splits.inside
  rw [List.flatMap_cons, List.append_assoc] at same
  rw [List.flatMap_cons, List.length_append, ← Nat.add_assoc] at inside
  have behind : data.drop (offset + element.encode.length) = elements.flatMap Tagged.encode ++ rest := by
    rw [← List.drop_drop, same, List.drop_left]
  have fits : offset + element.encode.length ≤ limit := by omega
  refine ⟨same, ?_, fits, behind, (List.forall_mem_cons.mp splits.reads).2, ?_⟩
  · rcases inside with before | ⟨ends, inValue⟩
    · rw [element.encode_length] at before
      omega
    · cases elements with
      | nil =>
          have some := List.length_pos_iff.mpr (Tagged.endsInValue_singleton.mp inValue)
          rw [element.encode_length] at fits
          omega
      | cons next elements =>
          have more := next.header_length
          rw [List.flatMap_cons, List.length_append, next.encode_length, element.encode_length] at ends
          omega
  · refine inside.imp id fun ends => ⟨ends.1, ?_⟩
    cases elements with
    | nil => exact Tagged.endsInValue_nil
    | cons next elements => exact Tagged.endsInValue_cons.mp ends.2

theorem walk_elements (limited : limit ≤ data.length) (splits : Splits pass data limit offset elements rest) :
    pass.walk data limit (elements.length + fuel) offset s =
      pass.walk data limit fuel (offset + (elements.flatMap Tagged.encode).length)
        (pass.applyAll s offset elements) := by
  induction elements generalizing offset s with
  | nil => simp [applyAll]
  | cons element elements ih =>
      obtain ⟨same, starts, fits, splits'⟩ := splits.uncons
      rw [List.length_cons, Nat.add_right_comm,
        walk_element limited same (splits.reads element List.mem_cons_self) starts fits, ih splits',
        List.flatMap_cons, List.length_append, Nat.add_assoc]
      rfl

theorem walk_splits (limited : limit ≤ data.length) (splits : Splits pass data limit offset elements rest)
    (enough : limit - offset < fuel) :
    ∃ more, pass.walk data limit fuel offset s =
      pass.walk data limit (more + 1) (offset + (elements.flatMap Tagged.encode).length)
        (pass.applyAll s offset elements) := by
  have number := Tagged.count_le elements
  have inside := splits.inside
  refine ⟨fuel - elements.length - 1, ?_⟩
  rw [← walk_elements limited splits]
  congr 1
  omega

theorem walk_ok (limited : limit ≤ data.length) (splits : Splits pass data limit offset elements rest)
    (closes : pass.Closes limit (offset + (elements.flatMap Tagged.encode).length) rest)
    (enough : limit - offset < fuel) :
    pass.walk data limit fuel offset s = .ok (pass.applyAll s offset elements) := by
  obtain ⟨more, run⟩ := walk_splits (s := s) limited splits enough
  have inside := splits.inside
  have behind : data.drop (offset + (elements.flatMap Tagged.encode).length) = rest := by
    rw [← List.drop_drop, splits.same, List.drop_left]
  rw [run, walk]
  by_cases ends : offset + (elements.flatMap Tagged.encode).length = limit
  · rw [if_neg (by omega)]
  · obtain ⟨form, more, known, same⟩ := closes.resolve_left ends
    have has : HasAt data (offset + (elements.flatMap Tagged.encode).length) (0 :: form.encode 0) :=
      hasAt_of_drop (by omega) (behind.trans same)
    rw [if_pos (by omega), readValueHeader_known known form.holds_zero has, ok_bind]
    rfl

theorem walk_undefined (limited : limit ≤ data.length) (splits : Splits pass data limit offset elements rest)
    (before : offset + (elements.flatMap Tagged.encode).length < limit) (cut : CutHeader pass.byteForm rest)
    (enough : limit - offset < fuel) :
    pass.walk data limit fuel offset s = .error .undefined := by
  obtain ⟨more, run⟩ := walk_splits (s := s) limited splits enough
  have behind : data.drop (offset + (elements.flatMap Tagged.encode).length) = rest := by
    rw [← List.drop_drop, splits.same, List.drop_left]
  rw [run, walk, if_pos before, readValueHeader_cut (by rwa [behind]), error_bind]

theorem walk_whole (limited : limit ≤ data.length) (same : data.drop offset = elements.flatMap Tagged.encode ++ rest)
    (ends : offset + (elements.flatMap Tagged.encode).length = limit)
    (accepted : ∀ element ∈ elements, ¬element.Ends ∧
      pass.accepts element.tag.toNat element.value.length = true)
    (enough : limit - offset < fuel) {s' : σ} :
    pass.walk data limit fuel offset s = .ok s' ↔ (∀ element ∈ elements, element.form.Known pass.byteForm) ∧
      Tagged.EndsInValue elements ∧ s' = pass.applyAll s offset elements := by
  constructor
  · intro run
    induction elements generalizing offset s fuel with
    | nil =>
        have closes : pass.Closes limit (offset + ([].flatMap Tagged.encode).length) (data.drop offset) := Or.inl ends
        have le : offset ≤ limit := Nat.le_of_eq ends
        rw [walk_ok limited (Splits.nil le) closes enough] at run
        exact ⟨fun _ member => absurd member List.not_mem_nil, Tagged.endsInValue_nil, (Except.ok.inj run).symm⟩
    | cons element elements ih =>
        obtain ⟨continues, takes⟩ := accepted element List.mem_cons_self
        have header := element.header_length
        have length := element.encode_length
        obtain ⟨fuel, rfl⟩ := Nat.exists_eq_succ_of_ne_zero (Nat.pos_iff_ne_zero.mp (Nat.zero_lt_of_lt enough))
        rw [List.flatMap_cons, List.append_assoc] at same
        rw [List.flatMap_cons, List.length_append] at ends
        have same' : data.drop offset = element.tag :: (element.form.encode element.value.length ++
            (element.value ++ (elements.flatMap Tagged.encode ++ rest))) := by
          rw [same, Tagged.encode, Tagged.header, List.append_assoc]
          rfl
        by_cases known : element.form.Known pass.byteForm
        swap
        · have unknown := unknown_of_not_known known element.tag element.value.length
            (element.value ++ (elements.flatMap Tagged.encode ++ rest))
          rw [← same'] at unknown
          rw [walk, if_pos (by omega), readValueHeader_unknown (by omega) unknown] at run
          cases run
        by_cases starts : offset + element.header.length < limit
        · have reads : pass.Reads element := ⟨known, continues, takes⟩
          have behind : data.drop (offset + element.encode.length) = elements.flatMap Tagged.encode ++ rest := by
            rw [← List.drop_drop, same, List.drop_left]
          rw [walk_element limited same reads starts (by omega)] at run
          obtain ⟨forms, inValue, applied⟩ := ih behind (by omega)
            (fun other member => accepted other (List.mem_cons_of_mem _ member)) (by omega) run
          refine ⟨List.forall_mem_cons.mpr ⟨known, forms⟩, ?_, applied⟩
          cases elements with
          | nil =>
              rw [Tagged.endsInValue_singleton]
              intro empty
              simp only [List.flatMap_nil, List.length_nil, length, empty] at ends
              omega
          | cons next elements => exact Tagged.endsInValue_cons.mpr inValue
        · have has : HasAt data offset element.header := (hasAt_of_drop (by omega) same).left
          have read : readValueHeader data pass.byteForm offset =
              .ok (element.tag.toNat, element.value.length, offset + element.header.length) :=
            readValueHeader_known known element.holds has
          have continues' : ¬(element.tag.toNat = 0 ∧ element.value.length = 0) := by
            rwa [toNat_eq_zero, List.length_eq_zero_iff]
          rw [walk, if_pos (by omega), read, ok_bind] at run
          dsimp only at run
          rw [if_neg continues', if_pos (Or.inl (by omega))] at run
          cases run
  · rintro ⟨forms, inValue, rfl⟩
    have splits : Splits pass data limit offset elements rest :=
      ⟨same, fun element member => ⟨forms element member, accepted element member |>.1, accepted element member |>.2⟩,
        Or.inr ⟨ends, inValue⟩⟩
    exact walk_ok limited splits (Or.inl ends) enough

theorem walk_header (limited : limit ≤ data.length) (before : offset < limit) {tag : UInt8} {form : LengthForm}
    {size : Nat} (known : form.Known pass.byteForm) (holds : form.Holds size)
    (same : data.drop offset = tag :: (form.encode size ++ rest)) (continues : ¬(tag = 0 ∧ size = 0)) :
    (∃ element, pass.Reads element ∧ offset + element.header.length < limit ∧ offset + element.encode.length ≤ limit ∧
      data.drop offset = element.encode ++ data.drop (offset + element.encode.length)) ∨
    ∃ code, ∀ fuel s, pass.walk data limit (fuel + 1) offset s = .error (.error code) := by
  have has : HasAt data offset (tag :: form.encode size) := hasAt_of_drop (by omega) same
  have read := readValueHeader_known known holds has
  have continues' : ¬(tag.toNat = 0 ∧ size = 0) := by rwa [toNat_eq_zero]
  generalize length : (tag :: form.encode size).length = headerLength at read
  by_cases unfit : offset + headerLength ≥ limit ∨ size > limit - (offset + headerLength)
  · refine Or.inr ⟨.valueOutOfBounds, fun fuel s => ?_⟩
    rw [walk, if_pos before, read, ok_bind]
    dsimp only
    rw [if_neg continues', if_pos unfit]
    rfl
  have room : size ≤ rest.length := by
    have total := congrArg List.length same
    rw [← List.cons_append, List.length_append, List.length_drop, length] at total
    omega
  obtain ⟨element, rfl, rfl, rfl, same'⟩ := Tagged.exists_of_header holds same room
  change element.header.length = headerLength at length
  have encodeLength : element.encode.length = headerLength + element.value.length := by
    rw [element.encode_length, length]
  by_cases accepted : pass.accepts element.tag.toNat element.value.length = true
  · refine Or.inl ⟨element, ⟨known, fun ends => continues ⟨ends.1, ?_⟩, accepted⟩, by omega, by omega, ?_⟩
    · rw [ends.2]
      rfl
    · rw [← List.drop_drop, same', List.drop_left]
  · refine Or.inr ⟨.unsupportedValue, fun fuel s => ?_⟩
    rw [walk, if_pos before, read, ok_bind]
    dsimp only
    rw [if_neg continues', if_neg unfit, if_neg accepted]
    rfl

theorem walk_cases (pass : Pass σ) (s : σ) (limited : limit ≤ data.length) (start : offset ≤ limit) (enough : limit - offset < fuel) :
    (∃ elements rest, Splits pass data limit offset elements rest ∧
      pass.Closes limit (offset + (elements.flatMap Tagged.encode).length) rest ∧
      pass.walk data limit fuel offset s = .ok (pass.applyAll s offset elements)) ∨
    (∃ elements rest, Splits pass data limit offset elements rest ∧
      offset + (elements.flatMap Tagged.encode).length < limit ∧ CutHeader pass.byteForm rest ∧
      pass.walk data limit fuel offset s = .error .undefined) ∨
    ∃ code, pass.walk data limit fuel offset s = .error (.error code) := by
  induction fuel generalizing offset s with
  | zero => omega
  | succ fuel ih =>
      -- no value is left before the limit, or one that ends them
      have stops (closes : pass.Closes limit offset (data.drop offset)) :
          ∃ elements rest, Splits pass data limit offset elements rest ∧
            pass.Closes limit (offset + (elements.flatMap Tagged.encode).length) rest ∧
            pass.walk data limit (fuel + 1) offset s = .ok (pass.applyAll s offset elements) :=
        ⟨[], _, Splits.nil start, closes, walk_ok limited (Splits.nil start) closes enough⟩
      by_cases before : offset < limit
      swap
      · exact Or.inl (stops (Or.inl (by omega)))
      have some : data.drop offset ≠ [] := by
        rw [ne_eq, List.drop_eq_nil_iff]
        omega
      rcases header_cases pass.byteForm some with ⟨tag, form, size, rest, known, holds, same⟩ | cut | ⟨tag, byte, unknown⟩
      · by_cases ends : tag = 0 ∧ size = 0
        · obtain ⟨rfl, rfl⟩ := ends
          exact Or.inl (stops (Or.inr ⟨form, rest, known, same⟩))
        rcases walk_header limited before known holds same ends with ⟨element, reads, starts, fits, first⟩ | ⟨code, fails⟩
        swap
        · exact Or.inr (Or.inr ⟨code, fails fuel s⟩)
        have advances := element.header_length
        have length := element.encode_length
        have total (elements : List Tagged) : offset + ((element :: elements).flatMap Tagged.encode).length =
            offset + element.encode.length + (elements.flatMap Tagged.encode).length := by
          rw [List.flatMap_cons, List.length_append, Nat.add_assoc]
        rw [walk_element limited first reads starts fits]
        rcases ih (pass.apply s (offset + element.header.length) element.tag.toNat element.value) fits (by omega)
          with ⟨elements, rest, splits, closes, run⟩ | ⟨elements, rest, splits, short, cut, run⟩ | ⟨code, run⟩
        · refine Or.inl ⟨element :: elements, rest, splits.cons reads starts first, ?_, run⟩
          rwa [total]
        · refine Or.inr (Or.inl ⟨element :: elements, rest, splits.cons reads starts first, ?_, cut, run⟩)
          rwa [total]
        · exact Or.inr (Or.inr ⟨code, run⟩)
      · refine Or.inr (Or.inl ⟨[], _, Splits.nil start, before, cut, ?_⟩)
        exact walk_undefined limited (Splits.nil start) before cut enough
      · refine Or.inr (Or.inr ⟨.unsupportedValue, ?_⟩)
        rw [walk, if_pos before, readValueHeader_unknown (by omega) unknown]
        rfl

theorem walk_ok_iff (limited : limit ≤ data.length) (start : offset ≤ limit) (enough : limit - offset < fuel) {s' : σ} :
    pass.walk data limit fuel offset s = .ok s' ↔ ∃ elements rest, Splits pass data limit offset elements rest ∧
      pass.Closes limit (offset + (elements.flatMap Tagged.encode).length) rest ∧
      s' = pass.applyAll s offset elements := by
  constructor
  · intro run
    rcases walk_cases pass s limited start enough with
      ⟨elements, rest, splits, closes, run'⟩ | ⟨_, _, _, _, _, run'⟩ | ⟨code, run'⟩
    · exact ⟨elements, rest, splits, closes, Except.ok.inj (run.symm.trans run')⟩
    · cases run.symm.trans run'
    · cases run.symm.trans run'
  · rintro ⟨elements, rest, splits, closes, rfl⟩
    exact walk_ok limited splits closes enough

theorem walk_undefined_iff (limited : limit ≤ data.length) (start : offset ≤ limit) (enough : limit - offset < fuel) :
    pass.walk data limit fuel offset s = .error .undefined ↔
      ∃ elements rest, Splits pass data limit offset elements rest ∧
        offset + (elements.flatMap Tagged.encode).length < limit ∧ CutHeader pass.byteForm rest := by
  constructor
  · intro run
    rcases walk_cases pass s limited start enough with
      ⟨_, _, _, _, run'⟩ | ⟨elements, rest, splits, before, cut, _⟩ | ⟨code, run'⟩
    · cases run.symm.trans run'
    · exact ⟨elements, rest, splits, before, cut⟩
    · cases run.symm.trans run'
  · rintro ⟨elements, rest, splits, before, cut⟩
    exact walk_undefined limited splits before cut enough

end walk

section sequence

variable {pass : Pass σ} {data : List UInt8} {limit : Nat} {s : σ}

/-- Bytes end within a header: that of the object, or one behind values that are read. -/
def EndsInHeader (pass : Pass σ) (tag : UInt8) (bytes : List UInt8) : Prop :=
  CutHeader pass.byteForm bytes ∨
  ∃ (form : LengthForm) (size : Nat) (elements : List Tagged) (cut : List UInt8),
    form.Known pass.byteForm ∧ form.Holds size ∧ size + 2 ≤ bytes.length ∧
    bytes = tag :: (form.encode size ++ (elements.flatMap Tagged.encode ++ cut)) ∧
    (∀ element ∈ elements, pass.Reads element) ∧ CutHeader pass.byteForm cut

theorem readSequence_known {tag : UInt8} {form : LengthForm} {size : Nat} {rest : List UInt8}
    (known : form.Known pass.byteForm) (holds : form.Holds size) (fits : size + 2 ≤ limit)
    (same : data = tag :: (form.encode size ++ rest)) :
    pass.readSequence tag.toNat data limit s =
      pass.walk data limit (limit + 1) (tag :: form.encode size).length s := by
  have has : HasAt data 0 (tag :: form.encode size) := hasAt_of_drop (Nat.zero_le _) same
  rw [readSequence, readValueHeader_known known holds has, ok_bind]
  dsimp only
  rw [if_neg (not_not_intro rfl), if_neg (by omega), Nat.zero_add]

theorem drop_header {tag : UInt8} {form : LengthForm} {size : Nat} {rest : List UInt8}
    (same : data = tag :: (form.encode size ++ rest)) : data.drop (tag :: form.encode size).length = rest := by
  rw [same, ← List.cons_append, List.drop_left]

theorem endsInHeader_of_undefined (tag : UInt8) (limited : limit ≤ data.length) (some : limit ≠ 0)
    (run : pass.readSequence tag.toNat data limit s = .error .undefined) : pass.EndsInHeader tag (data.take limit) := by
  have nonempty : data ≠ [] := by
    rintro rfl
    exact some (Nat.le_zero.mp limited)
  rcases header_cases pass.byteForm nonempty with ⟨tag', form, size, rest, known, holds, same⟩ | cut | ⟨tag', byte, unknown⟩
  · have has : HasAt data 0 (tag' :: form.encode size) := hasAt_of_drop (Nat.zero_le _) same
    by_cases other : tag'.toNat ≠ tag.toNat
    · rw [readSequence, readValueHeader_known known holds has, ok_bind] at run
      dsimp only at run
      rw [if_pos other] at run
      cases run
    have same_tag : tag' = tag := UInt8.toNat_inj.mp (Decidable.not_not.mp other)
    subst same_tag
    by_cases unfit : size + 2 > limit
    · rw [readSequence, readValueHeader_known known holds has, ok_bind] at run
      dsimp only at run
      rw [if_neg other, if_pos unfit] at run
      cases run
    rw [readSequence_known known holds (by omega) same] at run
    by_cases behind : limit ≤ (tag' :: form.encode size).length
    · rw [walk, if_neg (by omega)] at run
      cases run
    obtain ⟨elements, cut, splits, before, isCut⟩ := (walk_undefined_iff limited (by omega) (by omega)).mp run
    have rest_eq := splits.same
    rw [drop_header same] at rest_eq
    have whole : data = ((tag' :: form.encode size) ++ elements.flatMap Tagged.encode) ++ cut := by
      rw [same, rest_eq, List.append_assoc]
      rfl
    have length := congrArg List.length whole
    refine Or.inr ⟨form, size, elements, cut.take (limit - ((tag' :: form.encode size) ++
      elements.flatMap Tagged.encode).length), known, holds, ?_, ?_, splits.reads, isCut.take ?_⟩
    · rw [List.length_take]
      omega
    · rw [whole, List.take_append, List.take_of_length_le]
      · simp
      · rw [List.length_append]
        omega
    · rw [List.length_append]
      omega
  · exact Or.inl (cut.take (Nat.pos_of_ne_zero some))
  · rw [readSequence, readValueHeader_unknown (Nat.zero_le _) unknown] at run
    cases run

theorem readSequence_undefined_iff (tag : UInt8) :
    pass.readSequence tag.toNat data data.length s = .error .undefined ↔ data = [] ∨ pass.EndsInHeader tag data := by
  constructor
  · intro run
    by_cases empty : data = []
    · exact Or.inl empty
    · have ends := endsInHeader_of_undefined tag (Nat.le_refl _) (mt List.length_eq_zero_iff.mp empty) run
      rw [List.take_length] at ends
      exact Or.inr ends
  · rintro (rfl | cut | ⟨form, size, elements, cut, known, holds, fits, same, reads, isCut⟩)
    · rfl
    · rw [readSequence, readValueHeader_cut cut]
      rfl
    · have length := congrArg List.length same
      have more := isCut.length_pos
      rw [← List.cons_append, List.length_append, List.length_append] at length
      have splits : Splits pass data data.length (tag :: form.encode size).length elements cut :=
        ⟨drop_header same, reads, Or.inl (by omega)⟩
      rw [readSequence_known known holds fits same]
      exact walk_undefined (Nat.le_refl _) splits (by omega) isCut (by omega)

theorem readSequence_ok (tag : UInt8) {s' : σ} (run : pass.readSequence tag.toNat data limit s = .ok s') :
    ∃ (form : LengthForm) (size : Nat) (rest : List UInt8), form.Known pass.byteForm ∧ form.Holds size ∧
      size + 2 ≤ limit ∧ data = tag :: (form.encode size ++ rest) := by
  have nonempty : data ≠ [] := by
    rintro rfl
    cases run
  rcases header_cases pass.byteForm nonempty with ⟨tag', form, size, rest, known, holds, same⟩ | cut | ⟨tag', byte, unknown⟩
  · have has : HasAt data 0 (tag' :: form.encode size) := hasAt_of_drop (Nat.zero_le _) same
    rw [readSequence, readValueHeader_known known holds has, ok_bind] at run
    dsimp only at run
    by_cases other : tag'.toNat ≠ tag.toNat
    · rw [if_pos other] at run
      cases run
    by_cases unfit : size + 2 > limit
    · rw [if_neg other, if_pos unfit] at run
      cases run
    rw [UInt8.toNat_inj.mp (Decidable.not_not.mp other)] at same
    exact ⟨form, size, rest, known, holds, by omega, same⟩
  · rw [readSequence, readValueHeader_cut cut] at run
    cases run
  · rw [readSequence, readValueHeader_unknown (Nat.zero_le _) unknown] at run
    cases run

/-- Values are ended by the end of the bytes, if the last one is not empty, or by a tag of zero without a value. -/
def Ended (pass : Pass σ) (elements : List Tagged) (rest : List UInt8) : Prop :=
  rest = [] ∧ Tagged.EndsInValue elements ∨
  ∃ (form : LengthForm) (more : List UInt8), form.Known pass.byteForm ∧ rest = 0 :: (form.encode 0 ++ more)

theorem readSequence_ok_iff (tag : UInt8) {s' : σ} :
    pass.readSequence tag.toNat data data.length s = .ok s' ↔
      ∃ (form : LengthForm) (size : Nat) (elements : List Tagged) (rest : List UInt8),
        form.Known pass.byteForm ∧ form.Holds size ∧ size + 2 ≤ data.length ∧
        data = tag :: (form.encode size ++ (elements.flatMap Tagged.encode ++ rest)) ∧
        (∀ element ∈ elements, pass.Reads element) ∧ pass.Ended elements rest ∧
        s' = pass.applyAll s (tag :: form.encode size).length elements := by
  constructor
  · intro run
    obtain ⟨form, size, rest, known, holds, fits, same⟩ := readSequence_ok tag run
    have headed := congrArg List.length same
    rw [← List.cons_append, List.length_append] at headed
    rw [readSequence_known known holds fits same] at run
    obtain ⟨elements, behind, splits, closes, applied⟩ := (walk_ok_iff (Nat.le_refl _) (by omega) (by omega)).mp run
    have rest_eq := splits.same
    rw [drop_header same] at rest_eq
    have lengths := congrArg List.length rest_eq
    rw [List.length_append] at lengths
    refine ⟨form, size, elements, behind, known, holds, fits, by rw [same, rest_eq], splits.reads, ?_, applied⟩
    have inside := splits.inside
    refine closes.imp (fun ends => ⟨List.length_eq_zero_iff.mp (by omega), ?_⟩) id
    exact (inside.resolve_left (by omega)).2
  · rintro ⟨form, size, elements, behind, known, holds, fits, same, reads, ended, rfl⟩
    have length := congrArg List.length same
    rw [← List.cons_append, List.length_append, List.length_append] at length
    have splits : Splits pass data data.length (tag :: form.encode size).length elements behind := by
      refine ⟨drop_header same, reads, ?_⟩
      rcases ended with ⟨rfl, ends⟩ | ⟨form', more, _, rfl⟩
      · exact Or.inr ⟨length.symm, ends⟩
      · have some : 0 < (0 :: (form'.encode 0 ++ more)).length := Nat.succ_pos _
        exact Or.inl (by omega)
    have closes : pass.Closes data.length ((tag :: form.encode size).length +
        (elements.flatMap Tagged.encode).length) behind := by
      refine ended.imp (fun ends => ?_) id
      rw [ends.1] at length
      exact length.symm
    rw [readSequence_known known holds fits same]
    exact walk_ok (Nat.le_refl _) splits closes (by omega)

end sequence

end Pass

def copied {size : Nat} (bytes : List UInt8) (array : Bytes size) : Bytes size :=
  if length : bytes.length = size then ⟨bytes, length⟩ else array

/-- The values of the object: the wrapped key is found two bytes before its value. -/
def objectPass : Pass (KeyEncryptedKey × Option (Nat × Nat)) where
  byteForm := true
  accepts tag size := (tag = 0x81 → size = 32) ∧ (tag = 0x82 → size = 8) ∧ (tag = 0xa3 → size ≠ 0)
  apply s offset tag value :=
    if tag = 0x81 then ({ s.1 with hmac := copied value s.1.hmac }, s.2)
    else if tag = 0xa3 then (s.1, some (offset - 2, (value.length + 2) % 2 ^ 16))
    else s

def wrappedPass : Pass KeyEncryptedKey where
  byteForm := false
  accepts tag size :=
    (tag = 0x81 → size = 16) ∧ (tag = 0x82 → size = 8) ∧ (tag = 0x83 → size = 40) ∧
      (tag = 0x84 → size ≠ 0 ∧ size ≤ 8) ∧ (tag = 0x85 → size = 16)
  apply key _ tag value :=
    if tag = 0x81 then { key with identifier := copied value key.identifier }
    else if tag = 0x82 then { key with encryptionMethod := littleEndian (value.take 4) }
    else if tag = 0x83 then { key with wrappedKek := copied value key.wrappedKek }
    else if tag = 0x84 then { key with numberOfIterations := bigEndian value }
    else if tag = 0x85 then { key with salt := copied value key.salt }
    else key

section passes

variable {data : List UInt8}

theorem objectPass_accepts {tag size : Nat} : objectPass.accepts tag size = true ↔
    (tag = 0x81 → size = 32) ∧ (tag = 0x82 → size = 8) ∧ (tag = 0xa3 → size ≠ 0) :=
  decide_eq_true_iff

theorem wrappedPass_accepts {tag size : Nat} : wrappedPass.accepts tag size = true ↔
    (tag = 0x81 → size = 16) ∧ (tag = 0x82 → size = 8) ∧ (tag = 0x83 → size = 40) ∧
      (tag = 0x84 → size ≠ 0 ∧ size ≤ 8) ∧ (tag = 0x85 → size = 16) :=
  decide_eq_true_iff

theorem copy_copied {size offset : Nat} (inside : offset + size ≤ data.length) (array : Bytes size) :
    Bytes.copy size data offset = .ok (copied ((data.drop offset).take size) array) := by
  rw [Bytes.copy, dif_pos inside, copied, dif_pos]

theorem readValues_walk (fuel offset : Nat) (key : KeyEncryptedKey) (wrapped : Option (Nat × Nat)) :
    readValues data fuel offset key wrapped = objectPass.walk data data.length fuel offset (key, wrapped) := by
  induction fuel generalizing offset key wrapped with
  | zero => rfl
  | succ fuel ih =>
      rw [readValues, Pass.walk, show objectPass.byteForm = true from rfl]
      split
      swap
      · rfl
      rcases readValueHeader data true offset with failure | header
      · rfl
      rw [ok_bind, ok_bind]
      obtain ⟨tag, size, start⟩ := header
      dsimp only
      split
      · rfl
      split
      · rfl
      have inside : start + size ≤ data.length := by omega
      have length : ((data.drop start).take size).length = size := by
        rw [List.length_take, List.length_drop]
        omega
      split
      · by_cases sized : size = 32
        · subst sized
          rw [if_neg (by simp), copy_copied inside key.hmac, ok_bind, ih]
          rfl
        · simp [objectPass, sized]
      · by_cases sized : size = 8
        · subst sized
          rw [if_neg (by simp), ih]
          rfl
        · simp [objectPass, sized]
      · by_cases sized : size = 0
        · simp [objectPass, sized]
        · rw [if_neg sized, ih]
          simp [objectPass, sized, length]
      next notHmac notOther notWrapped =>
        have accepted : objectPass.accepts tag size = true :=
          objectPass_accepts.mpr ⟨fun same => (notHmac same).elim, fun same => (notOther same).elim,
            fun same => (notWrapped same).elim⟩
        have applied (s : KeyEncryptedKey × Option (Nat × Nat)) (value : List UInt8) :
            objectPass.apply s start tag value = s := (if_neg notHmac).trans (if_neg notWrapped)
        rw [ih, if_pos accepted, applied]

theorem readWrappedValues_walk {objectEnd : Nat} (limited : objectEnd ≤ data.length) (fuel offset : Nat)
    (key : KeyEncryptedKey) :
    readWrappedValues data objectEnd fuel offset key = wrappedPass.walk data objectEnd fuel offset key := by
  induction fuel generalizing offset key with
  | zero => rfl
  | succ fuel ih =>
      rw [readWrappedValues, Pass.walk, show wrappedPass.byteForm = false from rfl]
      split
      swap
      · rfl
      rcases readValueHeader data false offset with failure | header
      · rfl
      rw [ok_bind, ok_bind]
      obtain ⟨tag, size, start⟩ := header
      dsimp only
      split
      · rfl
      split
      · rfl
      have inside : start + size ≤ data.length := by omega
      split
      · by_cases sized : size = 16
        · subst sized
          rw [if_neg (by simp), copy_copied inside key.identifier, ok_bind, ih]
          rfl
        · simp [wrappedPass, sized]
      · by_cases sized : size = 8
        · subst sized
          have method : loadLittleEndian32 data start = .ok (littleEndian (((data.drop start).take 8).take 4)) := by
            rw [List.take_take]
            exact loadLittleEndian_ok (by omega)
          rw [if_neg (by simp), method, ok_bind, ih]
          rfl
        · simp [wrappedPass, sized]
      · by_cases sized : size = 40
        · subst sized
          rw [if_neg (by simp), copy_copied inside key.wrappedKek, ok_bind, ih]
          rfl
        · simp [wrappedPass, sized]
      · by_cases sized : size = 0 ∨ size > 8
        · rw [if_pos sized, if_neg]
          simp [wrappedPass]
          omega
        · rw [if_neg sized, slice_of_le inside, ok_bind, ih, if_pos]
          · rfl
          · simp [wrappedPass]
            omega
      · by_cases sized : size = 16
        · subst sized
          rw [if_neg (by simp), copy_copied inside key.salt, ok_bind, ih]
          rfl
        · simp [wrappedPass, sized]
      next notIdentifier notMethod notKek notIterations notSalt =>
        have accepted : wrappedPass.accepts tag size = true :=
          wrappedPass_accepts.mpr ⟨fun same => (notIdentifier same).elim, fun same => (notMethod same).elim,
            fun same => (notKek same).elim, fun same => (notIterations same).elim, fun same => (notSalt same).elim⟩
        have applied (key : KeyEncryptedKey) (value : List UInt8) : wrappedPass.apply key start tag value = key :=
          (if_neg notIdentifier).trans ((if_neg notMethod).trans ((if_neg notKek).trans
            ((if_neg notIterations).trans (if_neg notSalt))))
        rw [ih, if_pos accepted, applied]

theorem readObject_sequence (least : 2 ≤ data.length) (most : data.length ≤ ssizeMax) :
    readObject data = objectPass.readSequence 0x30 data data.length (create, none) := by
  rw [readObject, if_neg (by omega), Pass.readSequence, show objectPass.byteForm = true from rfl]
  rcases readValueHeader data true 0 with failure | header
  · rfl
  rw [ok_bind, ok_bind]
  obtain ⟨tag, size, start⟩ := header
  dsimp only
  rw [readValues_walk]
  congr 1
  by_cases unfit : size > data.length - 2
  · rw [if_pos unfit, if_pos (by omega)]
  · rw [if_neg unfit, if_neg (by omega)]

theorem readWrappedObject_sequence {objectSize : Nat} (limited : objectSize ≤ data.length) (key : KeyEncryptedKey) :
    readWrappedObject data objectSize key = wrappedPass.readSequence 0xa3 data objectSize key := by
  rw [readWrappedObject, Pass.readSequence, show wrappedPass.byteForm = false from rfl]
  rcases readValueHeader data false 0 with failure | header
  · rfl
  rw [ok_bind, ok_bind]
  obtain ⟨tag, size, start⟩ := header
  dsimp only
  rw [readWrappedValues_walk limited]

end passes

end KeyEncryptedKey

end Fsapfs
