import Fsapfs.Coding.Bits

namespace Fsapfs.Coding

abbrev BitReader := StateT (List Bool) Option

variable {α β : Type}

def takeBits (n : Nat) : BitReader Nat := fun bits =>
  if n ≤ bits.length then some (bitsNat (bits.take n), bits.drop n) else none

def alignByte : BitReader Unit := fun bits => some ((), bits.drop (bits.length % 8))

def takeBytes : Nat → BitReader (List UInt8)
  | 0 => pure []
  | count + 1 => do
      let byte ← takeBits 8
      let bytes ← takeBytes count
      pure (UInt8.ofNat byte :: bytes)

def reject : BitReader α := fun _ => none

def offer (value : Option α) : BitReader α := fun bits => value.map (·, bits)

/-- What follows a code word that starts `phase` bits into the sequence fills up whole bytes. -/
def Follows (phase : Nat) (code rest : List Bool) : Prop :=
  (phase + code.length + rest.length) % 8 = 0

/-- On `code`, whatever follows it, the reader yields the given value, or rejects on `none`. -/
def Reads (phase : Nat) (reader : BitReader α) (code : List Bool) (value : Option α) : Prop :=
  ∀ rest, Follows phase code rest → reader (code ++ rest) = value.map (·, rest)

structure Sequential (reader : BitReader α) : Prop where
  consumes : ∀ bits a rest, reader bits = some (a, rest) → rest.length ≤ bits.length
  /-- A value read is still read, with the same remainder, when whole bytes are appended. -/
  stable : ∀ bits a rest more, reader bits = some (a, rest) → more.length % 8 = 0 →
    reader (bits ++ more) = some (a, rest ++ more)

theorem bind_eq_some {reader : BitReader α} {next : α → BitReader β} {bits rest : List Bool} {b : β} :
    (reader >>= next) bits = some (b, rest) ↔
      ∃ a middle, reader bits = some (a, middle) ∧ next a middle = some (b, rest) := by
  change (reader bits >>= fun p => next p.1 p.2) = _ ↔ _
  cases h : reader bits with
  | none => simp
  | some p => simp [Prod.ext_iff, -exists_and_left, and_assoc]

theorem bind_of_some {reader : BitReader α} {next : α → BitReader β} {bits middle : List Bool} {a : α}
    (h : reader bits = some (a, middle)) : (reader >>= next) bits = next a middle := by
  change (reader bits >>= fun p => next p.1 p.2) = _
  rw [h]
  rfl

theorem bind_of_none {reader : BitReader α} {next : α → BitReader β} {bits : List Bool}
    (h : reader bits = none) : (reader >>= next) bits = none := by
  change (reader bits >>= fun p => next p.1 p.2) = _
  rw [h]
  rfl

theorem bind_congr {reader : BitReader α} {next next' : α → BitReader β} {bits : List Bool}
    (same : ∀ a rest, reader bits = some (a, rest) → next a rest = next' a rest) :
    (reader >>= next) bits = (reader >>= next') bits := by
  cases read : reader bits with
  | none => rw [bind_of_none read, bind_of_none read]
  | some p =>
    have read' : reader bits = some (p.1, p.2) := read
    rw [bind_of_some read', bind_of_some read', same _ _ read']

theorem offer_bind {value : Option α} {a : α} (some : value = some a) (next : α → BitReader β)
    (bits : List Bool) : (offer value >>= next) bits = next a bits := by
  subst some
  rfl

theorem Reads.pure (phase : Nat) (a : α) : Reads phase (pure a : BitReader α) [] (some a) :=
  fun _ _ => rfl

theorem Reads.reject (phase : Nat) (code : List Bool) :
    Reads phase (reject : BitReader α) code none := fun _ _ => rfl

theorem Reads.offer (phase : Nat) (value : Option α) : Reads phase (offer value) [] value :=
  fun _ _ => rfl

theorem Reads.bind {phase : Nat} {reader : BitReader α} {next : α → BitReader β}
    {code code' : List Bool} {a : α} {value : Option β} (first : Reads phase reader code (some a))
    (second : Reads (phase + code.length) (next a) code' value) :
    Reads phase (reader >>= next) (code ++ code') value := by
  intro rest whole
  have follow : Follows phase code (code' ++ rest) := by
    simp only [Follows, List.length_append] at whole ⊢
    omega
  have read := first (code' ++ rest) follow
  rw [← List.append_assoc] at read
  rw [bind_of_some read]
  exact second rest (by simp only [Follows, List.length_append] at whole ⊢; omega)

theorem Reads.bind_last {phase : Nat} {reader : BitReader α} {next : α → BitReader β}
    {code : List Bool} {a : α} {value : Option β} (first : Reads phase reader code (some a))
    (second : Reads (phase + code.length) (next a) [] value) :
    Reads phase (reader >>= next) code value := by
  have both := first.bind second
  rwa [List.append_nil] at both

theorem Reads.bind_none {phase : Nat} {reader : BitReader α} {next : α → BitReader β}
    {code : List Bool} (first : Reads phase reader code none) :
    Reads phase (reader >>= next) code none := fun rest whole =>
  bind_of_none (first rest whole)

theorem Reads.append_none {phase : Nat} {reader : BitReader α} {code : List Bool}
    (h : Reads phase reader code none) (more : List Bool) : Reads phase reader (code ++ more) none := by
  intro rest whole
  rw [List.append_assoc]
  exact h (more ++ rest) (by simp only [Follows, List.length_append] at whole ⊢; omega)

theorem reads_takeBits (phase : Nat) (code : List Bool) :
    Reads phase (takeBits code.length) code (some (bitsNat code)) := by
  intro rest _
  simp [takeBits]

theorem reads_natBits (phase n v : Nat) (small : v < 2 ^ n) :
    Reads phase (takeBits n) (natBits n v) (some v) := by
  have h := reads_takeBits phase (natBits n v)
  rwa [natBits_length, bitsNat_natBits, Nat.mod_eq_of_lt small] at h

theorem reads_alignByte (phase : Nat) (padding : List Bool) (short : padding.length < 8)
    (aligned : (phase + padding.length) % 8 = 0) : Reads phase alignByte padding (some ()) := by
  intro rest whole
  have remaining : (padding ++ rest).length % 8 = padding.length := by
    simp only [Follows, List.length_append] at whole ⊢
    omega
  rw [alignByte, remaining, List.drop_left' rfl]
  rfl

theorem takeBits_length {n v : Nat} {bits rest : List Bool} (read : takeBits n bits = some (v, rest)) :
    rest.length + n = bits.length ∧ v < 2 ^ n := by
  unfold takeBits at read
  split at read
  · rename_i enough
    cases read
    have bound := bitsNat_lt (bits.take n)
    rw [List.length_take_of_le enough] at bound
    exact ⟨by rw [List.length_drop]; omega, bound⟩
  · cases read

theorem sequential_offer (value : Option α) : Sequential (offer value) where
  consumes bits a rest read := by
    obtain ⟨_, _, same⟩ := Option.map_eq_some_iff.mp read
    cases same
    exact le_rfl
  stable bits a rest more read _ := by
    obtain ⟨_, rfl, same⟩ := Option.map_eq_some_iff.mp read
    cases same
    rfl

theorem sequential_pure (a : α) : Sequential (pure a : BitReader α) := sequential_offer (some a)

theorem sequential_reject : Sequential (reject : BitReader α) := sequential_offer none

theorem Sequential.bind {reader : BitReader α} {next : α → BitReader β} (first : Sequential reader)
    (second : ∀ a, Sequential (next a)) : Sequential (reader >>= next) where
  consumes bits b rest read := by
    obtain ⟨a, middle, here, there⟩ := bind_eq_some.mp read
    exact ((second a).consumes middle b rest there).trans (first.consumes bits a middle here)
  stable bits b rest more read whole := by
    obtain ⟨a, middle, here, there⟩ := bind_eq_some.mp read
    rw [bind_of_some (first.stable bits a middle more here whole)]
    exact (second a).stable middle b rest more there whole

theorem sequential_takeBits (n : Nat) : Sequential (takeBits n) where
  consumes bits a rest read := by
    have := (takeBits_length read).1
    omega
  stable bits a rest more read _ := by
    unfold takeBits at read ⊢
    split at read
    · rename_i enough
      cases read
      rw [if_pos (by simp only [List.length_append]; omega), List.take_append_of_le_length enough,
        List.drop_append_of_le_length enough]
    · cases read

theorem sequential_takeBytes (count : Nat) : Sequential (takeBytes count) := by
  induction count with
  | zero => exact sequential_pure []
  | succ count ih =>
      exact (sequential_takeBits 8).bind fun byte => ih.bind fun bytes => sequential_pure _

theorem takeBits_byte (byte : UInt8) (rest : List Bool) :
    takeBits 8 (byteBits byte ++ rest) = some (byte.toNat, rest) := by
  have value : bitsNat (byteBits byte) = byte.toNat := by
    rw [byteBits, bitsNat_natBits, Nat.mod_eq_of_lt byte.toNat_lt]
  simp [takeBits, List.take_left', List.drop_left', value]

theorem takeBytes_bytesBits (count : Nat) (bytes : List UInt8) :
    takeBytes count (bytesBits bytes) =
      if count ≤ bytes.length then some (bytes.take count, bytesBits (bytes.drop count)) else none := by
  induction count generalizing bytes with
  | zero => rfl
  | succ count ih =>
      cases bytes with
      | nil => rfl
      | cons byte bytes =>
          rw [takeBytes, bytesBits_cons, bind_of_some (takeBits_byte byte _)]
          by_cases enough : count ≤ bytes.length
          · rw [bind_of_some ((ih bytes).trans (if_pos enough)), if_pos (by simpa using enough),
              UInt8.ofNat_toNat]
            rfl
          · rw [bind_of_none ((ih bytes).trans (if_neg enough)), if_neg (by simpa using enough)]

theorem reads_takeBytes (phase : Nat) (bytes : List UInt8) :
    Reads phase (takeBytes bytes.length) (bytesBits bytes) (some bytes) := by
  intro rest whole
  clear whole
  induction bytes with
  | nil => rfl
  | cons byte bytes ih =>
      rw [List.length_cons, takeBytes, bytesBits_cons, List.append_assoc,
        bind_of_some (takeBits_byte byte _), bind_of_some ih, UInt8.ofNat_toNat]
      rfl

theorem sequential_alignByte : Sequential alignByte where
  consumes bits a rest read := by
    have rests : bits.drop (bits.length % 8) = rest := congrArg Prod.snd (Option.some.inj read)
    rw [← rests, List.length_drop]
    omega
  stable bits a rest more read whole := by
    have rests : bits.drop (bits.length % 8) = rest := congrArg Prod.snd (Option.some.inj read)
    have residue : (bits ++ more).length % 8 = bits.length % 8 := by
      simp only [List.length_append]
      omega
    rw [alignByte, residue, List.drop_append_of_le_length (Nat.mod_le _ _), rests]

theorem sequential_foldlM {σ : Type} {step : α → σ → BitReader α} (each : ∀ a i, Sequential (step a i))
    (indices : List σ) (start : α) : Sequential (indices.foldlM step start) := by
  induction indices generalizing start with
  | nil => exact sequential_pure start
  | cons i indices ih => exact (each start i).bind fun a => ih a

/-- A cut inside a code word is never read as a value. -/
theorem Reads.cut {phase : Nat} {reader : BitReader α} {code front back : List Bool} {value : Option α}
    (read : Reads phase reader code value) (sequential : Sequential reader) (split : code = front ++ back)
    (proper : back ≠ []) (whole : (phase + front.length) % 8 = 0) : reader front = none := by
  cases cutRead : reader front with
  | none => rfl
  | some p =>
      let filler := List.replicate (8 - (phase + code.length) % 8) false
      have full := read filler (by simp only [Follows, filler, List.length_replicate]; omega)
      have extended := sequential.stable front p.1 p.2 (back ++ filler) cutRead (by
        simp only [filler, split, List.length_append, List.length_replicate]
        omega)
      rw [← List.append_assoc, ← split, full] at extended
      cases value with
      | none => cases extended
      | some a =>
          have remainders := congrArg (fun q => (Prod.snd q).length) (Option.some.inj extended)
          have positive := List.length_pos_iff.mpr proper
          simp only [List.length_append] at remainders
          omega

end Fsapfs.Coding
