import Fsapfs.Btree.DirectorySearch

namespace Fsapfs
open Program FileSystemBtree

section compare

variable (mappings : NameMappings) (encoding : CharacterEncoding UInt8) (useCaseFolding : Bool)

def compareNameWithUtf8String (name string : List UInt8) : Result Ordering :=
  if name.length > ssizeMax then fail .valueExceedsMaximum
  else if name.length = 0 then fail .valueZeroOrLess
  else compareName { mappings, utf8 := encoding, encoding } useCaseFolding name string

def hashedFrom : Nat → List UInt8 → Result (List Nat)
  | _, [] => .ok []
  | 0, _ :: _ => .error .unfinished
  | fuel + 1, unit :: string => do
      let (character, string) ← encoding.next (unit :: string)
      if character = 0 then return []
      else do
        let characters ← hashedFrom fuel string
        return mappings.hashedCharacters useCaseFolding character ++ characters

def hashedString (string : List UInt8) : Result (List Nat) :=
  hashedFrom mappings encoding useCaseFolding string.length string

theorem checksumFrom_hashed (fuel checksum : Nat) (string : List UInt8) :
    checksumFrom mappings encoding useCaseFolding fuel checksum string =
      (hashedFrom mappings encoding useCaseFolding fuel string).map fun characters =>
        characters.foldl addCharacter checksum := by
  induction fuel generalizing checksum string with
  | zero => cases string <;> rfl
  | succ fuel ih =>
      cases string with
      | nil => rfl
      | cons unit string =>
          unfold checksumFrom hashedFrom
          cases encoding.next (unit :: string) with
          | error failure => rfl
          | ok read =>
              simp only [ok_bind]
              split
              · rfl
              · rw [ih]
                cases hashedFrom mappings encoding useCaseFolding fuel read.2 with
                | error failure => rfl
                | ok characters => simp [Except.map, pure, Except.pure]

theorem calculateNameHash_hashed (string : List UInt8) :
    calculateNameHash mappings encoding useCaseFolding string =
      (hashedString mappings encoding useCaseFolding string).map fun characters =>
        characters.foldl addCharacter 0xffffffff &&& 0x003fffff := by
  unfold calculateNameHash hashedString
  rw [checksumFrom_hashed]
  cases hashedFrom mappings encoding useCaseFolding string.length string <;> rfl

end compare

section names

variable {mappings : NameMappings} {encoding : CharacterEncoding UInt8} {useCaseFolding : Bool}

/-- A name of some characters, with or without an end of string character. -/
structure NameOf (encoding : CharacterEncoding UInt8) (name : List UInt8) (characters : List Nat) : Prop where
  filled : name ≠ []
  fits : name.length ≤ ssizeMax
  spelled : Spells encoding (encoding.trim name) characters

/-- A name in which no unit and no character ends the string. -/
structure Unended (encoding : CharacterEncoding UInt8) (name : List UInt8) (characters : List Nat) : Prop where
  filled : name ≠ []
  fits : name.length ≤ ssizeMax
  spelled : Spells encoding name characters
  units : ∀ unit ∈ name, encoding.value unit ≠ 0
  characters : 0 ∉ characters

variable {name string third : List UInt8} {nameCharacters characters : List Nat}

theorem Unended.trim (unended : Unended encoding name characters) : encoding.trim name = name :=
  CharacterEncoding.trim_unended unended.units

theorem Unended.nameOf (unended : Unended encoding name characters) : NameOf encoding name characters where
  filled := unended.filled
  fits := unended.fits
  spelled := unended.trim.symm ▸ unended.spelled

def compareCharactersOf (mappings : NameMappings) (encoding : CharacterEncoding UInt8) (useCaseFolding : Bool)
    (nameCharacters characters : List Nat) : Ordering :=
  compareSpelled (α := UInt8) { mappings, utf8 := encoding, encoding } useCaseFolding nameCharacters characters

theorem compareCharactersOf_trans (mappings : NameMappings) (encoding : CharacterEncoding UInt8) (useCaseFolding : Bool) :
    Std.TransCmp fun left right => compareCharactersOf mappings encoding useCaseFolding right left :=
  inferInstanceAs (Std.TransCmp fun left right =>
    compareSpelled (α := UInt8) { mappings, utf8 := encoding, encoding } useCaseFolding right left)

theorem compareNameWithUtf8String_spells (named : NameOf encoding name nameCharacters)
    (spelled : NameOf encoding string characters) :
    compareNameWithUtf8String mappings encoding useCaseFolding name string =
      .ok (compareCharactersOf mappings encoding useCaseFolding nameCharacters characters) := by
  unfold compareNameWithUtf8String
  rw [if_neg (Nat.not_lt.mpr named.fits), if_neg (by simpa using named.filled)]
  exact compareName_spells named.spelled spelled.spelled spelled.fits

/-- The comparison of names is a total preorder. -/
theorem comparison_preorder {thirdCharacters : List Nat} (named : NameOf encoding name nameCharacters)
    (spelled : NameOf encoding string characters) (other : NameOf encoding third thirdCharacters) :
    (∃ order, compareNameWithUtf8String mappings encoding useCaseFolding name string = .ok order ∧
      compareNameWithUtf8String mappings encoding useCaseFolding string name = .ok order.swap) ∧
    (compareNameWithUtf8String mappings encoding useCaseFolding string name ≠ .ok .gt →
      compareNameWithUtf8String mappings encoding useCaseFolding third string ≠ .ok .gt →
      compareNameWithUtf8String mappings encoding useCaseFolding third name ≠ .ok .gt) := by
  have transitive := compareCharactersOf_trans mappings encoding useCaseFolding
  rw [compareNameWithUtf8String_spells named spelled, compareNameWithUtf8String_spells spelled named,
    compareNameWithUtf8String_spells other spelled, compareNameWithUtf8String_spells other named]
  constructor
  · exact ⟨_, rfl, congrArg _ transitive.eq_swap⟩
  · intro first second
    have least {left right : List Nat} (notMore : (.ok (compareCharactersOf mappings encoding useCaseFolding right left) :
        Result Ordering) ≠ .ok .gt) : (compareCharactersOf mappings encoding useCaseFolding right left).isLE := by
      cases order : compareCharactersOf mappings encoding useCaseFolding right left with
      | lt => rfl
      | eq => rfl
      | gt => exact absurd (congrArg _ order) notMore
    have whole := transitive.isLE_trans (least first) (least second)
    intro more
    rw [Except.ok.inj more] at whole
    cases whole

/-- The characters of the hash that come from the characters of a name. -/
def hashed (mappings : NameMappings) (useCaseFolding : Bool) (characters : List Nat) : List Nat :=
  characters.flatMap (mappings.hashedCharacters useCaseFolding)

/-- What is relied on of the tables: every character has a decomposition, and characters of one decomposition have
one special case folding. -/
structure NameMappings.Consistent (mappings : NameMappings) : Prop where
  hashes : ∀ useCaseFolding character, mappings.hashedCharacters useCaseFolding character ≠ []
  decomposes : ∀ useCaseFolding character character',
    mappings.decomposition (mappings.foldCase useCaseFolding character) =
      mappings.decomposition (mappings.foldCase useCaseFolding character') →
    mappings.hashedCharacters useCaseFolding character = mappings.hashedCharacters useCaseFolding character'

theorem hashedFrom_spells {fuel : Nat} (spelled : Spells encoding string characters) (ends : 0 ∉ characters)
    (enough : string.length ≤ fuel) :
    hashedFrom mappings encoding useCaseFolding fuel string = .ok (hashed mappings useCaseFolding characters) := by
  induction spelled generalizing fuel with
  | nil => cases fuel <;> rfl
  | cons read _ ih =>
      obtain ⟨fuel, rfl⟩ := Nat.exists_eq_succ_of_ne_zero (show fuel ≠ 0 by simp at enough; omega)
      have shorter := encoding.next_shorter read
      simp only [List.mem_cons, not_or] at ends
      rw [hashedFrom, read, ok_bind]
      simp only []
      rw [if_neg (Ne.symm ends.1), ih ends.2 (by omega)]
      simp [hashed, pure, Except.pure]

theorem hashedString_unended (unended : Unended encoding string characters) :
    hashedString mappings encoding useCaseFolding string = .ok (hashed mappings useCaseFolding characters) :=
  hashedFrom_spells unended.spelled unended.characters (Nat.le_refl _)

theorem compareDecompositions_eq_iff (characters nameCharacters : List Nat) :
    compareDecompositions characters nameCharacters = .eq ↔ characters = nameCharacters := by
  induction characters generalizing nameCharacters with
  | nil => cases nameCharacters <;> simp [compareDecompositions]
  | cons character characters ih =>
      cases nameCharacters with
      | nil => simp [compareDecompositions]
      | cons nameCharacter nameCharacters =>
          rw [compareDecompositions]
          split_ifs with less more
          · simp [Nat.ne_of_lt less]
          · simp [Nat.ne_of_gt more]
          · rw [ih, show character = nameCharacter by omega]
            simp

def decompositions (mappings : NameMappings) (useCaseFolding : Bool) (characters : List Nat) : List (List Nat) :=
  characters.map fun character => mappings.decomposition (mappings.foldCase useCaseFolding character)

theorem compareCharactersOf_eq :
    compareCharactersOf mappings encoding useCaseFolding nameCharacters characters = .eq ↔
      decompositions mappings useCaseFolding nameCharacters = decompositions mappings useCaseFolding characters := by
  unfold compareCharactersOf
  induction nameCharacters generalizing characters with
  | nil => cases characters <;> simp [compareSpelled, decompositions]
  | cons nameCharacter nameCharacters ih =>
      cases characters with
      | nil => simp [compareSpelled, decompositions]
      | cons character characters =>
          have first := compareDecompositions_eq_iff
            (mappings.decomposition (mappings.foldCase useCaseFolding character))
            (mappings.decomposition (mappings.foldCase useCaseFolding nameCharacter))
          unfold decompositions at ih ⊢
          rw [compareSpelled, List.map_cons, List.map_cons, List.cons.injEq, ← ih,
            @eq_comm _ (mappings.decomposition (mappings.foldCase useCaseFolding nameCharacter)), ← first]
          unfold compareCharacters
          cases compareDecompositions (mappings.decomposition (mappings.foldCase useCaseFolding character))
            (mappings.decomposition (mappings.foldCase useCaseFolding nameCharacter)) <;> simp

/-- Two names that are alike up to a character of each whose decompositions differ, and that go on from there to
the same characters of the hash. -/
def SpelledApart (mappings : NameMappings) (useCaseFolding : Bool) (nameCharacters characters : List Nat) : Prop :=
  ∃ front front' character character' rest rest',
    nameCharacters = front ++ character :: rest ∧ characters = front' ++ character' :: rest' ∧
    decompositions mappings useCaseFolding front = decompositions mappings useCaseFolding front' ∧
    mappings.decomposition (mappings.foldCase useCaseFolding character) ≠
      mappings.decomposition (mappings.foldCase useCaseFolding character') ∧
    mappings.hashedCharacters useCaseFolding character ++ hashed mappings useCaseFolding rest =
      mappings.hashedCharacters useCaseFolding character' ++ hashed mappings useCaseFolding rest'

section consistent

variable (consistent : mappings.Consistent)

include consistent

theorem hashed_congr (same : decompositions mappings useCaseFolding nameCharacters =
      decompositions mappings useCaseFolding characters) :
    hashed mappings useCaseFolding nameCharacters = hashed mappings useCaseFolding characters := by
  induction nameCharacters generalizing characters with
  | nil =>
      cases characters with
      | nil => rfl
      | cons => cases same
  | cons nameCharacter nameCharacters ih =>
      cases characters with
      | nil => cases same
      | cons character characters =>
          obtain ⟨first, rest⟩ := List.cons.inj same
          unfold hashed at ih ⊢
          rw [List.flatMap_cons, List.flatMap_cons, consistent.decomposes _ _ _ first, ih rest]

theorem spelledApart_iff : SpelledApart mappings useCaseFolding nameCharacters characters ↔
    hashed mappings useCaseFolding nameCharacters = hashed mappings useCaseFolding characters ∧
      decompositions mappings useCaseFolding nameCharacters ≠ decompositions mappings useCaseFolding characters := by
  constructor
  · rintro ⟨front, front', character, character', rest, rest', rfl, rfl, same, apart, hashes⟩
    constructor
    · have front := hashed_congr consistent same
      unfold hashed at front hashes ⊢
      rw [List.flatMap_append, List.flatMap_append, List.flatMap_cons, List.flatMap_cons, front, hashes]
    · intro whole
      unfold decompositions at same whole
      rw [List.map_append, List.map_append, same, List.append_cancel_left_eq] at whole
      exact apart (List.cons.inj whole).1
  · rintro ⟨hashes, apart⟩
    induction nameCharacters generalizing characters with
    | nil =>
        cases characters with
        | nil => exact absurd rfl apart
        | cons character characters =>
            have nothing : mappings.hashedCharacters useCaseFolding character = [] := by
              simp [hashed] at hashes
              exact hashes.1.symm ▸ rfl
            exact absurd nothing (consistent.hashes _ _)
    | cons nameCharacter nameCharacters ih =>
        cases characters with
        | nil =>
            have nothing : mappings.hashedCharacters useCaseFolding nameCharacter = [] := by
              simp [hashed] at hashes
              exact hashes.1
            exact absurd nothing (consistent.hashes _ _)
        | cons character characters =>
            by_cases first : mappings.decomposition (mappings.foldCase useCaseFolding nameCharacter) =
                mappings.decomposition (mappings.foldCase useCaseFolding character)
            · have cut : hashed mappings useCaseFolding nameCharacters = hashed mappings useCaseFolding characters := by
                unfold hashed at hashes ⊢
                rwa [List.flatMap_cons, List.flatMap_cons, consistent.decomposes _ _ _ first,
                  List.append_cancel_left_eq] at hashes
              have apart' : decompositions mappings useCaseFolding nameCharacters ≠
                  decompositions mappings useCaseFolding characters := by
                intro same
                apply apart
                unfold decompositions at same ⊢
                rw [List.map_cons, List.map_cons, first, same]
              obtain ⟨front, front', c, c', rest, rest', rfl, rfl, same, differ, equal⟩ := ih cut apart'
              refine ⟨nameCharacter :: front, character :: front', c, c', rest, rest', rfl, rfl, ?_, differ, equal⟩
              unfold decompositions at same ⊢
              rw [List.map_cons, List.map_cons, first, same]
            · exact ⟨[], [], nameCharacter, character, nameCharacters, characters, rfl, rfl, rfl, first, hashes⟩

/-- A character that is its own decomposition after case folding, and has no special case folding. -/
def NameMappings.Plain (mappings : NameMappings) (useCaseFolding : Bool) (character : Nat) : Prop :=
  mappings.decomposition (mappings.foldCase useCaseFolding character) = [mappings.foldCase useCaseFolding character] ∧
    mappings.hashedCharacters useCaseFolding character = [mappings.foldCase useCaseFolding character]

/-- Names of plain characters are not spelled apart. -/
theorem not_spelledApart (plain : ∀ character ∈ nameCharacters, mappings.Plain useCaseFolding character)
    (plain' : ∀ character ∈ characters, mappings.Plain useCaseFolding character) :
    ¬SpelledApart mappings useCaseFolding nameCharacters characters := by
  have folded : ∀ names : List Nat, (∀ character ∈ names, mappings.Plain useCaseFolding character) →
      hashed mappings useCaseFolding names = names.map (mappings.foldCase useCaseFolding) ∧
        decompositions mappings useCaseFolding names =
          (names.map (mappings.foldCase useCaseFolding)).map ([·]) := by
    intro names plain
    constructor
    · unfold hashed
      rw [List.flatMap_congr fun character member => (plain character member).2, ← List.map_eq_flatMap]
    · unfold decompositions
      rw [List.map_map]
      exact List.map_congr_left fun character member => (plain character member).1
  rw [spelledApart_iff consistent, (folded _ plain).1, (folded _ plain').1, (folded _ plain).2, (folded _ plain').2]
  rintro ⟨same, apart⟩
  exact apart (congrArg _ same)

/-- Names compare equal just if the same characters go into their hashes, unless they are spelled apart. -/
theorem comparison_hashes (named : Unended encoding name nameCharacters)
    (spelled : Unended encoding string characters) :
    ((compareNameWithUtf8String mappings encoding useCaseFolding name string = .ok .eq ↔
        hashedString mappings encoding useCaseFolding name = hashedString mappings encoding useCaseFolding string) ↔
      ¬SpelledApart mappings useCaseFolding nameCharacters characters) ∧
    (compareNameWithUtf8String mappings encoding useCaseFolding name string = .ok .eq →
      hashedString mappings encoding useCaseFolding name = hashedString mappings encoding useCaseFolding string ∧
      calculateNameHash mappings encoding useCaseFolding name =
        calculateNameHash mappings encoding useCaseFolding string) := by
  have equal : compareNameWithUtf8String mappings encoding useCaseFolding name string = .ok .eq ↔
      decompositions mappings useCaseFolding nameCharacters = decompositions mappings useCaseFolding characters := by
    rw [compareNameWithUtf8String_spells named.nameOf spelled.nameOf]
    exact ⟨fun same => compareCharactersOf_eq.mp (Except.ok.inj same), fun same =>
      congrArg _ (compareCharactersOf_eq.mpr same)⟩
  have hashes : hashedString mappings encoding useCaseFolding name = hashedString mappings encoding useCaseFolding string ↔
      hashed mappings useCaseFolding nameCharacters = hashed mappings useCaseFolding characters := by
    rw [hashedString_unended named, hashedString_unended spelled]
    exact ⟨Except.ok.inj, congrArg _⟩
  have follows (same : decompositions mappings useCaseFolding nameCharacters =
      decompositions mappings useCaseFolding characters) := hashed_congr consistent same
  constructor
  · rw [equal, hashes, spelledApart_iff consistent]
    tauto
  · intro same
    have streams := hashes.mpr (follows (equal.mp same))
    refine ⟨streams, ?_⟩
    rw [calculateNameHash_hashed, calculateNameHash_hashed, streams]

end consistent

end names

namespace FileSystemBtree.Sample

def latin : CharacterEncoding UInt8 where
  value := UInt8.toNat
  copyFrom
    | [] => .error .valueOutOfBounds
    | byte :: rest =>
        if byte.toNat < 0x80 then .ok (byte.toNat, 1)
        else
          match rest with
          | [] => .error .valueOutOfBounds
          | byte' :: _ =>
              if 0xc2 ≤ byte.toNat ∧ byte.toNat < 0xe0 ∧ 0x80 ≤ byte'.toNat ∧ byte'.toNat < 0xc0 then
                .ok ((byte.toNat - 0xc0) * 64 + (byte'.toNat - 0x80), 2)
              else .error .unsupportedValue
  advances := by
    intro units character size copied
    cases units with
    | nil => cases copied
    | cons byte units =>
        simp only at copied
        split_ifs at copied
        · obtain ⟨_, rfl⟩ := Prod.mk.inj (Except.ok.inj copied)
          simp
        · cases units with
          | nil => cases copied
          | cons byte' units =>
              simp only at copied
              split_ifs at copied
              obtain ⟨_, rfl⟩ := Prod.mk.inj (Except.ok.inj copied)
              simp

def acuteMappings : NameMappings where
  caseFolding character := if 0x41 ≤ character ∧ character ≤ 0x5a then character + 0x20 else character
  specialCaseFolding _ := none
  decomposition character := if character = 0xe9 then [0x65, 0x301] else [character]

theorem acuteMappings_consistent : acuteMappings.Consistent where
  hashes useCaseFolding character := by
    cases useCaseFolding <;> simp only [NameMappings.hashedCharacters, acuteMappings] <;> split_ifs <;> simp
  decomposes useCaseFolding character character' same := by
    cases useCaseFolding <;> exact same

theorem acuteMappings_plain {character : Nat} (letter : character < 0x80) : acuteMappings.Plain true character := by
  unfold NameMappings.Plain NameMappings.hashedCharacters NameMappings.foldCase acuteMappings
  constructor
  all_goals
    simp only [if_true]
    split_ifs
    all_goals first | rfl | omega

theorem letters_unended : Unended latin [0x61, 0x42] [0x61, 0x42] ∧ Unended latin [0x41, 0x62] [0x41, 0x62] :=
  ⟨⟨by simp, by decide, .cons rfl (.cons rfl .nil), by decide +kernel, by decide⟩,
    ⟨by simp, by decide, .cons rfl (.cons rfl .nil), by decide +kernel, by decide⟩⟩

theorem precomposed_unended : Unended latin [0xc3, 0xa9] [0xe9] where
  filled := by simp
  fits := by decide
  spelled := .cons rfl .nil
  units := by decide +kernel
  characters := by decide

theorem decomposed_unended : Unended latin [0x65, 0xcc, 0x81] [0x65, 0x301] where
  filled := by simp
  fits := by decide
  spelled := .cons rfl (.cons rfl .nil)
  units := by decide +kernel
  characters := by decide

end FileSystemBtree.Sample

theorem letter_nameOf : NameOf FileSystemBtree.Sample.ascii [97] [97] where
  filled := by simp
  fits := by decide
  spelled := .cons rfl .nil

theorem ended_nameOf : NameOf FileSystemBtree.Sample.ascii [98, 0] [98] where
  filled := by simp
  fits := by decide
  spelled := .cons rfl .nil

theorem comparison_hashes_sample :
    (compareNameWithUtf8String Sample.acuteMappings Sample.latin true [0x61, 0x42] [0x41, 0x62] = .ok .eq ↔
        hashedString Sample.acuteMappings Sample.latin true [0x61, 0x42] =
          hashedString Sample.acuteMappings Sample.latin true [0x41, 0x62]) ∧
      compareNameWithUtf8String Sample.acuteMappings Sample.latin true [0x61, 0x42] [0x41, 0x62] = .ok .eq :=
  ⟨(comparison_hashes Sample.acuteMappings_consistent Sample.letters_unended.1 Sample.letters_unended.2).1.mpr
    (not_spelledApart Sample.acuteMappings_consistent
      (fun _ member => Sample.acuteMappings_plain ((by decide : ∀ character ∈ [0x61, 0x42], character < 0x80) _ member))
      (fun _ member => Sample.acuteMappings_plain ((by decide : ∀ character ∈ [0x41, 0x62], character < 0x80) _ member))),
    by decide +kernel⟩

/-- The same characters go into the hashes of the two spellings, but they do not compare equal. -/
theorem spellings_differ : Unended Sample.latin [0xc3, 0xa9] [0xe9] ∧
    Unended Sample.latin [0x65, 0xcc, 0x81] [0x65, 0x301] ∧
    hashedString Sample.acuteMappings Sample.latin false [0xc3, 0xa9] =
      hashedString Sample.acuteMappings Sample.latin false [0x65, 0xcc, 0x81] ∧
    compareNameWithUtf8String Sample.acuteMappings Sample.latin false [0xc3, 0xa9] [0x65, 0xcc, 0x81] = .ok .gt :=
  ⟨Sample.precomposed_unended, Sample.decomposed_unended, by decide, by decide +kernel⟩

theorem comparison_preorder_sample : NameOf Sample.ascii [97] [97] ∧ NameOf Sample.ascii [98, 0] [98] ∧
    (∃ order, compareNameWithUtf8String Sample.asciiMappings Sample.ascii true [97] [98, 0] = .ok order ∧
      compareNameWithUtf8String Sample.asciiMappings Sample.ascii true [98, 0] [97] = .ok order.swap) :=
  ⟨letter_nameOf, ended_nameOf, (comparison_preorder letter_nameOf ended_nameOf letter_nameOf).1⟩

end Fsapfs
