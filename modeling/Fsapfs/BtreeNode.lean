import Fsapfs.ByteStream

namespace Fsapfs
open Program

/-- Key or value data of no bytes is data that is not set. -/
structure BtreeEntry where
  keyData : List UInt8
  valueData : List UInt8
  deriving Repr, DecidableEq

structure BtreeFooter where
  nodeSize : Nat
  keySize : Nat
  valueSize : Nat
  deriving Repr, DecidableEq

structure BtreeNode where
  objectType : Nat
  objectSubtype : Nat
  flags : Nat
  level : Nat
  footer : Option BtreeFooter
  entries : List BtreeEntry
  deriving Repr, DecidableEq

def BtreeNode.isLeafNode (node : BtreeNode) : Bool := node.flags &&& 0x0002 ≠ 0

def BtreeNode.isRootNode (node : BtreeNode) : Bool := node.flags &&& 0x0001 ≠ 0

def BtreeNode.hasFixedSizeEntries (node : BtreeNode) : Bool := node.flags &&& 0x0004 ≠ 0

def BtreeNode.requireFooter (node : BtreeNode) (nodeSize keySize valueSize : Nat) : Result Unit :=
  match node.footer with
  | none => .error .undefined
  | some footer =>
      if footer.nodeSize = nodeSize ∧ footer.keySize = keySize ∧ footer.valueSize = valueSize then .ok ()
      else fail .valueOutOfBounds

def maximumBtreeNodeRecursionDepth : Nat := 256

def requireData (data : List UInt8) (minimumSize : Nat) : Result Unit :=
  if data.length = 0 then fail .valueMissing
  else if data.length < minimumSize then fail .valueOutOfBounds
  else .ok ()

theorem requireData_ok {data : List UInt8} {minimumSize : Nat} (positive : 0 < minimumSize) :
    requireData data minimumSize = .ok () ↔ minimumSize ≤ data.length := by
  unfold requireData
  split_ifs with empty short
  · constructor
    · intro h
      cases h
    · intro h
      omega
  · constructor
    · intro h
      cases h
    · intro h
      omega
  · exact ⟨fun _ => Nat.le_of_not_lt short, fun _ => rfl⟩

end Fsapfs
