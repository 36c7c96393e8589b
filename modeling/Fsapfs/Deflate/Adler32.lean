import Fsapfs.Basic

namespace Fsapfs.Deflate
open Program

structure AdlerWords where
  lowerWord : Nat
  upperWord : Nat
  deriving Repr, DecidableEq

def addByte (words : AdlerWords) (byte : UInt8) : AdlerWords :=
  let lowerWord := (words.lowerWord + byte.toNat) % 2 ^ 32
  ⟨lowerWord, (words.upperWord + lowerWord) % 2 ^ 32⟩

def foldWord (word : Nat) : Nat :=
  (word % 65536 + ((word >>> 16) <<< 4 - word >>> 16)) % 2 ^ 32

/-- The optimized equivalent of a reduction modulo 65521. -/
def reduceWord (word : Nat) : Nat :=
  let word := foldWord word
  let word := if word > 65521 then foldWord word else word
  if word ≥ 65521 then word - 65521 else word

def addBytes (words : AdlerWords) (data : List UInt8) : AdlerWords :=
  let words := data.foldl addByte words
  ⟨reduceWord words.lowerWord, reduceWord words.upperWord⟩

def addBlocks : Nat → AdlerWords → List UInt8 → AdlerWords × List UInt8
  | 0, words, data => (words, data)
  | fuel + 1, words, data =>
      if data.length ≥ 0x15b0 then addBlocks fuel (addBytes words (data.take 0x15b0)) (data.drop 0x15b0)
      else (words, data)

def calculateAdler32 (data : List UInt8) (initialValue : Nat) : Result Nat :=
  if data.length > ssizeMax then fail .valueExceedsMaximum
  else
    let (words, data) := addBlocks data.length ⟨initialValue % 65536, (initialValue >>> 16) % 65536⟩ data
    let words := if data.length > 0 then addBytes words data else words
    .ok ((words.upperWord <<< 16) % 2 ^ 32 ||| words.lowerWord)

end Fsapfs.Deflate
