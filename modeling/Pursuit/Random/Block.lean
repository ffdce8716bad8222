/-!
The block function of the generator: twelve rounds over sixteen words, added to where they began.
-/
namespace Pursuit.Random

abbrev Words := Array UInt32

def Words.at (w : Words) (i : Nat) : UInt32 := w.getD i 0

def rotateLeft (x : UInt32) (n : UInt32) : UInt32 := (x <<< n) ||| (x >>> (32 - n))

def rotateRight (x : UInt32) (n : UInt32) : UInt32 := (x >>> n) ||| (x <<< ((32 - n) % 32))

/-- Adds word `b` to word `a`, mixes the sum into word `d` and rotates that. -/
def mix (w : Words) (a b d : Nat) (turn : UInt32) : Words :=
  let sum := w.at a + w.at b
  (w.setIfInBounds a sum).setIfInBounds d (rotateLeft (w.at d ^^^ sum) turn)

def quarterRound (w : Words) (a b c d : Nat) : Words :=
  let w := mix w a b d 16
  let w := mix w c d b 12
  let w := mix w a b d 8
  mix w c d b 7

def doubleRound (w : Words) : Words :=
  let w := quarterRound w 0 4 8 12
  let w := quarterRound w 1 5 9 13
  let w := quarterRound w 2 6 10 14
  let w := quarterRound w 3 7 11 15
  let w := quarterRound w 0 5 10 15
  let w := quarterRound w 1 6 11 12
  let w := quarterRound w 2 7 8 13
  quarterRound w 3 4 9 14

/-- Four fixed words, the key, and the block number in two words; the last two are zero. -/
def initial (key : Words) (block : UInt64) : Words :=
  let constants : Words := #[0x61707865, 0x3320646e, 0x79622d32, 0x6b206574]
  constants ++ key ++ #[block.toUInt32, (block >>> 32).toUInt32, 0, 0]

def block (key : Words) (number : UInt64) : Words :=
  let w := initial key number
  let mixed := (List.range 6).foldl (fun w _ => doubleRound w) w
  Array.zipWith (· + ·) mixed w

end Pursuit.Random
