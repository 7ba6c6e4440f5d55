import SchemaSampler.Binary64.Arithmetic
import SchemaSampler.Random.Source

/-!
# Uniform draws

A word of `W` bits times a range, divided by `2 ^ W`, falls into the range. `offset` spends a
second word where the remainder of the product leaves the result open; `unbiased` draws again
where the remainder would favour some results.
-/

namespace SchemaSampler

namespace Random

/-- The width of the words that a draw multiplies. -/
inductive Width where
  | single
  | double
deriving DecidableEq, Repr

/-- The number of words of a width. -/
def Width.count : Width → Nat
  | .single => 0x100000000
  | .double => 0x10000000000000000

def word : Width → Random Nat
  | .single => do
    let drawn ← word32
    pure drawn.toNat
  | .double => do
    let drawn ← word64
    pure drawn.toNat

/-- A number below `range`, which is positive and at most the number of words. -/
def offset (width : Width) (range : Nat) : Random Nat := do
  let product := (← word width) * range
  let high := product / width.count
  let low := product % width.count
  if width.count - range < low then
    let carry := (← word width) * range / width.count
    pure (if width.count ≤ low + carry then high + 1 else high)
  else pure high

/-- Products with a remainder below `threshold` are drawn again, at most `tries` times. -/
def rejecting (width : Width) (range threshold : Nat) : (tries : Nat) → Random Nat
  | 0 => do
    let drawn ← word width
    pure (drawn * range / width.count)
  | tries + 1 => do
    let product := (← word width) * range
    if product % width.count < threshold then rejecting width range threshold tries
    else pure (product / width.count)

/-- A number below `range` with equal chances; each try is rejected with a chance below one
half. -/
def unbiased (width : Width) (range : Nat) : Random Nat :=
  rejecting width range ((width.count - range) % range) 256

/-! ## Ranges -/

/-- The width of a range of sizes: 32 bits suffice unless its end needs more. -/
def sizeWidth (last : Nat) : Width := if last < Width.single.count then .single else .double

/-- A position in a list of `count` items, of which there is at least one. -/
def position (count : Nat) : Random Nat := offset (sizeWidth count) count

/-- A size from `low` to `high`, both included. -/
def size (low high : Nat) : Random Nat := do
  let drawn ← offset (sizeWidth high) (high - low + 1)
  pure (low + drawn)

/-- A word of 64 bits read as a signed integer. -/
def signed (word : Nat) : Int := if word < signBit then word else (word : Int) - Width.double.count

/-- A 64-bit integer from `low` to `high`, both included; the range of all integers takes a word
as it is. -/
def integer (low high : Int) : Random Int := do
  let range := (high - low + 1).toNat
  if range = Width.double.count then
    let drawn ← word .double
    pure (signed drawn)
  else
    let drawn ← offset .double range
    pure (low + drawn)

/-- A float from `low` to `high`: a fraction of 52 bits is scaled, then shifted. -/
def float (low high : Binary64) : Random Binary64 := do
  let drawn ← word64
  let fraction := Binary64.ofUnits false ((drawn >>> 12).toNat <<< (1074 - 52)) 1
  pure ((fraction.mul (high.sub low)).add low)

/-- An item of a list, nothing when it is empty. -/
def choose {α : Type} (items : Array α) : Random (Option α) := do
  let drawn ← position items.size
  pure items[drawn]?

end Random

end SchemaSampler
