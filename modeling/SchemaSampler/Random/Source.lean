/-!
# Random sources

A source is an endless stream of 32-bit words, computed in blocks of sixteen, with a position in
it. Every other draw is made of words: a 64-bit word is two of them, the low half first, and
bytes come from words in little-endian order.
-/

namespace SchemaSampler

/-- Sixteen consecutive words of a stream. -/
abbrev Block := Vector UInt32 16

/-- A block has a first place. -/
instance firstPlace : @NeZero Nat Zero.ofOfNat0 16 := ⟨Nat.succ_ne_zero 15⟩

/-- A position in an endless stream of words. The current block is kept so that it is computed
once. -/
structure Source where
  block : Nat → Block
  index : Nat
  cursor : Fin 16
  current : Block
  current_eq : current = block index

namespace Source

/-- The start of the stream with the given blocks. -/
def ofBlocks (block : Nat → Block) : Source := ⟨block, 0, 0, block 0, rfl⟩

/-- The start of a stream of words. -/
def ofWords (word : Nat → UInt32) : Source :=
  ofBlocks fun index => Vector.ofFn fun place => word (16 * index + place)

/-- Repeats a list of words for ever; an empty list gives zeros. -/
def cycle (words : Array UInt32) : Source :=
  ofWords fun position => words.getD (position % words.size) 0

/-- The word at the position, left in place. -/
def peek (source : Source) : UInt32 := source.current[source.cursor]

/-- The position after the next word. -/
def advance (source : Source) : Source :=
  if h : source.cursor.val + 1 < 16 then
    ⟨source.block, source.index, ⟨_, h⟩, source.current, source.current_eq⟩
  else ⟨source.block, source.index + 1, 0, source.block (source.index + 1), rfl⟩

end Source

/-- A computation that draws words from a source. -/
abbrev Random (α : Type) := StateM Source α

namespace Random

def word32 : Random UInt32 := fun source => (source.peek, source.advance)

/-- Two words, the low half first. -/
def word64 : Random UInt64 := do
  let low ← word32
  let high ← word32
  pure (low.toUInt64 ||| (high.toUInt64 <<< 32))

/-- The four bytes of a word, the lowest first. -/
def bytesOf (word : UInt32) : List UInt8 :=
  [word.toUInt8, (word >>> 8).toUInt8, (word >>> 16).toUInt8, (word >>> 24).toUInt8]

/-- The bytes of the next words. -/
def wordBytes : (words : Nat) → Random (List UInt8)
  | 0 => pure []
  | words + 1 => do
    let word ← word32
    let rest ← wordBytes words
    pure (bytesOf word ++ rest)

/-- One word for every four bytes begun; the surplus of the last word is dropped. -/
def bytes (count : Nat) : Random (List UInt8) := do
  let all ← wordBytes ((count + 3) / 4)
  pure (all.take count)

/-- A fair coin: the top bit of a 64-bit word is clear. -/
def coin : Random Bool := do
  let word ← word64
  pure (word < 0x8000000000000000)

/-! ## Identifiers -/

/-- The two lower-case hexadecimal digits of a byte. -/
def byteText (byte : UInt8) : String :=
  String.ofList [Nat.digitChar (byte.toNat / 16), Nat.digitChar (byte.toNat % 16)]

/-- Sets the version and variant bits of a random identifier. -/
def markUuid (bytes : List UInt8) : List UInt8 :=
  (bytes.modify 6 fun byte => (byte &&& 0x0F) ||| 0x40).modify 8
    fun byte => (byte &&& 0x3F) ||| 0x80

/-- Sixteen bytes in groups of 4, 2, 2, 2 and 6. -/
def uuidText (bytes : List UInt8) : String :=
  let part (start count : Nat) : String :=
    String.join (((bytes.drop start).take count).map byteText)
  part 0 4 ++ "-" ++ part 4 2 ++ "-" ++ part 6 2 ++ "-" ++ part 8 2 ++ "-" ++ part 10 6

/-- A random identifier of version 4. -/
def uuid : Random String := do
  let drawn ← bytes 16
  pure (uuidText (markUuid drawn))

end Random

end SchemaSampler
