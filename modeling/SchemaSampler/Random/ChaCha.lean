import SchemaSampler.Random.Source

/-!
# ChaCha with eight rounds

The block function on sixteen words, and the source that a 64-bit seed gives: the seed is
expanded to eight key words, and block `i` is the block function at counter `i`.
-/

namespace SchemaSampler

namespace ChaCha

def rotate (word : UInt32) (amount : UInt32) : UInt32 :=
  (word <<< amount) ||| (word >>> (32 - amount))

/-- Mixes the words at four places. -/
def quarterRound (a b c d : Fin 16) (state : Block) : Block :=
  let wa := state[a] + state[b]
  let wd := rotate (state[d] ^^^ wa) 16
  let wc := state[c] + wd
  let wb := rotate (state[b] ^^^ wc) 12
  let wa := wa + wb
  let wd := rotate (wd ^^^ wa) 8
  let wc := wc + wd
  let wb := rotate (wb ^^^ wc) 7
  (((state.set a wa).set b wb).set c wc).set d wd

/-- Four columns, then four diagonals. -/
def doubleRound (state : Block) : Block :=
  let state := quarterRound 0 4 8 12 state
  let state := quarterRound 1 5 9 13 state
  let state := quarterRound 2 6 10 14 state
  let state := quarterRound 3 7 11 15 state
  let state := quarterRound 0 5 10 15 state
  let state := quarterRound 1 6 11 12 state
  let state := quarterRound 2 7 8 13 state
  quarterRound 3 4 9 14 state

/-- The eight key words. -/
abbrev Key := Vector UInt32 8

/-- Constants, key, block counter, and two zero words. -/
def initialState (key : Key) (counter : Nat) : Block :=
  #v[0x61707865, 0x3320646E, 0x79622D32, 0x6B206574,
    key[0], key[1], key[2], key[3], key[4], key[5], key[6], key[7],
    UInt32.ofNat counter, UInt32.ofNat (counter / 0x100000000), 0, 0]

def block (key : Key) (counter : Nat) : Block :=
  let start := initialState key counter
  let mixed := doubleRound (doubleRound (doubleRound (doubleRound start)))
  mixed.zipWith (· + ·) start

/-! ## Seeds -/

/-- One step of the congruential generator that expands seeds. -/
def seedStep (state : UInt64) : UInt64 := state * 6364136223846793005 + 11634580027462260723

/-- The output word of a state: its upper half folded, rotated by its top bits. -/
def seedWord (state : UInt64) : UInt32 :=
  let folded := (((state >>> 18) ^^^ state) >>> 27).toUInt32
  let amount := (state >>> 59).toUInt32
  (folded >>> amount) ||| (folded <<< ((32 - amount) % 32))

/-- The states after one step, two steps, and so on. -/
def seedStates (seed : UInt64) : Nat → UInt64
  | 0 => seedStep seed
  | steps + 1 => seedStep (seedStates seed steps)

def keyOfSeed (seed : UInt64) : Key := Vector.ofFn fun place => seedWord (seedStates seed place)

end ChaCha

/-- The source of a seed. -/
def Source.ofSeed (seed : UInt64) : Source :=
  let key := ChaCha.keyOfSeed seed
  Source.ofBlocks (ChaCha.block key)

end SchemaSampler
