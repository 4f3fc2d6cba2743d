import Scaffold.Random.Source
/-!
The ChaCha stream cipher with eight rounds as a source of random words: blocks
of sixteen words are computed from a key and a counter, and the words of one
block after the other are handed out in pairs, the low half first.
-/
namespace Scaffold.Random.ChaCha

/-- Sixteen words that one block is computed on. -/
abbrev State := Vector UInt32 16

/-- A word with its bits turned to the left. -/
def rotate (w : UInt32) (n : UInt32) : UInt32 := (w <<< n) ||| (w >>> (32 - n))

/-- Mixes four words of a state. -/
def quarterRound (s : State) (a b c d : Fin 16) : State :=
  let s := s.set a (s[a] + s[b])
  let s := s.set d (rotate (s[d] ^^^ s[a]) 16)
  let s := s.set c (s[c] + s[d])
  let s := s.set b (rotate (s[b] ^^^ s[c]) 12)
  let s := s.set a (s[a] + s[b])
  let s := s.set d (rotate (s[d] ^^^ s[a]) 8)
  let s := s.set c (s[c] + s[d])
  s.set b (rotate (s[b] ^^^ s[c]) 7)

/-- Mixes the columns and then the diagonals. -/
def doubleRound (s : State) : State :=
  let s := quarterRound s 0 4 8 12
  let s := quarterRound s 1 5 9 13
  let s := quarterRound s 2 6 10 14
  let s := quarterRound s 3 7 11 15
  let s := quarterRound s 0 5 10 15
  let s := quarterRound s 1 6 11 12
  let s := quarterRound s 2 7 8 13
  quarterRound s 3 4 9 14

/-- The four words that every block begins with. -/
def constants : Vector UInt32 4 :=
  #v[0x61707865, 0x3320646e, 0x79622d32, 0x6b206574]

def start (key : Vector UInt32 8) (counter : UInt64) : State :=
  constants ++ key ++ #v[counter.toUInt32, (counter >>> 32).toUInt32, 0, 0]

def block (key : Vector UInt32 8) (counter : UInt64) : List UInt32 :=
  let s := start key counter
  (s.zipWith (· + ·)
    (doubleRound (doubleRound (doubleRound (doubleRound s))))).toList

/-- A key, the counter of the next block, and the words of earlier blocks that
are left. -/
structure Generator where
  key : Vector UInt32 8
  counter : UInt64 := 0
  left : List UInt32 := []

/-- Two halves as one word. -/
def pair (low high : UInt32) : UInt64 := high.toUInt64 <<< 32 ||| low.toUInt64

/-- The next word of a generator. -/
def Generator.next (g : Generator) : UInt64 × Generator :=
  match g.left with
  | low :: high :: left => (pair low high, { g with left })
  | _ =>
    let refilled := { g with counter := g.counter + 1 }
    match block g.key g.counter with
    | low :: high :: left => (pair low high, { refilled with left })
    | _ => (0, refilled)

instance : Source Generator := ⟨Generator.next⟩

/-- The state behind one step of the congruential generator that spreads a seed
over a key. -/
def seedStep (s : UInt64) : UInt64 :=
  s * 6364136223846793005 + 11634580027462260723

/-- The key word that a state of the seed's generator yields. -/
def seedWord (s : UInt64) : UInt32 :=
  let x := (((s >>> 18) ^^^ s) >>> 27).toUInt32
  let turn := (s >>> 59).toUInt32
  (x >>> turn) ||| (x <<< ((32 - turn) % 32))

/-- The key words that follow a state of the seed's generator. -/
def seedWords : Nat → UInt64 → List UInt32
  | 0, _ => []
  | n + 1, s =>
    let s := seedStep s
    seedWord s :: seedWords n s

theorem length_seedWords (n : Nat) (s : UInt64) :
    (seedWords n s).length = n := by
  induction n generalizing s with
  | zero => rfl
  | succ n ih => simp [seedWords, ih]

def ofSeed (seed : UInt64) : Generator :=
  { key := ⟨(seedWords 8 seed).toArray, by simp [length_seedWords]⟩ }

end Scaffold.Random.ChaCha
