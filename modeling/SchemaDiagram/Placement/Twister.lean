/-
# Repeatable random numbers

A Mersenne twister of 624 words of 32 bits, started from a list of key words.  The same key always
gives the same numbers.

* `Twister.ofKey` : the generator of a key;
* `Twister.word` : the next 32 bits;
* `Twister.fraction` : the next number of at least 0 and below 1, a whole number of `2 ^ -53`.
-/
import SchemaDiagram.Number.Binary64

namespace SchemaDiagram

/-- The words of a generator, and how many of them are used up. -/
structure Twister where
  words : Array UInt32
  used : Nat
deriving Repr

namespace Twister

/-- How many words a generator holds. -/
def size : Nat := 624

/-- The word at a place, counted around the end. -/
def wordAt (words : Array UInt32) (i : Nat) : UInt32 := words.getD (i % size) 0

/-- What of a word is carried into the mixing of the next. -/
def fold (w : UInt32) : UInt32 := w ^^^ (w >>> 30)

/-- Words that follow each other from a single seed. -/
def ofSeed (seed : UInt32) : Array UInt32 :=
  (List.range' 1 (size - 1)).foldl
    (fun words i => words.push (1812433253 * fold (wordAt words (i - 1)) + UInt32.ofNat i))
    #[seed]

/-- After the last place, the last word is repeated at the front and the first place is skipped. -/
def wrap (words : Array UInt32) (i : Nat) : Array UInt32 × Nat :=
  if size ≤ i then (words.setIfInBounds 0 (wordAt words (size - 1)), 1) else (words, i)

/-- Mixes the key into the words: `count` steps from the place `i` of the words and the place `j`
of the key. -/
def mixKey (key : List UInt32) : (count i j : Nat) → Array UInt32 → Array UInt32 × Nat
  | 0, i, _, words => (words, i)
  | count + 1, i, j, words =>
    let mixed := (wordAt words i ^^^ (fold (wordAt words (i - 1)) * 1664525)) +
      key.getD j 0 + UInt32.ofNat j
    let (words, i) := wrap (words.setIfInBounds i mixed) (i + 1)
    mixKey key count i (if key.length ≤ j + 1 then 0 else j + 1) words

/-- Mixes the words among themselves: `count` steps from the place `i`. -/
def mixWords : (count i : Nat) → Array UInt32 → Array UInt32
  | 0, _, words => words
  | count + 1, i, words =>
    let mixed := (wordAt words i ^^^ (fold (wordAt words (i - 1)) * 1566083941)) - UInt32.ofNat i
    let (words, i) := wrap (words.setIfInBounds i mixed) (i + 1)
    mixWords count i words

/-- The generator of a key, which holds at least one word. -/
def ofKey (key : List UInt32) : Twister :=
  let (words, i) := mixKey key (max size key.length) 1 0 (ofSeed 19650218)
  ⟨(mixWords (size - 1) i words).setIfInBounds 0 0x80000000, size⟩

/-- How many values a word has: `2 ^ 32`. -/
def wordValues : Nat := 0x100000000

/-- The words of a seed in the order of their weight, the lowest first; zero has one word. -/
def keyOfSeed (seed : Nat) : List UInt32 :=
  if seed < wordValues then [UInt32.ofNat seed]
  else UInt32.ofNat (seed % wordValues) :: keyOfSeed (seed / wordValues)
termination_by seed
decreasing_by exact Nat.div_lt_self (by simp only [wordValues] at *; omega) (by decide)

/-- The generator of a seed. -/
def ofNat (seed : Nat) : Twister := ofKey (keyOfSeed seed)

/-- The word at a place after a full turn: the upper bit of one word and the lower bits of the
next, shifted and combined with a word further on. -/
def turned (words : Array UInt32) (i : Nat) : UInt32 :=
  let y := (wordAt words i &&& 0x80000000) ||| (wordAt words (i + 1) &&& 0x7FFFFFFF)
  wordAt words (i + 397) ^^^ (y >>> 1) ^^^ (if y &&& 1 = 1 then 0x9908B0DF else 0)

/-- A full turn, after which no word is used up. -/
def turn (words : Array UInt32) : Array UInt32 :=
  (List.range size).foldl (fun words i => words.setIfInBounds i (turned words i)) words

/-- Spreads the bits of a word that is handed out. -/
def temper (w : UInt32) : UInt32 :=
  let a := w ^^^ (w >>> 11)
  let b := a ^^^ ((a <<< 7) &&& 0x9D2C5680)
  let c := b ^^^ ((b <<< 15) &&& 0xEFC60000)
  c ^^^ (c >>> 18)

/-- The next 32 bits. -/
def word (t : Twister) : UInt32 × Twister :=
  let t := if size ≤ t.used then ⟨turn t.words, 0⟩ else t
  (temper (wordAt t.words t.used), { t with used := t.used + 1 })

/-- The next number of at least 0 and below 1, made of 53 bits of two words. -/
def fraction (t : Twister) : Binary64 × Twister :=
  let (a, t) := t.word
  let (b, t) := t.word
  let bits := (a >>> 5).toNat * 0x4000000 + (b >>> 6).toNat
  (.ofRat ((bits : Rat) / (2 : Rat) ^ (53 : Int)), t)

end Twister

end SchemaDiagram
