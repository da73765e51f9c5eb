/-
Lotteries: a picker whose choices look random and depend on nothing but its seed.

The seed is stretched to a key of eight words by a permuted congruential generator. The key starts a ChaCha keystream of
twelve rounds, which is read in words of 64 bits. A draw below a count scales such a word to the count and refuses words
past the last multiple, so that no candidate is favoured.
-/
import Errand.Picker

namespace Errand

namespace Keystream

/-- four words that are worked on side by side -/
structure Row where
  w0 : UInt32
  w1 : UInt32
  w2 : UInt32
  w3 : UInt32
  deriving DecidableEq, Repr

namespace Row

/-- combines two rows word by word -/
def zip (f : UInt32 → UInt32 → UInt32) (a b : Row) : Row := ⟨f a.w0 b.w0, f a.w1 b.w1, f a.w2 b.w2, f a.w3 b.w3⟩

/-- the words moved one place to the left, the first one to the end -/
def shift (a : Row) : Row := ⟨a.w1, a.w2, a.w3, a.w0⟩

def toList (a : Row) : List UInt32 := [a.w0, a.w1, a.w2, a.w3]

end Row

/-- the bits of a word moved to the left, those that leave it to the right end -/
def rotate (n : UInt32) (x : UInt32) : UInt32 := (x <<< n) ||| (x >>> (32 - n))

/-- the exclusive or of two rows, rotated -/
def mix (n : UInt32) (a b : Row) : Row := a.zip (fun x y => rotate n (x ^^^ y)) b

/-- the square of sixteen words -/
structure Block where
  a : Row
  b : Row
  c : Row
  d : Row
  deriving DecidableEq, Repr

namespace Block

/-- the quarter round, on all four columns -/
def columns (s : Block) : Block :=
  let a := s.a.zip (· + ·) s.b
  let d := mix 16 s.d a
  let c := s.c.zip (· + ·) d
  let b := mix 12 s.b c
  let a := a.zip (· + ·) b
  let d := mix 8 d a
  let c := c.zip (· + ·) d
  let b := mix 7 b c
  ⟨a, b, c, d⟩

/-- the rows slanted, so that diagonals stand as columns -/
def slant (s : Block) : Block := ⟨s.a, s.b.shift, s.c.shift.shift, s.d.shift.shift.shift⟩

/-- the slant taken back -/
def unslant (s : Block) : Block := ⟨s.a, s.b.shift.shift.shift, s.c.shift.shift, s.d.shift⟩

def doubleRound (s : Block) : Block := s.columns.slant.columns.unslant

/-- the sum of two blocks, word by word -/
def add (s t : Block) : Block :=
  ⟨s.a.zip (· + ·) t.a, s.b.zip (· + ·) t.b, s.c.zip (· + ·) t.c, s.d.zip (· + ·) t.d⟩

/-- twelve rounds, added to where they started -/
def scrambled (s : Block) : Block :=
  s.doubleRound.doubleRound.doubleRound.doubleRound.doubleRound.doubleRound.add s

def words (s : Block) : List UInt32 := s.a.toList ++ s.b.toList ++ s.c.toList ++ s.d.toList

end Block

/-- a key of eight words -/
structure Key where
  low : Row
  high : Row
  deriving DecidableEq, Repr

/-- the sixteen words of the stream with a given number -/
def Key.block (k : Key) (n : Nat) : List UInt32 :=
  let counter := UInt64.ofNat n
  let start : Block :=
    { a := ⟨0x61707865, 0x3320646e, 0x79622d32, 0x6b206574⟩, b := k.low, c := k.high,
      d := ⟨counter.toUInt32, (counter >>> 32).toUInt32, 0, 0⟩ }
  start.scrambled.words

/-- the 64-bit word of the stream with a given number, its lower half first -/
def Key.word (k : Key) (n : Nat) : UInt64 :=
  let words := (k.block (n / 8)).drop (2 * (n % 8))
  (words.headD 0).toUInt64 ||| ((words.tail.headD 0).toUInt64 <<< 32)

/-- the next state of the generator that stretches seeds -/
def stretch (s : UInt64) : UInt64 := s * 6364136223846793005 + 11634580027462260723

/-- the word that a state of that generator gives -/
def permuted (s : UInt64) : UInt32 :=
  let x := (((s >>> 18) ^^^ s) >>> 27).toUInt32
  let n := (s >>> 59).toUInt32
  (x >>> n) ||| (x <<< ((32 - n) % 32))

/-- four words, and the state after them -/
def stretchRow (s : UInt64) : Row × UInt64 :=
  let s1 := stretch s
  let s2 := stretch s1
  let s3 := stretch s2
  let s4 := stretch s3
  (⟨permuted s1, permuted s2, permuted s3, permuted s4⟩, s4)

def Key.ofSeed (seed : UInt64) : Key :=
  let (low, s) := stretchRow seed
  let (high, _) := stretchRow s
  { low, high }

end Keystream

/-- a key and what has been drawn with it -/
structure Lottery where
  key : Keystream.Key
  /-- the words of the stream that are used up -/
  used : Nat := 0
  deriving DecidableEq, Repr

namespace Lottery

/-- the lottery of a seed before the first draw -/
def ofSeed (seed : Nat) : Lottery := { key := .ofSeed (UInt64.ofNat seed) }

/-- the greatest lower half with which a scaled word is taken: the count moved up to the top bit, less one -/
def zone (count : Nat) : Nat := count <<< (63 - count.log2) - 1

/-- takes the next word, scaled below a count; one past the zone is refused -/
def attempt (count : Nat) (l : Lottery) : Lottery ⊕ Nat × Lottery :=
  let scaled := (l.key.word l.used).toNat * count
  let l := { l with used := l.used + 1 }
  if scaled % UInt64.size ≤ zone count then .inr (scaled / UInt64.size, l) else .inl l

instance : Nonempty (Nat × Lottery) := ⟨0, ofSeed 0⟩

/-- draws below a count, again and again until a word is taken -/
def draw (count : Nat) (l : Lottery) : Nat × Lottery := Id.run (repeatM (fun l => pure (l.attempt count)) l)

theorem draw_eq (count : Nat) (l : Lottery) :
    l.draw count = match l.attempt count with
      | .inl l => l.draw count
      | .inr taken => taken := by
  unfold draw
  rw [repeatM_eq_of_monadTail]
  cases h : l.attempt count <;> simp [repeatM.body, h]

example : (ofSeed 0).draw 6 = (4, { ofSeed 0 with used := 1 }) := by
  rw [draw_eq]
  decide +kernel

instance : Picker Lottery where
  pick := draw

end Lottery

end Errand
