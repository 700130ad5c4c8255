import Overlay.Octets.Endian

/-! The stream cipher ChaCha20: a state of sixteen words, made from a key, a block
number and a nonce, is stirred in twenty rounds into 64 bytes of key stream. -/
namespace Overlay.ChaCha20

/-- Four words, one row of the state. -/
structure Row where
  w0 : UInt32
  w1 : UInt32
  w2 : UInt32
  w3 : UInt32
  deriving DecidableEq

structure State where
  a : Row
  b : Row
  c : Row
  d : Row
  deriving DecidableEq

def rotateLeft (x : UInt32) (n : UInt32) : UInt32 := (x <<< n) ||| (x >>> (32 - n))

def quarter (a b c d : UInt32) : UInt32 × UInt32 × UInt32 × UInt32 :=
  let a := a + b
  let d := rotateLeft (d ^^^ a) 16
  let c := c + d
  let b := rotateLeft (b ^^^ c) 12
  let a := a + b
  let d := rotateLeft (d ^^^ a) 8
  let c := c + d
  let b := rotateLeft (b ^^^ c) 7
  (a, b, c, d)

def columnRound (s : State) : State :=
  let (a0, b0, c0, d0) := quarter s.a.w0 s.b.w0 s.c.w0 s.d.w0
  let (a1, b1, c1, d1) := quarter s.a.w1 s.b.w1 s.c.w1 s.d.w1
  let (a2, b2, c2, d2) := quarter s.a.w2 s.b.w2 s.c.w2 s.d.w2
  let (a3, b3, c3, d3) := quarter s.a.w3 s.b.w3 s.c.w3 s.d.w3
  ⟨⟨a0, a1, a2, a3⟩, ⟨b0, b1, b2, b3⟩, ⟨c0, c1, c2, c3⟩, ⟨d0, d1, d2, d3⟩⟩

/-- Turns the rows so that the diagonals become columns. -/
def skew (s : State) : State :=
  ⟨s.a, ⟨s.b.w1, s.b.w2, s.b.w3, s.b.w0⟩, ⟨s.c.w2, s.c.w3, s.c.w0, s.c.w1⟩,
    ⟨s.d.w3, s.d.w0, s.d.w1, s.d.w2⟩⟩

def unskew (s : State) : State :=
  ⟨s.a, ⟨s.b.w3, s.b.w0, s.b.w1, s.b.w2⟩, ⟨s.c.w2, s.c.w3, s.c.w0, s.c.w1⟩,
    ⟨s.d.w1, s.d.w2, s.d.w3, s.d.w0⟩⟩

def doubleRound (s : State) : State := unskew (columnRound (skew (columnRound s)))

def doubleRounds : (count : Nat) → State → State
  | 0, s => s
  | count + 1, s => doubleRounds count (doubleRound s)

def Row.add (x y : Row) : Row := ⟨x.w0 + y.w0, x.w1 + y.w1, x.w2 + y.w2, x.w3 + y.w3⟩

def State.add (s t : State) : State := ⟨s.a.add t.a, s.b.add t.b, s.c.add t.c, s.d.add t.d⟩

def wordAt (b : Bytes) (position : Nat) : UInt32 :=
  UInt32.ofNat (LittleEndian.decode ((b.drop position).take 4))

def rowAt (b : Bytes) (position : Nat) : Row :=
  ⟨wordAt b position, wordAt b (position + 4), wordAt b (position + 8), wordAt b (position + 12)⟩

def constants : Row := ⟨0x61707865, 0x3320646e, 0x79622d32, 0x6b206574⟩

def initialState (key : Octets 32) (nonce : Octets 12) (counter : Nat) : State :=
  ⟨constants, rowAt key.bytes 0, rowAt key.bytes 16,
    ⟨UInt32.ofNat counter, wordAt nonce.bytes 0, wordAt nonce.bytes 4, wordAt nonce.bytes 8⟩⟩

def Row.octets (r : Row) : Octets 16 :=
  let word (x : UInt32) : Octets 4 := LittleEndian.octets 4 x.toNat
  ((word r.w0).append (word r.w1)).append ((word r.w2).append (word r.w3))

def block (key : Octets 32) (nonce : Octets 12) (counter : Nat) : Octets 64 :=
  let start := initialState key nonce counter
  let s := (doubleRounds 10 start).add start
  (s.a.octets.append s.b.octets).append (s.c.octets.append s.d.octets)

/-- The first `count` blocks of the key stream from block number `counter` on. -/
def stream (key : Octets 32) (nonce : Octets 12) (counter count : Nat) : Bytes :=
  (List.range count).flatMap fun i => (block key nonce (counter + i)).bytes

def apply (key : Octets 32) (nonce : Octets 12) (text : Bytes) : Bytes :=
  List.zipWith (· ^^^ ·) text (stream key nonce 1 ((text.length + 63) / 64))

end Overlay.ChaCha20
