import Overlay.Octets.Endian
import Overlay.Time.Calendar

/-! Absolute times in microseconds since 1970, and spans of time. The largest
64-bit time stands for "never": it is not expired at any clock reading, and
addition and truncation keep it. -/
namespace Overlay

structure Span where
  nanoseconds : Nat
  deriving DecidableEq, Repr

namespace Span

def ofSeconds (seconds : Nat) : Span := ⟨seconds * 1000000000⟩

def microseconds (span : Span) : Nat := span.nanoseconds / 1000

end Span

structure Timestamp where
  micros : UInt64
  deriving DecidableEq, Repr

namespace Timestamp

def never : Timestamp := ⟨UInt64.ofNat (UInt64.size - 1)⟩

def ofMicros (micros : Nat) : Timestamp := ⟨UInt64.ofNat micros⟩

def toNat (t : Timestamp) : Nat := t.micros.toNat

def isNever (t : Timestamp) : Bool := t == never

def epochSeconds (t : Timestamp) : Nat := t.toNat / 1000000

/-- The start of a second. The last second of all holds "never" and stands for
it; there is none after it. -/
def ofEpochSeconds? (seconds : Nat) : Option Timestamp :=
  if seconds = never.epochSeconds then some never
  else if seconds * 1000000 < UInt64.size then some (ofMicros (seconds * 1000000))
  else none

/-- Adds a span; a sum that does not fit is "never". -/
def add (t : Timestamp) (span : Span) : Timestamp :=
  if t.isNever then t
  else ofMicros (min (t.toNat + min span.microseconds (UInt64.size - 1)) (UInt64.size - 1))

def truncateToSeconds (t : Timestamp) : Timestamp :=
  if t.isNever then t else ofMicros (t.epochSeconds * 1000000)

def isExpired (t now : Timestamp) : Bool := !t.isNever && decide (t.micros ≤ now.micros)

def bytes (t : Timestamp) : Bytes := BigEndian.encode 8 t.toNat

@[simp] theorem length_bytes (t : Timestamp) : t.bytes.length = 8 := by simp [bytes]

def ofBytes (b : Octets 8) : Timestamp := ofMicros (BigEndian.decode b.bytes)

def compare (a b : Timestamp) : Ordering := Ord.compare a.micros b.micros

def earlier (a b : Timestamp) : Timestamp := if a.micros ≤ b.micros then a else b

def text (t : Timestamp) : String :=
  if t.isNever then "never"
  else match Calendar.secondText? t.epochSeconds with
    | some text => text
    | none => s!"{t.toNat}us"

def debugText (t : Timestamp) : String := s!"AbsoluteTime({t.text})"

end Timestamp
end Overlay
