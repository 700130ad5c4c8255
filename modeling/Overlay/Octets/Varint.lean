import Overlay.Octets.Endian

/-! Lengths in one to nine bytes. The first byte is the number itself if it is small, and
else says how the others are read. -/
namespace Overlay.Varint

/-- The number of bytes of a number that is longer than two bytes. -/
def width (n : Nat) : Nat :=
  ((List.range' 3 5).find? fun width => n >>> (8 * width) = 0).getD 8

def encode (n : Nat) : Bytes :=
  if n ≤ 240 then [UInt8.ofNat n]
  else if n ≤ 2287 then [UInt8.ofNat (241 + (n - 240) / 256), UInt8.ofNat (n - 240)]
  else if n ≤ 67823 then 249 :: BigEndian.encode 2 (n - 2288)
  else UInt8.ofNat (247 + width n) :: BigEndian.encode (width n) n

def decode? : Bytes → Option (Nat × Bytes)
  | [] => none
  | first :: rest =>
    let first := first.toNat
    if first ≤ 240 then some (first, rest)
    else if first ≤ 248 then
      (Bytes.cut? rest 1).map fun (low, rest) => (240 + 256 * (first - 241) + BigEndian.decode low, rest)
    else if first = 249 then
      (Bytes.cut? rest 2).map fun (low, rest) => (2288 + BigEndian.decode low, rest)
    else (Bytes.cut? rest (first - 247)).map fun (number, rest) => (BigEndian.decode number, rest)

end Overlay.Varint
