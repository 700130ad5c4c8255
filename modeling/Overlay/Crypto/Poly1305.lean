import Overlay.Octets.Endian

/-! The one-time authenticator Poly1305: blocks of sixteen bytes are the
coefficients of a polynomial that is evaluated modulo `2 ^ 130 - 5`. -/
namespace Overlay.Poly1305

def modulus : Nat := (1 <<< 130) - 5

def clampMask : Nat := 0x0ffffffc0ffffffc0ffffffc0fffffff

/-- Evaluates `count` blocks at the point `r`, continuing from `acc`. Every block
gets a one bit above its last byte. -/
def evaluate (r : Nat) : (count : Nat) → Bytes → (acc : Nat) → Nat
  | 0, _, acc => acc
  | count + 1, data, acc =>
    let block := data.take 16
    let n := LittleEndian.decode block + 1 <<< (8 * block.length)
    evaluate r count (data.drop 16) ((acc + n) * r % modulus)

def tag (key : Octets 32) (message : Bytes) : Octets 16 :=
  let r := LittleEndian.decode (key.bytes.take 16) &&& clampMask
  let s := LittleEndian.decode (key.bytes.drop 16)
  LittleEndian.octets 16 (evaluate r ((message.length + 15) / 16) message 0 + s)

end Overlay.Poly1305
