import Overlay.Crypto.Sha512

/-! Key derivation: HMAC over SHA-512, and the extract-and-expand function built
from it. -/
namespace Overlay.Hkdf

/-- A MAC key of one block: longer keys are hashed, shorter ones filled up with
zeros. -/
def macKey (key : Bytes) : Bytes :=
  let short := if key.length ≤ Sha512.blockSize then key else (Sha512.hash key).bytes
  short ++ List.replicate (Sha512.blockSize - short.length) 0

def mac (key message : Bytes) : Octets 64 :=
  let block := macKey key
  let inner := Sha512.hash (block.map (· ^^^ 0x36) ++ message)
  Sha512.hash (block.map (· ^^^ 0x5c) ++ inner.bytes)

/-- `count` chained blocks of output, numbered from `index` on. -/
def blocks (key info : Bytes) : (count index : Nat) → (previous : Bytes) → Bytes
  | 0, _, _ => []
  | count + 1, index, previous =>
    let block := (mac key (previous ++ info ++ [UInt8.ofNat index])).bytes
    block ++ blocks key info count (index + 1) block

theorem length_blocks (key info : Bytes) (count index : Nat) (previous : Bytes) :
    (blocks key info count index previous).length = 64 * count := by
  induction count generalizing index previous with
  | zero => rfl
  | succ count ih => simp [blocks, ih]; omega

def derive (salt material info : Bytes) (size : Nat) : Octets size :=
  let key := (mac salt material).bytes
  ⟨(blocks key info ((size + 63) / 64) 1 []).take size, by
    rw [List.length_take, length_blocks]; omega⟩

end Overlay.Hkdf
