import Overlay.Text.Bits

/-! Base 32 in Crockford's alphabet, without padding characters. Writing is
canonical. Reading also takes lower case and the look-alikes `O`, `I`, `L` and
`U`, but no second spelling of the bits: the number of characters and the unused
bits of the last one are those that writing produces. -/
namespace Overlay.Text.Crockford

inductive Error where
  | invalidCharacter (c : Char)
  | nonZeroPadding
  | trailingCharacters
  | invalidLength (expected got : Nat)
  deriving DecidableEq, Repr

def Error.message : Error → String
  | .invalidCharacter c => s!"Invalid base32 character '{c}'"
  | .nonZeroPadding => "Non-zero padding bits"
  | .trailingCharacters => "Dangling base32 characters"
  | .invalidLength expected got => s!"Invalid length: expected {expected} bytes, got {got}"

def alphabet : List Char := "0123456789ABCDEFGHJKMNPQRSTVWXYZ".toList

def symbol (digit : Nat) : Char := alphabet.getD digit '0'

def normalise? (c : Char) : Option Char :=
  let upper := match c.toUpper with
    | 'O' => '0'
    | 'I' | 'L' => '1'
    | 'U' => 'V'
    | other => other
  if upper ∈ alphabet then some upper else none

def encodeChars (data : Bytes) : List Char :=
  (Bits.fives (data.flatMap fun b => Bits.ofNat 8 b.toNat)).map symbol

def encode (data : Bytes) : String := String.ofList (encodeChars data)

def normaliseAll : List Char → Except Error (List Char)
  | [] => .ok []
  | c :: rest => do
    match normalise? c with
    | none => .error (.invalidCharacter c)
    | some upper => return upper :: (← normaliseAll rest)

/-- The bytes of a text in the alphabet. Of the characters in a last group of
eight, one, three and six cannot come from whole bytes. -/
def decodeNormal (cs : List Char) : Except Error Bytes :=
  let (data, left) := Bits.bytes (cs.flatMap fun c => Bits.ofNat 5 (alphabet.idxOf c))
  if cs.length % 8 ∈ [1, 3, 6] then .error .trailingCharacters
  else if left.any id then .error .nonZeroPadding
  else .ok data

def decode (s : String) : Except Error Bytes := do
  decodeNormal (← normaliseAll s.toList)

def decodeExact (s : String) (n : Nat) : Except Error (Octets n) := do
  let data ← decode s
  match Octets.ofBytes? n data with
  | some octets => return octets
  | none => throw (.invalidLength n data.length)

end Overlay.Text.Crockford
