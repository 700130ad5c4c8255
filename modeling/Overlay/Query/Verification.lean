import Overlay.Query

/-! What is known already of a block as the answer to a query for a name. Its
signature is checked at most once, and its data decrypted at most once. One such
state belongs to one query and one block. -/
namespace Overlay

structure Verification where
  checked : Bool
  verified : Bool
  plaintext : Option Bytes
  deriving DecidableEq

namespace Verification

def start : Verification := ⟨false, false, none⟩

def isDecrypted (v : Verification) : Bool := v.plaintext.isSome

/-- Checks the block the first time, and recalls the outcome after that. -/
def check (C : Curve) (q : NameQuery) (b : NameBlock) (v : Verification) :
    Except BlockError Unit × Verification :=
  if v.checked then (if v.verified then .ok () else .error .invalidSignature, v)
  else
    match q.verify C (.name b) with
    | .error fault => (.error fault, { v with checked := true })
    | .ok () => (.ok (), { v with checked := true, verified := true })

def decrypt (C : Curve) (q : NameQuery) (b : NameBlock) (v : Verification) :
    Except BlockError Bytes × Verification :=
  match v.check C q b with
  | (.error fault, v) => (.error fault, v)
  | (.ok (), v) =>
    match v.plaintext with
    | some plaintext => (.ok plaintext, v)
    | none =>
      match q.decrypt (.name b) with
      | .error fault => (.error fault, v)
      | .ok plaintext => (.ok plaintext, { v with plaintext := some plaintext })

end Verification
end Overlay
