import Overlay.Json.Reader
import Overlay.Json.Writer

/-! Secret seeds as JSON strings of 64 hexadecimal digits, and key files, which hold a
public key and its secret seed. -/
namespace Overlay

def seedJson (seed : Octets 32) : String := Json.quote (Hex.encode seed.bytes)

def seedOfText (s : String) : Except Json.Cause (Octets 32) := do
  let b ← (Hex.decode s).mapError fun e => .refused e.message
  match Octets.ofBytes? 32 b with
  | some seed => return seed
  | none => throw (.refused "Invalid seed length")

def readSeed : Json.Reader (Except Json.Cause (Octets 32)) := do return seedOfText (← Json.text)

def parseSeed (s : String) : Except Json.Fault (Octets 32) :=
  Json.Reader.run (do
    match ← readSeed with
    | .ok seed => return seed
    | .error cause => Json.stopBefore cause) s

inductive KeyFile where
  | peer
  | zone
  deriving DecidableEq, Repr

namespace KeyFile

def publicName : KeyFile → String
  | .peer => "peer_id"
  | .zone => "zone"

def secretName : String := "private_key"

def write (k : KeyFile) (publicText : String) (seed : Octets 32) : String :=
  Json.writeObject 0 [(k.publicName, Json.quote publicText), (secretName, seedJson seed)]

def recordName : KeyFile → String
  | .peer => "struct PeerKeyFile"
  | .zone => "struct ZoneKeyFile"

/-- The fields, of which the seed is known when both are read. The public key is a text,
but not looked at. -/
def record (k : KeyFile) : Json.Record (Octets 32) where
  name := k.recordName
  fields :=
    [.ofReader k.publicName true Json.text fun seed _ => seed,
      ⟨secretName, true, fun _ => readSeed⟩]

def parse (k : KeyFile) (s : String) : Except Json.Fault (Octets 32) :=
  Json.Reader.run (k.record.read (.zero 32)) s

end KeyFile
end Overlay
