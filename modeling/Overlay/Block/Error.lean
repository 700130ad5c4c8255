import Overlay.Address
import Overlay.Crypto.Error
import Overlay.Record
import Overlay.Text.Percent

/-! Why a block is not read or not accepted. -/
namespace Overlay

inductive BlockFault where
  | helloTooShort (size : Nat)
  | addressesUnterminated
  | addressNotText
  | address (fault : AddressError)
  | notHelloUrl (url : String)
  | emptyAddressList
  | pathElements (count : Nat)
  | peerSpelling (fault : Text.Crockford.Error)
  | signatureSpelling (fault : Text.Crockford.Error)
  | expiration (text : String)
  | expirationRange (seconds : Nat)
  | addressParameter (text : String)
  | addressValue (text : String) (fault : Text.Percent.Error)
  | nameTooShort (size : Nat)
  | nameSize (claimed actual : Nat)
  | namePurpose (code : Nat)
  | records (fault : RecordError)
  deriving DecidableEq, Repr

def BlockFault.message : BlockFault → String
  | .helloTooShort size => s!"HELLO block too short: {size} bytes"
  | .addressesUnterminated => "Address list not NUL-terminated"
  | .addressNotText => "Address is not valid UTF-8"
  | .address fault => fault.message
  | .notHelloUrl url => s!"Not a HELLO URL: {url}"
  | .emptyAddressList => "Empty address list after '?'"
  | .pathElements count => s!"Expected 3 path elements, got {count}"
  | .peerSpelling fault => s!"Invalid peer id: {fault.message}"
  | .signatureSpelling fault => s!"Invalid signature: {fault.message}"
  | .expiration text => s!"Invalid expiration: {text}"
  | .expirationRange seconds => s!"Expiration out of range: {seconds}"
  | .addressParameter text => s!"Invalid address parameter: {text}"
  | .addressValue text fault => s!"Invalid address '{text}': {fault.message}"
  | .nameTooShort size => s!"GNS block too short: {size} bytes"
  | .nameSize claimed actual =>
    s!"GNS block size mismatch: header says {claimed}, have {actual}"
  | .namePurpose code => s!"Wrong signature purpose {code}"
  | .records fault => fault.message

inductive BlockError where
  | malformed (fault : BlockFault)
  | expired
  | invalidSignature
  | typeNotVerified
  | cannotDecrypt
  | crypto (fault : CryptoError)
  deriving DecidableEq, Repr

def BlockError.message : BlockError → String
  | .malformed fault => s!"Malformed block: {fault.message}"
  | .expired => "Block expired"
  | .invalidSignature => "Invalid block signature"
  | .typeNotVerified => "Block type not verified by this query"
  | .cannotDecrypt => "Block type can't be decrypted by this query"
  | .crypto fault => s!"Crypto error: {fault.message}"

end Overlay
