import Overlay.Text.Split

/-! Network addresses such as `ip+udp://1.2.3.4:6789`. -/
namespace Overlay

inductive AddressError where
  | invalidUri (uri : String)
  | invalidScheme (scheme : String)
  deriving DecidableEq, Repr

def AddressError.message : AddressError → String
  | .invalidUri uri => s!"Invalid address URI: {uri}"
  | .invalidScheme scheme => s!"Invalid scheme: {scheme}"

structure Address where
  scheme : String
  authority : String
  deriving DecidableEq, Repr

namespace Address

def separator : List Char := "://".toList

def isSchemeChar (c : Char) : Bool := c.isAlphanum || c == '+' || c == '-' || c == '.'

/-- A scheme is a letter followed by letters, digits, `+`, `-` and `.`, all in
ASCII. -/
def validScheme (scheme : String) : Bool :=
  match scheme.toList with
  | [] => false
  | c :: rest => c.isAlpha && rest.all isSchemeChar

def validAuthority (authority : String) : Bool :=
  !authority.isEmpty && !authority.toList.contains '\x00'

def valid (a : Address) : Bool := validScheme a.scheme && validAuthority a.authority

def uri (a : Address) : String := a.scheme ++ "://" ++ a.authority

def make (scheme authority : String) : Except AddressError Address :=
  let address : Address := ⟨scheme, authority⟩
  if !validScheme scheme then .error (.invalidScheme scheme)
  else if !validAuthority authority then .error (.invalidUri address.uri)
  else .ok address

/-- Reads a URI: the scheme ends at the first `://`. -/
def parse (uri : String) : Except AddressError Address :=
  match Text.splitOnce separator uri.toList with
  | none => .error (.invalidUri uri)
  | some (scheme, authority) => make (String.ofList scheme) (String.ofList authority)

def debugText (a : Address) : String := s!"Address({a.uri})"

end Address
end Overlay
