import Overlay.Block.Hello
import Overlay.Text.Decimal

/-! HELLO announcements as URLs,
`gnunet://hello/PEER/SIGNATURE/SECONDS?SCHEME=AUTHORITY&...`, where authorities
are percent-escaped and the question mark is left out if there is no address. -/
namespace Overlay.Hello

def urlStart : String := "gnunet://hello/"

def addressParameter (a : Address) : String := a.scheme ++ "=" ++ Text.Percent.escape a.authority

def url (h : Hello) : String :=
  let path := urlStart ++ Text.Crockford.encode h.peer.bytes ++ "/" ++
    Text.Crockford.encode h.signature.bytes ++ "/" ++ toString h.expiration.epochSeconds
  if h.addresses.isEmpty then path
  else path ++ "?" ++ "&".intercalate (h.addresses.map addressParameter)

def parseParameter (parameter : List Char) : Except BlockFault Address :=
  match Text.splitOnce ['='] parameter with
  | none => .error (.addressParameter (String.ofList parameter))
  | some (scheme, value) =>
    let value := String.ofList value
    match Text.Percent.unescape value with
    | .error fault => .error (.addressValue value fault)
    | .ok authority =>
      match Address.make (String.ofList scheme) authority with
      | .ok address => .ok address
      | .error fault => .error (.address fault)

/-- The path and the query of what follows the start of the URL. A question mark
has a query after it. -/
def splitQuery (rest : List Char) : Except BlockFault (List Char × Option (List Char)) :=
  match Text.splitOnce ['?'] rest with
  | none => .ok (rest, none)
  | some (_, []) => .error .emptyAddressList
  | some (path, query) => .ok (path, some query)

def parsePath (path : List Char) : Except BlockFault (PeerId × Signature × Timestamp) :=
  match Text.splitAll '/' path with
  | [peer, signature, seconds] =>
    match Text.Crockford.decodeExact (String.ofList peer) 32 with
    | .error fault => .error (.peerSpelling fault)
    | .ok peer =>
      match Text.Crockford.decodeExact (String.ofList signature) 64 with
      | .error fault => .error (.signatureSpelling fault)
      | .ok signature =>
        match Text.Decimal.read? UInt64.size seconds with
        | none => .error (.expiration (String.ofList seconds))
        | some seconds =>
          match Timestamp.ofEpochSeconds? seconds with
          | none => .error (.expirationRange seconds)
          | some expiration => .ok (⟨peer⟩, ⟨signature⟩, expiration)
  | parts => .error (.pathElements parts.length)

def parseQuery : Option (List Char) → Except BlockFault (List Address)
  | none => .ok []
  | some query => (Text.splitAll '&' query).mapM parseParameter

/-- Reads a URL without looking at its signature. If `strict`, an announcement that
is expired is refused before its addresses are read. -/
def parseUrl (now : Timestamp) (strict : Bool) (url : String) : Except BlockError Hello := do
  if !urlStart.toList.isPrefixOf url.toList then throw (.malformed (.notHelloUrl url))
  let (path, query) ← (splitQuery (url.toList.drop urlStart.toList.length)).mapError .malformed
  let (peer, signature, expiration) ← (parsePath path).mapError .malformed
  if strict && expiration.isExpired now then throw .expired
  let addresses ← (parseQuery query).mapError .malformed
  return ⟨peer, signature, expiration, addresses⟩

end Overlay.Hello
