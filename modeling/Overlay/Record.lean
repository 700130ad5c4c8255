import Overlay.Text.Utf8
import Overlay.Time

/-! Resource records, and the sets of them that a label stands for. A set is
written as the number of its records and then each record: expiration, data size,
flags, type and data. -/
namespace Overlay

inductive RecordFault where
  | tooMany
  | tooShort
  | truncated (index : Nat)
  | dataTruncated (index : Nat)
  | trailing (size : Nat)
  deriving DecidableEq, Repr

def RecordFault.message : RecordFault → String
  | .tooMany => "Too many records"
  | .tooShort => "Record set too short"
  | .truncated index => s!"Record {index} truncated"
  | .dataTruncated index => s!"Record {index} data truncated"
  | .trailing size => s!"{size} trailing bytes"

inductive RecordError where
  | malformed (fault : RecordFault)
  | tooLarge (size : Nat)
  deriving DecidableEq, Repr

def RecordError.message : RecordError → String
  | .malformed fault => s!"Malformed record set: {fault.message}"
  | .tooLarge size => s!"Record data too large: {size} bytes"

structure Record where
  expiration : Timestamp
  recordType : UInt32
  flags : UInt16
  data : Bytes
  deriving DecidableEq

namespace Record

def typeNames : List (UInt32 × String) :=
  [(1, "A"), (5, "CNAME"), (16, "TXT"), (28, "AAAA"), (65556, "EDKEY")]

def txtType : UInt32 := 16
def cnameType : UInt32 := 5

def typeName (recordType : UInt32) : String :=
  (typeNames.lookup recordType).getD s!"TYPE{recordType.toNat}"

def txt (value : String) (expiration : Timestamp) : Record :=
  ⟨expiration, txtType, 0, Text.utf8 value⟩

def privateFlag : UInt16 := 2

def isPrivate (r : Record) : Bool := r.flags &&& privateFlag != 0

def headerSize : Nat := 16

def maxDataSize : Nat := UInt16.size - 1

def header (r : Record) : Bytes :=
  r.expiration.bytes ++ BigEndian.encode 2 r.data.length ++
    BigEndian.encode 2 r.flags.toNat ++ BigEndian.encode 4 r.recordType.toNat

def encode (r : Record) : Except RecordError Bytes :=
  if r.data.length ≤ maxDataSize then .ok (r.header ++ r.data)
  else .error (.tooLarge r.data.length)

def dataSize (header : Bytes) : Nat := BigEndian.decode ((header.drop 8).take 2)

def ofHeader (header data : Bytes) : Record where
  expiration := .ofMicros (BigEndian.decode (header.take 8))
  flags := UInt16.ofNat (BigEndian.decode ((header.drop 10).take 2))
  recordType := UInt32.ofNat (BigEndian.decode ((header.drop 12).take 4))
  data := data

def debugText (r : Record) : String :=
  s!"ResourceRecord \x7b type: {r.recordType.toNat}, flags: {r.flags.toNat}, " ++
    s!"expiration: {r.expiration.debugText}, data: \"[{r.data.length} bytes]\" \x7d"

end Record

structure RecordSet where
  records : List Record
  deriving DecidableEq

namespace RecordSet

/-- The earliest expiration; an empty set does not expire. -/
def expiration (s : RecordSet) : Timestamp :=
  (s.records.map Record.expiration).foldl Timestamp.earlier .never

def publicRecords (s : RecordSet) : RecordSet := ⟨s.records.filter fun r => !r.isPrivate⟩

def encode (s : RecordSet) : Except RecordError Bytes := do
  if s.records.length < UInt32.size then
    let parts ← s.records.mapM Record.encode
    return BigEndian.encode 4 s.records.length ++ parts.flatten
  else throw (.malformed .tooMany)

/-- Reads `count` records, the first of which has number `index`, and nothing
after them. -/
def decodeRecords : (count index : Nat) → Bytes → Except RecordError (List Record)
  | 0, _, rest =>
    if rest.isEmpty then .ok [] else .error (.malformed (.trailing rest.length))
  | count + 1, index, data =>
    match data.cut? Record.headerSize with
    | none => .error (.malformed (.truncated index))
    | some (header, rest) =>
      match rest.cut? (Record.dataSize header) with
      | none => .error (.malformed (.dataTruncated index))
      | some (data, rest) => do
        return Record.ofHeader header data :: (← decodeRecords count (index + 1) rest)

def decode (b : Bytes) : Except RecordError RecordSet := do
  match b.cut? 4 with
  | none => throw (.malformed .tooShort)
  | some (count, rest) => return ⟨← decodeRecords (BigEndian.decode count) 0 rest⟩

end RecordSet
end Overlay
