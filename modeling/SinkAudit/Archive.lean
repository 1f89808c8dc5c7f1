/-! # Archives

A zip archive whose members are stored as they are: a record for each member, then a directory of
the records, then a mark that says where the directory is. Numbers are written with the least byte
first. -/
namespace SinkAudit.Archive

structure Member where
  name : List UInt8
  bytes : List UInt8
  deriving DecidableEq, Repr

/-- A number in a given count of bytes. -/
def number : Nat → Nat → List UInt8
  | 0, _ => []
  | width + 1, n => (n % 256).toUInt8 :: number width (n / 256)

/-! ## Checksums -/

/-- The checksum after one more bit. -/
def checksumBit (c : UInt32) : UInt32 := if c &&& 1 == 1 then (c >>> 1) ^^^ 0xEDB88320 else c >>> 1

/-- The checksum after one more byte. -/
def checksumByte (c : UInt32) (b : UInt8) : UInt32 := Nat.repeat checksumBit 8 (c ^^^ b.toUInt32)

/-- The cyclic checksum of some bytes. -/
def checksum (bytes : List UInt8) : UInt32 := bytes.foldl checksumByte 0xFFFFFFFF ^^^ 0xFFFFFFFF

/-! ## Records -/

/-- What the record of a member and its entry in the directory both say: that it is stored as it
is under a name in UTF-8, on the first day of the calendar, its checksum and its sizes. -/
def facts (m : Member) : List UInt8 :=
  number 2 20 ++ number 2 0x800 ++ number 2 0 ++ number 2 0 ++ number 2 0x21 ++
    number 4 (checksum m.bytes).toNat ++ number 4 m.bytes.length ++ number 4 m.bytes.length ++
    number 2 m.name.length ++ number 2 0

def record (m : Member) : List UInt8 := number 4 0x04034B50 ++ facts m ++ m.name ++ m.bytes

/-- The entry for a member whose record starts at an offset. -/
def entry (offset : Nat) (m : Member) : List UInt8 :=
  number 4 0x02014B50 ++ number 2 0x0314 ++ facts m ++ number 6 0 ++ number 4 0x01800000 ++
    number 4 offset ++ m.name

/-- The entries for members whose records start at an offset. -/
def directory : Nat → List Member → List UInt8
  | _, [] => []
  | offset, m :: ms => entry offset m ++ directory (offset + (record m).length) ms

/-- The mark after a directory of so many entries and bytes that starts at an offset. -/
def ending (count size offset : Nat) : List UInt8 :=
  number 4 0x06054B50 ++ number 4 0 ++ number 2 count ++ number 2 count ++ number 4 size ++
    number 4 offset ++ number 2 0

/-- The bytes of an archive. -/
def write (ms : List Member) : List UInt8 :=
  let records := ms.flatMap record
  let entries := directory 0 ms
  records ++ entries ++ ending ms.length entries.length records.length

/-- The bytes of an archive of texts, each under a name. -/
def ofTexts (texts : List (String × String)) : List UInt8 :=
  write (texts.map fun (name, text) => { name := name.toUTF8.toList, bytes := text.toUTF8.toList })

end SinkAudit.Archive
