/-! # Reading UTF-8

Bytes are read one character at a time. A sequence that is not UTF-8 is reported with its length:
the longest start that could still have become a character, at least one byte. `decode` drops such
sequences, `decodeStrict` stops at the first. -/
namespace SinkAudit.Text

/-- Why bytes are not UTF-8. -/
inductive Utf8Fault where
  | start
  | continuation
  | truncated
  deriving DecidableEq, Repr

def Utf8Fault.message : Utf8Fault → String
  | .start => "invalid start byte"
  | .continuation => "invalid continuation byte"
  | .truncated => "unexpected end of data"

/-- What stands at the start of a sequence of bytes. -/
inductive Chunk where
  | scalar (c : Char) (length : Nat)
  | invalid (fault : Utf8Fault) (length : Nat)
  deriving DecidableEq, Repr

def isTail (b : UInt8) : Bool := 0x80 ≤ b && b ≤ 0xBF

/-- Whether `b` may follow `a` as the second byte of a character of three or four bytes. -/
def isSecond (a b : UInt8) : Bool :=
  isTail b &&
    (if a == 0xE0 then 0xA0 ≤ b
     else if a == 0xED then b < 0xA0
     else if a == 0xF0 then 0x90 ≤ b
     else if a == 0xF4 then b < 0x90
     else true)

def tailBits (b : UInt8) : Nat := b.toNat % 64

/-- The character or the fault at the start of `a :: rest`. -/
def chunk (a : UInt8) (rest : List UInt8) : Chunk :=
  if a < 0x80 then .scalar (Char.ofNat a.toNat) 1
  else if a < 0xC2 then .invalid .start 1
  else if a < 0xE0 then
    match rest with
    | [] => .invalid .truncated 1
    | b :: _ =>
      if isTail b then .scalar (Char.ofNat (a.toNat % 32 * 64 + tailBits b)) 2
      else .invalid .continuation 1
  else if a < 0xF0 then
    match rest with
    | [] => .invalid .truncated 1
    | [b] => if isSecond a b then .invalid .truncated 2 else .invalid .continuation 1
    | b :: c :: _ =>
      if !isSecond a b then .invalid .continuation 1
      else if !isTail c then .invalid .continuation 2
      else .scalar (Char.ofNat ((a.toNat % 16 * 64 + tailBits b) * 64 + tailBits c)) 3
  else if a < 0xF5 then
    match rest with
    | [] => .invalid .truncated 1
    | [b] => if isSecond a b then .invalid .truncated 2 else .invalid .continuation 1
    | [b, c] =>
      if !isSecond a b then .invalid .continuation 1
      else if !isTail c then .invalid .continuation 2
      else .invalid .truncated 3
    | b :: c :: d :: _ =>
      if !isSecond a b then .invalid .continuation 1
      else if !isTail c then .invalid .continuation 2
      else if !isTail d then .invalid .continuation 3
      else .scalar
        (Char.ofNat (((a.toNat % 8 * 64 + tailBits b) * 64 + tailBits c) * 64 + tailBits d)) 4
  else .invalid .start 1

def Chunk.length : Chunk → Nat
  | .scalar _ n => n
  | .invalid _ n => n

/-- The characters of the bytes, where `skip` more bytes belong to what was read before. -/
def decodeFrom : Nat → List UInt8 → List Char
  | _, [] => []
  | skip + 1, _ :: rest => decodeFrom skip rest
  | 0, a :: rest =>
    match chunk a rest with
    | .scalar c n => c :: decodeFrom (n - 1) rest
    | .invalid _ n => decodeFrom (n - 1) rest

/-- The characters of the bytes; what is not UTF-8 is left out. -/
def decode (bytes : List UInt8) : List Char := decodeFrom 0 bytes

/-- The first place where bytes are not UTF-8. -/
structure DecodeError where
  position : Nat
  length : Nat
  first : UInt8
  fault : Utf8Fault
  deriving DecidableEq, Repr

def DecodeError.message (e : DecodeError) : String :=
  let place :=
    if e.length == 1 then
      "byte 0x" ++ String.ofList (Nat.toDigits 16 e.first.toNat) ++ " in position " ++
        toString e.position
    else
      "bytes in position " ++ toString e.position ++ "-" ++ toString (e.position + e.length - 1)
  "'utf-8' codec can't decode " ++ place ++ ": " ++ e.fault.message

def decodeStrictFrom (position : Nat) : Nat → List UInt8 → Except DecodeError (List Char)
  | _, [] => .ok []
  | skip + 1, _ :: rest => decodeStrictFrom (position + 1) skip rest
  | 0, a :: rest =>
    match chunk a rest with
    | .scalar c n => (decodeStrictFrom (position + 1) (n - 1) rest).map (c :: ·)
    | .invalid fault n => .error ⟨position, n, a, fault⟩

/-- The text of the bytes, or the first place where they are not UTF-8. -/
def decodeStrict (bytes : List UInt8) : Except DecodeError String :=
  (decodeStrictFrom 0 0 bytes).map String.ofList

end SinkAudit.Text
