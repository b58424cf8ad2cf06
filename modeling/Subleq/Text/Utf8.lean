/-!
# UTF-8 with located faults

Encodes texts as UTF-8 and decodes them. The first ill-formed sequence is reported with its
position, its bytes and the reason. `decode` judges a whole text; `decodeBlocks` judges a text that
arrives in blocks, where positions count from the first byte that was not yet decoded when the block
arrived.
-/

namespace Subleq.Text.Utf8

/-- Why a sequence of bytes is ill-formed. -/
inductive Reason where
  | startByte
  | continuationByte
  | endOfData
  deriving Repr, DecidableEq

/-- An ill-formed sequence: where it starts, its first byte, and how many bytes it has. -/
structure Fault where
  position : Nat
  first : UInt8
  length : Nat
  reason : Reason
  deriving Repr, DecidableEq

/-- The reason in words. -/
def Reason.message : Reason → String
  | .startByte => "invalid start byte"
  | .continuationByte => "invalid continuation byte"
  | .endOfData => "unexpected end of data"

/-- One byte as two hexadecimal digits. -/
def hexByte (byte : UInt8) : String :=
  let digits := Nat.toDigits 16 byte.toNat
  String.ofList (if digits.length < 2 then '0' :: digits else digits)

/-- The text of a complaint: one byte is shown, several are named by their positions. -/
def Fault.message (fault : Fault) : String :=
  "'utf-8' codec can't decode " ++
    (if fault.length == 1 then
      "byte 0x" ++ hexByte fault.first ++ " in position " ++ toString fault.position
    else
      "bytes in position " ++ toString fault.position ++ "-" ++
        toString (fault.position + fault.length - 1)) ++
    ": " ++ fault.reason.message

def encode (text : String) : List UInt8 := text.toUTF8.toList

/-- Whether a byte continues a sequence. -/
def isContinuation (byte : UInt8) : Bool := byte &&& 0xc0 == 0x80

/-- The six payload bits of a continuation byte. -/
def payload (byte : UInt8) : Nat := (byte &&& 0x3f).toNat

/-- Whether a byte may follow the first byte of a sequence of three: no over-long form, no
surrogate. -/
def secondOfThree (first second : UInt8) : Bool :=
  isContinuation second && (if second < 0xa0 then first != 0xe0 else first != 0xed)

/-- Whether a byte may follow the first byte of a sequence of four: no over-long form, nothing above
the last code point. -/
def secondOfFour (first second : UInt8) : Bool :=
  isContinuation second && (if second < 0x90 then first != 0xf0 else first != 0xf4)

/-- What stands at the front of a list of bytes. -/
inductive Front where
  /-- A character that is written with `length` bytes. -/
  | char (c : Char) (length : Nat)
  /-- An ill-formed sequence of `length` bytes. -/
  | bad (length : Nat) (reason : Reason)
  /-- The beginning of a sequence that the end of the list cuts off. -/
  | cut

/-- Judges the front of a non-empty list of bytes. -/
def front (first : UInt8) (rest : List UInt8) : Front :=
  if first < 0x80 then .char (Char.ofNat first.toNat) 1
  else if first < 0xc2 then .bad 1 .startByte
  else if first < 0xe0 then
    match rest with
    | [] => .cut
    | second :: _ =>
        if isContinuation second then
          .char (Char.ofNat ((first &&& 0x1f).toNat * 64 + payload second)) 2
        else .bad 1 .continuationByte
  else if first < 0xf0 then
    match rest with
    | [] => .cut
    | second :: rest =>
        if !secondOfThree first second then .bad 1 .continuationByte
        else match rest with
          | [] => .cut
          | third :: _ =>
              if isContinuation third then
                .char (Char.ofNat
                  (((first &&& 0x0f).toNat * 64 + payload second) * 64 + payload third)) 3
              else .bad 2 .continuationByte
  else if first < 0xf5 then
    match rest with
    | [] => .cut
    | second :: rest =>
        if !secondOfFour first second then .bad 1 .continuationByte
        else match rest with
          | [] => .cut
          | third :: rest =>
              if !isContinuation third then .bad 2 .continuationByte
              else match rest with
                | [] => .cut
                | fourth :: _ =>
                    if isContinuation fourth then
                      .char (Char.ofNat
                        ((((first &&& 0x07).toNat * 64 + payload second) * 64 + payload third) * 64
                          + payload fourth)) 4
                    else .bad 3 .continuationByte
  else .bad 1 .startByte

/-- Whether bytes are the first two of a surrogate. -/
def isCutSurrogate : List UInt8 → Bool
  | [first, second] => first == 0xed && 0xa0 ≤ second && second ≤ 0xbf
  | _ => false

/-- Decodes as many characters as the bytes hold: the characters, last one first, put before `done`,
and the bytes of a sequence that is cut off. `position` counts the bytes already decoded, and `skip`
the bytes at the front that belong to the character just decoded. Where more bytes may follow, a
surrogate that is cut off is not judged yet. -/
def decodeFrom (more : Bool) (position skip : Nat) (done : List Char) :
    List UInt8 → Except Fault (List Char × List UInt8)
  | [] => .ok (done, [])
  | first :: rest =>
      match skip with
      | skip + 1 => decodeFrom more (position + 1) skip done rest
      | 0 =>
          match front first rest with
          | .char c length => decodeFrom more (position + 1) (length - 1) (c :: done) rest
          | .bad length reason =>
              if more && isCutSurrogate (first :: rest) then .ok (done, first :: rest)
              else .error ⟨position, first, length, reason⟩
          | .cut => .ok (done, first :: rest)

/-- The complaint about a sequence that the end of the data cuts off. -/
def cutFault (position : Nat) : List UInt8 → Option Fault
  | [] => none
  | first :: rest => some ⟨position, first, rest.length + 1, .endOfData⟩

/-- Decodes the last bytes of a text, where `done` holds the characters before them, last one
first. -/
def decodeLast (done : List Char) (bytes : List UInt8) : Except Fault (List Char) :=
  match decodeFrom false 0 0 done bytes with
  | .error fault => .error fault
  | .ok (done, left) =>
      match cutFault (bytes.length - left.length) left with
      | some fault => .error fault
      | none => .ok done.reverse

def decode (bytes : List UInt8) : Except Fault (List Char) := decodeLast [] bytes

/-- Decodes a text block by block, where `left` holds the bytes of a sequence that the block before
cut off and `done` the characters so far, last one first. -/
def decodeBlocksFrom (done : List Char) (left : List UInt8) :
    List (List UInt8) → Except Fault (List Char)
  | [] => decodeLast done left
  | block :: blocks =>
      match decodeFrom true 0 0 done (left ++ block) with
      | .error fault => .error fault
      | .ok (done, left) => decodeBlocksFrom done left blocks

/-- Cuts a list into blocks of a positive size; `fuel` bounds their number. -/
def blocks (size : Nat) : (fuel : Nat) → List UInt8 → List (List UInt8)
  | 0, _ => []
  | _, [] => []
  | fuel + 1, bytes => bytes.take size :: blocks size fuel (bytes.drop size)

/-- Decodes a text that arrives in blocks of `size` bytes. -/
def decodeBlocks (size : Nat) (bytes : List UInt8) : Except Fault (List Char) :=
  decodeBlocksFrom [] [] (blocks size bytes.length bytes)

/-- Every line end written as one line feed. -/
def unifyLineEnds : List Char → List Char
  | [] => []
  | '\r' :: '\n' :: rest => '\n' :: unifyLineEnds rest
  | '\r' :: rest => '\n' :: unifyLineEnds rest
  | c :: rest => c :: unifyLineEnds rest

end Subleq.Text.Utf8
