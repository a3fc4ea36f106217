import Tickscript.Text.Quoted

/-!
# `Tickscript.Text.Utf8`: reading bytes as text

Files are sequences of bytes and are read as UTF-8. A file that is not valid UTF-8 is refused with
the place of its first bad sequence and the reason. `decode` reads a whole file at once. A file
that is read line by line is decoded in blocks, which shows in two ways that `Fault.inBlocks`
describes: lines of earlier blocks have been handed out by then, and positions count from the
block.
-/

set_option autoImplicit false

namespace Tickscript.Text.Utf8

/-- Why a byte sequence is not a character. -/
inductive Reason where
  | badStart
  | badContinuation
  | cut
deriving DecidableEq, Repr

/-- The words for a reason. -/
def Reason.message : Reason → String
  | .badStart => "invalid start byte"
  | .badContinuation => "invalid continuation byte"
  | .cut => "unexpected end of data"

/-- A bad sequence: where it starts, its bytes up to the one that does not fit, and the reason. -/
structure Fault where
  position : Nat
  bytes : List UInt8
  reason : Reason
deriving DecidableEq, Repr

/-- The text of a fault. One byte is shown by its value, several by the positions of the first and
the last. -/
def Fault.message (f : Fault) : String :=
  match f.bytes with
  | [b] =>
    "'utf-8' codec can't decode byte 0x" ++ String.ofList (hexPadded 2 b.toNat) ++
      " in position " ++ toString f.position ++ ": " ++ f.reason.message
  | bytes =>
    "'utf-8' codec can't decode bytes in position " ++ toString f.position ++ "-" ++
      toString (f.position + bytes.length - 1) ++ ": " ++ f.reason.message

/-- A byte that continues a sequence. -/
def isContinuation (b : UInt8) : Bool :=
  0x80 ≤ b && b < 0xc0

/-- Whether `b` may follow the lead byte `lead` of a sequence of three or four bytes. Four lead
bytes narrow the range, which keeps out overlong forms, surrogates and code points above
`U+10FFFF`. -/
def mayFollow (lead b : UInt8) : Bool :=
  isContinuation b && !(lead == 0xe0 && b < 0xa0) && !(lead == 0xed && 0xa0 ≤ b) &&
    !(lead == 0xf0 && b < 0x90) && !(lead == 0xf4 && 0x90 ≤ b)

/-- The first bad sequence of `bytes`, which start at `position` of the file. -/
def firstFault (position : Nat) : List UInt8 → Option Fault
  | [] => none
  | a :: rest =>
    if a < 0x80 then firstFault (position + 1) rest
    else if a < 0xc2 || 0xf5 ≤ a then some ⟨position, [a], .badStart⟩
    else
      match rest with
      | [] => some ⟨position, [a], .cut⟩
      | b :: rest =>
        if !mayFollow a b then some ⟨position, [a], .badContinuation⟩
        else if a < 0xe0 then firstFault (position + 2) rest
        else
          match rest with
          | [] => some ⟨position, [a, b], .cut⟩
          | c :: rest =>
            if !isContinuation c then some ⟨position, [a, b], .badContinuation⟩
            else if a < 0xf0 then firstFault (position + 3) rest
            else
              match rest with
              | [] => some ⟨position, [a, b, c], .cut⟩
              | d :: rest =>
                if !isContinuation d then some ⟨position, [a, b, c], .badContinuation⟩
                else firstFault (position + 4) rest

/-- The text that `bytes` encode, or their first fault. The last alternative is for form only:
bytes without a fault are valid. -/
def decode (bytes : ByteArray) : Except Fault String :=
  match String.fromUTF8? bytes with
  | some text => .ok text
  | none => .error ((firstFault 0 bytes.toList).getD ⟨0, [], .badStart⟩)

/-- How many bytes a block holds when a file is read line by line. -/
def blockSize : Nat := 8192

/-- The index of the byte at which a fault of a file is noticed. A bad continuation is noticed at
the byte that does not fit, and a cut sequence at the end of the file. Only a surrogate whose
second byte ends a block is held back as if it were cut. -/
def Fault.noticedAt (f : Fault) (bytes : ByteArray) : Nat :=
  match f.reason with
  | .badStart => f.position
  | .cut => bytes.size
  | .badContinuation =>
    let next := f.position + f.bytes.length
    let surrogate := f.bytes = [0xed] && (bytes[next]?).any isContinuation
    if surrogate && ((next + 1) % blockSize == 0 || next + 1 == bytes.size) then
      next + 1 else next

/-- The start of the character that the byte at an index belongs to. -/
def characterStart (bytes : ByteArray) : Nat → Nat
  | 0 => 0
  | k + 1 =>
    if (bytes[k + 1]?).any isContinuation then characterStart bytes k else k + 1

/-- The fault of a file as a line by line reader meets it. The first component is the number of
bytes whose text was handed out before. The second is the fault, with its position counted from
there: from the start of the block where it is noticed, or from the character that began in an
earlier block and was held back. -/
def Fault.inBlocks (f : Fault) (bytes : ByteArray) : Nat × Fault :=
  let noticed := f.noticedAt bytes
  let block := if noticed < bytes.size then noticed / blockSize * blockSize else bytes.size
  let base := if block < f.position then characterStart bytes block else min f.position block
  (base, { f with position := f.position - base })

end Tickscript.Text.Utf8
