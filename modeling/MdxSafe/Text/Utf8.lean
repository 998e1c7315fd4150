-- SUMMARY: Texts as UTF-8 bytes, and the exact place and cause of a failure to read them back.
import MdxSafe.Text.Basic
import MdxSafe.Text.Quoted

/-!
# UTF-8

`Utf8.encode` writes a text, `Utf8.decode` reads one. Reading stops at the first sequence of bytes that
is no character: it tells where the sequence starts, how many bytes of it are at fault, and why.
`Utf8.decodeLossy` reads on behind it.
-/

namespace MdxSafe

/-- The content of a file. -/
abbrev Bytes := List UInt8

namespace Utf8

/-- The bytes of a character. -/
def encodeChar (c : Char) : Bytes :=
  let n := c.toNat
  let tail (unit : Nat) : UInt8 := UInt8.ofNat (0x80 + n / unit % 64)
  if n < 0x80 then [UInt8.ofNat n]
  else if n < 0x800 then [UInt8.ofNat (0xC0 + n / 64), tail 1]
  else if n < 0x10000 then [UInt8.ofNat (0xE0 + n / 4096), tail 64, tail 1]
  else [UInt8.ofNat (0xF0 + n / 262144), tail 4096, tail 64, tail 1]

/-- The bytes of a text. -/
def encode (t : Text) : Bytes := t.flatMap encodeChar

/-- Why a sequence of bytes is no character. -/
inductive Fault where
  | invalidStart | invalidContinuation | unexpectedEnd
  deriving DecidableEq, Repr

/-- A failure to read: offset and count of the bytes at fault, the first of them, and the cause. -/
structure Failure where
  position : Nat
  count : Nat
  first : UInt8
  fault : Fault
  deriving DecidableEq, Repr

/-- What to tell about a cause. -/
def Fault.message : Fault → Text
  | invalidStart => "invalid start byte"
  | invalidContinuation => "invalid continuation byte"
  | unexpectedEnd => "unexpected end of data"

/-- What to tell about a failure. -/
def Failure.message (f : Failure) : Text :=
  "'utf-8' codec can't decode ".toList
    ++ (if f.count = 1 then
          "byte 0x".toList ++ Text.hexPadded 2 f.first.toNat ++ " in position ".toList
            ++ Text.ofNat f.position
        else
          "bytes in position ".toList ++ Text.ofNat f.position ++ '-' :: Text.ofNat (f.position + f.count - 1))
    ++ ": ".toList ++ f.fault.message

/-- Whether a byte continues a character. -/
def isContinuation (b : UInt8) : Bool := 0x80 ≤ b && b < 0xC0

/-- Whether the second byte of a character fits its first one: no overlong form, no surrogate, nothing
beyond the last code point. -/
def fitsSecond (lead b : UInt8) : Bool :=
  isContinuation b && !(lead == 0xE0 && b < 0xA0) && !(lead == 0xED && 0xA0 ≤ b)
    && !(lead == 0xF0 && b < 0x90) && !(lead == 0xF4 && 0x90 ≤ b)

/-- The low bits of a continuation byte. -/
def bits (b : UInt8) : Nat := b.toNat % 64

/-- The character at the start of bytes and its length, or the count at fault and the cause. -/
def decodeChar (lead : UInt8) (rest : Bytes) : Except (Nat × Fault) (Char × Nat) :=
  if lead < 0x80 then .ok (Char.ofNat lead.toNat, 1)
  else if lead < 0xC2 || 0xF5 ≤ lead then .error (1, .invalidStart)
  else
    match rest with
    | [] => .error (1, .unexpectedEnd)
    | b :: rest =>
      if !fitsSecond lead b then .error (1, .invalidContinuation)
      else if lead < 0xE0 then .ok (Char.ofNat (lead.toNat % 32 * 64 + bits b), 2)
      else match rest with
        | [] => .error (2, .unexpectedEnd)
        | c :: rest =>
          if !isContinuation c then .error (2, .invalidContinuation)
          else if lead < 0xF0 then
            .ok (Char.ofNat ((lead.toNat % 16 * 64 + bits b) * 64 + bits c), 3)
          else match rest with
            | [] => .error (3, .unexpectedEnd)
            | d :: _ =>
              if !isContinuation d then .error (3, .invalidContinuation)
              else .ok (Char.ofNat (((lead.toNat % 8 * 64 + bits b) * 64 + bits c) * 64 + bits d), 4)

/-- Read the bytes from an offset on, passing over the `skip` bytes of the last character. -/
def decodeFrom (position : Nat) : Nat → Bytes → Except Failure Text
  | _, [] => .ok []
  | skip + 1, _ :: rest => decodeFrom (position + 1) skip rest
  | 0, b :: rest =>
    match decodeChar b rest with
    | .error e => .error ⟨position, e.1, b, e.2⟩
    | .ok (c, n) => (decodeFrom (position + 1) (n - 1) rest).map (c :: ·)

/-- The text that bytes stand for. -/
def decode (bytes : Bytes) : Except Failure Text := decodeFrom 0 0 bytes

/-- What bytes stand for, passing over the `skip` bytes of the last character, with a replacement character
for every sequence of bytes that is none. -/
def decodeLossy : Nat → Bytes → Text
  | _, [] => []
  | skip + 1, _ :: rest => decodeLossy skip rest
  | 0, b :: rest =>
    match decodeChar b rest with
    | .error e => Char.ofNat 0xFFFD :: decodeLossy (e.1 - 1) rest
    | .ok (c, n) => c :: decodeLossy (n - 1) rest

end Utf8
end MdxSafe
