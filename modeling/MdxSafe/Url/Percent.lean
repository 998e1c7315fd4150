-- SUMMARY: Percent encoding and decoding of URLs.
import MdxSafe.Text.Utf8

/-!
# Percent encoding

Encoding keeps ASCII letters, digits, the marks that may stand in a URL and escapes already there, and
writes the UTF-8 bytes of everything else in upper case hexadecimal. Decoding reads runs of escapes as
UTF-8; it keeps the escapes of the marks that structure a URL, and of the percent sign, and puts a
replacement character for every byte that belongs to no character. For the name of a file no escape is kept.
-/

namespace MdxSafe.Percent

/-- The marks that encoding keeps. -/
def keptMarks : Text := ";/?:@&=+$,-_.!~*'()#"

/-- The marks whose escapes decoding keeps. -/
def structureMarks : Text := ";/?:@&=+$,#%"

/-- The replacement character. -/
def replacement : Char := Char.ofNat 0xFFFD

/-- The value of a hexadecimal digit. -/
def hexValue? (c : Char) : Option Nat :=
  if '0' ≤ c ∧ c ≤ '9' then some (c.toNat - '0'.toNat)
  else if 'a' ≤ c ∧ c ≤ 'f' then some (c.toNat - 'a'.toNat + 10)
  else if 'A' ≤ c ∧ c ≤ 'F' then some (c.toNat - 'A'.toNat + 10)
  else none

/-- The escape of a byte. -/
def escape (b : UInt8) : Text := '%' :: (Text.hexPadded 2 b.toNat).map Char.toUpper

/-- Whether encoding keeps a character. -/
def isKept (c : Char) : Bool := c.isAlphanum || decide (c ∈ keptMarks)

/-- The encoded text. -/
def encode : Text → Text
  | [] => []
  | '%' :: a :: b :: t =>
    if (hexValue? a).isSome ∧ (hexValue? b).isSome then '%' :: a :: b :: encode t
    else "%25".toList ++ encode (a :: b :: t)
  | c :: t => (if isKept c then [c] else (Utf8.encodeChar c).flatMap escape) ++ encode t

/-- The run of escapes at the start of a text, as bytes, and the rest. -/
def takeEscapes : Text → Bytes × Text
  | '%' :: a :: b :: t =>
    match hexValue? a, hexValue? b with
    | some x, some y =>
      let r := takeEscapes t
      (UInt8.ofNat (16 * x + y) :: r.1, r.2)
    | _, _ => ([], '%' :: a :: b :: t)
  | t => ([], t)

/-- The count of bytes that the first byte of a character calls for. -/
def sequenceLength (b : UInt8) : Nat :=
  if b &&& 0xE0 == 0xC0 then 2 else if b &&& 0xF0 == 0xE0 then 3 else if b &&& 0xF8 == 0xF0 then 4 else 1

/-- A run of bytes as text, passing over `skip` bytes already read. -/
def bytesText : Nat → Bytes → Text
  | _, [] => []
  | skip + 1, _ :: rest => bytesText skip rest
  | 0, b :: rest =>
    if b < 0x80 then
      let c := Char.ofNat b.toNat
      (if c ∈ structureMarks then escape b else [c]) ++ bytesText 0 rest
    else
      let n := sequenceLength b
      let tail := rest.take (n - 1)
      if 1 < n ∧ tail.length = n - 1 ∧ tail.all Utf8.isContinuation then
        (match Utf8.decode (b :: tail) with
          | .ok t => t
          | .error _ => List.replicate n replacement) ++ bytesText (n - 1) rest
      else replacement :: bytesText 0 rest

/-- The decoded text; `fuel` bounds the count of runs and characters. -/
def decodeFuel : Nat → Text → Text
  | 0, t => t
  | _, [] => []
  | fuel + 1, c :: t =>
    match takeEscapes (c :: t) with
    | ([], _) => c :: decodeFuel fuel t
    | (bytes, rest) => bytesText 0 bytes ++ decodeFuel fuel rest

/-- The decoded text. -/
def decode (t : Text) : Text := decodeFuel t.length t

-- ---------------------------------------------------------------------------
-- Names of files
-- ---------------------------------------------------------------------------

/-- The bytes of a text in which every escape stands for its byte. -/
def bytes : Text → Bytes
  | [] => []
  | '%' :: a :: b :: t =>
    match hexValue? a, hexValue? b with
    | some x, some y => UInt8.ofNat (16 * x + y) :: bytes t
    | _, _ => Utf8.encodeChar '%' ++ bytes (a :: b :: t)
  | c :: t => Utf8.encodeChar c ++ bytes t

/-- The name of a file that is written with escapes. -/
def fileName (t : Text) : Text := Utf8.decodeLossy 0 (bytes t)

end MdxSafe.Percent
