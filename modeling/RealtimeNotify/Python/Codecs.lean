import RealtimeNotify.Python.Text

/-!
# Bytes to text

`json.detect_encoding`, and `bytes.decode` with the `surrogatepass` handler for
the encodings it names. A row of bytes that the encoding does not allow has no
text: Python raises a `UnicodeDecodeError`.
-/

namespace RealtimeNotify.Python

abbrev Bytes := List UInt8

/-! ## `json.detect_encoding` -/

inductive Encoding where
  | utf8
  | utf8Sig
  | utf16
  | utf16be
  | utf16le
  | utf32
  | utf32be
  | utf32le
  deriving DecidableEq

/-- By the byte order mark, else by where the first bytes are zero. -/
def detectEncoding (b : Bytes) : Encoding :=
  if [0x00, 0x00, 0xfe, 0xff].isPrefixOf b || [0xff, 0xfe, 0x00, 0x00].isPrefixOf b then .utf32
  else if [0xfe, 0xff].isPrefixOf b || [0xff, 0xfe].isPrefixOf b then .utf16
  else if [0xef, 0xbb, 0xbf].isPrefixOf b then .utf8Sig
  else match b with
    | b0 :: b1 :: b2 :: b3 :: _ =>
        if b0 = 0 then (if b1 ≠ 0 then .utf16be else .utf32be)
        else if b1 = 0 then (if b2 ≠ 0 || b3 ≠ 0 then .utf16le else .utf32le)
        else .utf8
    | [b0, b1] =>
        if b0 = 0 then .utf16be
        else if b1 = 0 then .utf16le
        else .utf8
    | _ => .utf8

/-! ## Decoders -/

def codePoint? (n : Nat) : Option CodePoint := if h : n < 0x110000 then some ⟨n, h⟩ else none

/-- The six bits of a continuation byte `10xxxxxx`. -/
def continuation? (b : UInt8) : Option Nat :=
  if 0x80 ≤ b.toNat ∧ b.toNat < 0xc0 then some (b.toNat - 0x80) else none

/-- The bits of the bytes that follow the lead, most significant first. -/
def continuations (lead : Nat) : Bytes → Option Nat
  | [] => some lead
  | b :: bs => (continuation? b).bind fun n => continuations (lead * 64 + n) bs

/-- The character of a sequence, unless a shorter sequence would do. -/
def utf8Char (lead least : Nat) (tail : Bytes) : Option CodePoint :=
  (continuations lead tail).bind fun n => if least ≤ n then codePoint? n else none

/-- UTF-8. `surrogatepass` lets the three-byte form of a surrogate through. -/
def decodeUtf8 : Bytes → Option PyStr
  | [] => some []
  | a :: bs =>
      let n := a.toNat
      if n < 0x80 then (codePoint? n).bind fun c => (decodeUtf8 bs).map (c :: ·)
      else match bs with
        | [] => none
        | b :: bs =>
            if 0xc0 ≤ n ∧ n < 0xe0 then
              (utf8Char (n - 0xc0) 0x80 [b]).bind fun ch => (decodeUtf8 bs).map (ch :: ·)
            else match bs with
              | [] => none
              | c :: bs =>
                  if 0xe0 ≤ n ∧ n < 0xf0 then
                    (utf8Char (n - 0xe0) 0x800 [b, c]).bind fun ch => (decodeUtf8 bs).map (ch :: ·)
                  else match bs with
                    | [] => none
                    | d :: bs =>
                        if 0xf0 ≤ n ∧ n < 0xf8 then
                          (utf8Char (n - 0xf0) 0x10000 [b, c, d]).bind fun ch =>
                            (decodeUtf8 bs).map (ch :: ·)
                        else none

/-- Units of two bytes; an odd byte at the end is truncated data. -/
def units16 (bigEndian : Bool) : Bytes → Option (List Nat)
  | [] => some []
  | [_] => none
  | a :: b :: bs =>
      (units16 bigEndian bs).map fun units =>
        (if bigEndian then a.toNat * 256 + b.toNat else b.toNat * 256 + a.toNat) :: units

def isHighSurrogate (n : Nat) : Bool := 0xd800 ≤ n ∧ n < 0xdc00

def isLowSurrogate (n : Nat) : Bool := 0xdc00 ≤ n ∧ n < 0xe000

def joinSurrogates (high low : Nat) : CodePoint :=
  Fin.ofNat 0x110000 (0x10000 + (high - 0xd800) * 0x400 + (low - 0xdc00))

/-- Pairs are joined, `surrogatepass` lets the others through. -/
def joinPairs : List Nat → PyStr
  | [] => []
  | [u] => [Fin.ofNat 0x110000 u]
  | u :: v :: units =>
      if isHighSurrogate u && isLowSurrogate v then joinSurrogates u v :: joinPairs units
      else Fin.ofNat 0x110000 u :: joinPairs (v :: units)

def decodeUtf16 (bigEndian : Bool) (b : Bytes) : Option PyStr :=
  (units16 bigEndian b).map joinPairs

/-- UTF-32: surrogates pass, truncated data and larger numbers do not. -/
def decodeUtf32 (bigEndian : Bool) : Bytes → Option PyStr
  | [] => some []
  | a :: b :: c :: d :: bs =>
      let n := if bigEndian then
          ((a.toNat * 256 + b.toNat) * 256 + c.toNat) * 256 + d.toNat
        else ((d.toNat * 256 + c.toNat) * 256 + b.toNat) * 256 + a.toNat
      (codePoint? n).bind fun ch => (decodeUtf32 bigEndian bs).map (ch :: ·)
  | _ => none

/-- `b.decode(encoding, 'surrogatepass')`; the encodings that are named without an
order of bytes take it from the mark that led to them, and drop the mark. -/
def decodeBytes (encoding : Encoding) (b : Bytes) : Option PyStr :=
  match encoding with
  | .utf8 => decodeUtf8 b
  | .utf8Sig => decodeUtf8 (b.drop 3)
  | .utf16 => decodeUtf16 ([0xfe, 0xff].isPrefixOf b) (b.drop 2)
  | .utf16be => decodeUtf16 true b
  | .utf16le => decodeUtf16 false b
  | .utf32 => decodeUtf32 ([0x00, 0x00, 0xfe, 0xff].isPrefixOf b) (b.drop 4)
  | .utf32be => decodeUtf32 true b
  | .utf32le => decodeUtf32 false b

example : decodeBytes (detectEncoding [0x5b, 0xc3, 0xa9, 0x5d]) [0x5b, 0xc3, 0xa9, 0x5d]
    = some (PyStr.ofString "[é]") := by decide

end RealtimeNotify.Python
