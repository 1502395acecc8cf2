import AffectedTests.Text.Basic
/-!
# UTF-8

Encoding and decoding. A surrogate has no encoding; a sequence that is too long for its code point, that
denotes a surrogate or that leaves the code space encodes nothing. Bytes that encode nothing are stray
bytes: `Utf8.decode` refuses them, and `Utf8.pieces` tells them apart from what can be read.
-/

namespace AffectedTests

/-- A sequence of bytes. -/
abbrev Bytes := List UInt8

namespace Bytes

/-- Whether a sequence occurs in another one without gaps. -/
def occursIn (needle : Bytes) : Bytes → Bool
  | [] => needle.isEmpty
  | b :: rest => needle.isPrefixOf (b :: rest) || occursIn needle rest

/-- One code point per byte. -/
def toTextBytewise (b : Bytes) : Text :=
  b.map fun x => CodePoint.ofNat x.toNat

end Bytes

namespace Utf8

/-! ## Encoding -/

/-- The bytes of one code point, none for a surrogate. -/
def encodePoint (c : CodePoint) : Option Bytes :=
  let n := c.val
  if n < 0x80 then some [n.toUInt8]
  else if n < 0x800 then some [(0xC0 + n / 0x40).toUInt8, (0x80 + n % 0x40).toUInt8]
  else if c.isSurrogate then none
  else if n < 0x10000 then
    some [(0xE0 + n / 0x1000).toUInt8, (0x80 + n / 0x40 % 0x40).toUInt8, (0x80 + n % 0x40).toUInt8]
  else
    some [(0xF0 + n / 0x40000).toUInt8, (0x80 + n / 0x1000 % 0x40).toUInt8,
      (0x80 + n / 0x40 % 0x40).toUInt8, (0x80 + n % 0x40).toUInt8]

/-- The encoding of a text, none when it holds a surrogate. -/
def encode (t : Text) : Option Bytes :=
  (t.mapM encodePoint).map List.flatten

/-! ## Decoding -/

/-- The six low bits of a continuation byte. -/
def continuation? (b : UInt8) : Option Nat :=
  if 0x80 ≤ b ∧ b ≤ 0xBF then some (b.toNat - 0x80) else none

/-- A code point that takes at least `least` to write, and is no surrogate. -/
def scalar? (least n : Nat) : Option CodePoint :=
  if h : n < 0x110000 then
    if least ≤ n ∧ CodePoint.isSurrogate ⟨n, h⟩ = false then some ⟨n, h⟩ else none
  else none

/-- The code point of a lead byte and its continuation bytes. -/
def pair? (a b : UInt8) : Option CodePoint := do
  if 0xC0 ≤ a ∧ a ≤ 0xDF then
    scalar? 0x80 ((a.toNat - 0xC0) * 0x40 + (← continuation? b))
  else none

def triple? (a b c : UInt8) : Option CodePoint := do
  if 0xE0 ≤ a ∧ a ≤ 0xEF then
    scalar? 0x800 ((a.toNat - 0xE0) * 0x1000 + (← continuation? b) * 0x40 + (← continuation? c))
  else none

def quadruple? (a b c d : UInt8) : Option CodePoint := do
  if 0xF0 ≤ a ∧ a ≤ 0xF7 then
    scalar? 0x10000 ((a.toNat - 0xF0) * 0x40000 + (← continuation? b) * 0x1000 +
      (← continuation? c) * 0x40 + (← continuation? d))
  else none

/-- The code point at the front of a byte sequence, and how many bytes it takes. -/
def leading? : Bytes → Option (CodePoint × Nat)
  | [] => none
  | a :: rest =>
    if a < 0x80 then some (CodePoint.ofNat a.toNat, 1)
    else
      match rest with
      | [] => none
      | b :: rest =>
        match pair? a b, rest with
        | some p, _ => some (p, 2)
        | none, [] => none
        | none, c :: rest =>
          match triple? a b c, rest with
          | some p, _ => some (p, 3)
          | none, [] => none
          | none, d :: _ => (quadruple? a b c d).map fun p => (p, 4)

/-- A part of a byte sequence: a code point, or a byte that belongs to none. -/
inductive Piece
  | point (c : CodePoint)
  | stray (b : UInt8)

namespace Piece

def point? : Piece → Option CodePoint
  | .point c => some c
  | .stray _ => none

end Piece

/-- The pieces of a byte sequence; the first `skip` bytes are left out. -/
def piecesAfter : (skip : Nat) → Bytes → List Piece
  | _, [] => []
  | skip + 1, _ :: rest => piecesAfter skip rest
  | 0, b :: rest =>
    match leading? (b :: rest) with
    | some (c, width) => .point c :: piecesAfter (width - 1) rest
    | none => .stray b :: piecesAfter 0 rest

/-- The pieces of a byte sequence. -/
def pieces (bytes : Bytes) : List Piece :=
  piecesAfter 0 bytes

/-- The text that a byte sequence encodes, none when it is not well formed. -/
def decode (bytes : Bytes) : Option Text :=
  (pieces bytes).mapM Piece.point?

end Utf8

end AffectedTests
