/-!
# Bytes read as UTF-8

A file is bytes. Two readings are needed: a strict step that reads one scalar value and says how
many bytes it took, and a forgiving text reading in which every longest ill-formed piece becomes
one replacement character. Well-formed bytes go through the core library's own decoder, so the text
written is the text read (`decode_toUTF8`).
-/

namespace PatchReview.Text.Utf8

/-- What stands at a byte position: a scalar value with the number of its bytes, or the number of
    bytes of the longest piece that no scalar value can start with. -/
inductive Piece where
  | scalar (code : Nat) (size : Nat)
  | illFormed (size : Nat)
deriving Repr, DecidableEq

/-- The value of a continuation byte that lies in the given range. -/
def continuation (bytes : ByteArray) (start low high : Nat) : Option Nat :=
  match bytes[start]? with
  | some b => if low ≤ b.toNat ∧ b.toNat ≤ high then some (b.toNat - 0x80) else none
  | none => none

/-- A sequence of three bytes whose second byte is confined to a range. -/
def threeBytes (bytes : ByteArray) (start lead low high : Nat) : Piece :=
  match continuation bytes (start + 1) low high with
  | none => .illFormed 1
  | some x =>
    match continuation bytes (start + 2) 0x80 0xBF with
    | none => .illFormed 2
    | some y => .scalar ((lead - 0xE0) * 4096 + x * 64 + y) 3

/-- A sequence of four bytes whose second byte is confined to a range. -/
def fourBytes (bytes : ByteArray) (start lead low high : Nat) : Piece :=
  match continuation bytes (start + 1) low high with
  | none => .illFormed 1
  | some x =>
    match continuation bytes (start + 2) 0x80 0xBF with
    | none => .illFormed 2
    | some y =>
      match continuation bytes (start + 3) 0x80 0xBF with
      | none => .illFormed 3
      | some z => .scalar ((lead - 0xF0) * 262144 + x * 4096 + y * 64 + z) 4

/-- The piece that starts at a byte position. Overlong forms, surrogates and values beyond
    `0x10FFFF` are ill-formed from their first byte on. -/
def piece (bytes : ByteArray) (start : Nat) : Piece :=
  match bytes[start]? with
  | none => .illFormed 1
  | some b =>
    let lead := b.toNat
    if lead < 0x80 then .scalar lead 1
    else if lead < 0xC2 then .illFormed 1
    else if lead < 0xE0 then
      match continuation bytes (start + 1) 0x80 0xBF with
      | none => .illFormed 1
      | some x => .scalar ((lead - 0xC0) * 64 + x) 2
    else if lead = 0xE0 then threeBytes bytes start lead 0xA0 0xBF
    else if lead = 0xED then threeBytes bytes start lead 0x80 0x9F
    else if lead < 0xF0 then threeBytes bytes start lead 0x80 0xBF
    else if lead = 0xF0 then fourBytes bytes start lead 0x90 0xBF
    else if lead < 0xF4 then fourBytes bytes start lead 0x80 0xBF
    else if lead = 0xF4 then fourBytes bytes start lead 0x80 0x8F
    else .illFormed 1

/-- The number of bytes of a piece. -/
def Piece.size : Piece → Nat
  | .scalar _ n => n
  | .illFormed n => n

/-- The characters from a byte position on; `fuel` bounds the number of pieces. -/
def charsFrom (bytes : ByteArray) : (fuel start : Nat) → List Char
  | 0, _ => []
  | fuel + 1, start =>
    if bytes.size ≤ start then []
    else
      match piece bytes start with
      | .scalar code n => Char.ofNat code :: charsFrom bytes fuel (start + n)
      | .illFormed n => '\uFFFD' :: charsFrom bytes fuel (start + n)

/-- The text of a byte sequence, one replacement character for each ill-formed piece. -/
def decode (bytes : ByteArray) : String :=
  match String.fromUTF8? bytes with
  | some text => text
  | none => String.ofList (charsFrom bytes bytes.size 0)

/-- The bytes of a text are read back as that text. -/
theorem decode_toUTF8 (text : String) : decode text.toUTF8 = text := by
  have valid : text.toByteArray.IsValidUTF8 := text.isValidUTF8
  simp [decode, String.fromUTF8?, String.toUTF8, String.fromUTF8, valid]

end PatchReview.Text.Utf8
