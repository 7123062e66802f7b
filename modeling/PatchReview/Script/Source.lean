import PatchReview.Text.Utf8

/-!
# The characters of a script

A grammar reads characters, but places in a script are counted in bytes. A `Source` therefore holds
the code point of every character together with the byte offset at which it starts. A byte that no
UTF-8 sequence can start with stands for itself as one character of a code that no text has.
-/

namespace PatchReview.Script

open PatchReview.Text

/-- Code of a byte that belongs to no scalar value. -/
def strayByte : Nat := 0x110000

/-- The characters of a script: their codes, and where each starts in the bytes. The last offset is
    the number of bytes. -/
structure Source where
  bytes   : ByteArray
  codes   : Array Nat
  offsets : Array Nat

namespace Source

/-- Reads the characters from a byte position on; `fuel` bounds their number. -/
def read (bytes : ByteArray) : (fuel start : Nat) → (codes offsets : Array Nat) → Source
  | 0, _, codes, offsets => ⟨bytes, codes, offsets.push bytes.size⟩
  | fuel + 1, start, codes, offsets =>
    if bytes.size ≤ start then ⟨bytes, codes, offsets.push bytes.size⟩
    else
      match Utf8.piece bytes start with
      | .scalar code n => read bytes fuel (start + n) (codes.push code) (offsets.push start)
      | .illFormed _ => read bytes fuel (start + 1) (codes.push strayByte) (offsets.push start)

/-- The characters of a byte sequence. -/
def ofBytes (bytes : ByteArray) : Source := read bytes bytes.size 0 #[] #[]

/-- How many characters there are. -/
def size (src : Source) : Nat := src.codes.size

/-- The code at a position, or none at the end. -/
def get? (src : Source) (i : Nat) : Option Nat := src.codes[i]?

/-- The code at a position, where the end reads as zero. -/
def code (src : Source) (i : Nat) : Nat := src.codes.getD i 0

/-- The byte offset of a position. -/
def offset (src : Source) (i : Nat) : Nat := src.offsets.getD i src.bytes.size

/-- Whether the given text stands at a position. -/
def startsWith (src : Source) (text : List Char) (i : Nat) : Bool :=
  match text with
  | [] => true
  | c :: rest => src.get? i == some c.toNat && src.startsWith rest (i + 1)

/-- The first position from `i` on at which the test fails. -/
def takeWhile (src : Source) (test : Nat → Bool) (i : Nat) : Nat :=
  if h : i < src.codes.size then
    if test src.codes[i] then src.takeWhile test (i + 1) else i
  else i
termination_by src.codes.size - i

/-- The text between two positions. -/
def text (src : Source) (start stop : Nat) : String :=
  Utf8.decode (src.bytes.extract (src.offset start) (src.offset stop))

/-- The line of a position and the byte at which it stands in that line, both counted from one. -/
def place (src : Source) (i : Nat) : Nat × Nat :=
  let start := src.offset i
  let step := fun (acc : Nat × Nat) (k : Nat) =>
    if src.bytes[k]? == some 0x0A then (acc.1 + 1, k + 1) else acc
  let (line, lineStart) := (List.range start).foldl step (1, 0)
  (line, start - lineStart + 1)

end Source

/-! ## Classes of characters -/

/-- Unicode white space. -/
def isSpaceCode (c : Nat) : Bool :=
  (9 ≤ c && c ≤ 13) || c == 0x20 || c == 0x85 || c == 0xA0 || c == 0x1680 ||
  (0x2000 ≤ c && c ≤ 0x200A) || c == 0x2028 || c == 0x2029 || c == 0x202F || c == 0x205F ||
  c == 0x3000

/-- Characters that may stand between two tokens: white space and the invisible joiners. -/
def isFiller (c : Nat) : Bool :=
  isSpaceCode c || c == 0xFEFF || c == 0x2060 || c == 0x200B

/-- Characters that end a line of a script. -/
def isLineEnd (c : Nat) : Bool := c == 0x0A || c == 0x2028 || c == 0x2029

/-- A decimal digit. -/
def isDigitCode (c : Nat) : Bool := 0x30 ≤ c && c ≤ 0x39

/-- A hexadecimal digit. -/
def isHexCode (c : Nat) : Bool :=
  isDigitCode c || (0x41 ≤ c && c ≤ 0x46) || (0x61 ≤ c && c ≤ 0x66)

/-- A letter of the Latin alphabet without marks. -/
def isLetterCode (c : Nat) : Bool := (0x41 ≤ c && c ≤ 0x5A) || (0x61 ≤ c && c ≤ 0x7A)

/-- Whether a code is one of the characters of a list. -/
def isOneOf (chars : List Char) (c : Nat) : Bool := chars.any (·.toNat == c)

/-- The marks that no name may hold. -/
def marks : List Char :=
  [':', ';', '\x60', '\x22', '\x27', '@', '#', '.', ',', '|', '^', '&', '<', '=', '>', '+', '-', '*',
   '/', '\\', '%', '?', '!', '~', '(', ')', '[', ']', '\x7b', '\x7d']

/-- A character that may stand in a name: anything but controls, white space, stray bytes and the
    marks. -/
def isNameCode (c : Nat) : Bool :=
  !(c < 0x20 || isFiller c || isOneOf marks c || c == strayByte)

end PatchReview.Script
