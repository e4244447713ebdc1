import TagCall.Text.Bytes

/-!
Files of UTF-8 that are read piece by piece. Bytes are read in pieces, and the characters they are
for are handed on in pieces of their own. Bytes that are no UTF-8 are noticed with the piece they
are in, so whoever stops early does not meet those far behind.
-/

namespace TagCall.Text

/-- The characters at the start of bytes, and the bytes from where on they are for none. -/
def decodeStart : List UInt8 → List Char × List UInt8
  | [] => ([], [])
  | b :: rest =>
    match (ByteArray.mk (b :: rest.take 3).toArray).utf8DecodeChar? 0 with
    | some c =>
      let (cs, left) := decodeStart (rest.drop (c.utf8Size - 1))
      (c :: cs, left)
    | none => ([], b :: rest)
  termination_by bytes => bytes.length
  decreasing_by simp only [List.length_drop, List.length_cons]; omega

/-- Whether bytes are two of the three of a surrogate, which is no character. -/
def isHalfSurrogate : List UInt8 → Bool
  | [0xED, b] => 0xA0 ≤ b && b ≤ 0xBF
  | _ => false

/-- Whether bytes may be a character that is cut off. A surrogate is only noticed as a whole. -/
def isCutOff (bytes : List UInt8) : Bool :=
  isHalfSurrogate bytes || [0x80, 0xBF].any fun last => [1, 2, 3].any fun count =>
    ((ByteArray.mk (bytes ++ List.replicate count last).toArray).utf8DecodeChar? 0).isSome

/-- The characters of a file up to bytes that are no UTF-8, and whether there are no such bytes. A
byte order mark is kept. -/
def utf8Start (bytes : ByteArray) : List Char × Bool :=
  match String.fromUTF8? bytes with
  | some s => (unifyLines s.toList, true)
  | none => (unifyLines (decodeStart bytes.data.toList).1, false)

/-- How many characters are handed on at a time. -/
def charPiece : Nat := 4096

/-- How many bytes are read at a time, at least. -/
def bytePiece : Nat := 8192

/-- How far a file is read. -/
structure Progress where
  /-- The characters so far. -/
  chars : List Char := []
  /-- The bytes that have been read but are for no character yet. -/
  held : List UInt8 := []
  /-- The bytes that have not been read. -/
  rest : List UInt8
  /-- How many bytes the last piece had, and for how many characters. -/
  last : Nat × Nat := (0, 0)

namespace Progress

/-- The size of the next piece: what the characters still missing would take if they were like those
of the last piece. -/
def size (p : Progress) : Nat :=
  max bytePiece (p.last.1 * (charPiece - p.chars.length % charPiece) / p.last.2)

/-- Reads a piece. A carriage return at its end waits for what follows. Fails if the bytes are no
UTF-8. -/
def next? (p : Progress) : Option Progress :=
  let (piece, rest) := p.rest.splitAt p.size
  let (cs, left) := decodeStart (p.held ++ piece)
  if piece.isEmpty then
    if left.isEmpty then some { chars := p.chars ++ unifyLines cs, rest } else none
  else if left.isEmpty || isCutOff left then
    let waits := cs.getLast? = some '\r'
    let cs := unifyLines (if waits then cs.dropLast else cs)
    let held := if waits then 0x0D :: left else left
    some { chars := p.chars ++ cs, held, rest, last := (piece.length, cs.length) }
  else none

/-- Reads pieces until there are so many characters, or the file ends. -/
def upTo? (count : Nat) : Nat → Progress → Option Progress
  | 0, p => some p
  | fuel + 1, p =>
    if count ≤ p.chars.length || (p.held.isEmpty && p.rest.isEmpty) then some p
    else p.next? >>= upTo? count fuel

end Progress

/-- The characters that have been handed on when so many of a file have been looked at. Two pieces
are handed on at the start. Fails if bytes that are no UTF-8 have been met. -/
def seen? (bytes : ByteArray) (count : Nat) : Option (List Char) :=
  let count := charPiece * max 2 ((count + charPiece - 1) / charPiece)
  let start : Progress := { rest := bytes.data.toList }
  (start.upTo? count (bytes.size + 2)).map fun p => p.chars.take count

end TagCall.Text
