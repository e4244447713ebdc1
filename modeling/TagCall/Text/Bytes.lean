/-!
The text that the bytes of a file stand for. Bytes that are not UTF-8 stand for one character each,
so every file has a text. A byte order mark is not part of it, and every line ends in a newline.
-/

namespace TagCall.Text

/-- Line ends as newlines: a carriage return with a newline after it, or alone, is one. -/
def unifyLines : List Char → List Char
  | [] => []
  | '\r' :: '\n' :: rest => '\n' :: unifyLines rest
  | '\r' :: rest => '\n' :: unifyLines rest
  | c :: rest => c :: unifyLines rest

def byteOrderMark : Char := '\ufeff'

/-- Drops one byte order mark in front. -/
def dropMark : List Char → List Char
  | [] => []
  | c :: rest => if c = byteOrderMark then rest else c :: rest

/-- Each byte as the character of that number. -/
def ofSingleBytes (bytes : ByteArray) : List Char :=
  bytes.data.toList.map fun b => Char.ofNat b.toNat

/-- Whether a file is nothing but the start of a byte order mark. -/
def isCutMark (bytes : ByteArray) : Bool :=
  bytes.data = #[0xEF] || bytes.data = #[0xEF, 0xBB]

/-- The characters of a file, line ends as they are. A mark that is cut off says nothing. -/
def rawChars (bytes : ByteArray) : List Char :=
  if isCutMark bytes then []
  else
    match String.fromUTF8? bytes with
    | some s => dropMark s.toList
    | none => ofSingleBytes bytes

/-- The source text of a file. -/
def ofBytes (bytes : ByteArray) : String :=
  String.ofList (unifyLines (rawChars bytes))

theorem unifyLines_no_return (cs : List Char) : '\r' ∉ unifyLines cs := by
  fun_induction unifyLines cs with
  | case1 => simp
  | case2 rest ih | case3 rest _ ih => simp [ih]
  | case4 c rest _ _ ih => grind

end TagCall.Text
