import TagCall.Setting.Basic
import TagCall.Text.Digit
import TagCall.Yaml.Cursor

/-!
Quoted scalars. Inside single quotes two quotes stand for one; inside double quotes a backslash
starts an escape. Line ends are folded.
-/

namespace TagCall.Yaml

/-- The character that a short escape stands for. -/
def unescape? (c : Char) : Option Char :=
  match c with
  | '0' => some '\x00'
  | 'a' => some '\x07'
  | 'b' => some '\x08'
  | 't' | '\t' => some '\t'
  | 'n' => some '\n'
  | 'v' => some '\x0b'
  | 'f' => some '\x0c'
  | 'r' => some '\r'
  | 'e' => some '\x1b'
  | ' ' | '"' | '\\' | '/' => some c
  | 'N' => some '\x85'
  | '_' => some '\xa0'
  | 'L' => some '\u2028'
  | 'P' => some '\u2029'
  | _ => none

/-- How many hexadecimal digits follow the letter of an escape by number. -/
def escapeWidth? : Char → Option Nat
  | 'x' => some 2
  | 'u' => some 4
  | 'U' => some 8
  | _ => none

/-- The character whose number is written in hexadecimal digits. Numbers of more than 31 bits are
out of range. -/
def numbered (digits : List Char) : Except Setting.Failure Char :=
  match digits.mapM Text.hexDigit? with
  | none => .error .unreadable
  | some ds =>
    let n := ds.foldl (fun n d => 16 * n + d) 0
    if h : n.isValidChar then .ok (Char.ofNatAux n h)
    else if n < 0x80000000 then .error .unreadable
    else .error .outOfRange

/-- Why a text can not be read. -/
inductive Fault where
  | unreadable
  /-- A number is out of range, which shows at the place behind it. -/
  | outOfRange (next : Cursor)

/-- The fault of a number that has been read up to a place. -/
def Fault.ofFailure (next : Cursor) : Setting.Failure → Fault
  | .unreadable => unreadable
  | .outOfRange => outOfRange next

/-- A piece of a quoted scalar, or its end. -/
inductive QuotedPiece where
  | done (next : Cursor)
  | piece (chars : List Char) (next : Cursor)
  | bad (e : Fault)

/-- What a backslash inside double quotes stands for, seen from behind the backslash. -/
def escapePiece (c : Cursor) : QuotedPiece :=
  match c.rest with
  | [] => .bad .unreadable
  | e :: rest =>
    match unescape? e, escapeWidth? e with
    | some r, _ => .piece [r] (c.move 1)
    | none, some width =>
      if rest.length < width then .bad .unreadable
      else
        let next := c.move (width + 1)
        match numbered (rest.take width) with
        | .ok r => .piece [r] next
        | .error e => .bad (.ofFailure next e)
    | none, none =>
      if isBreak e then
        match emptyTabbedLines (c.line + 1) 0 rest with
        | some (empty, next) => .piece empty next
        | none => .bad .unreadable
      else .bad .unreadable

/-- What a run of spaces and tabs stands for, with the line end that may follow it. -/
def spacePiece (c : Cursor) : QuotedPiece :=
  let spaces := c.rest.takeWhile fun c => c = ' ' || c = '\t'
  let c := c.move spaces.length
  match c.rest with
  | [] => .bad .unreadable
  | b :: rest =>
    if isBreak b then
      match emptyTabbedLines (c.line + 1) 0 rest with
      | some (empty, next) => .piece (folded b empty) next
      | none => .bad .unreadable
    else .piece spaces c

def quotedPiece (double : Bool) (c : Cursor) : QuotedPiece :=
  match c.rest with
  | [] => .bad .unreadable
  | q :: rest =>
    if isGap q then spacePiece c
    else if double then
      if q = '"' then .done (c.move 1)
      else if q = '\\' then escapePiece (c.move 1)
      else .piece [q] (c.move 1)
    else if q = '\'' then
      if rest.head? = some '\'' then .piece ['\''] (c.move 2) else .done (c.move 1)
    else .piece [q] (c.move 1)

/-- A quoted scalar after its opening quote. -/
def quotedFrom (double : Bool) : Nat → Cursor → Except Fault (List Char × Cursor)
  | 0, _ => .error .unreadable
  | fuel + 1, c =>
    match quotedPiece double c with
    | .done next => .ok ([], next)
    | .piece chars next =>
      (quotedFrom double fuel next).map fun (more, c) => (chars ++ more, c)
    | .bad e => .error e

def quoted (double : Bool) (c : Cursor) : Except Fault (List Char × Cursor) :=
  quotedFrom double (c.rest.length + 1) c

end TagCall.Yaml
