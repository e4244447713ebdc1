import TagCall.Text.Numeral
import TagCall.Timestamp

/-!
Words that are times: a date with four, two and two digits, or a date with a time of day behind the
letter T or blanks. The time of day may have a fraction of a second, and an offset or the letter Z.
-/

namespace TagCall.Yaml

/-- The number of the digits in front, of which there must be at least `least`; no more than `most`
are taken. -/
def digits? (least most : Nat) (cs : List Char) : Option (Nat × List Char) :=
  let ds := (cs.take most).takeWhile Char.isDigit
  if least ≤ ds.length then
    some (Text.ofDigits (ds.filterMap Text.digit?), cs.drop ds.length)
  else none

/-- What follows a character that must stand in front. -/
def after? (mark : Char) : List Char → Option (List Char)
  | c :: rest => if c = mark then some rest else none
  | [] => none

private def dropBlanks (cs : List Char) : List Char :=
  cs.dropWhile fun c => c = ' ' || c = '\t'

/-- What follows the letter T or the blanks between a date and a time of day. -/
def afterDate? (cs : List Char) : Option (List Char) :=
  match cs with
  | 'T' :: rest | 't' :: rest => some rest
  | _ =>
    let rest := dropBlanks cs
    if rest.length < cs.length then some rest else none

/-- The microseconds of a fraction of a second, the digits after the sixth left out, and what
follows. -/
def microseconds : List Char → Nat × List Char
  | '.' :: rest =>
    let ds := (rest.takeWhile Char.isDigit).take 6
    let six := ds ++ List.replicate (6 - ds.length) '0'
    (Text.ofDigits (six.filterMap Text.digit?), rest.dropWhile Char.isDigit)
  | cs => (0, cs)

/-- The minutes of the offset at the end of a word, if it has one. -/
def offset? (cs : List Char) : Option (Option Int) := do
  if cs.isEmpty then return none
  let signed (sign : Int) (cs : List Char) : Option (Option Int) := do
    let (hours, cs) ← digits? 1 2 cs
    if cs.isEmpty then return some (sign * (hours * 60))
    let (minutes, cs) ← digits? 2 2 (← after? ':' cs)
    if cs.isEmpty then return some (sign * (hours * 60 + minutes)) else none
  match dropBlanks cs with
  | ['Z'] => return some 0
  | '+' :: rest => signed 1 rest
  | '-' :: rest => signed (-1) rest
  | _ => none

/-- The moment of the given numbers, if there is one. -/
def momentOf? (date : Option Date) (clock : Option Clock) (offset : Option Int) :
    Option Timestamp := do
  let date ← date
  let clock ← clock
  match offset with
  | none => return .moment ⟨date, clock, none⟩
  | some minutes => return .moment ⟨date, clock, some (← Offset.ofMinutes? minutes)⟩

/-- A word of the form of a time, and the time if there is one. -/
def timestamp? (word : List Char) : Option (Option Timestamp) := do
  let (year, cs) ← digits? 4 4 word
  let (month, cs) ← digits? 1 2 (← after? '-' cs)
  let (day, cs) ← digits? 1 2 (← after? '-' cs)
  let date := Date.ofNumbers? year month day
  if cs.isEmpty then
    if word.length = 10 then return date.map Timestamp.date else none
  else
    let (hour, cs) ← digits? 1 2 (← afterDate? cs)
    let (minute, cs) ← digits? 2 2 (← after? ':' cs)
    let (second, cs) ← digits? 2 2 (← after? ':' cs)
    let (microsecond, cs) := microseconds cs
    let offset ← offset? cs
    return momentOf? date (Clock.ofNumbers? hour minute second microsecond) offset

end TagCall.Yaml
