import TagCall.Scalar

/-!
JSON values. An object keeps its fields in order, and looks a field up by its last value.
-/

namespace TagCall

inductive Json where
  | scalar (s : Scalar)
  | array (items : List Json)
  | object (fields : List (String × Json))
  deriving Repr

namespace Json

@[match_pattern] abbrev null : Json := .scalar .null

@[match_pattern] abbrev bool (b : Bool) : Json := .scalar (.bool b)

@[match_pattern] abbrev int (n : Int) : Json := .scalar (.int n)

@[match_pattern] abbrev text (s : String) : Json := .scalar (.text s)

/-- Sets a field: in place if the key is there, else at the end. -/
def setField (key : String) (value : Json) : List (String × Json) → List (String × Json)
  | [] => [(key, value)]
  | (k, v) :: rest => if k = key then (k, value) :: rest else (k, v) :: setField key value rest

/-- The value of a field. -/
def field? (key : String) (fields : List (String × Json)) : Option Json :=
  (fields.find? (·.1 = key)).map (·.2)

mutual

/-- Whether two values are the same: numbers by value, and objects whatever the order of their
fields. -/
def same : Json → Json → Bool
  | scalar a, scalar b => a.same b
  | array as, array bs => allSame as bs
  | object fs, object gs => fs.length = gs.length && fieldsSame gs fs
  | _, _ => false

def allSame : List Json → List Json → Bool
  | [], [] => true
  | a :: as, b :: bs => a.same b && allSame as bs
  | _, _ => false

/-- Whether the fields given last are found among the others with the same values. -/
def fieldsSame (gs : List (String × Json)) : List (String × Json) → Bool
  | [] => true
  | (k, a) :: fs =>
    match field? k gs with
    | some b => a.same b && fieldsSame gs fs
    | none => false

end

/-- Whether two values are equal. Their parts need only be the same. -/
def equal : Json → Json → Bool
  | scalar a, scalar b => a.equal b
  | a, b => a.same b

end Json

end TagCall
