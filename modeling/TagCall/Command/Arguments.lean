import TagCall.Text.Digit
import TagCall.Text.Quoted

/-!
Reading the arguments of a command: options, which may stand anywhere before a `--`, and operands.
Long options may be cut short as long as they stay the only one, short ones may share a hyphen, and
a value follows its option or an equals sign.
-/

namespace TagCall.Arguments

/-- What an option does. -/
inductive Effect where
  | help
  | version
  | mark
  | value
  deriving DecidableEq, Repr

structure Flag where
  names : List String
  effect : Effect
  deriving DecidableEq, Repr

def Flag.label (f : Flag) : String :=
  "/".intercalate f.names

/-- What the operands of a command are. -/
inductive Operands where
  | none
  | one (name : String)
  | many (name : String)
  /-- The first operand and everything behind it. -/
  | tail
  deriving DecidableEq, Repr

structure Grammar where
  flags : List Flag
  operands : Operands

/-- The names of all options, in order. -/
def Grammar.names (g : Grammar) : List (String × Flag) :=
  g.flags.flatMap fun f => f.names.map (·, f)

def Grammar.flag? (g : Grammar) (name : String) : Option Flag :=
  (g.names.find? (·.1 = name)).map (·.2)

/-- What is wrong with arguments. -/
inductive Problem where
  | ambiguous (given : String) (candidates : List String)
  | needsValue (flag : Flag)
  | ignoredValue (flag : Flag) (given : String)
  | missing (operand : String)
  | badChoice (name given : String) (choices : List String)
  | unrecognized (given : List String)

def Problem.message : Problem → String
  | ambiguous given candidates =>
    "ambiguous option: " ++ given ++ " could match " ++ ", ".intercalate candidates
  | needsValue flag => "argument " ++ flag.label ++ ": expected one argument"
  | ignoredValue flag given =>
    "argument " ++ flag.label ++ ": ignored explicit argument " ++ Text.quoted given
  | missing operand => "the following arguments are required: " ++ operand
  | badChoice name given choices =>
    "argument " ++ name ++ ": invalid choice: " ++ Text.quoted given ++ " (choose from " ++
      ", ".intercalate (choices.map Text.quoted) ++ ")"
  | unrecognized given => "unrecognized arguments: " ++ " ".intercalate given

/-- What one argument is. Text may be attached to an option, behind an equals sign or at once. -/
inductive Role where
  | operand
  | separator
  | option (flag : Flag) (name : String) (attached : Option (List Char))
  | unknown

/-- Cuts at the first equals sign. -/
def splitEquals (cs : List Char) : List Char × Option (List Char) :=
  match cs.dropWhile (· ≠ '=') with
  | _ :: after => (cs.takeWhile (· ≠ '='), some after)
  | [] => (cs, none)

/-- Whether an argument is a hyphen and a number, with or without a point. -/
def isNegative (cs : List Char) : Bool :=
  let isDigit (c : Char) : Bool := (Text.digit? c).isSome
  match cs with
  | '-' :: body =>
    let body := if body.getLast? = some '\n' then body.dropLast else body
    let whole := body.takeWhile isDigit
    match body.drop whole.length with
    | [] => !whole.isEmpty
    | '.' :: fraction => !fraction.isEmpty && fraction.all isDigit
    | _ => false
  | _ => false

/-- The options that an argument with a hyphen in front may mean. -/
def candidates (g : Grammar) (cs : List Char) : List (Flag × String × Option (List Char)) :=
  match cs with
  | '-' :: '-' :: _ =>
    let (front, after) := splitEquals cs
    g.names.filterMap fun (name, flag) =>
      if front.isPrefixOf name.toList then some (flag, name, after) else none
  | _ =>
    g.names.filterMap fun (name, flag) =>
      if name.toList = cs.take 2 then some (flag, name, some (cs.drop 2))
      else if cs.isPrefixOf name.toList then some (flag, name, none)
      else none

/-- The role of an argument before a `--`. -/
def roleOf (g : Grammar) (arg : String) : Except Problem Role :=
  let cs := arg.toList
  let split := splitEquals cs
  if cs.head? ≠ some '-' then .ok .operand
  else
    match g.flag? arg, split.2.bind fun _ => g.flag? (String.ofList split.1) with
    | some flag, _ => .ok (.option flag arg none)
    | none, some flag =>
      if cs.length = 1 then .ok .operand
      else .ok (.option flag (String.ofList split.1) split.2)
    | none, none =>
      if cs.length = 1 then .ok .operand
      else
        match candidates g cs with
        | [(flag, name, attached)] => .ok (.option flag name attached)
        | [] => .ok (if isNegative cs || cs.contains ' ' then .operand else .unknown)
        | several => .error (.ambiguous arg (several.map (·.2.1)))

/-- The roles of arguments; behind a `--` all are operands. -/
def roles (g : Grammar) : List String → Except Problem (List (String × Role))
  | [] => .ok []
  | arg :: rest =>
    if arg = "--" then .ok ((arg, .separator) :: rest.map (·, .operand))
    else do
      let role ← roleOf g arg
      return (arg, role) :: (← roles g rest)

/-- An option that was given, with its value if it takes one. -/
structure Given where
  flag : Flag
  value : Option String := none

/-- What the options in one argument come to, and the arguments after them. -/
structure Taken where
  given : List Given
  rest : List (String × Role)

/-- The value that text attached to an option stands for. A `--` stands for no value. -/
def attachedValue (text : List Char) : Option String :=
  if text = ['-', '-'] then none else some (String.ofList text)

/-- The options in one argument: one, or short ones behind a hyphen that they share. -/
def takeOption (g : Grammar) (flag : Flag) (name : String) (attached : Option (List Char))
    (rest : List (String × Role)) : Except Problem Taken :=
  match attached with
  | none =>
    if flag.effect = .value then
      match rest with
      | (value, .operand) :: rest => .ok ⟨[⟨flag, some value⟩], rest⟩
      | _ => .error (.needsValue flag)
    else .ok ⟨[⟨flag, none⟩], rest⟩
  | some text =>
    if flag.effect = .value then .ok ⟨[⟨flag, attachedValue text⟩], rest⟩
    else
      match text with
      | [] => .error (.ignoredValue flag "")
      | c :: more =>
        if (name.toList.drop 1).head? = some '-' then
          .error (.ignoredValue flag (String.ofList text))
        else
          let next := String.ofList ['-', c]
          match g.flag? next with
          | none => .error (.ignoredValue flag (String.ofList text))
          | some flag' =>
            (takeOption g flag' next (if more.isEmpty then none else some more) rest).map
              fun taken => { taken with given := ⟨flag, none⟩ :: taken.given }
termination_by (attached.map fun text => text.length + 1).getD 0
decreasing_by
  simp_all
  split <;> simp

/-- What all arguments come to. -/
structure Result where
  given : List Given := []
  operands : Option (List String) := none
  extras : List String := []

/-- Why reading stops before its end. -/
inductive Stop where
  | help
  | version
  | problem (p : Problem)

/-- The first option that asks for a text instead of a run. -/
def asked (given : List Given) : Option Stop :=
  given.findSome? fun g =>
    match g.flag.effect with
    | .help => some .help
    | .version => some .version
    | _ => none

def isOption : Role → Bool
  | .option .. | .unknown => true
  | _ => false

def isOperand : Role → Bool
  | .operand => true
  | _ => false

/-- Drops the first `--` of the operands. -/
def dropSeparator (args : List String) : List String :=
  args.erase "--"

/-- The operands in front, if there are enough of them, and the rest. -/
def takeOperands (operands : Operands) (items : List (String × Role)) :
    Option (List String × List (String × Role)) :=
  let run := items.takeWhile fun item => !isOption item.2
  let marks := (run.takeWhile fun item => !isOperand item.2).length
  if run.length ≤ marks then none
  else
    match operands with
    | .none => none
    | .many _ => some (dropSeparator (run.map (·.1)), items.drop run.length)
    | .one _ =>
      let after := ((run.drop (marks + 1)).takeWhile fun item => !isOperand item.2).length
      let count := marks + 1 + after
      some (dropSeparator ((items.take count).map (·.1)), items.drop count)
    | .tail => some (items.map (·.1), [])

/-- Goes through arguments. Operands are taken in one place; those elsewhere are extras. -/
def walk (g : Grammar) : Nat → List (String × Role) → Result → Except Stop Result
  | 0, _, r => .ok r
  | _ + 1, [], r => .ok r
  | fuel + 1, (arg, role) :: rest, r =>
    match role with
    | .unknown => walk g fuel rest { r with extras := r.extras ++ [arg] }
    | .option flag name attached =>
      match takeOption g flag name attached rest with
      | .error p => .error (.problem p)
      | .ok taken =>
        match asked taken.given with
        | some stop => .error stop
        | none =>
          walk g fuel taken.rest
            { r with given := r.given ++ taken.given }
    | .operand | .separator =>
      let items := (arg, role) :: rest
      let found := if r.operands.isNone then takeOperands g.operands items else none
      match found with
      | some (values, rest) => walk g fuel rest { r with operands := some values }
      | none =>
        let run := items.takeWhile fun item => !isOption item.2
        walk g fuel (items.drop run.length) { r with extras := r.extras ++ run.map (·.1) }

/-- Reads the arguments of a command. Operands that must be there are missed only at the end. -/
def read (g : Grammar) (args : List String) : Except Stop Result := do
  let items ← (roles g args).mapError Stop.problem
  let r ← walk g (args.length + 1) items {}
  match g.operands, r.operands with
  | .one name, none | .many name, none => throw (.problem (.missing name))
  | _, _ => return r

namespace Result

/-- The last use of an option. -/
def last? (r : Result) (name : String) : Option Given :=
  r.given.reverse.find? fun g => g.flag.names.contains name

def has (r : Result) (name : String) : Bool :=
  (r.last? name).isSome

/-- The value that an option was given last. -/
def value? (r : Result) (name : String) : Option String :=
  (r.last? name).bind (·.value)

end Result

end TagCall.Arguments
