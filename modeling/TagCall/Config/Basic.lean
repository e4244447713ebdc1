import TagCall.Files.Path
import TagCall.Json.Basic
import TagCall.Tree.Html
import TagCall.Tree.Layout

/-!
Configurations. Settings are kept as they were given, and are judged only when an option is asked
for.
-/

namespace TagCall

structure Config where
  indent : Setting := .text "4"
  ignoreComments : Setting := .bool false
  voidTags : Setting := .sequence (defaultVoidTags.map Setting.text)
  htmlExtension : Setting := .text "html"
  layoutExtension : Setting := .text "formatted_jtml"
  /-- The file that the settings come from, if there is one. -/
  file : Option Files.Path := none

namespace Config

/-- Why a setting gives no set of tags, or no list of them. -/
inductive TagError where
  /-- The setting is nothing that can be gone through. -/
  | notCollection
  /-- A member of the setting has parts. -/
  | notScalar
  /-- The members have no common order. -/
  | unordered
  deriving DecidableEq, Repr

def TagError.message : TagError → String
  | notCollection => "the setting of tags is no collection"
  | notScalar => "a tag is no scalar"
  | unordered => "tags of several types have no order"

inductive Error where
  | indent (e : Indent.Error)
  | tags (e : TagError)
  | extension (e : Overlong)
  deriving DecidableEq, Repr

/-- Overrides one setting. Other keys have no meaning. -/
def set (c : Config) (key : String) (value : Setting) : Config :=
  match key with
  | "indent" => { c with indent := value }
  | "ignore_comments" => { c with ignoreComments := value }
  | "self_terminating_tags" => { c with voidTags := value }
  | "html_extension" => { c with htmlExtension := value }
  | "formatted_extension" => { c with layoutExtension := value }
  | _ => c

/-- Overrides the settings that a mapping has under text keys. -/
def overlay (c : Config) (entries : List (Scalar × Setting)) : Config :=
  entries.foldl
    (fun c (key, value) =>
      match key with
      | .text key => c.set key value
      | _ => c)
    c

def unit (c : Config) : Except Indent.Error Indent :=
  Indent.ofSetting c.indent

/-- The words that mean yes. -/
def yesWords : List (List Char) :=
  [['1'], ['t', 'r', 'u', 'e'], ['y', 'e', 's'], ['o', 'n']]

def isYes (s : String) : Bool :=
  yesWords.contains (Text.lower (Text.strip s.toList))

def ignoresComments (c : Config) : Bool :=
  match c.ignoreComments with
  | .text s => isYes s
  | v => v.isTruthy

/-- The members of a set, each once. -/
def distinct (vs : List Scalar) : List Scalar :=
  vs.foldl (fun seen v => if seen.any (·.same v) then seen else seen ++ [v]) []

/-- The values of a sequence, none of which may have parts. -/
def scalars : List Setting → Except TagError (List Scalar)
  | [] => .ok []
  | .scalar s :: rest => (scalars rest).map (s :: ·)
  | _ :: _ => .error .notScalar

/-- The set of tags that have no body. A text stands for its characters, a mapping for its keys, and
every setting that is empty or no for the empty set. -/
def tagSet (c : Config) : Except TagError (List Scalar) :=
  match c.voidTags with
  | .sequence items => (scalars items).map distinct
  | .mapping entries => .ok (distinct (entries.map (·.1)))
  | .text s => .ok (distinct (s.toList.map fun c => Scalar.text (String.singleton c)))
  | .scalar s => if s.isTruthy then .error .notCollection else .ok []

/-- Whether any two of the values have an order. -/
def comparable : List Scalar → Bool
  | [] => true
  | v :: rest => rest.all (fun w => (v.le? w).isSome) && comparable rest

def sortedTags (c : Config) : Except TagError (List Scalar) := do
  let tags ← c.tagSet
  if comparable tags then return tags.mergeSort fun v w => (v.le? w).getD true
  else throw .unordered

/-- The tags without a body that an element can have. -/
def tagNames (c : Config) : Except TagError (List String) :=
  c.tagSet.map fun tags => tags.filterMap fun
    | .text s => some s
    | _ => none

/-- A setting as the extension of a file name, without points in front. -/
def extensionOf (v : Setting) : Except Overlong String :=
  v.plain.map fun s => String.ofList (s.toList.dropWhile (· = '.'))

def htmlSuffix (c : Config) : Except Overlong String := extensionOf c.htmlExtension

def layoutSuffix (c : Config) : Except Overlong String := extensionOf c.layoutExtension

def htmlOptions (c : Config) : Except TagError Html.Options :=
  c.tagNames.map fun tags => ⟨c.ignoresComments, tags⟩

/-- The options of the canonical form. The indentation is judged first. -/
def layoutOptions (c : Config) : Except Error Layout.Options := do
  let unit ← c.unit.mapError Error.indent
  let tags ← c.tagNames.mapError Error.tags
  return ⟨unit, c.ignoresComments, tags⟩

/-- The options in force, and where they come from. -/
def toJson (c : Config) : Except Error Json := do
  let unit ← c.unit.mapError Error.indent
  let tags ← c.sortedTags.mapError Error.tags
  let htmlSuffix ← c.htmlSuffix.mapError Error.extension
  let layoutSuffix ← c.layoutSuffix.mapError Error.extension
  return .object [
    ("indent", .text unit.toText),
    ("ignore_comments", .bool c.ignoresComments),
    ("self_terminating_tags", .array (tags.map Json.scalar)),
    ("html_extension", .text htmlSuffix),
    ("formatted_extension", .text layoutSuffix),
    ("config_file", (c.file.map fun p => Json.text p.toText).getD .null)]

end Config

end TagCall
