import PackagePool.Text.Alphanumeric
import PackagePool.Text.Cut
import PackagePool.Fingerprint

/-!
# Origin labels

A label names the repository that a unit was loaded from.  It is written
`repository@namespace:tag`, where each part is a non-empty run of alphanumeric characters, dots,
hyphens and underscores.  Labels that were put together from parts are not checked: to the pool a
label is only a tag that can be compared.
-/

namespace PackagePool

open Text

/-- The origin of a unit. -/
structure Label where
  repository : String
  namespace_ : String
  tag : String
  deriving DecidableEq, Repr, Hashable

/-- Why a text is no label.  The first three carry the whole text, the last one the part. -/
inductive LabelError
  | missingAt (text : String)
  | missingColon (text : String)
  | emptyComponent (text : String)
  | invalidComponent (part : String)
  deriving DecidableEq, Repr

/-- The message shown to the user. -/
def LabelError.message : LabelError → String
  | .missingAt text => s!"Missing '@' in label: {text}"
  | .missingColon text => s!"Missing ':' in label: {text}"
  | .emptyComponent text => s!"Empty component in label: {text}"
  | .invalidComponent part => s!"Invalid characters in label component: {part}"

/-- The message of a label error where it is reported as a parse error. -/
def LabelError.parseMessage (e : LabelError) : String :=
  "Parse error: " ++ e.message

namespace Label

/-- The label of units that describe the installed system. -/
def system : Label :=
  ⟨"local", "system", "installed"⟩

/-- Whether this is the label of the installed system. -/
def isSystem (l : Label) : Bool :=
  l == system

/-- The characters that may stand in a part. -/
def isPartChar (c : Char) : Bool :=
  isAlphanumeric c || c == '.' || c == '-' || c == '_'

/-- Reads a label, cutting at the first at-sign and at the first colon behind it. -/
def parse (s : String) : Except LabelError Label :=
  match cutFirst '@' s.toList with
  | none => .error (.missingAt s)
  | some (repository, rest) =>
    match cutFirst ':' rest with
    | none => .error (.missingColon s)
    | some (space, tag) =>
      if repository.isEmpty || space.isEmpty || tag.isEmpty then .error (.emptyComponent s)
      else
        match [repository, space, tag].find? fun part => !part.all isPartChar with
        | some part => .error (.invalidComponent (String.ofList part))
        | none => .ok ⟨String.ofList repository, String.ofList space, String.ofList tag⟩

/-- The written form. -/
def render (l : Label) : String :=
  l.repository ++ "@" ++ l.namespace_ ++ ":" ++ l.tag

instance : ToString Label := ⟨render⟩

/-- Labels compare by repository, then namespace, then tag. -/
def compare (a b : Label) : Ordering :=
  ((Ord.compare a.repository b.repository).then (Ord.compare a.namespace_ b.namespace_)).then
    (Ord.compare a.tag b.tag)

instance : Ord Label := ⟨compare⟩

/-- The three parts in order. -/
def fingerprint (l : Label) : Fingerprint :=
  [.text l.repository, .text l.namespace_, .text l.tag]

end Label

end PackagePool
