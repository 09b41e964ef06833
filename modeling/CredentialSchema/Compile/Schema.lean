import CredentialSchema.Compile.Warning
import CredentialSchema.Project.Metadata
import CredentialSchema.Text.Blank
import CredentialSchema.Tree.Basic

/-!
The schema pass: a tree as a nested JSON Schema. Every object level has the schemas of its
members, the names it requires and the project's answer to undeclared attributes. Of several
siblings with one name the first gives the schema; the name is required if any of them is.
-/
namespace CredentialSchema.SchemaPass

open Json (Value)

/-- A whole number below 2^53 is written as an integer, any other as it is; what is no number
is left out. -/
def boundValue? (b : Bound) : Option Value :=
  b.number?.map fun x =>
    match x.toInt? with
    | some n => if n.natAbs < Nat.pow 2 53 then .number (.integer n) else .number (.float x)
    | none => .number (.float x)

/-- The step of a number with so many decimal places, the float nearest to a power of ten. A
step that is too small for a float is left out. -/
def stepValue? (places : UInt32) : Option Value :=
  if places.toNat < 400 then
    (Binary64.ofDecimal? false 1 (-places.toNat)).bind fun x =>
      if x.isPositive then boundValue? (.finite x) else none
  else none

def member (keyword : String) (value : Option Value) : List (String × Value) :=
  value.toList.map fun v => (keyword, v)

def constraintMembers (kind : Kind) (c : Constraints) : List (String × Value) :=
  let ofKind := match kind with
    | .string =>
      member "minLength" (c.minLength.map fun n => .ofNat n.toNat) ++
      member "maxLength" (c.maxLength.map fun n => .ofNat n.toNat) ++
      member "pattern" (c.pattern.map .string)
    | .integer =>
      member "minimum" (c.minimum.bind boundValue?) ++ member "maximum" (c.maximum.bind boundValue?)
    | .number =>
      member "minimum" (c.minimum.bind boundValue?) ++
      member "maximum" (c.maximum.bind boundValue?) ++
      member "multipleOf" (c.precision.bind stepValue?)
    | _ => []
  ofKind ++ member "format" (c.format.map .string) ++
    (if c.choices.isEmpty then [] else [("enum", .array c.choices)])

def heading (type : String) (title description : Option String) : List (String × Value) :=
  ("type", .string type) :: member "title" ((Text.present title).map .string) ++
    member "description" ((Text.present description).map .string)

/-- The names that an object level requires, each once, in order of first mention. -/
def requiredNames (children : List Property) : List String :=
  ((children.filter fun p => p.decl.required).map Property.name).eraseDups

def levelMembers (extra : Bool) (children : List Property) (properties : List (String × Value)) :
    List (String × Value) :=
  let required := requiredNames children
  ("properties", .object properties) ::
    (if required.isEmpty then [] else [("required", .array (required.map .string))]) ++
    [("additionalProperties", .bool extra)]

mutual
/-- The schema of one property, with the warnings in the order they arise. -/
def property (extra : Bool) (path : String) : Property → Value × List Warning
  | ⟨d, ms, e⟩ =>
    let head := heading d.kind.text d.displayName d.description
    match d.kind with
    | .object =>
      let (properties, warnings) := children extra path [] ms
      (.object (head ++ levelMembers extra ms properties), warnings)
    | .array =>
      let (items, warnings) := element extra path d e
      (.object (head ++ items), warnings)
    | kind =>
      (.object (head ++ (d.constraints.map (constraintMembers kind)).getD []), [])

/-- The schemas of an object level's children, after the names already taken. -/
def children (extra : Bool) (path : String) (taken : List String) :
    List Property → List (String × Value) × List Warning
  | [] => ([], [])
  | p :: ps =>
    let at_ := Warning.childPath path p.name
    let unnamed := if p.name.isEmpty then [⟨p.id, at_, .emptyName⟩] else []
    if taken.contains p.name then
      let (rest, warnings) := children extra path taken ps
      (rest, unnamed ++ ⟨p.id, at_, .duplicateName⟩ :: warnings)
    else
      let (schema, inner) := property extra at_ p
      let (rest, warnings) := children extra path (p.name :: taken) ps
      ((p.name, schema) :: rest, unnamed ++ inner ++ warnings)

def element (extra : Bool) (path : String) (array : Declaration) :
    Option Property → List (String × Value) × List Warning
  | none => ([], [⟨array.id, path, .missingElement⟩])
  | some p =>
    let (schema, warnings) := property extra (Warning.elementPath path) p
    ([("items", schema)], warnings)
end

def compile (t : Tree) (m : Metadata) : Compiled :=
  let (properties, warnings) := children m.additionalProperties "" [] t.roots
  ⟨.object (heading "object" (some m.title) m.description ++
    levelMembers m.additionalProperties t.roots properties), warnings⟩

end CredentialSchema.SchemaPass
