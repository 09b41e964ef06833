import CredentialSchema.Document.Plain
import CredentialSchema.Yaml.Node

/-!
Reading YAML text: the document that the nodes of one document spell. Plain scalars keep their
text and are given a type by whoever asks for one. An alias stands for the node that bore its
name last; inside that node itself it has no value.
-/
namespace CredentialSchema.Yaml

/-- The nodes that bear names, the last first. -/
abbrev Anchors := List (String × Document)

/-- The document of a scalar. A tag of the format itself has the last word about the type; one of
any other kind has no value. -/
def scalarDocument (p : Properties) (how : Presentation) (s : String) : Document :=
  let resolved := Plain.resolve s
  let typed (isOfType : Document → Bool) : Document :=
    if isOfType resolved then .plain s else .unreadable
  match p.tag with
  | none => if how = .unquoted then .plain s else .text s
  | some "tag:yaml.org,2002:null" => typed fun d => match d with
    | .null => true
    | _ => false
  | some "tag:yaml.org,2002:bool" => typed fun d => match d with
    | .bool _ => true
    | _ => false
  | some "tag:yaml.org,2002:int" => typed fun d => match d with
    | .number (.integer _) => true
    | _ => false
  | some "tag:yaml.org,2002:float" => match Plain.bound? s with
    | some (.finite x) => .number (.float x)
    | some b => .special b
    | none => .unreadable
  | some t => if t.toList.head? = some '!' then .unreadable else .text s

/-- A collection with a tag of its own has no value. -/
def tagged (p : Properties) (d : Document) : Document :=
  if p.tag.any fun t => t.toList.head? = some '!' then .unreadable else d

mutual
/-- The document of a node with so many levels left, and the named nodes after it; none if an
alias has no node. -/
def Node.document? (anchors : Anchors) : Node → Option (Document × Anchors)
  | .alias name => (anchors.lookup name).map fun d => (d, anchors)
  | .scalar p how s =>
    let d := scalarDocument p how s
    some (d, (p.anchor.map fun a => (a, d)).toList ++ anchors)
  | .sequence p ns => do
    let (ds, inner) ← itemDocuments? ((p.anchor.map (·, .unreadable)).toList ++ anchors) ns
    let d := tagged p (.sequence ds)
    return (d, (p.anchor.map fun a => (a, d)).toList ++ inner)
  | .mapping p ms => do
    let (ds, inner) ← memberDocuments? ((p.anchor.map (·, .unreadable)).toList ++ anchors) ms
    let d := tagged p (.mapping ds)
    return (d, (p.anchor.map fun a => (a, d)).toList ++ inner)

def itemDocuments? (anchors : Anchors) : List Node → Option (List Document × Anchors)
  | [] => some ([], anchors)
  | n :: ns => do
    let (d, anchors) ← n.document? anchors
    let (ds, anchors) ← itemDocuments? anchors ns
    return (d :: ds, anchors)

def memberDocuments? (anchors : Anchors) :
    List (Node × Node) → Option (List (Document × Document) × Anchors)
  | [] => some ([], anchors)
  | (k, v) :: ms => do
    let (dk, anchors) ← k.document? anchors
    let (dv, anchors) ← v.document? anchors
    let (ds, anchors) ← memberDocuments? anchors ms
    return ((dk, dv) :: ds, anchors)
end

mutual
/-- The document without the collections that are nested too deep, which have no value. -/
def limited (levels : Nat) : Document → Document
  | .sequence ds => if levels = 0 then .unreadable else .sequence (limitedItems (levels - 1) ds)
  | .mapping ms => if levels = 0 then .unreadable else .mapping (limitedMembers (levels - 1) ms)
  | d => d

def limitedItems (levels : Nat) : List Document → List Document
  | [] => []
  | d :: ds => limited levels d :: limitedItems levels ds

def limitedMembers (levels : Nat) : List (Document × Document) → List (Document × Document)
  | [] => []
  | (k, d) :: ms => (limited levels k, limited levels d) :: limitedMembers levels ms
end

def nestingLimit : Nat := 128

/-- The document that a text spells. A text without one spells an empty scalar. -/
def read? (text : String) : Option Document := do
  let cs := text.toList
  let cs := if cs.head?.map Char.toNat = some 0xFEFF then cs.drop 1 else cs
  if !cs.all isAllowed then none
  match ← Node.ofTokens? (← Token.ofText? cs) with
  | none => return .plain ""
  | some n =>
    let (d, _) ← n.document? []
    return limited nestingLimit d

end CredentialSchema.Yaml
