import CredentialSchema.Text.Blank
import CredentialSchema.Text.Slug
import CredentialSchema.Url.Parser

/-!
Context URLs: the URL by which a context document identifies itself, a namespace followed by
the category and a leaf. The category is one segment, kept as given but for surrounding
blanks; the leaf is the credential name, each of whose parts is a segment, or else the slug
of the title. Nothing empty becomes a segment.
-/
namespace CredentialSchema.ContextUrl

def defaultBase : String := "https://schemas.credef.dev/contexts"

def trimmed (s : Option String) : Option String := (Text.present s).map Text.trim

def parts (s : String) : List String :=
  ((s.toList.splitOn '/').filter (!·.isEmpty)).map String.ofList

def segments (title : String) (category credentialName : Option String) : List String :=
  (trimmed category).toList ++
    match trimmed credentialName with
    | some name => parts name
    | none =>
      let slug := Text.slugify title
      if slug.isEmpty then [] else [slug]

/-- Segments after a namespace that is no URL with a path of segments, as plain text. -/
def joinText (base : String) (segments : List String) : String :=
  .ofList (base.toList.reverse.dropWhile (· == '/')).reverse ++
    "".intercalate (segments.map ("/" ++ ·))

def derive (base title : String) (category credentialName : Option String) : String :=
  let segments := segments title category credentialName
  match Url.parse base with
  | .ok u => match u.extend? segments with
    | some u => u.text
    | none => joinText base segments
  | .error _ => joinText base segments

end CredentialSchema.ContextUrl
