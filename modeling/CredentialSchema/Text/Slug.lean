/-!
Slugs: lower-case ASCII letters and digits, with one hyphen for each run of other
characters between them. Only ASCII counts as alphanumeric, so an accented letter
separates like punctuation.
-/
namespace CredentialSchema.Text

/-- Scans the rest of a text. `started` says that the slug holds a character already and
`pending` that a separator was passed since then; a hyphen is written only between two
alphanumerics. -/
def slugFrom (started pending : Bool) : List Char → List Char
  | [] => []
  | c :: cs =>
    if c.isAlphanum then
      if started && pending then '-' :: c.toLower :: slugFrom true false cs
      else c.toLower :: slugFrom true false cs
    else slugFrom started true cs

def slugify (s : String) : String := .ofList (slugFrom false false s.toList)

end CredentialSchema.Text
