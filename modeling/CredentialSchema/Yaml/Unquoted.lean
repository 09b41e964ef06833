import CredentialSchema.Yaml.Cursor

/-!
Plain scalars, which are words with folded gaps between them. A comment, a mark that means
something where it stands, or a line that is not indented enough ends them.
-/
namespace CredentialSchema.Yaml

/-- The characters of a word that begins here; none if a colon inside brackets is followed by a
mark. -/
def word? (inFlow : Bool) : List Char → Option (List Char)
  | [] => some []
  | c :: cs =>
    if isGap c then some []
    else if inFlow && c == ':' && cs.head?.any fun d => isFlowMark d || d == '?' then none
    else if (c == ':' && startsGap cs) || (inFlow && isFlowMark c) then some []
    else (word? inFlow cs).map (c :: ·)

/-- The words of a plain scalar from here, after a gap; also whether the gap after its last word
goes over the end of a line. -/
def unquoted? (inFlow : Bool) (least : Nat) (fuel : Nat) (g : Gap) (c : Cursor) :
    Option (List Char × Bool × Cursor) :=
  match fuel with
  | 0 => none
  | fuel + 1 =>
    if c.atDocumentMarker || c.peek? == some '#' then some ([], g.isBroken, c)
    else do
      let w ← word? inFlow c.rest
      let after := c.skip w.length
      let isEnd := !after.peek?.any isGap
      if w.isEmpty then
        if isEnd then return ([], g.isBroken, c) else none
      if isEnd then return (g.text ++ w, false, after)
      let (next, place) ← Gap.read? least (after.rest.length + 1) (.blanks []) after
      if !inFlow && place.column < least then return (g.text ++ w, next.isBroken, place)
      let (s, isBroken, place) ← unquoted? inFlow least fuel next place
      return (g.text ++ w ++ s, isBroken, place)

end CredentialSchema.Yaml
