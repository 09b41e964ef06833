import CredentialSchema.Command.World

/-!
The command that lists the issuers offered by the catalogue.
-/
namespace CredentialSchema

structure IssuersCommand where
  json : Bool := false
deriving DecidableEq, Repr

namespace IssuersCommand

def row (i : Issuer) : String :=
  i.id.text ++ "  " ++ i.name ++ "  " ++ i.decentralizedIdentifier.getD "-" ++ "\n"

def run (c : IssuersCommand) (w : World) : Ending :=
  w.attempt w.client fun client =>
  let result := (client.listIssuers w.outcomes).result
  w.attempt (result.mapError fun e => .message "failed to list issuers" :: e.causes) fun issuers =>
  { out :=
      if c.json then (Json.Value.array (issuers.map Issuer.toJson)).pretty ++ "\n"
      else "".intercalate (issuers.map row)
    world := w }

end IssuersCommand
end CredentialSchema
