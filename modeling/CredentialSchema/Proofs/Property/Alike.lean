import Mathlib.Data.List.Forall2
import CredentialSchema.Property.Basic

/-!
Two forests of one shape. `Alike R` sets the properties of two trees against each other place by
place and asks of each pair of declarations that they are related by `R`, say that they agree in
some fields and that one identifier is the other one renamed.
-/
namespace CredentialSchema.Property

/-- Two properties of one shape with related declarations in all places. -/
inductive Alike (R : Declaration → Declaration → Prop) : Property → Property → Prop
  | intro {d d' : Declaration} {ms ms' : List Property} {e e' : Option Property} (decl : R d d')
    (members : List.Forall₂ (Alike R) ms ms') (element : Option.Rel (Alike R) e e') :
    Alike R ⟨d, ms, e⟩ ⟨d', ms', e'⟩

theorem Alike.decl {R : Declaration → Declaration → Prop} {p q : Property} (h : Alike R p q) :
    R p.decl q.decl := by
  cases h with
  | intro decl => exact decl

end CredentialSchema.Property
