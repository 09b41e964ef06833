import CredentialSchema.Json.Reader
import CredentialSchema.Main
import CredentialSchema.Session.Basic
import CredentialSchema.Text.Slug
import CredentialSchema.Proofs.Compile.Conformance
import CredentialSchema.Proofs.Session.Run
import CredentialSchema.Proofs.Tree.Run
import CredentialSchema.Proofs.Vocabulary.Identity
import CredentialSchema.Proofs.Compile.Table
import CredentialSchema.Proofs.Property.Container
import CredentialSchema.Proofs.Property.Everywhere
import CredentialSchema.Proofs.Vocabulary.Container
import CredentialSchema.Proofs.Vocabulary.Steps
import CredentialSchema.Proofs.Tree.Change
import CredentialSchema.Proofs.Vocabulary.Once
import CredentialSchema.Proofs.Property.Named
import CredentialSchema.Proofs.Tree.Named
import CredentialSchema.Proofs.Number.Rounding
import CredentialSchema.Proofs.Number.Shortest
import CredentialSchema.Proofs.Hexadecimal
import CredentialSchema.Proofs.Json.Literal
import CredentialSchema.Proofs.Json.Text
import CredentialSchema.Proofs.Document.Limited
import CredentialSchema.Proofs.Property.Stored
import CredentialSchema.Proofs.Project.Stored
import CredentialSchema.Proofs.Storage.Files
import CredentialSchema.Proofs.Document.Scalars
import CredentialSchema.Proofs.Document.Reading
import CredentialSchema.Proofs.Property.Loaded
import CredentialSchema.Proofs.Vocabulary.Constrained
import CredentialSchema.Proofs.Command.Import
import CredentialSchema.Proofs.Tree.Atomic
import CredentialSchema.Proofs.Session.Bookkeeping
import CredentialSchema.Proofs.Project.Reloaded
import CredentialSchema.Proofs.Url.Category
import CredentialSchema.Proofs.Json.Canonical
import CredentialSchema.Proofs.Compile.CheckedContext
import CredentialSchema.Proofs.Compile.Strictness
import CredentialSchema.Proofs.Compile.CheckedSchema
import CredentialSchema.Proofs.Compile.Document
import CredentialSchema.Proofs.Compile.SiblingOrder
import CredentialSchema.Proofs.Property.Alike
import CredentialSchema.Proofs.Compile.Published
import CredentialSchema.Proofs.Command.Writes
import CredentialSchema.Proofs.Compile.Skeleton
import CredentialSchema.Proofs.Property.Focus
import CredentialSchema.Proofs.Vocabulary.Resolution
import CredentialSchema.Proofs.Compile.Levels
import CredentialSchema.Proofs.Compile.Defects
import CredentialSchema.Proofs.Compile.WarningPath
import CredentialSchema.Proofs.Url.Segments
import CredentialSchema.Proofs.Tree.Local
import CredentialSchema.Proofs.Json.Conforming
import CredentialSchema.Proofs.Tree.Deletion
import CredentialSchema.Proofs.Tree.Moves
import CredentialSchema.Proofs.Tree.FirstViolation
import CredentialSchema.Proofs.Check.Audit
import CredentialSchema.Proofs.Text.Case
import CredentialSchema.Proofs.Text.Slug
import CredentialSchema.Proofs.Tree.Lookups
import CredentialSchema.Proofs.Catalog.Calls
import CredentialSchema.Proofs.Vocabulary.Spelling
