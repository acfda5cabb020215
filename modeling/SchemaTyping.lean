import SchemaTyping.Main
import SchemaTyping.Proofs.Run.Outcome
import SchemaTyping.Proofs.Run.OpenUses
import SchemaTyping.Proofs.Run.Termination
import SchemaTyping.Proofs.Guard.Reopening
import SchemaTyping.Proofs.Guard.Texts
import SchemaTyping.Proofs.Guard.Releases
import SchemaTyping.Proofs.Guard.Transparency
import SchemaTyping.Proofs.Guard.Below
import SchemaTyping.Proofs.Member.Tables
import SchemaTyping.Proofs.Visit.Layers
import SchemaTyping.Proofs.Member.Elements
import SchemaTyping.Proofs.Graph.Search
import SchemaTyping.Proofs.Run.Agreement
import SchemaTyping.Proofs.Visit.Errors
import SchemaTyping.Proofs.Member.NoEffect
import SchemaTyping.Proofs.Run.Release
import SchemaTyping.Proofs.Member.Sequences
import SchemaTyping.Proofs.Visit.Locality
import SchemaTyping.Proofs.Visit.Meaning
import SchemaTyping.Proofs.Visit.Overrides
import SchemaTyping.Proofs.Member.Errors
import SchemaTyping.Proofs.Json.Records
import SchemaTyping.Proofs.Model.Writes
import SchemaTyping.Proofs.Json.RoundTrip
import SchemaTyping.Proofs.Model.Listing
import SchemaTyping.Proofs.Model.RoundTrip
import SchemaTyping.Proofs.Model.Merging
import SchemaTyping.Proofs.Visit.WellFormed
import SchemaTyping.Proofs.Visit.References
import SchemaTyping.Proofs.Document.Grounding
import SchemaTyping.Proofs.ClientName.Members
import SchemaTyping.Proofs.ClientName.Containers
import SchemaTyping.Proofs.Graph.Chains
import SchemaTyping.Proofs.Graph.Arguments
import SchemaTyping.Proofs.Visit.Contexts
import SchemaTyping.Proofs.Visit.OverrideCycles
import SchemaTyping.Proofs.ClientName.Packages
import SchemaTyping.Proofs.ClientName.Endings
import SchemaTyping.Proofs.ClientName.ClassNames
import SchemaTyping.Proofs.Graph.Containers
import SchemaTyping.Proofs.QName.Uris
import SchemaTyping.Proofs.Document.Schemas
import SchemaTyping.Proofs.Member.Precedence
