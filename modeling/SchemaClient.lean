import SchemaClient.Client.Directory
import SchemaClient.Main
import SchemaClient.Project.Tree
import SchemaClient.Proofs.Catalog.Discovery
import SchemaClient.Proofs.Catalog.Extension
import SchemaClient.Proofs.Catalog.Facts
import SchemaClient.Proofs.Catalog.Grouping
import SchemaClient.Proofs.Catalog.Markers
import SchemaClient.Proofs.Catalog.Names
import SchemaClient.Proofs.Catalog.Nesting
import SchemaClient.Proofs.Client.Arguments
import SchemaClient.Proofs.Client.Chain
import SchemaClient.Proofs.Client.Directory
import SchemaClient.Proofs.Client.FailedCalls
import SchemaClient.Proofs.Client.Interchange
import SchemaClient.Proofs.Client.Meaning
import SchemaClient.Proofs.Command.Lossless
import SchemaClient.Proofs.Command.Refusals
import SchemaClient.Proofs.Command.Sentences
import SchemaClient.Proofs.Moment
import SchemaClient.Proofs.Schema.Admission
import SchemaClient.Proofs.Schema.Circuit
import SchemaClient.Proofs.Schema.Expansion
import SchemaClient.Proofs.Schema.Printed
import SchemaClient.Proofs.Schema.Resolution
import SchemaClient.Proofs.Schema.Retraction
import SchemaClient.Proofs.Schema.Substitution
import SchemaClient.Proofs.Sql.Inline
import SchemaClient.Proofs.Sql.Percent
import SchemaClient.Proofs.Transport.Dispatch
import SchemaClient.Proofs.Transport.Transactions
import SchemaClient.Proofs.Transport.Wire
import SchemaClient.Transport.Record
