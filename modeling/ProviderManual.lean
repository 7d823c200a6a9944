import ProviderManual.Main
import ProviderManual.Manual.Layout
import ProviderManual.Proofs.Schema.Calls
import ProviderManual.Proofs.Schema.Expansion
import ProviderManual.Proofs.Schema.Inlining
import ProviderManual.Proofs.Schema.Elements
import ProviderManual.Proofs.Manual.Run
import ProviderManual.Proofs.Manual.Kinds
import ProviderManual.Proofs.Schema.Registries
import ProviderManual.Proofs.Schema.Declarations
import ProviderManual.Proofs.Source.Literals
import ProviderManual.Proofs.Manual.StandardPage
import ProviderManual.Proofs.Files.Places
import ProviderManual.Proofs.Manual.PageItems
import ProviderManual.Proofs.Manual.PagePaths
import ProviderManual.Proofs.CommandLine.Listing
import ProviderManual.Proofs.Manual.WholeSelection
import ProviderManual.Proofs.Manual.JsonRoundTrip
import ProviderManual.Proofs.Schema.ErrorPaths
import ProviderManual.Proofs.Schema.FieldValues
import ProviderManual.Proofs.Schema.RegistryPairs
import ProviderManual.Proofs.Schema.RegistryEntries
import ProviderManual.Proofs.Source.Runes
import ProviderManual.Proofs.Source.Slices
import ProviderManual.Proofs.Source.Integers
import ProviderManual.Proofs.Source.DocComments
import ProviderManual.Proofs.Source.DocText
import ProviderManual.Proofs.Manual.Lookup
import ProviderManual.Proofs.Source.Visits
import ProviderManual.Proofs.CommandLine.Effects
import ProviderManual.Proofs.Schema.Aliases
import ProviderManual.Proofs.Schema.RenamedReading
import ProviderManual.Proofs.Manual.RenamedImports
import ProviderManual.Proofs.Source.NamedNodes
import ProviderManual.Proofs.Source.LoweredParts
import ProviderManual.Proofs.Source.LoweredForms
import ProviderManual.Proofs.Source.LoweredLiterals
