import Relabel.Files.Tree
import Relabel.Main
import Relabel.Proofs.Graph.Groups
import Relabel.Proofs.Renaming.Frame
import Relabel.Proofs.Renaming.Meaning
import Relabel.Proofs.Run.References
import Relabel.Proofs.Decisions.Propagation
import Relabel.Proofs.Decisions.Distinct
import Relabel.Proofs.Decisions.Overrides
import Relabel.Proofs.ClassFile.ModifiedUtf8
import Relabel.Proofs.ClassFile.WellFormed
import Relabel.Proofs.ClassFile.RoundTrip
import Relabel.Proofs.Renaming.WellFormed
import Relabel.Proofs.Renaming.Silent
import Relabel.Proofs.ClassFile.Exactness
import Relabel.Proofs.Decisions.Explicit
import Relabel.Proofs.Decisions.Conflicts
import Relabel.Proofs.Decisions.Access
import Relabel.Proofs.Catalog.FromRoots
import Relabel.Proofs.Catalog.Schedules
import Relabel.Proofs.Run.Outputs
import Relabel.Proofs.Run.InputOrder
import Relabel.Proofs.Mapping.Inverse
import Relabel.Proofs.Run.Sources
import Relabel.Proofs.Run.Failures
import Relabel.Proofs.Signature.Renaming
import Relabel.Proofs.Signature.ClassNames
import Relabel.Proofs.Mapping.FieldTypes
import Relabel.Proofs.Signature.Descriptors
import Relabel.Proofs.Mapping.MethodTypes
import Relabel.Proofs.Renaming.Annotations
import Relabel.Proofs.Pool.Calls
import Relabel.Proofs.Pool.Hiding
import Relabel.Proofs.ClassFile.SlotNumbers
import Relabel.Proofs.ClassFile.FirstCall
import Relabel.Proofs.Graph.Ancestors
import Relabel.Proofs.Decisions.NestedClasses
import Relabel.Proofs.Mapping.MemberRows
import Relabel.Proofs.LocalNames.Replacements
import Relabel.Proofs.LocalNames.Identifiers
import Relabel.Proofs.Renaming.BodyTables
import Relabel.Proofs.Catalog.Blame
import Relabel.Proofs.Catalog.Depths
import Relabel.Proofs.Catalog.Callers
import Relabel.Proofs.Entries.Manifests
import Relabel.Proofs.Entries.Digests
import Relabel.Proofs.Files.Confinement
import Relabel.Proofs.Graph.Ranks
import Relabel.Proofs.ClassFile.Surrogates
import Relabel.Proofs.ClassFile.PayloadForms
