import ScopeCheck.Config.Reader
import ScopeCheck.Diagnostic.Drawing
import ScopeCheck.Program.Validation
import ScopeCheck.Script.Layout
import ScopeCheck.Proofs.Keyed
import ScopeCheck.Proofs.DiagnosticKey
import ScopeCheck.Proofs.Filing
import ScopeCheck.Proofs.TextOrder
import ScopeCheck.Proofs.Aggregation
import ScopeCheck.Proofs.Linking
import ScopeCheck.Proofs.Lookup
import ScopeCheck.Proofs.LiveTables
import ScopeCheck.Proofs.RegistryMaps
import ScopeCheck.Proofs.Examination
import ScopeCheck.Proofs.Operations
import ScopeCheck.Proofs.PackagePath
import ScopeCheck.Proofs.Scheduling
import ScopeCheck.Proofs.Consistency
import ScopeCheck.Proofs.UpToDate
import ScopeCheck.Proofs.Incremental
import ScopeCheck.Proofs.Routes
import ScopeCheck.Proofs.Listing
import ScopeCheck.Proofs.Correspondence
import ScopeCheck.Proofs.Visits
import ScopeCheck.Proofs.Namespaces
import ScopeCheck.Proofs.Visibility
import ScopeCheck.Proofs.Relinking
import ScopeCheck.Proofs.Restoration
import ScopeCheck.Proofs.SharedInventories
import ScopeCheck.Proofs.FileOrder
import ScopeCheck.Proofs.Shadowing
import ScopeCheck.Proofs.Lowercase
import ScopeCheck.Proofs.Declared
import ScopeCheck.Proofs.Trails
import ScopeCheck.Proofs.Hierarchy
import ScopeCheck.Proofs.Circles
import ScopeCheck.Proofs.InheritedMembers
import ScopeCheck.Proofs.ParentClauses
import ScopeCheck.Proofs.VisibleNames
import ScopeCheck.Proofs.AddedScript
import ScopeCheck.Proofs.DeclaredNames
import ScopeCheck.Proofs.QualifiedNames
import ScopeCheck.Proofs.FoldedText
import ScopeCheck.Proofs.FoldedScript
import ScopeCheck.Proofs.FoldedRegistry
import ScopeCheck.Proofs.FoldedClasses
import ScopeCheck.Proofs.LetterCase
import ScopeCheck.Proofs.FieldTypes
import ScopeCheck.Proofs.WrittenPlaces
import ScopeCheck.Proofs.FindingPlaces
import ScopeCheck.Proofs.DeadEnds
import ScopeCheck.Proofs.SigmaContext
import ScopeCheck.Proofs.RelativeNames
import ScopeCheck.Proofs.ConstructorEvents
import ScopeCheck.Proofs.InventoryEntries
import ScopeCheck.Proofs.LookupOrder
import ScopeCheck.Proofs.MemberNames
import ScopeCheck.Proofs.RepeatedDeclarations
import ScopeCheck.Proofs.NamespaceTree
import ScopeCheck.Proofs.CollectedNamespaces
import ScopeCheck.Proofs.ComponentChains
import ScopeCheck.Proofs.FunctionTables
import ScopeCheck.Proofs.TableContents
import ScopeCheck.Proofs.Offsets
import ScopeCheck.Proofs.ParsedNames
import ScopeCheck.Proofs.WrittenOverrides
import ScopeCheck.Proofs.SharedMemo
import ScopeCheck.Proofs.FileSections
import ScopeCheck.Proofs.LaidOutWords
