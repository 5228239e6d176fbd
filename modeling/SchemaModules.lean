import SchemaModules.Main
import SchemaModules.Package.Basic
import SchemaModules.Proofs.Lookup
import SchemaModules.Proofs.PackageDefinitions
import SchemaModules.Proofs.RegistryGrowth
import SchemaModules.Proofs.RegistrationFrame
import SchemaModules.Proofs.RegistrationOrder
import SchemaModules.Proofs.Acceptance
import SchemaModules.Proofs.DocumentMembers
import SchemaModules.Proofs.DocumentPaths
import SchemaModules.Proofs.DocumentReferences
import SchemaModules.Proofs.DocumentTypes
import SchemaModules.Proofs.Inhabitation
import SchemaModules.Proofs.TypeReferences
import SchemaModules.Proofs.ValidationSoundness
import SchemaModules.Proofs.FallibleSteps
import SchemaModules.Proofs.ModuleLines
import SchemaModules.Proofs.FreshNames
import SchemaModules.Proofs.InterfaceImports
import SchemaModules.Proofs.HoistedRecords
import SchemaModules.Proofs.Annotations
import SchemaModules.Proofs.DeclarationScope
import SchemaModules.Proofs.ModuleTrees
import SchemaModules.Proofs.PlacedModules
import SchemaModules.Proofs.CompiledModules
import SchemaModules.Proofs.ModulePaths
import SchemaModules.Proofs.GenerationOutcome
import SchemaModules.Proofs.GeneratedPaths
import SchemaModules.Proofs.FailedRegistrations
import SchemaModules.Proofs.IncompleteRegistrations
import SchemaModules.Proofs.ReferenceCalls
import SchemaModules.Proofs.OutputConfinement
import SchemaModules.Proofs.DirectoryIndexes
import SchemaModules.Proofs.DefinitionOrder
import SchemaModules.Proofs.FileTrees
import SchemaModules.Proofs.FileWrites
import SchemaModules.Proofs.Publications
import SchemaModules.Proofs.VerdictOrder
import SchemaModules.Proofs.NestedValues
import SchemaModules.Proofs.SchemaCalls
import SchemaModules.Proofs.CheckFuel
import SchemaModules.Proofs.DocumentScope
import SchemaModules.Proofs.RegistrationCalls
import SchemaModules.Proofs.HistoryFreeValidation
import SchemaModules.Proofs.BlockComments
import SchemaModules.Proofs.PlacementConflicts
import SchemaModules.Proofs.QuotedTexts
import SchemaModules.Proofs.TypeTexts
import SchemaModules.Proofs.NestedTypes
import SchemaModules.Proofs.AtomicWrites
import SchemaModules.Proofs.ReadableValues
import SchemaModules.Proofs.LiteralValues
import SchemaModules.Proofs.JoinedPaths
import SchemaModules.Proofs.PythonImports
import SchemaModules.Proofs.TypeScriptImports
import SchemaModules.Proofs.DocumentContents
import SchemaModules.Proofs.TextLines
import SchemaModules.Proofs.Docstrings
import SchemaModules.Proofs.Configurations
import SchemaModules.Proofs.ConstructedInstances
import SchemaModules.Proofs.ClassNames
import SchemaModules.Proofs.DirectoryExports
import SchemaModules.Proofs.ModuleBindings
import SchemaModules.Proofs.CommentTexts
import SchemaModules.Proofs.Reservations
import SchemaModules.Proofs.ImportableSegments
import SchemaModules.Proofs.NameRuns
