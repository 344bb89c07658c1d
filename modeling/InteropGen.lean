import InteropGen.Bridge.Basic
import InteropGen.Bridge.Handles
import InteropGen.Bridge.Text
import InteropGen.Code.Writer
import InteropGen.Dialect.Includes
import InteropGen.Json.Writer
import InteropGen.Main
import InteropGen.Proofs.Exports
import InteropGen.Proofs.SymbolParity
import InteropGen.Proofs.Refusals
import InteropGen.Proofs.Planning
import InteropGen.Proofs.Words
import InteropGen.Proofs.Layout
import InteropGen.Proofs.WrappedMembers
import InteropGen.Proofs.WrapperCalls
import InteropGen.Proofs.NativeAgreement
import InteropGen.Proofs.DeclaredNames
import InteropGen.Proofs.DeclaredSymbols
import InteropGen.Proofs.ShimText
import InteropGen.Proofs.QuietLines
import InteropGen.Proofs.WrapperLines
import InteropGen.Proofs.WrapperBody
import InteropGen.Proofs.Enumerations
import InteropGen.Proofs.ImportLines
import InteropGen.Proofs.WrapperText
import InteropGen.Proofs.TextParity
import InteropGen.Proofs.FragmentEnums
import InteropGen.Proofs.Numbering
import InteropGen.Proofs.Acceptance
import InteropGen.Proofs.ManagedConversions
import InteropGen.Proofs.ManagedAgreement
import InteropGen.Proofs.StructOrder
import InteropGen.Proofs.ValueTypes
import InteropGen.Proofs.MemberSuccess
import InteropGen.Proofs.TableSuccess
import InteropGen.Proofs.Expressibility
import InteropGen.Proofs.FileTrees
import InteropGen.Proofs.Storing
import InteropGen.Proofs.RunEffect
import InteropGen.Proofs.FailedRuns
import InteropGen.Proofs.PlannedPaths
import InteropGen.Proofs.LibrarySymbols
import InteropGen.Proofs.ValueLayout
import InteropGen.Proofs.Blocks
import InteropGen.Proofs.DeclaredValues
import InteropGen.Proofs.ValueAgreement
import InteropGen.Proofs.Observations
import InteropGen.Proofs.BridgeHistories
import InteropGen.Proofs.HandleHistories
import InteropGen.Proofs.HandleLines
import InteropGen.Proofs.HandleOwnership
import InteropGen.Proofs.Views
import InteropGen.Proofs.Outlines
import InteropGen.Proofs.ClassLocality
import InteropGen.Proofs.ChangeLocality
import InteropGen.Proofs.Dress
import InteropGen.Proofs.Brackets
import InteropGen.Proofs.Occurrences
import InteropGen.Proofs.ComposedText
import InteropGen.Proofs.ComposedNames
import InteropGen.Proofs.MentionedHeaders
import InteropGen.Proofs.WovenShims
import InteropGen.Proofs.WovenFragments
import InteropGen.Proofs.WovenTypes
import InteropGen.Proofs.WovenImports
import InteropGen.Proofs.WovenMembers
import InteropGen.Proofs.WovenWrappers
import InteropGen.Proofs.WovenPlans
import InteropGen.Proofs.IncludedFiles
import InteropGen.Proofs.Inclusions
import InteropGen.Proofs.ConventionChange
import InteropGen.Proofs.TypeTexts
import InteropGen.Proofs.JsonText
import InteropGen.Proofs.SavedSchemas
import InteropGen.Proofs.BoundaryTexts
import InteropGen.Proofs.BaseChains
import InteropGen.Proofs.WellFormedSchemas
import InteropGen.Proofs.RespeltPlans
import InteropGen.Proofs.AttributedLines
import InteropGen.Proofs.ManagedConvention
import InteropGen.Proofs.NativeConvention
import InteropGen.Proofs.Conventions
import InteropGen.Proofs.VariantValues
import InteropGen.Proofs.DeclaredExports
import InteropGen.Proofs.SlotAgreement
import InteropGen.Proofs.StructSearch
import InteropGen.Proofs.AutomaticFlags
import InteropGen.Proofs.RaisedEvents
import InteropGen.Proofs.ForwardedMembers
import InteropGen.Proofs.RepeatedNames
import InteropGen.Proofs.ReferableTypes
import InteropGen.Proofs.ExactIncludes
import InteropGen.Proofs.VoidPositions
import InteropGen.Proofs.DryRuns
import InteropGen.Proofs.SavedConfigs
import InteropGen.Proofs.Indentation
import InteropGen.Proofs.LiveGuards
