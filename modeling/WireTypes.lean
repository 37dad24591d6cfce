import WireTypes.Document.Format
import WireTypes.Resolution
import WireTypes.Code.Emit
import WireTypes.Target
import WireTypes.Addition
import WireTypes.Settings
import WireTypes.Command
import WireTypes.Action
import WireTypes.Main
import WireTypes.Proofs.Generation
import WireTypes.Proofs.DeclaredNames
import WireTypes.Proofs.Outputs
import WireTypes.Proofs.Mapping
import WireTypes.Proofs.Aliases
import WireTypes.Proofs.References
import WireTypes.Proofs.Actions
import WireTypes.Proofs.CommentLevels
import WireTypes.Proofs.AddedRules
import WireTypes.Proofs.Unexported
import WireTypes.Proofs.Ungrouped
import WireTypes.Proofs.SkippedMembers
import WireTypes.Proofs.LineComments
import WireTypes.Proofs.BlockComments
import WireTypes.Proofs.ParentRules
import WireTypes.Proofs.TypeNames
import WireTypes.Proofs.CaseNames
import WireTypes.Proofs.Composition
import WireTypes.Proofs.Digits
import WireTypes.Proofs.FlowScalars
import WireTypes.Proofs.Choices
import WireTypes.Proofs.CommandAgreement
import WireTypes.Proofs.Bars
import WireTypes.Proofs.FieldMembers
import WireTypes.Proofs.Indentation
import WireTypes.Proofs.TagGrammar
import WireTypes.Proofs.Runs
import WireTypes.Proofs.SharedWords
import WireTypes.Proofs.PropertyNames
import WireTypes.Proofs.ShownFallbacks
import WireTypes.Proofs.CleanComments
import WireTypes.Proofs.RepeatedNames
import WireTypes.Proofs.HeaderTemplates
import WireTypes.Proofs.ConstIntegers
import WireTypes.Proofs.BarOffsets
