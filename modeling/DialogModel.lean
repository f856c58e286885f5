import DialogModel.Command.Run
import DialogModel.FileTree
import DialogModel.Main
import DialogModel.Proofs.Compile.Labels
import DialogModel.Proofs.Compile.Patterns
import DialogModel.Proofs.Compile.Questions
import DialogModel.SourcePath
import DialogModel.Stored
import DialogModel.Trace
import DialogModel.Proofs.Registry.Order
import DialogModel.Proofs.Registry.Repetition
import DialogModel.Proofs.App.Repetition
import DialogModel.Proofs.Declaration.Repetition
import DialogModel.Proofs.App.Failures
import DialogModel.Proofs.Compile.Repetition
import DialogModel.Proofs.Document.Places
import DialogModel.Proofs.Compile.Failures
import DialogModel.Proofs.Declaration.Clause
import DialogModel.Proofs.Declaration.Forms
import DialogModel.Proofs.Document.Joining
import DialogModel.Proofs.Compile.Options
import DialogModel.Proofs.Compile.Written
import DialogModel.Proofs.Compile.Bounds
import DialogModel.Proofs.Compile.References
import DialogModel.Proofs.Utterance.Flattening
import DialogModel.Proofs.Utterance.Grammar
import DialogModel.Proofs.Compile.Lists
import DialogModel.Proofs.Compile.Composites
import DialogModel.Proofs.Compile.Imports
import DialogModel.Proofs.Declaration.Headers
import DialogModel.Proofs.App.Directives
import DialogModel.Proofs.App.Prebuilts
import DialogModel.Proofs.Compile.Prebuilts
