import NativeScripts.Configuration.Record
import NativeScripts.Main
import NativeScripts.Proofs.Cbor.TagSearch
import NativeScripts.Proofs.Configuration.Document
import NativeScripts.Proofs.Configuration.Transaction
import NativeScripts.Proofs.Evaluation.Monotone
import NativeScripts.Proofs.Evaluation.Rearrangement
import NativeScripts.Proofs.Evaluation.SlotVerdict
import NativeScripts.Proofs.Evaluation.Threshold
import NativeScripts.Proofs.HashText
import NativeScripts.Proofs.Script.ChildReader
import NativeScripts.Proofs.Script.ExactNumber
import NativeScripts.Proofs.Script.FirstFault
import NativeScripts.Proofs.Script.HashItem
import NativeScripts.Proofs.Script.IdleFields
import NativeScripts.Proofs.Script.LayoutGrammar
import NativeScripts.Proofs.Script.Lift
import NativeScripts.Proofs.Script.Marker
import NativeScripts.Proofs.Script.Reencoding
import NativeScripts.Proofs.Script.SelfDelimiting
import NativeScripts.Proofs.Script.SurroundedDigits
import NativeScripts.Proofs.Script.TagRefusal
import NativeScripts.Proofs.SignerHistory
import NativeScripts.Proofs.Tool.Evaluation
import NativeScripts.Proofs.Validation.Account
import NativeScripts.Proofs.Validation.Matches
import NativeScripts.Proofs.Validation.Substitution
