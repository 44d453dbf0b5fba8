import VerbExpansion.Main
import VerbExpansion.Path.Written
import VerbExpansion.Shell.Reading
import VerbExpansion.Proofs.Filling.Text
import VerbExpansion.Proofs.Token.Passage
import VerbExpansion.Proofs.Expansion.Lookups
import VerbExpansion.Proofs.Expansion.Order
import VerbExpansion.Proofs.Expansion.Words
import VerbExpansion.Proofs.Expansion.SelectedPath
import VerbExpansion.Proofs.Expansion.TypedPath
import VerbExpansion.Proofs.TypedCommand.WellFormed
import VerbExpansion.Proofs.TypedCommand.ReadBack
import VerbExpansion.Proofs.Signature.Reading
import VerbExpansion.Proofs.Verb.Definition
import VerbExpansion.Proofs.Verb.BuiltinCall
import VerbExpansion.Proofs.Pattern.Capture
import VerbExpansion.Proofs.Signature.Values
import VerbExpansion.Proofs.Signature.Separated
import VerbExpansion.Proofs.Signature.Complaint
import VerbExpansion.Proofs.Verb.Arguments
import VerbExpansion.Proofs.Token.Layout
import VerbExpansion.Proofs.Filling.Within
import VerbExpansion.Proofs.Expansion.Denial
import VerbExpansion.Proofs.Verb.Refusal
import VerbExpansion.Proofs.Configuration.Reading
import VerbExpansion.Proofs.Pattern.Positions
import VerbExpansion.Proofs.Expansion.Dependence
import VerbExpansion.Proofs.Expansion.Substitution
import VerbExpansion.Proofs.CommandLine.Listing
import VerbExpansion.Proofs.Expansion.Unfilled
import VerbExpansion.Proofs.Disk.ClosestDirectory
import VerbExpansion.Proofs.Token.Gaps
import VerbExpansion.Proofs.Token.Unwrapped
import VerbExpansion.Proofs.Path.Normal
import VerbExpansion.Proofs.Path.Resolve
import VerbExpansion.Proofs.CommandLine.ArgumentLine
