import AllowedValues.Files.Tree
import AllowedValues.Main
import AllowedValues.Proofs.Enrichment.Runs
import AllowedValues.Proofs.Argument.Elements
import AllowedValues.Proofs.Source.Calls
import AllowedValues.Proofs.Argument.Agreement
import AllowedValues.Proofs.Argument.Layout
import AllowedValues.Proofs.Argument.Structure
import AllowedValues.Proofs.Source.OneCall
import AllowedValues.Proofs.Source.Arguments
import AllowedValues.Proofs.Enrichment.RoundTrip
import AllowedValues.Proofs.Enrichment.Idempotence
import AllowedValues.Proofs.CodeSpan.Reading
import AllowedValues.Proofs.Enrichment.Composition
import AllowedValues.Proofs.Enrichment.Truncation
import AllowedValues.Proofs.Enrichment.Attribution
import AllowedValues.Proofs.Enrichment.Replacement
import AllowedValues.Proofs.Argument.Decoding
import AllowedValues.Proofs.Source.Grammar
import AllowedValues.Proofs.Enrichment.Recognition
import AllowedValues.Proofs.Source.Forest
import AllowedValues.Proofs.Literal.Words
import AllowedValues.Proofs.Command.Listing
import AllowedValues.Proofs.Argument.Division
