import SpacingClasses.Main
import SpacingClasses.Proofs.Attribute.Advance
import SpacingClasses.Proofs.Attribute.Braced
import SpacingClasses.Proofs.Attribute.Located
import SpacingClasses.Proofs.Batch.Misfits
import SpacingClasses.Proofs.Batch.Reasons
import SpacingClasses.Proofs.Batch.Shapes
import SpacingClasses.Proofs.Batch.Strict
import SpacingClasses.Proofs.ClassToken.Decoding
import SpacingClasses.Proofs.ClassToken.Malformed
import SpacingClasses.Proofs.ClassToken.Words
import SpacingClasses.Proofs.Command.Exits
import SpacingClasses.Proofs.Command.JsonOption
import SpacingClasses.Proofs.Json.Canonical
import SpacingClasses.Proofs.Log.Failing
import SpacingClasses.Proofs.Log.File
import SpacingClasses.Proofs.Log.Levels
import SpacingClasses.Proofs.Number.Leading
import SpacingClasses.Proofs.Scale.Inverse
import SpacingClasses.Proofs.Scale.RoundTrip
import SpacingClasses.Proofs.Settings.Precedence
import SpacingClasses.Proofs.Suffix.Fixed
import SpacingClasses.Proofs.Suffix.Integers
import SpacingClasses.Proofs.Suffix.Token
import SpacingClasses.Proofs.Suffix.Zero
import SpacingClasses.Report.Details
