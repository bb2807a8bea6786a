import LabelPress.Charset.Encoding
import LabelPress.Charset.Idna
import LabelPress.Decimal.Fixed
import LabelPress.Decimal.Reader
import LabelPress.Json.Display
import LabelPress.Json.Printer
import LabelPress.Json.Reader
import LabelPress.Text.Blank
import LabelPress.Text.Capital
import LabelPress.Text.Digit
import LabelPress.Text.Quoted
import LabelPress.Input.Cursor
import LabelPress.Input.Walk
import LabelPress.Command
import LabelPress.Drawing.Primitive
import LabelPress.Schema.Library
import LabelPress.Fault
import LabelPress.Note
import LabelPress.Surface.Recording
import LabelPress.Surface.Trace
import LabelPress.Barcode.Code128
import LabelPress.Surface
import LabelPress.Press
import LabelPress.Conversion
import LabelPress.Playback
import LabelPress.Files.Tree
import LabelPress.CommandLine.Run
import LabelPress.Main
import LabelPress.Proofs.Association
import LabelPress.Proofs.Charset.Code
import LabelPress.Proofs.Charset.Idna
import LabelPress.Proofs.Input.InMemory
import LabelPress.Proofs.Input.Kept
import LabelPress.Proofs.Input.Pieces
import LabelPress.Proofs.Input.Script
import LabelPress.Proofs.Label.Step
import LabelPress.Proofs.Press.Take
import LabelPress.Proofs.Label.Envelope
import LabelPress.Proofs.Label.Verbs
import LabelPress.Proofs.Label.Field
import LabelPress.Proofs.Playback.Replay
import LabelPress.Proofs.Number.Resolution
import LabelPress.Proofs.Surface.Traced
import LabelPress.Proofs.Label.Whole
import LabelPress.Proofs.Conversion.Faults
import LabelPress.Proofs.Label.Isolated
import LabelPress.Proofs.Input.Written
import LabelPress.Proofs.Json.Strings
import LabelPress.Proofs.Json.Numbers
import LabelPress.Proofs.Json.RoundTrip
import LabelPress.Proofs.Playback.Copied
import LabelPress.Proofs.Conversion.Inserted
import LabelPress.Proofs.Input.Defects
import LabelPress.Proofs.Press.Watch
import LabelPress.Proofs.Label.Checked
import LabelPress.Proofs.Surface.Taken
import LabelPress.Proofs.Conversion.Stopped
import LabelPress.Proofs.Number.Order
import LabelPress.Proofs.Label.Bounds
import LabelPress.Proofs.Press.Within
import LabelPress.Proofs.Press.Refused
import LabelPress.Proofs.Press.FieldData
import LabelPress.Proofs.Settings.Accepted
import LabelPress.Proofs.Input.Lookahead
import LabelPress.Proofs.Input.Session
import LabelPress.Proofs.Input.Recased
import LabelPress.Proofs.Surface.Drawn
import LabelPress.Proofs.Press.Agreement
import LabelPress.Proofs.Surface.Finished
import LabelPress.Proofs.Charset.Validity
import LabelPress.Proofs.Input.Torn
import LabelPress.Proofs.Schema.Drawing
import LabelPress.Proofs.Pattern.Places
import LabelPress.Proofs.Schema.Written
import LabelPress.Proofs.Schema.Referred
import LabelPress.Proofs.Label.Blame
import LabelPress.Proofs.Surface.Refusals
import LabelPress.Proofs.Playback.Guarded
import LabelPress.Proofs.Surface.Placed
import LabelPress.Proofs.Surface.Valid
import LabelPress.Proofs.Conversion.Ended
import LabelPress.Proofs.Input.Owned
import LabelPress.Proofs.Settings.Merged
import LabelPress.Proofs.Files.Written
import LabelPress.Proofs.Files.Suffix
import LabelPress.Proofs.CommandLine.Reported
import LabelPress.Proofs.CommandLine.Delivered
import LabelPress.Proofs.CommandLine.Overwritten
import LabelPress.Proofs.Press.Consistent
import LabelPress.Proofs.Surface.Restored
import LabelPress.Proofs.Input.Afresh
import LabelPress.Proofs.Press.Omitted
