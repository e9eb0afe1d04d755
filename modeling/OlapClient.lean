import OlapClient.Client
import OlapClient.Interchange.Result
import OlapClient.Interchange.Error
import OlapClient.Interchange.Settings
import OlapClient.Coordinate.Space
import OlapClient.Query
import OlapClient.Statement.Run
import OlapClient.Transport.Worker
import OlapClient.Proofs.Statement.Scene
import OlapClient.Proofs.Statement.Advance
import OlapClient.Proofs.Statement.Occupancy
import OlapClient.Proofs.Statement.LateCancellation
import OlapClient.Proofs.Statement.Cancellation
import OlapClient.Proofs.Statement.CancellationOutcome
import OlapClient.Proofs.Markup.DocumentOrder
import OlapClient.Proofs.Markup.Fault
import OlapClient.Proofs.Statement.Closing
import OlapClient.Proofs.Statement.CloseOutcome
import OlapClient.Proofs.Statement.Hosting
import OlapClient.Proofs.Statement.OpenCellSet
import OlapClient.Proofs.Statement.Errand
import OlapClient.Proofs.Statement.Availability
import OlapClient.Proofs.Statement.PhaseAtReturn
import OlapClient.Proofs.Statement.Traffic
import OlapClient.Proofs.Statement.CallResolution
import OlapClient.Proofs.Transport.SharedCall
import OlapClient.Proofs.Transport.Submission
import OlapClient.Proofs.Transport.OneExchange
import OlapClient.Proofs.Identifier.Grammar
import OlapClient.Proofs.Identifier.Scanning
import OlapClient.Proofs.Identifier.Recognition
import OlapClient.Proofs.Identifier.Parsing
import OlapClient.Proofs.Identifier.Elements
import OlapClient.Proofs.Identifier.Lists
import OlapClient.Proofs.Identifier.RoundTrip
import OlapClient.Proofs.Identifier.ListRoundTrip
import OlapClient.Proofs.Identifier.Unfinished
import OlapClient.Proofs.Identifier.Reached
import OlapClient.Proofs.Identifier.Completion
import OlapClient.Proofs.Identifier.EventWords
import OlapClient.Proofs.Identifier.Refusals
import OlapClient.Proofs.Query
import OlapClient.Proofs.Coordinate.Ordinals
import OlapClient.Proofs.Text.Encoding
import OlapClient.Proofs.Text.SelfDelimiting
import OlapClient.Proofs.Markup.Rendering
import OlapClient.Proofs.Markup.Tags
import OlapClient.Proofs.Markup.Reading
import OlapClient.Proofs.Markup.Recovery
import OlapClient.Proofs.Request.Envelope
import OlapClient.Proofs.Coordinate.Enumeration
import OlapClient.Proofs.Coordinate.Saturation
import OlapClient.Proofs.Coordinate.Counting
import OlapClient.Proofs.Dictionary
import OlapClient.Proofs.Traversal
import OlapClient.Proofs.Text.Numbers
import OlapClient.Proofs.CellSet.Elements
import OlapClient.Proofs.CellSet.Cells
import OlapClient.Proofs.CellSet.Positions
import OlapClient.Proofs.CellSet.Axes
import OlapClient.Proofs.CellSet.Acceptance
import OlapClient.Proofs.Text.Base64
import OlapClient.Proofs.Time.Stamp
import OlapClient.Proofs.Files
import OlapClient.Proofs.Cache.Record
import OlapClient.Proofs.Cache.Capture
import OlapClient.Proofs.Cache.Episode
import OlapClient.Proofs.Cache.Recorder
import OlapClient.Proofs.Cache.Run
import OlapClient.Proofs.Cache.Replay
import OlapClient.Proofs.Cache.Undisturbed
import OlapClient.Proofs.Cache.Appending
import OlapClient.Proofs.Cache.History
import OlapClient.Proofs.Cache.Answering
import OlapClient.Proofs.Statement.Uncached
import OlapClient.Proofs.Cache.Disabled
import OlapClient.Proofs.Cache.Calls
import OlapClient.Proofs.Cache.Table
import OlapClient.Cache.SmallLibrary
import OlapClient.Proofs.Cache.SmallLibrary
import OlapClient.Proofs.Cache.Alike
import OlapClient.Proofs.Identifier.CanonicalText
import OlapClient.Proofs.Rowset
import OlapClient.Proofs.Markup.TopLevel
import OlapClient.Proofs.Markup.EncodedName
import OlapClient.Proofs.Cache.Memory
import OlapClient.Proofs.Cache.Settings
import OlapClient.Proofs.Cache.FailedOpen
import OlapClient.Proofs.Digest.SessionId
import OlapClient.Proofs.Markup.RootSearch
import OlapClient.Proofs.Markup.OpenElements
