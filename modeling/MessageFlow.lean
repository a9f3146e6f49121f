import MessageFlow.Json.Canonical
import MessageFlow.Main
import MessageFlow.Proofs.Campaign.Chain
import MessageFlow.Proofs.Campaign.Depiction
import MessageFlow.Proofs.Campaign.Linking
import MessageFlow.Proofs.Campaign.Recompile
import MessageFlow.Proofs.Campaign.Renaming
import MessageFlow.Proofs.Campaign.Resequence
import MessageFlow.Proofs.Canvas.Keeping
import MessageFlow.Proofs.Canvas.Naming
import MessageFlow.Proofs.Canvas.Returning
import MessageFlow.Proofs.Canvas.Routing
import MessageFlow.Proofs.Canvas.Sameness
import MessageFlow.Proofs.Canvas.Scanning
import MessageFlow.Proofs.Compile.Arrangement
import MessageFlow.Proofs.Compile.Delays
import MessageFlow.Proofs.Compile.Depth
import MessageFlow.Proofs.Compile.Descent
import MessageFlow.Proofs.Compile.Endless
import MessageFlow.Proofs.Compile.Exits
import MessageFlow.Proofs.Compile.Locality
import MessageFlow.Proofs.Compile.Mapping
import MessageFlow.Proofs.Compile.Message
import MessageFlow.Proofs.Compile.Nesting
import MessageFlow.Proofs.Compile.Nulls
import MessageFlow.Proofs.Compile.Options
import MessageFlow.Proofs.Compile.Outcome
import MessageFlow.Proofs.Compile.Repeats
import MessageFlow.Proofs.Compile.Run
import MessageFlow.Proofs.Compile.Sanitizing
import MessageFlow.Proofs.Compile.Showing
import MessageFlow.Proofs.Compile.Stripping
import MessageFlow.Proofs.Compile.Targets
import MessageFlow.Proofs.Flow.Drawing
import MessageFlow.Proofs.Flow.Generation
import MessageFlow.Proofs.Form.Keeping
import MessageFlow.Proofs.Form.Nulls
import MessageFlow.Proofs.Form.Stability
import MessageFlow.Proofs.Json.Objects
import MessageFlow.Proofs.Json.Reading
import MessageFlow.Proofs.Request.Answers
import MessageFlow.Proofs.Request.FixedPoint
import MessageFlow.Proofs.Scaffold.Carrying
import MessageFlow.Proofs.Scaffold.Group
import MessageFlow.Proofs.Scaffold.Inverse
import MessageFlow.Proofs.Scaffold.Itemwise
import MessageFlow.Proofs.Scaffold.Options
import MessageFlow.Proofs.Scaffold.Recompile
import MessageFlow.Proofs.Scaffold.Requests
import MessageFlow.Proofs.Schema.Reading
import MessageFlow.Proofs.Schema.Returning
import MessageFlow.Proofs.Schema.RoundTrip
import MessageFlow.Proofs.Schema.Stability
import MessageFlow.Proofs.Text.Runs
import MessageFlow.Session
