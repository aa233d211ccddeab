import FlowArtifact.Declaration.Builder
import FlowArtifact.Live.Document
import FlowArtifact.Main
import FlowArtifact.Proofs.Location.Grammar
import FlowArtifact.Proofs.Location.Replay
import FlowArtifact.Proofs.Location.Runs
import FlowArtifact.Proofs.Location.Written
import FlowArtifact.Proofs.Json.Numeral
import FlowArtifact.Proofs.Json.Scan
import FlowArtifact.Proofs.Datum
import FlowArtifact.Proofs.Declaration.Building
import FlowArtifact.Proofs.Declaration.Document
import FlowArtifact.Proofs.Declaration.Addressing
import FlowArtifact.Proofs.Declaration.Reading
import FlowArtifact.Proofs.Declaration.Restoring
import FlowArtifact.Proofs.Serialization
import FlowArtifact.Proofs.Value.Documented
import FlowArtifact.Proofs.Value.Text
import FlowArtifact.Proofs.Command
import FlowArtifact.Proofs.Doc.Order
import FlowArtifact.Proofs.Value.Order
import FlowArtifact.Proofs.Declaration.Order
import FlowArtifact.Proofs.Json.Glyph
import FlowArtifact.Proofs.Json.Order
import FlowArtifact.Proofs.Reordering
import FlowArtifact.Proofs.Script
import FlowArtifact.Proofs.Command.Frame
import FlowArtifact.Proofs.Declaration.Naming
import FlowArtifact.Proofs.Declaration.Nesting
import FlowArtifact.Proofs.Declaration.Depth
import FlowArtifact.Proofs.Fragment
import FlowArtifact.Proofs.Value.Cdata
import FlowArtifact.Proofs.Location.Attempts
import FlowArtifact.Proofs.Location.Segments
import FlowArtifact.Proofs.Declaration.Filling
import FlowArtifact.Proofs.Live.Identifier
import FlowArtifact.Proofs.Live.Location
import FlowArtifact.Proofs.Live.Annotations
import FlowArtifact.Proofs.Declaration.Limit
import FlowArtifact.Proofs.Live.Document
