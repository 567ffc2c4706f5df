import LogBroker.Api
import LogBroker.BigEndian
import LogBroker.Broker.Answer
import LogBroker.Broker.Config
import LogBroker.Broker.Segments
import LogBroker.Bytes
import LogBroker.Log.Batch
import LogBroker.Log.Directory
import LogBroker.Log.Path
import LogBroker.Log.Record
import LogBroker.Main
import LogBroker.Message.ApiVersions
import LogBroker.Message.DescribeTopicPartitions
import LogBroker.Message.Fetch
import LogBroker.Message.Header
import LogBroker.Message.Request
import LogBroker.Message.Response
import LogBroker.Metadata.Index
import LogBroker.Metadata.Record
import LogBroker.Metrics.Counters
import LogBroker.Metrics.Report
import LogBroker.Metrics.Window
import LogBroker.Proofs.Broker.Agreement
import LogBroker.Proofs.Broker.AnswerSize
import LogBroker.Proofs.Broker.Fetching
import LogBroker.Proofs.Broker.Isolation
import LogBroker.Proofs.Broker.Restart
import LogBroker.Proofs.Log.Growth
import LogBroker.Proofs.Log.Lengths
import LogBroker.Proofs.Log.Naming
import LogBroker.Proofs.Log.Rounds
import LogBroker.Proofs.Log.Truncation
import LogBroker.Proofs.Log.Verbatim
import LogBroker.Proofs.Message.Counts
import LogBroker.Proofs.Message.Failures
import LogBroker.Proofs.Message.FramePaths
import LogBroker.Proofs.Message.Grammar
import LogBroker.Proofs.Message.Normalisation
import LogBroker.Proofs.Message.RoundTrip
import LogBroker.Proofs.Message.Structures
import LogBroker.Proofs.Metadata.Replay
import LogBroker.Proofs.Metrics.Binary64
import LogBroker.Proofs.Metrics.Counting
import LogBroker.Proofs.Metrics.Percentile
import LogBroker.Proofs.Server.Buffering
import LogBroker.Proofs.Server.Cuts
import LogBroker.Proofs.Server.Interleaving
import LogBroker.Proofs.Server.Transparency
import LogBroker.Proofs.Wire.Accounts
import LogBroker.Proofs.Wire.Composition
import LogBroker.Proofs.Wire.Counts
import LogBroker.Proofs.Wire.Decision
import LogBroker.Proofs.Wire.Expansion
import LogBroker.Proofs.Wire.Framing
import LogBroker.Proofs.Wire.Grammar
import LogBroker.Proofs.Wire.Groups
import LogBroker.Proofs.Wire.Pieces
import LogBroker.Proofs.Wire.ReadBack
import LogBroker.Proofs.Wire.Rewriting
import LogBroker.Proofs.Wire.RoundTrip
import LogBroker.Proofs.Wire.Rows
import LogBroker.Proofs.Wire.Shortest
import LogBroker.Proofs.Wire.Sizes
import LogBroker.Proofs.Wire.Spelling
import LogBroker.Server.Connection
import LogBroker.Server.Run
import LogBroker.Text.Utf8
import LogBroker.Uuid
import LogBroker.Wire.Error
import LogBroker.Wire.Frame
import LogBroker.Wire.Layout
import LogBroker.Wire.Prefixed
import LogBroker.Wire.Primitive
import LogBroker.Wire.Reader
import LogBroker.Wire.Varint
import LogBroker.Wire.Word
import LogBroker.Proofs.Message.Counts
