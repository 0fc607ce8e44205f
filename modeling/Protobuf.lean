import Protobuf.Wire.WriteStep
import Protobuf.Wire.Cursor
import Protobuf.Json.Parser
import Protobuf.Json.ScalarForm
import Protobuf.Text.CamelCase
import Protobuf.Time.Timestamp
import Protobuf.Time.Duration
import Protobuf.Schema.Binary
import Protobuf.Schema.JsonMapping
import Protobuf.Schema.Partial
import Protobuf.Conformance.Runner
import Protobuf.Descriptor.Wire
import Protobuf.Descriptor.Build
import Protobuf.Names.Table
import Protobuf.Generate.Files
import Protobuf.Compiler.Plugin
import Protobuf.Compiler.Compile
import Protobuf.Main
import Protobuf.Proofs.Conformance.Binary
import Protobuf.Proofs.Conformance.Completion
import Protobuf.Proofs.Conformance.Json
import Protobuf.Proofs.Conformance.Merging
import Protobuf.Proofs.Conformance.Presence
import Protobuf.Proofs.Conformance.Refusals
import Protobuf.Proofs.Conformance.Serving
import Protobuf.Proofs.Conformance.Tolerance
import Protobuf.Proofs.Conformance.Truncation
import Protobuf.Proofs.Descriptor.Building
import Protobuf.Proofs.Descriptor.RoundTrip
import Protobuf.Proofs.Generate.JsonKeys
import Protobuf.Proofs.Generate.Legality
import Protobuf.Proofs.Generate.Numbering
import Protobuf.Proofs.Generate.References
import Protobuf.Proofs.Generate.Targets
import Protobuf.Proofs.Json.Bytes
import Protobuf.Proofs.Json.Documents
import Protobuf.Proofs.Json.Integers
import Protobuf.Proofs.Json.MapKeys
import Protobuf.Proofs.Json.Single
import Protobuf.Proofs.Names.ExternPaths
import Protobuf.Proofs.Names.NearestPath
import Protobuf.Proofs.Names.RelativePaths
import Protobuf.Proofs.Time.LocalTime
import Protobuf.Proofs.Wire.Retyping
import Protobuf.Proofs.Wire.Skipping
import Protobuf.Proofs.Wire.Standing
import Protobuf.Proofs.Wire.VarintWords
import Protobuf.Proofs.Wire.Wholeness
import Protobuf.Proofs.Wire.ZigZag
