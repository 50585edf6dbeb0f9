import BlockCodec.Binary64
import BlockCodec.Decimal.Basic
import BlockCodec.Decimal.Reading
import BlockCodec.Decimal.Shortest
import BlockCodec.Json.Number
import BlockCodec.Json.Value
import BlockCodec.Json.Text
import BlockCodec.Json.Reader
import BlockCodec.Calendar.Civil
import BlockCodec.Calendar.Instant
import BlockCodec.Calendar.Iso
import BlockCodec.Text.Case
import BlockCodec.Text.Lowercase
import BlockCodec.Codec.Family
import BlockCodec.Codec.Error
import BlockCodec.Codec.Position
import BlockCodec.Codec.Signature
import BlockCodec.Codec.Similarity
import BlockCodec.Codec.Table
import BlockCodec.Literal
import BlockCodec.Codec.Arguments
import BlockCodec.Expression.Operator
import BlockCodec.Expression.Basic
import BlockCodec.Expression.Codec
import BlockCodec.Stage.Basic
import BlockCodec.Stage.Codec
import BlockCodec.Container.Envelope
import BlockCodec.Container.Pipeline
import BlockCodec.Container.Program
import BlockCodec.Codec.NodeText
import BlockCodec.Calendar.Text
import BlockCodec.Codec.Generic
import BlockCodec.Codec.Traversal
import BlockCodec.Equality
import BlockCodec.Proofs.Calendar
import BlockCodec.Proofs.Digits
import BlockCodec.Proofs.IsoText
import BlockCodec.Proofs.Reading
import BlockCodec.Proofs.ExpressionDecoding
import BlockCodec.Proofs.StageDecoding
import BlockCodec.Proofs.ContainerDecoding
import BlockCodec.Proofs.RoundTrip
import BlockCodec.Proofs.Faults
import BlockCodec.Proofs.FaultLocation
import BlockCodec.Proofs.NumberText
import BlockCodec.Proofs.StringText
import BlockCodec.Proofs.Traversal
import BlockCodec.Proofs.CompactText
import BlockCodec.Proofs.TextEquality
import BlockCodec.Proofs.TextRoundTrip
import BlockCodec.Proofs.Bounds
import BlockCodec.Proofs.CivilOrder
import BlockCodec.Proofs.Registration
import BlockCodec.Proofs.Dependencies
import BlockCodec.Proofs.CivilRange
import BlockCodec.Proofs.Listing
import BlockCodec.Proofs.Suggestions
import BlockCodec.Proofs.Weekday
import BlockCodec.Proofs.Relocation
