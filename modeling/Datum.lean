import Datum.Cache
import Datum.Compare
import Datum.Compare.Sort
import Datum.Geometry.TextCodec
import Datum.Settings
import Datum.Value.Access
import Datum.Value.Adjust
import Datum.Value.Native
import Datum.Proofs.Convert.Kind
import Datum.Proofs.Convert.Integers
import Datum.Proofs.Compare.Unfold
import Datum.Proofs.Compare.Keys
import Datum.Proofs.Compare.BinaryOrders
import Datum.Proofs.Compare.Antisymmetry
import Datum.Proofs.Compare.ColumnOrder
import Datum.Proofs.Compare.Promotion
import Datum.Proofs.Compare.ExactNumbers
import Datum.Proofs.Compare.Moments
import Datum.Proofs.Text.Blanks
import Datum.Proofs.Text.Digits
import Datum.Proofs.Calendar.Exact
import Datum.Proofs.Calendar.Instants
import Datum.Proofs.Calendar.Times
import Datum.Proofs.Number.Rounding
import Datum.Proofs.Number.Shortest
import Datum.Proofs.Number.DecimalText
import Datum.Proofs.Number.Nearest
import Datum.Proofs.Number.Arithmetic
import Datum.Proofs.Number.DecimalLiteral
import Datum.Proofs.Interval.Literal
import Datum.Proofs.Bytes
import Datum.Proofs.Uuid
import Datum.Proofs.Text.Utf8
import Datum.Proofs.Json.Quoted
import Datum.Proofs.Json.Literals
import Datum.Proofs.Json.Numbers
import Datum.Proofs.WellFormed
import Datum.Proofs.Value.Make
import Datum.Proofs.Convert.WellFormed
import Datum.Proofs.Convert.TextRoundTrip
import Datum.Proofs.Calendar.Civil
import Datum.Proofs.Calendar.Dates
import Datum.Proofs.Convert.CalendarText
import Datum.Proofs.Parts
import Datum.Proofs.Compare.Refinement
import Datum.Proofs.Compare.NullEquality
import Datum.Proofs.Convert.TargetKind
import Datum.Proofs.Equality
import Datum.Proofs.Equality.Relation
import Datum.Proofs.Compare.Coherence
import Datum.Proofs.Cache
import Datum.Proofs.Cache.Runs
import Datum.Proofs.Convert.Contained
import Datum.Proofs.Convert.Zones
import Datum.Proofs.Convert.BinaryForm
import Datum.Proofs.Convert.BinaryCasts
import Datum.Proofs.Convert.JsonDocuments
import Datum.Proofs.Interval.Length
import Datum.Proofs.Interval.Number
import Datum.Proofs.Value.Precision
import Datum.Proofs.Convert.Intervals
import Datum.Proofs.Convert.NumericIntervals
import Datum.Proofs.Compare.Intervals
import Datum.Proofs.Compare.IntervalNumbers
import Datum.Proofs.Value.Scale
import Datum.Proofs.Calendar.Order
import Datum.Proofs.Interval.Words
import Datum.Proofs.Interval.FullLiteral
import Datum.Proofs.Convert.IntervalText
import Datum.Proofs.Cache.Sizes
import Datum.Proofs.Compare.MixedNumbers
import Datum.Proofs.Convert.CodecFailures
import Datum.Proofs.Convert.Widening
import Datum.Proofs.Number.Places
import Datum.Proofs.TypeInfo
import Datum.Proofs.Cursor
import Datum.Proofs.Value.Truncation
import Datum.Proofs.Convert.ResultRows
import Datum.Proofs.Convert.ConstrainedGeometries
import Datum.Proofs.Value.Milliseconds
import Datum.Proofs.Cursor.Widths
