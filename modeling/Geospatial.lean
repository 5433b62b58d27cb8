import Geospatial.Binary.Hypotenuse
import Geospatial.Binary.Narrow
import Geospatial.BoundingBox
import Geospatial.Bounds
import Geospatial.Columnar.Exchange
import Geospatial.Columnar.ListColumn
import Geospatial.Coordinate
import Geospatial.Decimal.Magnitude
import Geospatial.Decimal.Rounded
import Geospatial.Decimal.Shortest
import Geospatial.Decimal.SignedNumeral
import Geospatial.Decimal.Text
import Geospatial.Digest
import Geospatial.Envelope
import Geospatial.Envelope.Change
import Geospatial.Extrema
import Geospatial.Fault
import Geospatial.Geodesy.Bearing
import Geospatial.Geodesy.LonLat
import Geospatial.Geodesy.Projection
import Geospatial.Json.Codec
import Geospatial.Json.Reader
import Geospatial.Json.Token
import Geospatial.Json.Value
import Geospatial.Layout
import Geospatial.Ordinate
import Geospatial.Packed.Builder
import Geospatial.Packed.Cache
import Geospatial.Packed.Options
import Geospatial.Packed.Sequence
import Geospatial.Packed.Session
import Geospatial.Position
import Geospatial.Proofs.Binary.Arithmetic
import Geospatial.Proofs.Binary.Comparison
import Geospatial.Proofs.Binary.Midpoint
import Geospatial.Proofs.Binary.Nearest
import Geospatial.Proofs.Binary.Operations
import Geospatial.Proofs.Binary.Ordering
import Geospatial.Proofs.Binary.Positivity
import Geospatial.Proofs.Binary.Representation
import Geospatial.Proofs.Binary.Rounding
import Geospatial.Proofs.Binary.Special
import Geospatial.Proofs.Binary.Value
import Geospatial.Proofs.Binary.Words
import Geospatial.Proofs.Bounds.Agreement
import Geospatial.Proofs.Bounds.Centre
import Geospatial.Proofs.Bounds.Congruence
import Geospatial.Proofs.Bounds.Conversion
import Geospatial.Proofs.Bounds.Digest
import Geospatial.Proofs.Bounds.Distance
import Geospatial.Proofs.Bounds.Finite
import Geospatial.Proofs.Bounds.Intersection
import Geospatial.Proofs.Bounds.Lookup
import Geospatial.Proofs.Bounds.Nearest
import Geospatial.Proofs.Bounds.Order
import Geospatial.Proofs.Bounds.Points
import Geospatial.Proofs.Bounds.Reach
import Geospatial.Proofs.Bounds.Region
import Geospatial.Proofs.Bounds.Segments
import Geospatial.Proofs.Columnar.Import
import Geospatial.Proofs.Columnar.RoundTrip
import Geospatial.Proofs.Coordinate.Deduplication
import Geospatial.Proofs.Decimal.ReadBack
import Geospatial.Proofs.Decimal.Rounding
import Geospatial.Proofs.Envelope.Canonical
import Geospatial.Proofs.Envelope.Growth
import Geospatial.Proofs.Envelope.Hull
import Geospatial.Proofs.Envelope.NullBounds
import Geospatial.Proofs.Envelope.Resizing
import Geospatial.Proofs.Extrema.Coverage
import Geospatial.Proofs.Extrema.FirstExtremum
import Geospatial.Proofs.Extrema.Narrowing
import Geospatial.Proofs.Extrema.Reattachment
import Geospatial.Proofs.Extrema.Refinement
import Geospatial.Proofs.Extrema.Scan
import Geospatial.Proofs.Geodesy.Divisors
import Geospatial.Proofs.Geodesy.Doubles
import Geospatial.Proofs.Geodesy.Exact
import Geospatial.Proofs.Geodesy.Foot
import Geospatial.Proofs.Geodesy.FullTurn
import Geospatial.Proofs.Geodesy.Headings
import Geospatial.Proofs.Geodesy.Longitudes
import Geospatial.Proofs.Geodesy.Meridian
import Geospatial.Proofs.Geodesy.Sentinel
import Geospatial.Proofs.Geodesy.Symmetry
import Geospatial.Proofs.Json.Envelopes
import Geospatial.Proofs.Json.RoundTrip
import Geospatial.Proofs.Ordinate.Compare
import Geospatial.Proofs.Ordinate.Exact
import Geospatial.Proofs.Ordinate.Laws
import Geospatial.Proofs.Packed.Building
import Geospatial.Proofs.Packed.Chunks
import Geospatial.Proofs.Packed.Lifetime
import Geospatial.Proofs.Packed.Packing
import Geospatial.Proofs.Packed.PastEnd
import Geospatial.Proofs.Packed.PlaneFrame
import Geospatial.Proofs.Packed.Readers
import Geospatial.Proofs.Packed.Reading
import Geospatial.Proofs.Packed.SessionStep
import Geospatial.Proofs.Packed.Slots
import Geospatial.Proofs.Packed.Sweep
import Geospatial.Proofs.Packed.Transparency
import Geospatial.Proofs.Packed.Writing
import Geospatial.Proofs.Position.Ordinates
import Geospatial.Proofs.Reading
import Geospatial.Proofs.Storage.Monotone
import Geospatial.Proofs.Storage.Narrowing
import Geospatial.Rect
import Geospatial.Segment
import Geospatial.Sequence
import Geospatial.Storage
