import CsvQuery.Main
import CsvQuery.Proofs.Cell.Order
import CsvQuery.Proofs.Number.Binary64
import CsvQuery.Roles.Launch
import CsvQuery.Roles.Session
import CsvQuery.Wire.Serve
import CsvQuery.Proofs.Cell.Key
import CsvQuery.Proofs.Join.EquiJoin
import CsvQuery.Proofs.Table.Sorting
import CsvQuery.Proofs.Join.Merge
import CsvQuery.Proofs.Join.Alignment
import CsvQuery.Proofs.Csv.RoundTrip
import CsvQuery.Proofs.Cell.Display
import CsvQuery.Proofs.Query.Strategy
import CsvQuery.Proofs.Query.Reply
import CsvQuery.Proofs.Csv.Cut
import CsvQuery.Cell.Compare
import CsvQuery.Proofs.Cell.Compare
import CsvQuery.Proofs.Cell.Value
import CsvQuery.Proofs.Storage.FifoCache
import CsvQuery.Proofs.Storage.History
import CsvQuery.Proofs.Wire.Dialogue
import CsvQuery.Proofs.Wire.Serve
import CsvQuery.Proofs.Wire.Isolation
import CsvQuery.Proofs.Storage.CacheLog
import CsvQuery.Proofs.Query.Failure
import CsvQuery.Proofs.Storage.FileName
import CsvQuery.Proofs.Wire.Remote
import CsvQuery.Proofs.Wire.Stream
import CsvQuery.Proofs.Wire.Fetch
import CsvQuery.Proofs.Wire.Prompt
import CsvQuery.Proofs.Storage.NormalName
import CsvQuery.Proofs.Cell.Hash
import CsvQuery.Proofs.Table.Ordering
import CsvQuery.Proofs.Table.Grouping
import CsvQuery.Proofs.Table.Projection
import CsvQuery.Proofs.Csv.LineEnds
import CsvQuery.Proofs.Cell.Infer
import CsvQuery.Proofs.Table.IntegerKeys
import CsvQuery.Proofs.Query.Written
import CsvQuery.Proofs.Join.Cursors
import CsvQuery.Proofs.Query.Limit
import CsvQuery.Proofs.Json.Written
import CsvQuery.Proofs.Settings.RoundTrip
