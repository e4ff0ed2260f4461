import NavopExtensions.Clickhouse.Query
import NavopExtensions.Clickhouse.Numbers
import NavopExtensions.Clickhouse.Alter
import NavopExtensions.Composite.Blobs
import NavopExtensions.Composite.Elasticsearch.Streams
import NavopExtensions.Composite.Timestamps
import NavopExtensions.Dbipc.Ddl.Alter
import NavopExtensions.Dbipc.Integers
import NavopExtensions.Docker.Isolation
import NavopExtensions.Duckdb.Cursor
import NavopExtensions.Duckdb.Export
import NavopExtensions.Duckdb.Csv
import NavopExtensions.Duckdb.Temporal
import NavopExtensions.Dbipc.Csv
import NavopExtensions.Dbipc.Ddl.Quoting
import NavopExtensions.Duckdb.Threshold
import NavopExtensions.Duckdb.Wrapping
import NavopExtensions.Gbase8a.Transactions
import NavopExtensions.Importers.Agreement
import NavopExtensions.Importers.Identity
import NavopExtensions.Lib.Bytes
import NavopExtensions.Lib.Fallible
import NavopExtensions.Lib.Machine
import NavopExtensions.Lib.Overlay
import NavopExtensions.Lib.Raster
import NavopExtensions.Mobaxterm.Inverse
import NavopExtensions.Mobaxterm.Ownership
import NavopExtensions.Mqtt.EventStream.Limit
import NavopExtensions.Mqtt.EventStream.Order
import NavopExtensions.Mqtt.Paging
import NavopExtensions.Opengauss.Alter
import NavopExtensions.Opengauss.Cells
import NavopExtensions.Opengauss.Imports
import NavopExtensions.Rdp.Clipboard.Agreement
import NavopExtensions.Rdp.Clipboard.EndToEnd
import NavopExtensions.Rdp.Clipboard.Outcomes
import NavopExtensions.Rdp.Clipboard.Safety
import NavopExtensions.Rdp.Clipboard.Stageable
import NavopExtensions.Rdp.Input.Pointer
import NavopExtensions.Rdp.Mailbox.Backlog
import NavopExtensions.Rdp.Mailbox.Barrier
import NavopExtensions.Rdp.Mailbox.Control
import NavopExtensions.Rdp.Mailbox.Faithful
import NavopExtensions.Rdp.Mailbox.Folding
import NavopExtensions.Rdp.Output.Grammar
import NavopExtensions.Rdp.Pacing.Books
import NavopExtensions.Redis.Retry
import NavopExtensions.Rocketmq.Remoting.Table
import NavopExtensions.Rocketmq.MsgId
import NavopExtensions.Rocketmq.Properties
import NavopExtensions.Rocketmq.Signing
import NavopExtensions.Rocketmq.TimeWindow.Paging
import NavopExtensions.Securecrt.Provenance
import NavopExtensions.Vnc.Bounds
import NavopExtensions.Vnc.Coalescing
import NavopExtensions.Vnc.Mailbox.Generations
import NavopExtensions.Vnc.Picture
import NavopExtensions.Vnc.Reconnect.Clipboard
import NavopExtensions.ExtensionProtocol.Ddl
import NavopExtensions.Lib.Catalog
import NavopExtensions.Gbase8a.Cursors
import NavopExtensions.Rdp.Mailbox.Checked
import NavopExtensions.Docker.FileBrowser
import NavopExtensions.Gbase8a.Alter
import NavopExtensions.Gbase8a.Definitions
import NavopExtensions.Gbase8a.Export
import NavopExtensions.Dbipc.Batches
import NavopExtensions.Dbipc.Delivery
import NavopExtensions.Dbipc.Imports
import NavopExtensions.Dbipc.Streams
import NavopExtensions.Dbipc.Transactions
import NavopExtensions.Ipc.Framing
