import MiniSQL.Lib.Mem
import MiniSQL.Lib.Run
import MiniSQL.Lib.Links
import MiniSQL.Common.Config
import MiniSQL.Page.BitmapPage
import MiniSQL.Page.IndexRootsPage
import MiniSQL.Page.HeaderPage
import MiniSQL.Page.RootOverflow
import MiniSQL.Storage.DiskManager
import MiniSQL.Storage.PageAllocator
import MiniSQL.Storage.AllocatorRuns
import MiniSQL.Storage.PhysicalFile
import MiniSQL.Storage.PhysicalDisk
import MiniSQL.Storage.UnreadBitmap
import MiniSQL.Buffer.LRUReplacer
import MiniSQL.Buffer.BufferPoolManager
import MiniSQL.Buffer.Frames
import MiniSQL.Buffer.MirroredPool
import MiniSQL.Buffer.Queues
import MiniSQL.Buffer.Pins
import MiniSQL.Buffer.Coherence
import MiniSQL.Lib.Codec
import MiniSQL.Lib.Blocks
import MiniSQL.Lib.Directory
import MiniSQL.Record.Schema
import MiniSQL.Record.Row
import MiniSQL.Catalog.Metadata
import MiniSQL.Page.TablePage
import MiniSQL.Page.SlotMap
import MiniSQL.Page.SlotMapRuns
import MiniSQL.Page.SlotLayout
import MiniSQL.Page.SlotGeometry
import MiniSQL.Page.ApplyDelete
import MiniSQL.Page.TupleAddress
import MiniSQL.Buffer.Resident
import MiniSQL.Storage.TableHeap
import MiniSQL.Storage.HeapChain
import MiniSQL.Storage.HeapInsert
import MiniSQL.Storage.TableIterator
import MiniSQL.Buffer.Contents
import MiniSQL.Buffer.Evictions
import MiniSQL.Buffer.Replacement
import MiniSQL.Buffer.PhysicalPool
import MiniSQL.Buffer.Orderly
import MiniSQL.Storage.HeapGrow
import MiniSQL.Storage.PinNeutral
import MiniSQL.Storage.PoolSize
import MiniSQL.Storage.FreeHeap
import MiniSQL.Storage.OversizedRows
import MiniSQL.Storage.PageLinks
import MiniSQL.Buffer.Lasting
import MiniSQL.Buffer.Resting
import MiniSQL.Storage.HeapView
import MiniSQL.Storage.HeapScan
import MiniSQL.Storage.UpdateDelete
import MiniSQL.Catalog.CatalogManager
import MiniSQL.Catalog.OpenPins
import MiniSQL.Catalog.TableDirectory
import MiniSQL.Catalog.DropTable
import MiniSQL.Catalog.IndexDirectory
import MiniSQL.Catalog.IndexCreation
import MiniSQL.Buffer.FailedCalls
import MiniSQL.Record.Compare
import MiniSQL.Index.GenericKey
import MiniSQL.Index.KeyOrder
import MiniSQL.Index.ScanKey
import MiniSQL.Parser.SyntaxTree
import MiniSQL.Parser.Grammar
import MiniSQL.Parser.Reading
import MiniSQL.Planner.Predicate
import MiniSQL.Planner.SelectPlan
import MiniSQL.Planner.NumberLiteral
import MiniSQL.Catalog.KeySize
import MiniSQL.Catalog.KeyExtraction
import MiniSQL.Catalog.Reopen
import MiniSQL.Catalog.Survival
import MiniSQL.Lib.LR
import MiniSQL.Lib.LRComplete
import MiniSQL.Lib.LRClients
import MiniSQL.Parser.YaccTables
import MiniSQL.Parser.YaccItems
import MiniSQL.Parser.Phrase
import MiniSQL.Parser.Actions
import MiniSQL.Parser.Yacc
import MiniSQL.Parser.Statements
import MiniSQL.Lib.Scan
import MiniSQL.Parser.LexTables
import MiniSQL.Parser.LexRules
import MiniSQL.Parser.Lexer
import MiniSQL.Parser.Parsing
