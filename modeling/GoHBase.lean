import GoHBase.Lib.ByteString
import GoHBase.Lib.Runtime
import GoHBase.Lib.OrderedTree
import GoHBase.Lib.Buffer
import GoHBase.Lib.RangeLoop
import GoHBase.Lib.Grouping
import GoHBase.RegionNameCore
import GoHBase.RegionNameOrder
import GoHBase.CacheCore
import GoHBase.CacheInvariant
import GoHBase.CacheLookup
import GoHBase.CellblockCore
import GoHBase.CellblockRoundTrip
import GoHBase.MutateCore
import GoHBase.MutateEncodings
import GoHBase.MultiCore
import GoHBase.MultiGrouping
import GoHBase.MultiDemux
import GoHBase.MultiLayout
import GoHBase.ScannerCore
import GoHBase.ScannerDrain
import GoHBase.ScannerVisits
import GoHBase.ScannerForward
import GoHBase.ScannerReversed
import GoHBase.ClientCore
import GoHBase.ClientInvariant
import GoHBase.ClientDelivery
import GoHBase.ClientFailure
import GoHBase.CompressorCore
import GoHBase.CompressorRoundTrip
import GoHBase.ClientInFlight
import GoHBase.ScannerRouting
import GoHBase.Lib.Varint
import GoHBase.RequestCore
import GoHBase.ScannerLifecycle
import GoHBase.RequestFraming
import GoHBase.ClientBatch
import GoHBase.BatchCore
import GoHBase.BatchResults
import GoHBase.ClientFlush
import GoHBase.BatchOrder
import GoHBase.RoutingCore
import GoHBase.RoutingOwnership
import GoHBase.RoutingSequential
import GoHBase.RoutingMapping
import GoHBase.CacheHistory
import GoHBase.MutateRequests
import GoHBase.MultiCells
import GoHBase.ScannerReassembly
import GoHBase.BatchVerdict
import GoHBase.ScannerLatch
import GoHBase.CellblockDecoding
import GoHBase.CompressorDecoding
import GoHBase.BatchRejection
import GoHBase.MetaRow
import GoHBase.ResponseCore
import GoHBase.ResponseFraming
import GoHBase.MultiValidation
import GoHBase.CachePut
import GoHBase.Lib.Capacity
import GoHBase.Lib.Fuel
import GoHBase.Lib.Interleaving
import GoHBase.Lib.Returns
import GoHBase.QueryCore
import GoHBase.QueryRequests
import GoHBase.RoutingCaches
import GoHBase.RoutingRows
import GoHBase.ScannerRows
import GoHBase.Lib.Retry
import GoHBase.SendRpc
import GoHBase.LookupCore
import GoHBase.LookupMeta
import GoHBase.LookupRegion
import GoHBase.Lib.Frames
import GoHBase.Conversation
import GoHBase.MultiExchange
import GoHBase.Dial
import GoHBase.AdminProcedures
import GoHBase.ConnectionStream
import GoHBase.Lib.Protowire
import GoHBase.Lib.Channel
import GoHBase.FilterCore
import GoHBase.FilterRoundTrip
import GoHBase.FilteredQueries
