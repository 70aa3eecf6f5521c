import FreeOnline.Kit.Bitmap
import FreeOnline.Browser.DeltaChunk
import FreeOnline.Kit.Delta
import FreeOnline.Kit.DeltaRoundTrip
import FreeOnline.Kit.RenderTiles
import FreeOnline.Library.Run
import FreeOnline.Tiles.ClientChain
import FreeOnline.Tiles.DeltaChain
import FreeOnline.Kit.DeltaPastEnd
import FreeOnline.Tiles.DeltaStream
import FreeOnline.Library.Frames
import FreeOnline.Library.Stream
import FreeOnline.Net.HttpChunks
import FreeOnline.Net.WebSocketFragments
import FreeOnline.Net.WebSocketMemory
import FreeOnline.Net.WebSocketRoundTrip
import FreeOnline.Wsd.DocumentBroker
import FreeOnline.Wsd.SenderQueue
import FreeOnline.Wsd.StopSafety
import FreeOnline.Net.ChunkedRequest
import FreeOnline.Net.FileDownload
import FreeOnline.Net.HttpCompletion
import FreeOnline.Net.HttpContentLength
import FreeOnline.Net.HttpMalformed
import FreeOnline.Wsd.KeyframeRequests
import FreeOnline.Wsd.TileCacheSize
import FreeOnline.Wsd.RenameActivity
import FreeOnline.Wsd.UploadAttributes
import FreeOnline.Wsd.TilesOnFly
import FreeOnline.Wsd.OrphanSubscriptions
import FreeOnline.Wsd.TileCombinedText
import FreeOnline.Common.InputMessages
import FreeOnline.Common.InvalidationCallbacks
import FreeOnline.Wsd.ProxyMessages
import FreeOnline.Net.FakeSocketConnections
import FreeOnline.Net.FakeSocketStreams
import FreeOnline.Wsd.QuarantineConsistency
import FreeOnline.Browser.SheetZoom
import FreeOnline.Wsd.CacheFileName
import FreeOnline.Wsd.TileCacheEviction
import FreeOnline.Wsd.AdminModel
import FreeOnline.Common.CancelTiles
import FreeOnline.Common.TileQueueOrder
import FreeOnline.Browser.SlurpQueue
import FreeOnline.Common.CallbackDuplicates
import FreeOnline.Wsd.TileInvalidation
import FreeOnline.Tiles.CombinedResponse
import FreeOnline.Kit.CombinedRendering
import FreeOnline.Library.Recency
import FreeOnline.Common.CursorPositions
import FreeOnline.Wsd.RequestOutcomes
import FreeOnline.Net.Buffer
import FreeOnline.Net.StatusLineParse
import FreeOnline.Net.StatusLineText
import FreeOnline.Net.HttpRequest
import FreeOnline.Net.RequestPieces
import FreeOnline.Wsd.WriteableSession
import FreeOnline.Kit.ThreadPool
import FreeOnline.Library.LastCall
import FreeOnline.Wsd.FileServerUtil
import FreeOnline.Library.PatternMap
import FreeOnline.Wsd.HostUtil
import FreeOnline.Wsd.DocumentKeys
import FreeOnline.Wsd.Bandwidth
import FreeOnline.Browser.OutlineGroups
import FreeOnline.Browser.GridLines
import FreeOnline.Browser.SheetConversion
import FreeOnline.Browser.SheetRounding
import FreeOnline.Browser.SheetUpdates
import FreeOnline.Browser.TileRequests
import FreeOnline.Browser.TilePrefetch
import FreeOnline.Browser.CommentThreads
import FreeOnline.Library.LinkedRun
import FreeOnline.Library.Pushed
import FreeOnline.Browser.CommentLayout
import FreeOnline.Browser.CommentList
import FreeOnline.Browser.CommentOrder
import FreeOnline.Browser.CommentRuns
import FreeOnline.Common.Tokenizer
import FreeOnline.Common.Authorization
import FreeOnline.Net.BlankLine
import FreeOnline.Kit.DeltaRebalance
import FreeOnline.Library.InputStream
import FreeOnline.Common.Clipboard
import FreeOnline.Wsd.TraceFile
import FreeOnline.Library.HexBytes
import FreeOnline.Library.Utf16
import FreeOnline.Browser.HexString
import FreeOnline.Wsd.RequestDetails
import FreeOnline.Wsd.HexifiedRequests
import FreeOnline.Library.PercentCoding
import FreeOnline.Wsd.RequestUri
import FreeOnline.Browser.NumberText
import FreeOnline.Browser.TileKeys
import FreeOnline.Net.HeaderMap
import FreeOnline.Library.WeakOrder
import FreeOnline.Wsd.SortPredicates
import FreeOnline.Common.SafeAtoi
import FreeOnline.Browser.ArraySearch
import FreeOnline.Common.Timestamps
import FreeOnline.Library.OrderedMap
import FreeOnline.Library.Pairing
import FreeOnline.Library.AlternatingTrail
import FreeOnline.Browser.CPolyUtil
import FreeOnline.Browser.OutlineGlue
import FreeOnline.Browser.OutlineRows
import FreeOnline.Browser.OutlineTrace
import FreeOnline.Browser.SelectionOutline
import FreeOnline.Library.Rounds
import FreeOnline.Net.SocketPoll
import FreeOnline.Wsd.Forwarding
import FreeOnline.Wsd.ChildPool
import FreeOnline.Library.Interning
import FreeOnline.Wsd.CanonicalViews
import FreeOnline.Browser.TextInput
import FreeOnline.Browser.TypedInput
