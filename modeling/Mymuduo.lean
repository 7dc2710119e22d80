import Mymuduo.Lib.Iteration
import Mymuduo.Lib.Transition
import Mymuduo.Lib.CString
import Mymuduo.Lib.Lines
import Mymuduo.Lib.ResponseMessage
import Mymuduo.Lib.ResponseStream
import Mymuduo.Lib.Backlog
import Mymuduo.Lib.LexicalPath
import Mymuduo.Lib.OrderedSet
import Mymuduo.Lib.Tally
import Mymuduo.Lib.CondVar
import Mymuduo.Lib.CInt
import Mymuduo.Lib.CIntType
import Mymuduo.Lib.FixedWidth
import Mymuduo.Lib.Gregorian
import Mymuduo.Lib.ByteOrder
import Mymuduo.Lib.Numeral
import Mymuduo.Lib.LowerBound
import Mymuduo.Lib.Reading
import Mymuduo.Base.Timestamp
import Mymuduo.Base.Date
import Mymuduo.Base.UtcTime
import Mymuduo.Base.TimeText
import Mymuduo.Base.Mutex
import Mymuduo.Base.BlockingQueue
import Mymuduo.Base.Thread
import Mymuduo.Base.ThreadPool
import Mymuduo.Base.PoolConditions
import Mymuduo.Base.LogStream
import Mymuduo.Base.FormatInteger
import Mymuduo.Base.Logging
import Mymuduo.Base.AsyncLogging
import Mymuduo.Base.LogFile
import Mymuduo.Base.LogPipeline
import Mymuduo.Base.StopLogging
import Mymuduo.Base.Atomic
import Mymuduo.Net.Buffer
import Mymuduo.Net.TypedInts
import Mymuduo.Net.RawBuffer
import Mymuduo.Net.ByteDeque
import Mymuduo.Net.Channel
import Mymuduo.Net.TcpConnection
import Mymuduo.Net.SendBuffer
import Mymuduo.Net.Sending
import Mymuduo.Net.BufferedOutput
import Mymuduo.Net.BesideFile
import Mymuduo.Net.FileTransfer
import Mymuduo.Net.SendFileOwnership
import Mymuduo.Net.WriteInterest
import Mymuduo.Net.WriteComplete
import Mymuduo.Net.HighWater
import Mymuduo.Net.Dispatch
import Mymuduo.Net.LifeCycle
import Mymuduo.Net.Poller
import Mymuduo.Net.PollTable
import Mymuduo.Net.DeclaredInterest
import Mymuduo.Net.PollerTables
import Mymuduo.Net.Polling
import Mymuduo.Net.ChannelRemoval
import Mymuduo.Net.Teardown
import Mymuduo.Net.SharedConnection
import Mymuduo.Net.PendingShutdown
import Mymuduo.Net.ShutdownOrder
import Mymuduo.Net.AskedShutdown
import Mymuduo.Net.Acceptor
import Mymuduo.Net.TcpServer
import Mymuduo.Net.Bookkeeping
import Mymuduo.Net.ConnectionMap
import Mymuduo.Net.OwnLoop
import Mymuduo.Net.ServerDestructor
import Mymuduo.Net.ServerEnd
import Mymuduo.Net.TimerQueue
import Mymuduo.Net.TimerHeap
import Mymuduo.Net.TimerSets
import Mymuduo.Net.TimerCancel
import Mymuduo.Net.TimerBatch
import Mymuduo.Net.TimerArming
import Mymuduo.Net.EventLoop
import Mymuduo.Net.WakeUp
import Mymuduo.Net.EventLoopThread
import Mymuduo.Net.LoopLifetime
import Mymuduo.Net.Quitting
import Mymuduo.Net.Connector
import Mymuduo.Net.ConnectAttempt
import Mymuduo.Net.SocketFates
import Mymuduo.Net.TcpClient
import Mymuduo.Http.HttpRequest
import Mymuduo.Http.HttpContext
import Mymuduo.Http.BodyFraming
import Mymuduo.Http.BadLength
import Mymuduo.Http.HeadParser
import Mymuduo.Http.Segmentation
import Mymuduo.Http.Isolation
import Mymuduo.Http.HttpResponse
import Mymuduo.Http.ResponseDecoding
import Mymuduo.Http.HttpServer
import Mymuduo.Http.RequestText
import Mymuduo.Http.Pipelining
import Mymuduo.Http.Exchange
import Mymuduo.Http.AfterClose
import Mymuduo.Http.HeadLines
import Mymuduo.Http.Termination
import Mymuduo.Http.HeadDecoding
import Mymuduo.Http.HeadGrammar
import Mymuduo.Http.RejectedLine
import Mymuduo.Http.Pages
import Mymuduo.Http.FileServer
import Mymuduo.Http.Confinement
import Mymuduo.Http.DirectoryListing
import Mymuduo.Http.Ranges
import Mymuduo.Http.BadRange
import Mymuduo.Http.LengthHonesty
import Mymuduo.Http.ResponseOrder
import Mymuduo.Base.ZoneFile
import Mymuduo.Base.LocalTime
import Mymuduo.Base.ZoneRoundTrip
