import ArstQuote.QueueLocalWindow
import ArstQuote.TickSuppression
import ArstQuote.ClientStreams
import ArstQuote.SharedClient
import ArstQuote.SendMessage
import ArstQuote.ClientIterators
import ArstQuote.RelayThreads
import ArstQuote.HeartbeatLoss
import ArstQuote.ServerStartup
import ArstQuote.ServerPool
import ArstQuote.PoolResources
import ArstQuote.PoolSlots
import ArstQuote.AcceptLoop
import ArstQuote.LineReader
import ArstQuote.RelaySafety
import ArstQuote.LineFraming
import ArstQuote.HeartbeatTrace
import ArstQuote.HeartbeatMachine
import ArstQuote.WorkerTeardown
import ArstQuote.ThreadUsage
import ArstQuote.SocketRelease
import ArstQuote.RecvAll
import ArstQuote.TextFormats
import ArstQuote.HeartbeatMessages
import ArstQuote.ConfigReaders
import ArstQuote.ErrorLog
import ArstQuote.TickNumber
import ArstQuote.HeartbeatTriggers
import ArstQuote.EventLibrary
import ArstQuote.EventMoves
import ArstQuote.EventLocks
import ArstQuote.EventReferences
import ArstQuote.EventWaits
import ArstQuote.EventOutcomes
import ArstQuote.EventWakeups
import ArstQuote.EventDeadlock
import ArstQuote.EventSettling
import ArstQuote.RequestLoop
import ArstQuote.RequestRest
import ArstQuote.LossyChannels
import ArstQuote.QuoteProcess
import ArstQuote.QuoteDelivery
import ArstQuote.GetInstance
import ArstQuote.SerialNumbers
import ArstQuote.EventProjection
import ArstQuote.EventRefinement
import ArstQuote.EventSignals
