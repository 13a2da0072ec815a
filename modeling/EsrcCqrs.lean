import EsrcCqrs.AggregateHistory
import EsrcCqrs.SingleWriter
import EsrcCqrs.DispatcherReplies
import EsrcCqrs.Registry
import EsrcCqrs.CallerResults
import EsrcCqrs.CallerErrors
import EsrcCqrs.MemoryReplay
import EsrcCqrs.MemoryRestarts
import EsrcCqrs.RejectedCommands
import EsrcCqrs.Redelivery
import EsrcCqrs.LiveQueries
import EsrcCqrs.StoreClones
import EsrcCqrs.PanickingApply
import EsrcCqrs.ServiceFailures
import EsrcCqrs.CafeDomain
import EsrcCqrs.ErrorConversions
import EsrcCqrs.LiveStreams
import EsrcCqrs.GivenRoots
import EsrcCqrs.CafeOrders
import EsrcCqrs.Contention
import EsrcCqrs.MisroutedRequests
import EsrcCqrs.ServiceCommands
import EsrcCqrs.Sessions
import EsrcCqrs.StreamSessions
import EsrcCqrs.SessionAccounts
import EsrcCqrs.LockProgress
import EsrcCqrs.ViewCalls
import EsrcCqrs.CafeSessions
import EsrcCqrs.Projectors
