import Imq.Lib.Runs
import Imq.Lib.Threads
import Imq.Lib.Keeps
import Imq.Lib.Slots
import Imq.Lib.OrderedInsert
import Imq.Lib.BoundedSet
import Imq.Lib.FirstAt
import Imq.Lib.FirstFit
import Imq.Lib.Scanner
import Imq.Lib.Utf8
import Imq.Cpp
import Imq.Json
import Imq.Json.Dump
import Imq.Json.Lexer
import Imq.Json.Parser
import Imq.Queue
import Imq.HostAndPort
import Imq.Cluster
import Imq.RPC.Store
import Imq.RPC.Call
import Imq.RPC.ServerWorkerPool
import Imq.RPC.RemoteCall
import Imq.RPC.Server
import Imq.RPC.WorkLoop
import Imq.RPC.Exchange
import Imq.RPC.WorkerThreads
import Imq.Node
import Imq.NodeRun
import Imq.Health
import Imq.HealthThread
import Imq.Joining
import Imq.ConcurrentRegistration
import Imq.ConcurrentBootstrap
import Imq.NodeTraffic
import Imq.Unlocked
import Imq.Network
import Imq.TurnNetwork
import Imq.Verified.Queue
import Imq.Verified.Address
import Imq.Verified.Numeral
import Imq.Verified.JsonObject
import Imq.Verified.JsonTree
import Imq.Verified.JsonEscape
import Imq.Verified.JsonString
import Imq.Verified.JsonTokens
import Imq.Verified.JsonParser
import Imq.Verified.JsonRoundTrip
import Imq.Verified.JsonNul
import Imq.Verified.Table
import Imq.Verified.Views
import Imq.Verified.Wire
import Imq.Verified.Store
import Imq.Verified.Response
import Imq.Verified.PollLoop
import Imq.Verified.Get
import Imq.Verified.RemoteCall
import Imq.Verified.Server
import Imq.Verified.WorkLoop
import Imq.Verified.Exchange
import Imq.Verified.WorkerThreads
import Imq.Verified.Bootstrap
import Imq.Verified.ReceivedIndex
import Imq.Verified.Membership
import Imq.Verified.Registration
import Imq.Verified.NodesRequest
import Imq.Verified.Identity
import Imq.Verified.Joining
import Imq.Verified.ConcurrentRegistration
import Imq.Verified.ConcurrentBootstrap
import Imq.Verified.Callbacks
import Imq.Verified.Eviction
import Imq.Verified.HealthPass
import Imq.Verified.HealthThread
import Imq.Verified.FailureRecords
import Imq.Verified.NodeTraffic
import Imq.Verified.Unlocked
import Imq.Verified.NodeThreads
import Imq.Verified.NetworkAlone
import Imq.Verified.Network
import Imq.Verified.NetworkPass
import Imq.Verified.NetworkEviction
import Imq.Verified.Turns
import Imq.Verified.NetworkJoining
import Imq.Verified.NetworkForming
import Imq.Verified.JoiningNetwork
import Imq.Verified.NetworkWorkers
