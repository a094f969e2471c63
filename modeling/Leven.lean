import Leven.Transition.System
import Leven.Transition.History
import Leven.Transition.CondVar
import Leven.Transition.Backpressure
import Leven.Basic
import Leven.Acceptor
import Leven.Channel
import Leven.Channel.Family
import Leven.TcpConnection.Basic
import Leven.TcpConnection.Effect
import Leven.TcpConnection.Events
import Leven.TcpConnection.Run
import Leven.TcpConnection.Operations
import Leven.TcpConnection.Receive
import Leven.TcpConnection.StopRead
import Leven.TcpConnection.Stream
import Leven.TcpConnection.FlowControl
import Leven.TcpConnection.HalfClose
import Leven.TcpConnection.Shutdown
import Leven.TcpConnection.Closed
import Leven.TcpConnection.Threads
import Leven.TcpConnection.Callbacks
import Leven.TcpConnection.DispatchMask
import Leven.EventLoop.Basic
import Leven.EventLoop.Tasks
import Leven.EventLoop.Wakeup
import Leven.EventLoop.Jobs
import Leven.TcpServerThreaded.Basic
import Leven.TcpServerThreaded.Teardown
import Leven.TcpServerThreaded.Lifetime
import Leven.ThreadPool.Basic
import Leven.ThreadPool.Queue
import Leven.ThreadPool.Notify
import Leven.ThreadPool.Stop
import Leven.ThreadPool.Complete
import Leven.Container.SortedSet
import Leven.Container.RefHeap
import Leven.Container.Slice
import Leven.Container.Endian
import Leven.Buffer.Basic
import Leven.Buffer.Deque
import Leven.Buffer.Int
import Leven.Buffer.RoundTrip
import Leven.TimerQueue.Basic
import Leven.TimerQueue.Lifetime
import Leven.TimerQueue.Cancel
import Leven.TimerQueue.Schedule
import Leven.TimerQueue.Armed
import Leven.TimerQueue.Counts
import Leven.TimerQueue.Arithmetic
import Leven.TcpServer.Basic
import Leven.TcpServer.Connections
import Leven.TcpServer.Accept
import Leven.TcpServer.Owners
import Leven.TcpServer.Dispatch
import Leven.TcpServer.Teardown
import Leven.TcpServer.Deferred
import Leven.TcpConnection.Application
import Leven.EchoServer.Basic
import Leven.EchoServer.FlowControl
import Leven.EchoServer.Memory
import Leven.EchoServer.Stream
import Leven.EchoServer.Timeout
import Leven.EchoServer.Closed
import Leven.ChargenServer
import Leven.Transition.Component
import Leven.TcpServer.Registered
import Leven.TcpServer.Projection
import Leven.TcpConnection.Careful
import Leven.TcpServer.Safety
import Leven.TcpServer.Lifetime
import Leven.Container.RoundRobin
import Leven.Epoller
import Leven.Transition.Progress
import Leven.ThreadPool.Placed
import Leven.ThreadPool.Settle
import Leven.Container.Search
import Leven.Buffer.Find
