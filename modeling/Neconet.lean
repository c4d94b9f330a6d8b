import Neconet.Net.BufferQueue
import Neconet.Net.PollerRuns
import Neconet.Net.EventLoop
import Neconet.Net.ConnectionOver
import Neconet.Net.TcpConnection
import Neconet.Net.TcpConnectionRuns
import Neconet.Net.ConnectionLoop
import Neconet.Net.SendOrder
import Neconet.Net.GracefulShutdown
import Neconet.Net.FunctorLifetime
import Neconet.Net.TcpServer
import Neconet.Net.LifeCycle
import Neconet.Net.BufferRead
import Neconet.Net.ServerTable
import Neconet.Base.MutexLock
import Neconet.Base.CountDownLatch
import Neconet.Base.Thread
import Neconet.Net.QuitLoop
import Neconet.Net.EventLoopThread
import Neconet.Net.ThreadLife
import Neconet.Lib.OrderedSet
import Neconet.Net.TimerQueue
import Neconet.Lib.Ownership
import Neconet.Net.TimerOwnership
import Neconet.Net.TimerLife
import Neconet.Net.TimerArming
import Neconet.Net.PolledServer
import Neconet.Net.ReleaseOrder
import Neconet.Net.Teardown
import Neconet.Net.BufferAlike
import Neconet.Net.BufferShrink
import Neconet.Net.Acceptor
import Neconet.Net.PollerPoll
import Neconet.Net.TimerPass
import Neconet.Lib.Spaced
import Neconet.Net.TimedLoop
import Neconet.Net.TimerPeriods
import Neconet.Net.TimerAlarm
import Neconet.Net.BufferCapacity
import Neconet.Net.ConnectionCalls
import Neconet.Net.ConnectionBuffers
import Neconet.Net.DiscardServer
import Neconet.Net.Dispatch
import Neconet.Net.HostPort
import Neconet.Base.ThreadObject
import Neconet.Lib.Progress
import Neconet.Base.ThreadStart
import Neconet.Net.LoopThreadStart
import Neconet.Lib.Behaviour
import Neconet.Net.LoopProgress
import Neconet.Lib.SortedText
import Neconet.Lib.Printf
import Neconet.Lib.Calendar
import Neconet.Base.TimestampText
import Neconet.Base.CurrentThread
import Neconet.Net.TimerPlaces
import Neconet.Net.TimerProgress
import Neconet.Net.TimersRun
import Neconet.Net.CloseProgress
