import DataEngine.Lib.Effect
import DataEngine.Lib.DoWhile
import DataEngine.Json
import DataEngine.Config.ConfigParse
import DataEngine.Protocol.ProtocolManager
import DataEngine.Task.TaskCenter
import DataEngine.Rational
import DataEngine.Engine
import DataEngine.Plug.IEC104.TransIEC104
import DataEngine.Lib.Trace
import DataEngine.Plug.IEC104.Replies
import DataEngine.Plug.IEC104.Run
import DataEngine.Plug.IEC104.Counters
import DataEngine.Plug.IEC104.Framing
import DataEngine.Plug.IEC104.Stream
import DataEngine.Tool.ExpParser
import DataEngine.Data.DataStorage
import DataEngine.Lib.Memory
import DataEngine.Data.PointMap
import DataEngine.Data.Calls
import DataEngine.Data.Bulk
import DataEngine.Data.Transmit
import DataEngine.Lib.Interleave
import DataEngine.Data.Accesses
import DataEngine.Data.Snapshot
import DataEngine.Lib.Precedence
import DataEngine.Tool.Formula
import DataEngine.Tool.Lexer
import DataEngine.Tool.Evaluate
import DataEngine.Tool.Language
import DataEngine.Tool.Accept
import DataEngine.Tool.Replace
import DataEngine.Tool.Printed
import DataEngine.Data.Reference
import DataEngine.Data.Substitute
import DataEngine.Lib.Counting
import DataEngine.Lib.Machine
import DataEngine.Channel.MsgHandle
import DataEngine.Channel.ChannelBase
import DataEngine.Channel.StaleReply
import DataEngine.Channel.Registration
import DataEngine.Config.Parse
import DataEngine.Channel.ChannelManager
import DataEngine.Task.StartUp
import DataEngine.Protocol.Exclusion
import DataEngine.Semaphore
import DataEngine.Plug.IEC104.Segments
import DataEngine.Plug.IEC104.Interrogation
import DataEngine.Plug.IEC104.Reframing
import DataEngine.Plug.IEC104.Reconnect
import DataEngine.Lib.PriorityList
import DataEngine.MsgQue.MsgQue
import DataEngine.MsgQue.Concurrent
import DataEngine.MsgQue.Linear
import DataEngine.Lib.Watch
import DataEngine.Plug.IEC104.Octets
import DataEngine.Plug.IEC104.Bounds
import DataEngine.Protocol.Pairing
import DataEngine.Task.Listening
import DataEngine.Thread.ThreadWrap
import DataEngine.Thread.ThreadPool
import DataEngine.Thread.Tasks
import DataEngine.Thread.Finishing
import DataEngine.Lib.Digits
import DataEngine.Log.Log
import DataEngine.Plug.IEC104.Measurements
import DataEngine.Plug.IEC104.Transaction
import DataEngine.Plug.IEC104.Values
import DataEngine.Plug.IEC104.Dialogue
import DataEngine.Plug.IEC104.Told
import DataEngine.Plug.IEC104.Clock
import DataEngine.Tool.Unselected
import DataEngine.Data.Shape
import DataEngine.Task.Grouping
import DataEngine.Config.Template
import DataEngine.Config.Listing
import DataEngine.Log.Rollback
import DataEngine.Log.Rotation
import DataEngine.Log.Contents
import DataEngine.Lib.Text
import DataEngine.Log.Frames
import DataEngine.Log.LogManager
import DataEngine.Tool.Spacing
import DataEngine.Tool.Split
import DataEngine.Channel.WhiteList
import DataEngine.Data.Conversion
import DataEngine.Plug.CollModbus
import DataEngine.Function.Signal
import DataEngine.Function.Emission
import DataEngine.MsgQue.Reset
import DataEngine.Lib.Unbounded
import DataEngine.Tool.Progress
import DataEngine.Config.Lookup
import DataEngine.Data.Initial
