import MqttBenchmark.Lib.Transition
import MqttBenchmark.Lib.Simulation
import MqttBenchmark.Lib.Semaphore
import MqttBenchmark.Lib.Loop
import MqttBenchmark.Lib.Qsort
import MqttBenchmark.Payload.Def
import MqttBenchmark.Payload.RoundTrip
import MqttBenchmark.Payload.Cut
import MqttBenchmark.Payload.Buffer
import MqttBenchmark.Payload.Bounds
import MqttBenchmark.Process.Def
import MqttBenchmark.Process.Moves
import MqttBenchmark.Process.Frames
import MqttBenchmark.Process.Handoff
import MqttBenchmark.Process.Shutdown
import MqttBenchmark.Process.Publish
import MqttBenchmark.Process.Lifetime
import MqttBenchmark.Process.Lifecycle
import MqttBenchmark.Process.Receive
import MqttBenchmark.Process.Loss
import MqttBenchmark.Process.Reads
import MqttBenchmark.Report.Def
import MqttBenchmark.Report.Agree
import MqttBenchmark.Stats.Def
import MqttBenchmark.Stats.Run
import MqttBenchmark.Stats.Order
import MqttBenchmark.Stats.Trim
import MqttBenchmark.Stats.Deviation
import MqttBenchmark.Batch.Def
import MqttBenchmark.Batch.Files
import MqttBenchmark.Cluster.Def
import MqttBenchmark.Cluster.Moves
import MqttBenchmark.Cluster.Messages
import MqttBenchmark.Cluster.Runs
import MqttBenchmark.Cluster.FullInterference
import MqttBenchmark.Cluster.Clocks
import MqttBenchmark.Cluster.Packets
import MqttBenchmark.Cluster.NoInterference
import MqttBenchmark.Process.Stopped
import MqttBenchmark.FanIn.Def
import MqttBenchmark.FanIn.Rounds
import MqttBenchmark.KillPubs.Def
import MqttBenchmark.KillPubs.Confirmed
import MqttBenchmark.Process.Boundary
import MqttBenchmark.Process.Topics
import MqttBenchmark.Process.Checked
import MqttBenchmark.KillPubs.Coverage
import MqttBenchmark.Report.Failures
import MqttBenchmark.Lib.Strtok
import MqttBenchmark.Lib.Getopt
import MqttBenchmark.Args.Def
import MqttBenchmark.Args.Topics
import MqttBenchmark.Args.Safety
import MqttBenchmark.Args.Listed
import MqttBenchmark.Args.Threads
import MqttBenchmark.Lib.Reader
import MqttBenchmark.Lib.Varint
import MqttBenchmark.Lib.Keyed
import MqttBenchmark.Lib.Handshake
import MqttBenchmark.Lib.Handshake.Halves
import MqttBenchmark.Lib.Handshake.Lossless
import MqttBenchmark.Paho.Packet
import MqttBenchmark.Paho.Framing
import MqttBenchmark.Paho.Session
import MqttBenchmark.Paho.MsgIds
import MqttBenchmark.Paho.Exchange
import MqttBenchmark.Paho.ExactlyOnce
import MqttBenchmark.Paho.InOrder
import MqttBenchmark.Paho.Transport
import MqttBenchmark.Paho.Delivered
