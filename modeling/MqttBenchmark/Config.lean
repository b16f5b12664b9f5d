/-
  MqttBenchmark.Config
  ────────────────────
  **THE CONFIGURATION OF ONE BENCHMARK PROCESS.**

  `mqtt.c` keeps its configuration in globals that `parse_args` writes once,
  before any thread exists; every later function only reads them.  A
  `Config` is what the threads and callbacks read.  (`BROKER`,
  `MSG_INTERVAL` and `LOG_ENABLE` are used to connect, to sleep and to
  print, and decide nothing here.)
-/
import MqttBenchmark.Lib.Bytes

namespace MqttBenchmark

open Lib

/-- The topic whose messages signal thread kill (`pubkill` in `mqtt.c`). -/
def pubkill : String := "pubkill"

/-- The globals that the threads of one process read. -/
structure Config where
  /-- `CLIENTID` -/
  clientId : CString
  /-- `PUBS[0..NUM_PUBS)` -/
  pubs : List String
  /-- `SUBS[0..NUM_SUBS)` -/
  subs : List String
  /-- `MAX_ITER` -/
  maxIter : UInt32
  /-- `PAYLOAD_SIZE` -/
  payloadSize : UInt32
  /-- `QOS` -/
  qos : UInt32

namespace Config

/-- `NUM_PUBS` -/
def numPubs (cfg : Config) : Nat := cfg.pubs.length

/-- `NUM_SUBS` -/
def numSubs (cfg : Config) : Nat := cfg.subs.length

/-- `PUBS[0]`, the topic every publish thread uses. -/
def pub0 (cfg : Config) : String := cfg.pubs.headD ""

/-- `SUBS[0]`, the topic every subscribe thread uses. -/
def sub0 (cfg : Config) : String := cfg.subs.headD ""

end Config

/-- `"test-client"`, the default `CLIENTID`. -/
def testClient : CString :=
  ⟨[116, 101, 115, 116, 45, 99, 108, 105, 101, 110, 116], by decide⟩

/-- The configuration of `./benchmark --pub=.. --sub=..` with every other
option at its default in `mqtt.c`. -/
def Config.default (pubs subs : List String) : Config where
  clientId := testClient
  pubs := pubs
  subs := subs
  maxIter := 20
  payloadSize := 64
  qos := 1

end MqttBenchmark
