/-
  MqttBenchmark.Payload.Buffer
  ────────────────────────────
  **A PAYLOAD BUFFER FROM ITS `malloc` TO A PUBLISH.**

  `publish_thread` checks no size: its writes go on into whatever lies behind
  the buffer, as far as that memory is there.

    • `Fits`, `Plain` — a header inside the payload, in a packet with its QoS,
    • `Writable` — the sizes at which the writes stay in the memory,
    • `Written`, `Stamped` — the buffer before and after a stamp,
    • `Stamped.decodes` — the header `msgarrvd` reads of it.
-/
import MqttBenchmark.Payload.Cut

namespace MqttBenchmark

open Lib

/-! ## §1. Sizes. -/

/-- The header fits the payload. -/
def Fits (cfg : Config) : Prop := cfg.clientId.bytes.length + 13 ≤ cfg.payloadSize.toNat

instance (cfg : Config) : Decidable (Fits cfg) := inferInstanceAs (Decidable (_ ≤ _))

/-- The header fits the payload, and the two bits of the header are the QoS. -/
structure Plain (cfg : Config) : Prop where
  fits : Fits cfg
  qos : cfg.qos ≤ 2

/-- `publish_thread` can write its payload: the filler loop ends, and client
id, counter and timestamp end in the buffer or in the `slack` bytes behind
it. -/
structure Writable (cfg : Config) (slack : Nat) : Prop where
  pos : 0 < cfg.payloadSize.toNat
  size : cfg.payloadSize.toNat ≤ 2 ^ 31
  clientId : cfg.clientId.bytes.length + 1 ≤ cfg.payloadSize.toNat + slack
  counter : (headerOffset cfg).toNat + 4 ≤ cfg.payloadSize.toNat + slack
  timestamp : (headerOffset cfg + 4).toNat + 8 ≤ cfg.payloadSize.toNat + slack

/-- A header that fits is written inside the payload. -/
theorem Fits.writable {cfg : Config} {slack : Nat} (h : Fits cfg)
    (hsize : cfg.payloadSize.toNat ≤ 2 ^ 31) : Writable cfg slack := by
  unfold Fits at h
  obtain ⟨hoff, hoff4⟩ := headerOffset_toNat cfg (by omega)
  exact ⟨by omega, hsize, by omega, by omega, by omega⟩

/-! ## §2. Before and after a stamp. -/

/-- The memory of a payload buffer that was initialised. -/
structure Written (cfg : Config) (slack : Nat) (buf : Bytes) : Prop where
  pos : 0 < cfg.payloadSize.toNat
  size : cfg.payloadSize.toNat ≤ 2 ^ 31
  length : buf.length = cfg.payloadSize.toNat + slack
  idRoom : cfg.clientId.bytes.length + 1 ≤ cfg.payloadSize.toNat + slack
  clientId : cfg.clientId.bytes.length + 13 ≤ 2 ^ 32 → ∃ rest, buf = cfg.clientId.toMemory ++ rest

/-- The memory of a payload buffer ready to be published. -/
structure Stamped (o : ByteOrder) (cfg : Config) (slack : Nat) (it : UInt32) (deliverTs : UInt64)
    (buf : Bytes) : Prop where
  writable : Writable cfg slack
  length : buf.length = cfg.payloadSize.toNat + slack
  fields : cfg.clientId.bytes.length + 13 ≤ 2 ^ 32 → ∃ tail, buf = cfg.clientId.toMemory
    ++ (Bytes.store o 4 it.toNat ++ Bytes.store o 8 deliverTs.toNat) ++ tail

variable {o : ByteOrder} {cfg : Config} {slack : Nat} {mem buf buf' : Bytes} {it : UInt32}
variable {deliverTs : UInt64}

/-- What the set-up leaves. -/
theorem written_of_init {rand : Nat → Nat} (hmem : mem.length = cfg.payloadSize.toNat + slack)
    (h : initBuffer cfg rand mem = some buf) : Written cfg slack buf := by
  obtain ⟨hpos, hsize, hlen, rest, rfl⟩ := initBuffer_some h
  refine ⟨hpos, hsize, hlen.trans hmem, ?_, fun _ => ⟨rest, rfl⟩⟩
  rw [List.length_append, CString.toMemory_length] at hlen
  omega

/-- The next iteration finds the buffer as the set-up left it. -/
theorem Stamped.written (h : Stamped o cfg slack it deliverTs buf) : Written cfg slack buf := by
  obtain ⟨hwritable, hlen, hfields⟩ := h
  refine ⟨hwritable.pos, hwritable.size, hlen, hwritable.clientId, ?_⟩
  intro hwrap
  obtain ⟨tail, rfl⟩ := hfields hwrap
  exact ⟨_, List.append_assoc ..⟩

/-- A stamp that returns has put counter and time behind the client id. -/
theorem Written.stamped (h : Written cfg slack buf)
    (hstamp : stampPayload o cfg buf it deliverTs = some buf') :
    Stamped o cfg slack it deliverTs buf' := by
  obtain ⟨hpos, hsize, hlen, hid, hprefix⟩ := h
  obtain ⟨hctr, hts, hlen'⟩ := stampPayload_room hstamp
  rw [hlen] at hctr hts hlen'
  refine ⟨⟨hpos, hsize, hid, hctr, hts⟩, hlen', ?_⟩
  intro hwrap
  obtain ⟨rest, rfl⟩ := hprefix hwrap
  rw [List.length_append, CString.toMemory_length] at hlen
  have hoff4 := (headerOffset_toNat cfg hwrap).2
  -- the twelve bytes behind the id are the two fields
  obtain ⟨fields, tail, rfl, hfields⟩ := Bytes.exists_split (b := rest) (n := 12) (by omega)
  rw [← List.append_assoc, stampPayload_eq o cfg hwrap fields tail hfields] at hstamp
  cases hstamp
  exact ⟨tail, rfl⟩

/-- The set-up returns. -/
theorem Writable.exists_init (h : Writable cfg slack) (rand : Nat → Nat)
    (hmem : mem.length = cfg.payloadSize.toNat + slack) :
    ∃ buf, initBuffer cfg rand mem = some buf := by
  have hid := h.clientId
  obtain ⟨rest, hinit, -⟩ := initBuffer_eq cfg rand mem h.pos h.size (by omega)
    (by rw [CString.toMemory_length]; omega)
  exact ⟨_, hinit⟩

/-- Every stamp returns. -/
theorem Writable.exists_stamp (h : Writable cfg slack)
    (hlen : buf.length = cfg.payloadSize.toNat + slack) (o : ByteOrder) (it : UInt32)
    (deliverTs : UInt64) : ∃ buf', stampPayload o cfg buf it deliverTs = some buf' := by
  have hctr := h.counter
  have hts := h.timestamp
  rw [← hlen] at hctr hts
  exact exists_stampPayload o hctr hts it deliverTs

/-- What is copied of it decodes to the publisher's header, when that fits. -/
theorem Stamped.decodes (h : Stamped o cfg slack it deliverTs buf) (hfit : Fits cfg)
    (hint : cfg.payloadSize.toNat < 2 ^ 31) (beyond : Bytes) :
    decodePayload o (publishedPayload cfg buf ++ beyond)
      = some { clientId := cfg.clientId.bytes, pktNo := it, deliverTime := deliverTs } := by
  unfold Fits at hfit
  obtain ⟨tail, htail⟩ := h.fields (by omega)
  -- the header lies in front of the cut
  have hcopy : ∃ tail', publishedPayload cfg buf = cfg.clientId.toMemory
      ++ (Bytes.store o 4 it.toNat ++ Bytes.store o 8 deliverTs.toNat) ++ tail' := by
    refine ⟨tail.take (cfg.payloadSize.toNat - (cfg.clientId.bytes.length + 13)), ?_⟩
    rw [publishedPayload_take hint, htail, List.take_append]
    have hheader : (cfg.clientId.toMemory
        ++ (Bytes.store o 4 it.toNat ++ Bytes.store o 8 deliverTs.toNat)).length
        = cfg.clientId.bytes.length + 13 := by
      rw [List.length_append, List.length_append, CString.toMemory_length, Bytes.store_length,
        Bytes.store_length]
    rw [hheader, List.take_of_length_le (by omega)]
  obtain ⟨tail', htail'⟩ := hcopy
  rw [htail', List.append_assoc]
  exact decodePayload_eq o cfg.clientId it deliverTs (tail' ++ beyond) (by omega)

/-- What is copied of it decodes to the publisher and the low half of its stamp,
when a sample depends on no more. -/
theorem Stamped.decodes_low {beyond : Bytes} {header : Header}
    (h : Stamped o cfg slack it deliverTs buf)
    (hn : cfg.clientId.bytes.length + sampleBytes o ≤ cfg.payloadSize.toNat)
    (hint : cfg.payloadSize.toNat < 2 ^ 31)
    (hdec : decodePayload o (publishedPayload cfg buf ++ beyond) = some header) :
    header.clientId = cfg.clientId.bytes
      ∧ header.deliverTime.toUInt32 = deliverTs.toUInt32 := by
  have hwrap : cfg.clientId.bytes.length + 13 < 2 ^ 32 := by omega
  obtain ⟨tail, htail⟩ := h.fields hwrap.le
  rw [publishedPayload_take hint, htail] at hdec
  exact decodePayload_cut cfg.clientId it deliverTs hn hwrap hdec

/-- A length that is not negative is the size. -/
theorem size_of_payloadlen {cfg : Config} (h : 0 ≤ cfg.payloadSize.toInt32.toInt) :
    cfg.payloadSize.toNat < 2 ^ 31 := by
  by_contra hge
  have hneg := payloadlen_of_ge (Nat.le_of_not_lt hge)
  omega

end MqttBenchmark
