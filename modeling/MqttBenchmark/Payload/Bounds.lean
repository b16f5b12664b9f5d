/-
  MqttBenchmark.Payload.Bounds
  ────────────────────────────
  **WHERE THE TWO ENDS OF THE PAYLOAD WRITE AND READ.**

  The writer's buffer has a size of its own, independent of the client id it
  has to hold.  The reader scans for a NUL and never looks at the length.

    • `writes_inside_iff` — the configurations whose writes stay inside the
      buffer and whose messages are complete,
    • `payloadReads` — the offsets `msgarrvd` reads,
    • `reads_inside_iff` — the payloads it does not read past.
-/
import MqttBenchmark.Payload.RoundTrip

namespace MqttBenchmark

open Lib

variable {o : ByteOrder} {cfg : Config} {payload beyond mem : Bytes}

/-! ## §1. The writer. -/

/-- Every write of `publish_thread` lies in the buffer of `PAYLOAD_SIZE`
bytes, the filler loop has no more rounds than that, and every message has a
whole header. -/
structure WritesInside (o : ByteOrder) (cfg : Config) (rand : Nat → Nat) (ts : Nat → UInt64) :
    Prop where
  filler : (cfg.payloadSize - 1).toNat ≤ cfg.payloadSize.toNat
  writes : ∀ n, ∃ buf it, publishLoop o cfg rand ts n = some (buf, it)
    ∧ buf.length = cfg.payloadSize.toNat
  header : ∀ n, ∃ payload header, messageOf o cfg rand ts n = some payload
    ∧ decodePayload o payload = some header

/-- A buffer that is stamped once has room for the header. -/
theorem fits_of_publishLoop {rand : Nat → Nat} {ts : Nat → UInt64} {p : Bytes × UInt32}
    (h : publishLoop o cfg rand ts 0 = some p) :
    cfg.clientId.bytes.length + 13 ≤ cfg.payloadSize.toNat := by
  unfold publishLoop at h
  simp only [Option.bind_eq_bind, Option.bind_eq_some_iff] at h
  obtain ⟨buf, hinit, buf', hstamp, -⟩ := h
  obtain ⟨-, hlen, rest, hbuf⟩ := initPayload_some hinit
  -- the timestamp was written behind the client id and the counter
  apply stampPayload_some hstamp hlen
  rw [hbuf, List.length_append]
  exact Nat.le_add_right _ _

/-- **WHEN THE WRITES STAY INSIDE**: when the header fits the message, and the
size of the message an `int`. -/
theorem writes_inside_iff (o : ByteOrder) (cfg : Config) (rand : Nat → Nat) (ts : Nat → UInt64) :
    WritesInside o cfg rand ts
      ↔ cfg.clientId.bytes.length + 13 ≤ cfg.payloadSize.toNat ∧ cfg.payloadSize.toNat < 2 ^ 31 := by
  constructor
  · intro h
    obtain ⟨buf, it, hloop, -⟩ := h.writes 0
    refine ⟨fits_of_publishLoop hloop, ?_⟩
    by_contra hge
    -- nothing is sent, so there is nothing to decode
    obtain ⟨payload, header, hmessage, hdecode⟩ := h.header 0
    unfold messageOf at hmessage
    rw [hloop] at hmessage
    cases hmessage
    have hnil := publishedPayload_eq_nil (Nat.le_of_not_lt hge) buf
    change decodePayload o (publishedPayload cfg buf) = _ at hdecode
    rw [hnil] at hdecode
    cases hdecode
  · intro h
    obtain ⟨hfit, hint⟩ := h
    refine ⟨?_, ?_, ?_⟩
    · rw [UInt32.toNat_sub_of_le _ _ (by rw [UInt32.le_iff_toNat_le]; show 1 ≤ _; omega)]
      exact Nat.sub_le _ _
    · intro n
      obtain ⟨tail, htail, hloop⟩ := publishLoop_eq (o := o) cfg rand hfit hint ts
      refine ⟨_, _, hloop n, ?_⟩
      simp only [List.length_append, Bytes.store_length]
      omega
    · intro n
      obtain ⟨payload, hmessage, -, hdecode⟩ := messageOf_decodes o cfg rand ts n hfit hint
      have halone := hdecode []
      rw [List.append_nil] at halone
      exact ⟨payload, _, hmessage, halone⟩

/-- `--size=16` with the default client id `test-client`: the timestamp is
written at the offsets 16 to 23. -/
theorem writes_leave_at_size_16 :
    (headerOffset { Config.default ["topic"] [] with payloadSize := 16 } + 4).toNat = 16
    ∧ ∀ rand ts,
        ¬ WritesInside .little { Config.default ["topic"] [] with payloadSize := 16 } rand ts := by
  refine ⟨by decide, ?_⟩
  intro rand ts h
  obtain ⟨buf, it, hloop, -⟩ := h.writes 0
  have hfit := fits_of_publishLoop hloop
  revert hfit
  decide

/-! ## §2. The reader. -/

/-- The offsets `msgarrvd` reads, in the memory that starts at the payload:
the scan for the NUL, which goes past the memory when there is none, and the
two `DECODE_PL`. -/
def payloadReads (mem : Bytes) : List Nat :=
  match Bytes.strlen mem with
  | none => List.range (mem.length + 1)
  | some len =>
      let msgPt := UInt32.ofNat (len + 1)
      List.range (len + 1) ++ List.range' msgPt.toNat 4 ++ List.range' (msgPt + 4).toNat 8

/-- A NUL with a counter and a timestamp behind it. -/
def HoldsHeader (payload : Bytes) : Prop :=
  ∃ len, Bytes.strlen payload = some len ∧ len + 13 ≤ payload.length

theorem range'_lt_iff {a n bound : Nat} (hn : 0 < n) :
    (∀ k ∈ List.range' a n, k < bound) ↔ a + n ≤ bound := by
  constructor
  · intro h
    have hlast := h (a + n - 1) (List.mem_range'_1.mpr (by omega))
    omega
  · intro h k hk
    have hlt := (List.mem_range'_1.mp hk).2
    omega

/-- **The reads are those of the decoder**: it has a result when they stay in
the memory. -/
theorem decodePayload_isSome_iff (o : ByteOrder) (mem : Bytes) :
    (decodePayload o mem).isSome = true ↔ ∀ k ∈ payloadReads mem, k < mem.length := by
  unfold decodePayload payloadReads
  cases hlen : Bytes.strlen mem with
  | none =>
      constructor
      · intro h
        cases h
      · intro h
        have hlast := h mem.length (List.mem_range.mpr (Nat.lt_succ_self _))
        exact absurd hlast (Nat.lt_irrefl _)
  | some len =>
      have hlt := Bytes.strlen_lt hlen
      simp only [List.mem_append, or_imp, forall_and, range'_lt_iff (n := 4) (by decide),
        range'_lt_iff (n := 8) (by decide), List.mem_range, Option.bind_eq_bind, Option.bind_some]
      unfold Bytes.readAt
      by_cases hctr : (UInt32.ofNat (len + 1)).toNat + 4 ≤ mem.length
      · by_cases hts : (UInt32.ofNat (len + 1) + 4).toNat + 8 ≤ mem.length
        · rw [if_pos hctr, Option.bind_some, if_pos hts]
          constructor
          · intro _
            refine ⟨⟨?_, hctr⟩, hts⟩
            intro k hk
            omega
          · intro _
            rfl
        · rw [if_pos hctr, Option.bind_some, if_neg hts]
          constructor
          · intro h
            cases h
          · intro h
            exact absurd h.2 hts
      · rw [if_neg hctr]
        constructor
        · intro h
          cases h
        · intro h
          exact absurd h.1.2 hctr

/-- **WHICH PAYLOADS ARE NOT READ PAST**: those with a whole header, whatever
lies behind them in memory. -/
theorem reads_inside_iff (hlen : payload.length < 2 ^ 31) (beyond : Bytes) :
    (∀ k ∈ payloadReads (payload ++ beyond), k < payload.length) ↔ HoldsHeader payload := by
  unfold payloadReads HoldsHeader
  cases hnul : Bytes.strlen payload with
  | none =>
      -- the scan reaches the first byte behind the payload
      have hpast : ∃ k ∈ payloadReads (payload ++ beyond), payload.length ≤ k := by
        unfold payloadReads
        rw [Bytes.strlen_append_none hnul]
        cases hbeyond : Bytes.strlen beyond with
        | none =>
            refine ⟨payload.length, ?_, Nat.le_refl _⟩
            rw [Option.map_none, List.mem_range, List.length_append]
            omega
        | some len =>
            refine ⟨payload.length, ?_, Nat.le_refl _⟩
            simp only [Option.map_some, List.mem_append, List.mem_range]
            omega
      obtain ⟨k, hk, hle⟩ := hpast
      constructor
      · intro h
        exact absurd (h k hk) (by omega)
      · intro h
        obtain ⟨len, hsome, -⟩ := h
        cases hsome
  | some len =>
      have hlt := Bytes.strlen_lt hnul
      have hoff : (UInt32.ofNat (len + 1)).toNat = len + 1 :=
        UInt32.toNat_ofNat_of_lt' (by show _ < 2 ^ 32; omega)
      have hoff4 : (UInt32.ofNat (len + 1) + 4).toNat = len + 5 := by
        rw [UInt32.toNat_add, hoff]
        show (_ + 4) % 2 ^ 32 = _
        omega
      rw [Bytes.strlen_append_some hnul]
      simp only [List.mem_append, or_imp, forall_and, range'_lt_iff (n := 4) (by decide),
        range'_lt_iff (n := 8) (by decide), List.mem_range, hoff, hoff4]
      constructor
      · intro h
        obtain ⟨-, hts⟩ := h
        exact ⟨len, rfl, hts⟩
      · intro h
        obtain ⟨len', hsome, hfit⟩ := h
        cases hsome
        refine ⟨⟨?_, ?_⟩, hfit⟩
        · intro k hk
          omega
        · omega

end MqttBenchmark
