/-
  MqttBenchmark.Payload.Cut
  ─────────────────────────
  **A PAYLOAD THAT ENDS INSIDE ITS HEADER.**

  `msgarrvd` never looks at the length of a payload, so it completes a header
  that was cut off with whatever bytes lie behind.  A sample has 32 bits and
  needs only the low half of the timestamp.

    • `sampleBytes` — how much of the header a sample depends on,
    • `decodePayload_cut` — a payload that holds so much gives the sample of
      the publisher,
    • `exists_beyond` — a shorter one gives another, for some memory behind it.
-/
import MqttBenchmark.Payload.RoundTrip

namespace MqttBenchmark

open Lib

/-- Bytes of a header behind the client id, up to the last one a sample
depends on: NUL, counter and the low half of the timestamp, which comes last
on a big-endian machine. -/
def sampleBytes : ByteOrder → Nat
  | .little => 9
  | .big => 13

/-- What `msgarrvd` reads when the first NUL is at `n`. -/
theorem decodePayload_of_strlen (o : ByteOrder) {mem : Bytes} {n : Nat}
    (h : Bytes.strlen mem = some n) (hwrap : n + 13 ≤ 2 ^ 32) :
    decodePayload o mem =
      if n + 13 ≤ mem.length then
        some { clientId := mem.take n
               pktNo := UInt32.ofNat (Bytes.load o ((mem.drop (n + 1)).take 4))
               deliverTime := UInt64.ofNat (Bytes.load o ((mem.drop (n + 5)).take 8)) }
      else none := by
  have hoff : (UInt32.ofNat (n + 1)).toNat = n + 1 :=
    UInt32.toNat_ofNat_of_lt' (by simp [UInt32.size]; omega)
  have hoff4 : (UInt32.ofNat (n + 1) + 4).toNat = n + 5 := by
    rw [UInt32.toNat_add, hoff]
    show (_ + 4) % 2 ^ 32 = _
    omega
  unfold decodePayload Bytes.readAt
  simp only [h, Option.bind_eq_bind, Option.bind_some, hoff, hoff4]
  by_cases hts : n + 13 ≤ mem.length
  · rw [if_pos (by omega), Option.bind_some, if_pos (by omega), if_pos hts]
    rfl
  · -- the second read leaves the memory, or the first one does already
    rw [if_neg hts, if_neg (c := n + 5 + 8 ≤ mem.length) (by omega)]
    split <;> rfl

/-- The low half of a number is that of its low digits. -/
theorem ofNat_low (a b : Nat) : (UInt64.ofNat (a + 256 ^ 4 * b)).toUInt32 = UInt32.ofNat a := by
  apply UInt32.toNat_inj.mp
  rw [UInt64.toNat_toUInt32, UInt64.toNat_ofNat', UInt32.toNat_ofNat']
  omega

/-- **A payload that holds what a sample depends on** decodes to its publisher
and the low half of its stamp, whatever lies behind it. -/
theorem decodePayload_cut {o : ByteOrder} (id : CString) (it : UInt32) (deliverTs : UInt64)
    {n : Nat} {tail beyond : Bytes} {h : Header} (hn : id.bytes.length + sampleBytes o ≤ n)
    (hwrap : id.bytes.length + 13 < 2 ^ 32)
    (hdec : decodePayload o ((id.toMemory ++ (Bytes.store o 4 it.toNat
      ++ Bytes.store o 8 deliverTs.toNat) ++ tail).take n ++ beyond) = some h) :
    h.clientId = id.bytes ∧ h.deliverTime.toUInt32 = deliverTs.toUInt32 := by
  cases o with
  | big =>
      -- the whole header lies in the payload
      have hheader : (id.toMemory ++ (Bytes.store .big 4 it.toNat
          ++ Bytes.store .big 8 deliverTs.toNat)).length ≤ n := by
        rw [List.length_append, List.length_append, CString.toMemory_length, Bytes.store_length,
          Bytes.store_length]
        exact hn
      rw [List.take_append, List.take_of_length_le hheader, List.append_assoc,
        decodePayload_eq _ id it deliverTs _ hwrap] at hdec
      obtain rfl := Option.some.inj hdec
      exact ⟨rfl, rfl⟩
  | little =>
      -- the low half of the stamp does, and it comes first
      let front := id.toMemory ++ Bytes.store .little 4 it.toNat
      let low := Bytes.leBytes 4 deliverTs.toNat
      have hfront : front.length = id.bytes.length + 5 := by
        rw [List.length_append, CString.toMemory_length, Bytes.store_length]
      have hlow : low.length = 4 := Bytes.leBytes_length ..
      have hsplit : id.toMemory ++ (Bytes.store .little 4 it.toNat
          ++ Bytes.store .little 8 deliverTs.toNat) ++ tail
          = front ++ low ++ (Bytes.leBytes 4 (deliverTs.toNat / 256 ^ 4) ++ tail) := by
        have hts : Bytes.store .little 8 deliverTs.toNat
            = low ++ Bytes.leBytes 4 (deliverTs.toNat / 256 ^ 4) := Bytes.leBytes_add 4 4 _
        rw [hts]
        simp [front]
      obtain ⟨rest, hrest⟩ : ∃ rest, (id.toMemory ++ (Bytes.store .little 4 it.toNat
          ++ Bytes.store .little 8 deliverTs.toNat) ++ tail).take n ++ beyond
            = front ++ (low ++ rest) := by
        have hle : (front ++ low).length ≤ n := by
          rw [List.length_append, hfront, hlow]
          exact hn
        rw [hsplit, List.take_append, List.take_of_length_le hle, List.append_assoc,
          List.append_assoc]
        exact ⟨_, rfl⟩
      rw [hrest] at hdec
      have hnul : Bytes.strlen (front ++ (low ++ rest)) = some id.bytes.length := by
        rw [List.append_assoc]
        exact id.strlen_toMemory _
      rw [decodePayload_of_strlen _ hnul hwrap.le] at hdec
      split at hdec
      next =>
        obtain rfl := Option.some.inj hdec
        refine ⟨?_, ?_⟩
        · show (front ++ (low ++ rest)).take id.bytes.length = id.bytes
          simp [front, CString.toMemory]
        · show (UInt64.ofNat (Bytes.leValue (((front ++ (low ++ rest)).drop _).take 8))).toUInt32 = _
          rw [← hfront, List.drop_left, List.take_append, List.take_of_length_le (by omega),
            Bytes.leValue_append, hlow, ofNat_low, Bytes.leValue_leBytes]
          apply UInt32.toNat_inj.mp
          rw [UInt32.toNat_ofNat', UInt64.toNat_toUInt32]
          omega
      next => cases hdec

/-- The last byte a sample depends on shows in the sample. -/
theorem low_half_ne (o : ByteOrder) {a rest : Bytes} (ha : a.length + 6 = sampleBytes o) :
    (UInt64.ofNat (Bytes.load o ((a ++ 0 :: rest).take 8))).toUInt32
      ≠ (UInt64.ofNat (Bytes.load o ((a ++ 1 :: rest).take 8))).toUInt32 := by
  intro heq
  have hnat := congrArg UInt32.toNat heq
  rw [UInt64.toNat_toUInt32, UInt64.toNat_toUInt32, UInt64.toNat_ofNat', UInt64.toNat_ofNat',
    List.take_append, List.take_append, List.take_of_length_le (by cases o <;> simp [sampleBytes] at ha <;> omega)]
    at hnat
  cases o with
  | little =>
      have h3 : a.length = 3 := by simpa [sampleBytes] using ha
      rw [h3] at hnat
      simp only [Bytes.load, Bytes.leValue_append, h3] at hnat
      simp [Bytes.leValue] at hnat
      omega
  | big =>
      have h7 : a.length = 7 := by simpa [sampleBytes] using ha
      rw [h7] at hnat
      simp [Bytes.load, Bytes.leValue] at hnat
      omega

/-- The stamp that is read when one byte behind the payload is `x`. -/
theorem decodePayload_byte (o : ByteOrder) {payload : Bytes} {k j : Nat}
    (hnul : Bytes.strlen payload = some k) (hlen : payload.length < 2 ^ 31)
    (hle : k + 5 ≤ payload.length + j) (x : UInt8) :
    ∃ h, decodePayload o (payload ++ (List.replicate j 0 ++ x :: List.replicate 13 0)) = some h
      ∧ h.deliverTime = UInt64.ofNat (Bytes.load o
          (((payload ++ List.replicate j 0).drop (k + 5) ++ x :: List.replicate 13 0).take 8)) := by
  have hlt := Bytes.strlen_lt hnul
  have hdec := decodePayload_of_strlen o
    (Bytes.strlen_append_some hnul (List.replicate j 0 ++ x :: List.replicate 13 0)) (by omega)
  rw [if_pos (by simp; omega)] at hdec
  have hdrop : (payload ++ List.replicate j 0 ++ x :: List.replicate 13 0).drop (k + 5)
      = (payload ++ List.replicate j 0).drop (k + 5) ++ x :: List.replicate 13 0 :=
    List.drop_append_of_le_length (by simpa using hle)
  rw [List.append_assoc] at hdrop
  refine ⟨_, hdec, ?_⟩
  rw [← hdrop]

/-- **A shorter payload leaves the sample to the memory behind it**: some bytes
there give another client id or another stamp. -/
theorem exists_beyond (o : ByteOrder) (id : CString) (v : UInt32) {payload : Bytes}
    (hlen : payload.length < 2 ^ 31)
    (hshort : payload.length < id.bytes.length + sampleBytes o) :
    ∃ beyond h, decodePayload o (payload ++ beyond) = some h
      ∧ (h.clientId ≠ id.bytes ∨ h.deliverTime.toUInt32 ≠ v) := by
  -- a NUL at another place gives a client id of another length
  have hother : ∀ (beyond : Bytes) (k : Nat), Bytes.strlen (payload ++ beyond) = some k →
      k ≠ id.bytes.length → k + 13 ≤ (payload ++ beyond).length → k + 13 ≤ 2 ^ 32 →
      ∃ beyond h, decodePayload o (payload ++ beyond) = some h
        ∧ (h.clientId ≠ id.bytes ∨ h.deliverTime.toUInt32 ≠ v) := by
    intro beyond k hk hne hroom hwrap
    refine ⟨beyond, _, by rw [decodePayload_of_strlen o hk hwrap, if_pos hroom], .inl ?_⟩
    intro hid
    have hlength := congrArg List.length hid
    rw [List.length_take_of_le (by omega)] at hlength
    exact hne hlength
  cases hnul : Bytes.strlen payload with
  | none =>
      -- the scan runs into the memory behind, which ends the id there
      by_cases hid : payload.length = id.bytes.length
      · refine hother (1 :: List.replicate 13 0) (payload.length + 1) ?_ (by omega) (by simp) (by omega)
        rw [Bytes.strlen_append_none hnul]
        rfl
      · refine hother (List.replicate 13 0) payload.length ?_ hid (by simp) (by omega)
        rw [Bytes.strlen_append_none hnul]
        rfl
  | some k =>
      have hlt := Bytes.strlen_lt hnul
      by_cases hid : k = id.bytes.length
      · subst hid
        -- the last byte a sample depends on lies behind the payload
        have hbytes : 9 ≤ sampleBytes o := by cases o <;> decide
        obtain ⟨j, hj⟩ : ∃ j, payload.length + j = id.bytes.length + sampleBytes o - 1 :=
          ⟨_, Nat.add_sub_cancel' (by omega)⟩
        obtain ⟨h₀, hdec₀, hstamp₀⟩ := decodePayload_byte o hnul hlen (j := j) (by omega) 0
        obtain ⟨h₁, hdec₁, hstamp₁⟩ := decodePayload_byte o hnul hlen (j := j) (by omega) 1
        have hne : h₀.deliverTime.toUInt32 ≠ h₁.deliverTime.toUInt32 := by
          rw [hstamp₀, hstamp₁]
          exact low_half_ne o (by simp; omega)
        by_cases hzero : h₀.deliverTime.toUInt32 = v
        · exact ⟨_, h₁, hdec₁, .inr (by rw [← hzero]; exact hne.symm)⟩
        · exact ⟨_, h₀, hdec₀, .inr hzero⟩
      · exact hother (List.replicate 13 0) k (Bytes.strlen_append_some hnul _) hid (by simp; omega)
          (by omega)

end MqttBenchmark
