/-
  MqttBenchmark.Cluster.FullInterference
  ──────────────────────────────────────
  **ARE THE SAMPLES OF `rtt_fullinterference` ROUND TRIPS?**

  Every device runs `--pub=topic --sub=topic` at the same time, and the
  round-trip tests are meant to need no clock synchronisation.  `msgarrvd`
  parses the client id of a payload only to skip it.

    • `RoundTripsOnly` — every sample is the time a message of the device took
      on its own clock, and no other clock shows in its samples,
    • `round_trips_only_iff` — that holds exactly when a device runs alone and
      its payload holds what a sample depends on, or stores no sample at all.
-/
import MqttBenchmark.Cluster.Clocks
import MqttBenchmark.Process.Shutdown

namespace MqttBenchmark.Cluster

open Lib Lib.System Function Process

variable {δ : Type} [DecidableEq δ]

/-! ## §1. The benchmark. -/

/-- `_main` of `rtt_fullinterference.py`, with `--name` the hostname. -/
def fullInterference (order : ByteOrder) (opts : Options) (hostname : δ → CString)
    (rand : δ → Nat → Nat) (offset : δ → Int) (slack : δ → Nat) : Deployment δ where
  order := order
  config d := opts.config (hostname d) ["topic"] ["topic"]
  rand := rand
  offset := offset
  slack := slack

/-- The same deployment with another offset of one clock. -/
def Deployment.setOffset (D : Deployment δ) (d : δ) (x : Int) : Deployment δ :=
  { D with offset := update D.offset d x }

/-- The samples a device has stored so far. -/
def samples (s : State δ) (d : δ) : List UInt32 := (s.procs d).hist.recorded.map (·.2.2)

/-- A sample of a device is a round trip of its own message. -/
structure RoundTrip (D : Deployment δ) (now : Int) (d : δ) (r : Message δ × UInt64 × UInt32) :
    Prop where
  origin : r.1.origin = d
  /-- The client id in the payload is its own. -/
  clientId : ∃ h, decodePayload D.order (r.1.payload ++ r.1.beyond) = some h
    ∧ h.clientId = (D.config d).clientId.bytes
  /-- The sample is the difference of two readings of its own clock. -/
  readings : ∃ t u, 0 ≤ t ∧ t ≤ u ∧ u ≤ now ∧ r.2.1 = D.clock d u
    ∧ r.2.2 = rtt (D.clock d u) (D.clock d t)

/-- The samples of a deployment are round trips. -/
structure RoundTripsOnly (D : Deployment δ) : Prop where
  own : ∀ s, (system D).Reachable s → ∀ d, ∀ r ∈ (s.procs d).hist.recorded, RoundTrip D s.now d r
  /-- In two runs that differ only in the clock of another device, a device
  stores the same samples. -/
  offsets : ∀ (d e : δ) (x : Int), e ≠ d → ∀ as s t, (system D).run as initial = some s →
    (system (D.setOffset e x)).run as initial = some t → samples s d = samples t d

/-- A device can write its payload, in the memory it gets, and the library
sends it: the size is an `int`. -/
def publishes (opts : Options) (hostname : CString) (slack : Nat) : Prop :=
  Writable (opts.config hostname ["topic"] ["topic"]) slack ∧ opts.size.toNat < 2 ^ 31

/-- Every sample comes from the payload of the device's own message, or there
are no samples. -/
def Isolated (order : ByteOrder) (opts : Options) (hostname : δ → CString) (slack : δ → Nat) :
    Prop :=
  (∀ d e : δ, d = e)
      ∧ (∀ d, (hostname d).bytes.length + sampleBytes order ≤ opts.size.toNat)
    ∨ opts.iterations = 0
    ∨ 2 < opts.qos
    ∨ ∀ d, ¬ publishes opts (hostname d) (slack d)

/-! ## §2. No samples at all. -/

/-- `--iterations=0` stores nothing. -/
theorem no_samples_of_iterations {ι : Type} {o : ByteOrder} {cfg : Config} {p : Process.State ι}
    (h : (Process.system o cfg).Reachable p) (hiter : cfg.maxIter = 0) :
    p.hist.recorded = [] := by
  refine (Process.reachable_induct (P := fun p => p.hist.recorded = []
    ∧ ∀ m t x, p.callback ≠ .storeRtt m t x) h ⟨rfl, by simp [Process.initial]⟩ ?_).1
  rintro s s' _ _ ⟨h1, h2⟩ hm
  cases hm with
  | main h => exact ⟨h.frame.recorded.trans h1, by rwa [h.frame.callback]⟩
  | sub i h => exact ⟨h.frame.recorded.trans h1, by rwa [h.frame.callback]⟩
  | pub i h => exact ⟨by rw [h.frame.hist, h1], by rwa [h.frame.callback]⟩
  | paho h =>
      cases h with
      | lose => exact ⟨h1, h2⟩
      | _ => exact ⟨h1, by simp⟩
  | callback h =>
      cases h with
      | storeReceive m t x buf hpc htopic hit hx hbuf =>
          -- `it < 0` never holds, so no message is stored
          rw [hiter] at hit
          exact absurd hit (by simp [UInt32.lt_iff_toNat_lt])
      | storeRtt m t x buf hpc hbuf => exact absurd hpc (h2 m t x)
      | fault => exact ⟨h1, h2⟩
      | _ => exact ⟨h1, by simp⟩

section Benchmark

variable {order : ByteOrder} {opts : Options} {hostname : δ → CString} {rand : δ → Nat → Nat}
variable {offset : δ → Int} {slack : δ → Nat} {s : State δ}

/-- Without iterations, without a subscription, or without a publish no
sample is stored. -/
theorem no_samples
    (hno : opts.iterations = 0 ∨ 2 < opts.qos ∨ ∀ d, ¬ publishes opts (hostname d) (slack d))
    (h : (system (fullInterference order opts hostname rand offset slack)).Reachable s) (d : δ) :
    (s.procs d).hist.recorded = [] := by
  rcases hno with hiter | hqos | hpub
  · exact (isProcess h d).holds (P := fun p => p.hist.recorded = [])
      (fun q hq => no_samples_of_iterations hq hiter) fun _ hp => hp
  · refine (isProcess h d).holds (P := fun p => p.hist.recorded = []) ?_ fun _ hp => hp
    intro q hq
    refine (no_data hq (.inl ?_)).recorded
    intro hdata
    have hle : opts.qos ≤ 2 := hdata.2.1
    exact absurd hqos (by grind)
  -- a sample would carry a payload its publisher could write and send
  · rw [List.eq_nil_iff_forall_not_mem]
    intro r hr
    have hsent := sent_of_recorded h hr
    obtain ⟨it, t, buf, token, hstamped, -⟩ := hsent.payload
    exact hpub r.1.origin ⟨hstamped.writable, hsent.size⟩

/-- With a sample stored, the subscription was granted. -/
theorem qos_of_recorded
    (h : (system (fullInterference order opts hostname rand offset slack)).Reachable s) {d : δ}
    {r : Message δ × UInt64 × UInt32} (hr : r ∈ (s.procs d).hist.recorded) : opts.qos ≤ 2 := by
  by_contra hqos
  have hnil := no_samples (.inr (.inl (by grind))) h d
  rw [hnil] at hr
  exact absurd hr List.not_mem_nil

/-! ## §3. One device. -/

/-- A sample of the only device, whose payload holds what it depends on. -/
theorem round_trip_of_alone (hone : ∀ d e : δ, d = e)
    (hn : ∀ d, (hostname d).bytes.length + sampleBytes order ≤ opts.size.toNat)
    (hs : (system (fullInterference order opts hostname rand offset slack)).Reachable s) {d : δ}
    {r : Message δ × UInt64 × UInt32} (hr : r ∈ (s.procs d).hist.recorded) :
    RoundTrip (fullInterference order opts hostname rand offset slack) s.now d r := by
  have hqos := qos_of_recorded hs hr
  obtain ⟨it, t, u, hu, htimed⟩ := arrivals_timed hs ((isProcess hs d).arrived hr)
  obtain ⟨buf, token, hstamped, hpayload⟩ := htimed.packet.payload
  have horigin : r.1.origin = d := hone _ _
  have hsample := (isProcess hs d).sampled hr
  obtain ⟨h, hdec, hrtt⟩ := Option.map_eq_some_iff.mp hsample
  rw [published_eq hqos] at hpayload
  rw [← Option.some.inj hpayload] at hdec
  have hread := hstamped.decodes_low (hn _) htimed.packet.size hdec
  rw [Option.some.inj hpayload] at hdec
  dsimp only at hread hdec hrtt
  rw [horigin] at hread
  refine ⟨horigin, ⟨h, hdec, hread.1⟩, t, u, htimed.start, htimed.causal, hu, htimed.clock, ?_⟩
  -- a sample is the difference of the low halves
  rw [← hrtt]
  unfold rtt
  rw [UInt64.toUInt32_sub, UInt64.toUInt32_sub, hread.2, ← htimed.clock]

/-- The only device has no other message to store. -/
theorem round_trips_of_isolated (hiso : Isolated order opts hostname slack) :
    RoundTripsOnly (fullInterference order opts hostname rand offset slack) := by
  rcases hiso with ⟨hone, hn⟩ | hno
  · exact ⟨fun s hs d r hr => round_trip_of_alone hone hn hs hr,
      fun d e x hne => absurd (hone e d) hne⟩
  · constructor
    · intro s hs d r hr
      rw [no_samples hno hs d] at hr
      exact absurd hr List.not_mem_nil
    · intro d e x _ as s t hs ht
      have hreach :
          (system (fullInterference order opts hostname rand (update offset e x) slack)).Reachable
            t := leads_of_run as ht
      rw [samples, samples, no_samples hno (leads_of_run as hs) d, no_samples hno hreach d]

/-! ## §4. A message of another device, and a payload that is too short. -/

variable (order opts hostname rand offset slack) in
/-- **A device records what another one published**, or what itself did, with
anything behind the payload that `msgarrvd` can read: it skips the client id. -/
theorem leads_interfered (hiter : opts.iterations ≠ 0) (hqos : opts.qos ≤ 2) (d e : δ)
    (hpub : publishes opts (hostname e) (slack e)) (beyond : Bytes → Bytes)
    (hdec : ∀ payload : Bytes, payload.length = opts.size.toNat →
      ∃ h, decodePayload order (payload ++ beyond payload) = some h) :
    ∃ s, (system (fullInterference order opts hostname rand offset slack)).Reachable s
      ∧ s.now = 0 ∧ ∃ r ∈ (s.procs d).hist.recorded, r.1.origin = e
        ∧ r.1.payload.length = opts.size.toNat ∧ r.1.beyond = beyond r.1.payload := by
  -- what the library copies has the size of the payload
  have hsize : ∀ m : Message δ, m.origin = e →
      Sent (fullInterference order opts hostname rand offset slack) m →
      m.payload.length = opts.size.toNat := by
    intro m _ hsent
    obtain ⟨it, t, buf, token, hstamped, hpayload⟩ := hsent.payload
    rw [published_eq hqos] at hpayload
    rw [← Option.some.inj hpayload, publishedPayload_take hsent.size,
      List.length_take_of_le (by rw [hstamped.length]; exact Nat.le_add_right ..)]
    rfl
  obtain ⟨s, hs, hnow, r, hr, horigin, hbeyond, hsent⟩ := leads_recorded
    (D := fullInterference order opts hostname rand offset slack) (A := fun _ => True)
    (s := initial) (d := d) (e := e) trivial trivial rfl rfl Nat.one_pos Nat.one_pos rfl
    (show "topic" ≠ pubkill by decide) hqos hiter hqos hpub.1 hpub.2 beyond
    fun m horigin hsent => hdec m.payload (hsize m horigin hsent)
  exact ⟨s, hs.leads, hnow, r, hr, horigin, hsize r.1 horigin hsent, hbeyond⟩

/-- With enough zeros behind it every payload is read as a header. -/
theorem exists_header (o : ByteOrder) {payload : Bytes} (hlen : payload.length < 2 ^ 31) :
    ∃ h, decodePayload o (payload ++ List.replicate 13 0) = some h := by
  obtain ⟨k, hk, hle⟩ : ∃ k, Bytes.strlen (payload ++ List.replicate 13 0) = some k
      ∧ k ≤ payload.length := by
    cases hnul : Bytes.strlen payload with
    | none => exact ⟨payload.length, by rw [Bytes.strlen_append_none hnul]; rfl, le_refl _⟩
    | some k => exact ⟨k, Bytes.strlen_append_some hnul _, (Bytes.strlen_lt hnul).le⟩
  rw [decodePayload_of_strlen o hk (by omega), if_pos (by simp; omega)]
  exact ⟨_, rfl⟩

/-- The only device, with a payload that ends before the last byte a sample
depends on. -/
theorem long_enough_of_round_trips
    (h : RoundTripsOnly (fullInterference order opts hostname rand offset slack))
    (hiter : opts.iterations ≠ 0) (hqos : opts.qos ≤ 2) {d : δ}
    (hpub : publishes opts (hostname d) (slack d)) :
    (hostname d).bytes.length + sampleBytes order ≤ opts.size.toNat := by
  by_contra hshort
  let D := fullInterference order opts hostname rand offset slack
  -- memory behind the payload that spoils the client id or the stamp
  have hspoil : ∀ payload : Bytes, ∃ beyond : Bytes, payload.length = opts.size.toNat →
      ∃ h, decodePayload order (payload ++ beyond) = some h
        ∧ (h.clientId ≠ (hostname d).bytes ∨ h.deliverTime.toUInt32 ≠ (D.clock d 0).toUInt32) := by
    intro payload
    by_cases hlen : payload.length = opts.size.toNat
    · have hint := hpub.2
      have hlt : payload.length < 2 ^ 31 := by omega
      obtain ⟨beyond, header, hdec, hne⟩ := exists_beyond order (hostname d)
        (D.clock d 0).toUInt32 hlt (by omega)
      exact ⟨beyond, fun _ => ⟨header, hdec, hne⟩⟩
    · exact ⟨[], fun heq => absurd heq hlen⟩
  choose beyond hbeyond using hspoil
  obtain ⟨s, hs, hnow, r, hr, -, hlen, hmem⟩ :=
    leads_interfered order opts hostname rand offset slack hiter hqos d d hpub beyond
      fun payload hlen => (hbeyond payload hlen).imp fun _ h => h.1
  obtain ⟨-, ⟨header, hdec, hid⟩, t, u, h0, htu, hu, hclock, hsample⟩ := h.own s hs d r hr
  obtain ⟨header', hdec', hne⟩ := hbeyond r.1.payload hlen
  rw [← hmem] at hdec'
  obtain rfl : header = header' := Option.some.inj (hdec.symm.trans hdec')
  -- no time has passed, so the sample is that of the stamp at 0
  obtain rfl : u = 0 := by omega
  obtain rfl : t = 0 := by omega
  have hread : some (rtt r.2.1 header.deliverTime) = some r.2.2 := by
    rw [← (isProcess hs d).sampled hr, sampleOf, hdec, Option.map_some]
  rw [Option.some.injEq, hsample, hclock] at hread
  unfold rtt at hread
  rw [UInt64.toUInt32_sub, UInt64.toUInt32_sub] at hread
  rcases hne with hne | hne
  · exact hne hid
  · exact hne (by grind)

/-- Two devices interfere, and a short payload is read beyond its end. -/
theorem isolated_of_round_trips
    (h : RoundTripsOnly (fullInterference order opts hostname rand offset slack)) :
    Isolated order opts hostname slack := by
  by_contra hno
  simp only [Isolated, not_or, not_forall, not_not] at hno
  obtain ⟨hone, hiter, hqos, e, hpub⟩ := hno
  have hqos : opts.qos ≤ 2 := by grind
  by_cases hall : ∀ d : δ, d = e
  · -- one device
    refine hone ⟨fun a b => (hall a).trans (hall b).symm, ?_⟩
    intro d
    obtain rfl := hall d
    exact long_enough_of_round_trips h hiter hqos hpub
  · -- two devices: the sample is taken on the other one
    obtain ⟨d, hd⟩ := not_forall.mp hall
    have hint := hpub.2
    obtain ⟨s, hs, -, r, hr, horigin, -, -⟩ :=
      leads_interfered order opts hostname rand offset slack hiter hqos d e hpub
        (fun _ => List.replicate 13 0) fun payload hlen => exists_header order (by omega)
    exact hd ((h.own s hs d r hr).origin.symm.trans horigin)

/-- **THE SAMPLES ARE ROUND TRIPS EXACTLY WHEN THE DEVICE IS ALONE AND ITS
PAYLOAD LONG ENOUGH**, or there are no samples, whatever the clocks show. -/
theorem round_trips_only_iff (order : ByteOrder) (opts : Options) (hostname : δ → CString)
    (rand : δ → Nat → Nat) (offset : δ → Int) (slack : δ → Nat) :
    RoundTripsOnly (fullInterference order opts hostname rand offset slack)
      ↔ Isolated order opts hostname slack :=
  ⟨isolated_of_round_trips, round_trips_of_isolated⟩

end Benchmark

/-- The devices `hc-1` and `hc-2`. -/
def twoDevices (d : Bool) : CString :=
  if d then ⟨[104, 99, 45, 50], by decide⟩ else ⟨[104, 99, 45, 49], by decide⟩

/-- `hc-1` and `hc-2` at the default options, the clock of `hc-2` five
milliseconds ahead: `hc-2` records a message of `hc-1`. -/
theorem round_trips_only_fails_for_two_devices :
    ¬ RoundTripsOnly (fullInterference .little ⟨20, 64, 1⟩ twoDevices (fun _ i => i)
      (fun d => if d then 5000000 else 0) fun _ => 0) := by
  intro h
  have hfits : Fits (Options.config ⟨20, 64, 1⟩ (twoDevices false) ["topic"] ["topic"]) := by decide
  obtain ⟨s, hs, -, r, hr, horigin, -, -⟩ :=
    leads_interfered .little ⟨20, 64, 1⟩ twoDevices (fun _ i => i)
      (fun d => if d then 5000000 else 0) (fun _ => 0) (by decide) (by decide) true false
      ⟨hfits.writable (by decide), by decide⟩ (fun _ => List.replicate 13 0) fun payload hlen =>
        exists_header .little (by rw [hlen]; decide)
  exact absurd ((h.own s hs true r hr).origin.symm.trans horigin) (by decide)

end MqttBenchmark.Cluster
