/-
  MqttBenchmark.Lib.Varint
  ────────────────────────
  **NUMBERS OF VARIABLE LENGTH.**

  Seven bits a byte, least significant first; the top bit says that another
  byte follows.  A reader stops after a limit of bytes, so it reads exactly
  the numbers below a power of 128.

    • `encode`, `decode` — the format,
    • `decode_encode` — the round trip below the limit,
    • `decode_encode_of_le` — the failure from the limit on,
    • `encode_length_le` — the writer's form is the shortest that reads so.
-/
import MqttBenchmark.Lib.Reader
import Mathlib.Tactic.Linarith

namespace MqttBenchmark.Lib.Varint

/-! ## §1. The format. -/

def encode (n : Nat) : Bytes :=
  if n < 128 then [UInt8.ofNat n] else UInt8.ofNat (n % 128 + 128) :: encode (n / 128)

/-- Read a number of at most `k` bytes. -/
def decode : Nat → Bytes → Outcome Unit Nat
  | 0, _ => .error ()
  | _ + 1, [] => .interrupted
  | k + 1, b :: bs =>
      if b.toNat < 128 then .complete b.toNat bs
      else
        match decode k bs with
        | .complete v rest => .complete (b.toNat - 128 + 128 * v) rest
        | .interrupted => .interrupted
        | .error e => .error e

theorem encode_of_lt {n : Nat} (h : n < 128) : encode n = [UInt8.ofNat n] := by
  rw [encode, if_pos h]

theorem encode_of_le {n : Nat} (h : 128 ≤ n) :
    encode n = UInt8.ofNat (n % 128 + 128) :: encode (n / 128) := by
  rw [encode, if_neg (by omega)]

theorem decode_last {k : Nat} {b : UInt8} {bs : Bytes} (h : b.toNat < 128) :
    decode (k + 1) (b :: bs) = .complete b.toNat bs := by
  rw [decode, if_pos h]

theorem decode_more {k : Nat} {b : UInt8} {bs : Bytes} (h : 128 ≤ b.toNat) :
    decode (k + 1) (b :: bs) =
      match decode k bs with
      | .complete v rest => .complete (b.toNat - 128 + 128 * v) rest
      | .interrupted => .interrupted
      | .error e => .error e := by
  rw [decode, if_neg (by omega)]

/-! ## §2. The laws of a reader. -/

theorem decode_shorter : ∀ {k : Nat} {bs rest : Bytes} {v : Nat},
    decode k bs = .complete v rest → rest.length < bs.length := by
  intro k
  induction k with
  | zero => intro bs rest v h; cases h
  | succ k ih =>
      intro bs rest v h
      cases bs with
      | nil => cases h
      | cons b bs =>
          simp only [decode] at h
          split at h
          · cases h
            exact Nat.lt_succ_self _
          · split at h
            next hrec =>
              cases h
              exact Nat.lt_succ_of_lt (ih hrec)
            · cases h
            · cases h

theorem decode_complete_append : ∀ {k : Nat} {bs rest : Bytes} {v : Nat},
    decode k bs = .complete v rest →
    ∀ more, decode k (bs ++ more) = .complete v (rest ++ more) := by
  intro k
  induction k with
  | zero => intro bs rest v h; cases h
  | succ k ih =>
      intro bs rest v h more
      cases bs with
      | nil => cases h
      | cons b bs =>
          simp only [decode, List.cons_append] at h ⊢
          split at h
          next hlast =>
            cases h
            rw [if_pos hlast]
          next hmore =>
            rw [if_neg hmore]
            split at h
            next hrec =>
              cases h
              rw [ih hrec more]
            · cases h
            · cases h

theorem decode_error_append : ∀ {k : Nat} {bs : Bytes} {e : Unit},
    decode k bs = .error e → ∀ more, decode k (bs ++ more) = .error e := by
  intro k
  induction k with
  | zero => intro bs e h more; rfl
  | succ k ih =>
      intro bs e h more
      cases bs with
      | nil => cases h
      | cons b bs =>
          simp only [decode, List.cons_append] at h ⊢
          split at h
          · cases h
          next hmore =>
            rw [if_neg hmore]
            split at h
            · cases h
            · cases h
            next hrec =>
              cases h
              rw [ih hrec more]

/-! ## §3. The round trip. -/

/-- **What is below the limit is read back.** -/
theorem decode_encode : ∀ {k n : Nat}, n < 128 ^ (k + 1) → ∀ rest,
    decode (k + 1) (encode n ++ rest) = .complete n rest := by
  intro k
  induction k with
  | zero =>
      intro n h rest
      have hlt : n < 128 := by omega
      have hbyte : (UInt8.ofNat n).toNat = n := UInt8.toNat_ofNat_of_lt' (by unfold UInt8.size; omega)
      rw [encode_of_lt hlt, List.singleton_append, decode_last (by omega), hbyte]
  | succ k ih =>
      intro n h rest
      by_cases hlt : n < 128
      · have hbyte : (UInt8.ofNat n).toNat = n := UInt8.toNat_ofNat_of_lt' (by unfold UInt8.size; omega)
        rw [encode_of_lt hlt, List.singleton_append, decode_last (by omega), hbyte]
      · have hbyte : (UInt8.ofNat (n % 128 + 128)).toNat = n % 128 + 128 :=
          UInt8.toNat_ofNat_of_lt' (by unfold UInt8.size; omega)
        have hdiv : n / 128 < 128 ^ (k + 1) := by
          rw [pow_succ] at h
          omega
        rw [encode_of_le (by omega), List.cons_append, decode_more (by omega), ih hdiv rest]
        simp only [hbyte]
        congr 1
        omega

/-- **From the limit on, reading fails.** -/
theorem decode_encode_of_le : ∀ {k n : Nat}, 128 ^ k ≤ n → ∀ rest,
    decode k (encode n ++ rest) = .error () := by
  intro k
  induction k with
  | zero => intro n h rest; rfl
  | succ k ih =>
      intro n h rest
      have hpow : 0 < 128 ^ k := Nat.pow_pos (by omega)
      rw [pow_succ] at h
      have hle : 128 ≤ n := by omega
      have hbyte : (UInt8.ofNat (n % 128 + 128)).toNat = n % 128 + 128 :=
        UInt8.toNat_ofNat_of_lt' (by unfold UInt8.size; omega)
      have hdiv : 128 ^ k ≤ n / 128 := by omega
      rw [encode_of_le hle, List.cons_append, decode_more (by omega), ih hdiv rest]

/-- A number that was read is below the limit. -/
theorem decode_lt : ∀ {k : Nat} {bs rest : Bytes} {v : Nat},
    decode k bs = .complete v rest → v < 128 ^ k := by
  intro k
  induction k with
  | zero => intro bs rest v h; cases h
  | succ k ih =>
      intro bs rest v h
      have hpow : 0 < 128 ^ k := Nat.pow_pos (by omega)
      cases bs with
      | nil => cases h
      | cons b bs =>
          have hb := b.toNat_lt
          rw [pow_succ]
          simp only [decode] at h
          split at h
          · cases h
            omega
          · split at h
            next v' _ hrec =>
              cases h
              have hv := ih hrec
              omega
            · cases h
            · cases h

/-- **The writer's form is the shortest** that is read as this number. -/
theorem encode_length_le : ∀ {k : Nat} {bs rest : Bytes} {v : Nat},
    decode k bs = .complete v rest → (encode v).length + rest.length ≤ bs.length := by
  intro k
  induction k with
  | zero => intro bs rest v h; cases h
  | succ k ih =>
      intro bs rest v h
      cases bs with
      | nil => cases h
      | cons b bs =>
          have hb := b.toNat_lt
          simp only [decode] at h
          split at h
          next hlast =>
            cases h
            rw [encode_of_lt hlast, List.length_singleton, List.length_cons]
            omega
          next hmore =>
            split at h
            next v' _ hrec =>
              cases h
              have hle := ih hrec
              by_cases hlt : b.toNat - 128 + 128 * v' < 128
              · rw [encode_of_lt hlt, List.length_singleton, List.length_cons]
                omega
              · have hdiv : (b.toNat - 128 + 128 * v') / 128 = v' := by omega
                rw [encode_of_le (by omega), hdiv, List.length_cons, List.length_cons]
                omega
            · cases h
            · cases h

/-- A smaller number is not longer. -/
theorem encode_length_mono : ∀ {n m : Nat}, n ≤ m → (encode n).length ≤ (encode m).length := by
  intro n m
  induction m using Nat.strongRecOn generalizing n with
  | ind m ih =>
      intro h
      by_cases hm : m < 128
      · rw [encode_of_lt hm, encode_of_lt (by omega)]
        exact le_refl _
      · rw [encode_of_le (n := m) (by omega), List.length_cons]
        by_cases hn : n < 128
        · rw [encode_of_lt hn, List.length_singleton]
          omega
        · have hdiv := ih (m / 128) (by omega) (n := n / 128) (Nat.div_le_div_right h)
          rw [encode_of_le (n := n) (by omega), List.length_cons]
          omega

end MqttBenchmark.Lib.Varint
