/-
  MqttBenchmark.Lib.Bytes
  ───────────────────────
  **BYTE BUFFERS AS A C PROGRAM USES THEM.**

    • fixed-width unsigned integers in either byte order (`store`/`load`),
    • `strlen` and NUL-terminated strings that carry their NUL-freeness,
    • `memcpy` into a buffer (`writeAt`) and out of one (`readAt`), both
      partial: an access that leaves the buffer has no result.

  The rules are stated for a buffer split as `pre ++ mid ++ post`, so that a
  layout with several fields is read off its concatenation.
-/
import Mathlib.Tactic.Common
import Mathlib.Tactic.Ring

namespace MqttBenchmark.Lib

abbrev Bytes := List UInt8

/-! ## §1. Fixed-width integers. -/

/-- The byte order of a machine. -/
inductive ByteOrder where
  | little
  | big
  deriving DecidableEq, Repr

namespace Bytes

/-- The `w` low bytes of `n`, least significant first. -/
def leBytes : Nat → Nat → Bytes
  | 0, _ => []
  | w + 1, n => UInt8.ofNat n :: leBytes w (n / 256)

/-- The number whose bytes these are, least significant first. -/
def leValue : Bytes → Nat
  | [] => 0
  | b :: bs => b.toNat + 256 * leValue bs

theorem leBytes_length (w n : Nat) : (leBytes w n).length = w := by
  induction w generalizing n with
  | zero => rfl
  | succ w ih => simp [leBytes, ih]

theorem leValue_leBytes (w n : Nat) : leValue (leBytes w n) = n % 256 ^ w := by
  induction w generalizing n with
  | zero => simp [leBytes, leValue, Nat.mod_one]
  | succ w ih =>
      show (UInt8.ofNat n).toNat + 256 * leValue (leBytes w (n / 256)) = _
      -- peel the lowest byte off both sides of the remainder
      rw [ih, pow_succ, Nat.mul_comm (256 ^ w), Nat.mod_mul]
      simp

/-- The low digits come first. -/
theorem leValue_append (a b : Bytes) : leValue (a ++ b) = leValue a + 256 ^ a.length * leValue b := by
  induction a with
  | nil => simp [leValue]
  | cons x a ih =>
      show x.toNat + 256 * leValue (a ++ b) = x.toNat + 256 * leValue a + _
      rw [ih, List.length_cons, pow_succ]
      ring

theorem leBytes_add (v w n : Nat) : leBytes (v + w) n = leBytes v n ++ leBytes w (n / 256 ^ v) := by
  induction v generalizing n with
  | zero => simp [leBytes]
  | succ v ih =>
      rw [Nat.add_right_comm]
      show UInt8.ofNat n :: leBytes (v + w) (n / 256) = UInt8.ofNat n :: (leBytes v (n / 256) ++ _)
      rw [ih, Nat.div_div_eq_div_mul, pow_succ, Nat.mul_comm 256]

/-- The `w` bytes of `n` in memory. -/
def store (o : ByteOrder) (w n : Nat) : Bytes :=
  match o with
  | .little => leBytes w n
  | .big => (leBytes w n).reverse

/-- The number these bytes in memory stand for. -/
def load (o : ByteOrder) (bs : Bytes) : Nat :=
  match o with
  | .little => leValue bs
  | .big => leValue bs.reverse

@[simp] theorem store_length (o : ByteOrder) (w n : Nat) : (store o w n).length = w := by
  cases o <;> simp [store, leBytes_length]

/-- **The fixed-width round trip**, for one byte order on both ends. -/
theorem load_store (o : ByteOrder) (w n : Nat) : load o (store o w n) = n % 256 ^ w := by
  cases o <;> simp [store, load, leValue_leBytes]

/-! ## §2. NUL-terminated strings. -/

/-- Index of the first NUL; none when the readable memory has no NUL. -/
def strlen : Bytes → Option Nat
  | [] => none
  | b :: bs => if b = 0 then some 0 else (strlen bs).map (· + 1)

theorem strlen_append_nul {s : Bytes} (h : 0 ∉ s) (rest : Bytes) :
    strlen (s ++ 0 :: rest) = some s.length := by
  induction s with
  | nil => rfl
  | cons b s ih =>
      simp only [List.mem_cons, not_or] at h
      -- the scan goes past `b`, which is not the terminator
      obtain ⟨hb, hs⟩ := h
      show (if b = 0 then some 0 else (strlen (s ++ 0 :: rest)).map (· + 1)) = _
      rw [if_neg (Ne.symm hb), ih hs]
      rfl

/-- The first NUL lies in the memory. -/
theorem strlen_lt {s : Bytes} {n : Nat} (h : strlen s = some n) : n < s.length := by
  induction s generalizing n with
  | nil => cases h
  | cons b s ih =>
      unfold strlen at h
      split at h
      next =>
        cases h
        exact Nat.succ_pos _
      next =>
        obtain ⟨k, hk, rfl⟩ := Option.map_eq_some_iff.mp h
        exact Nat.succ_lt_succ (ih hk)

/-- The scan stops at the first NUL. -/
theorem strlen_append_some {s : Bytes} {n : Nat} (h : strlen s = some n) (rest : Bytes) :
    strlen (s ++ rest) = some n := by
  induction s generalizing n with
  | nil => cases h
  | cons b s ih =>
      show (if b = 0 then some 0 else (strlen (s ++ rest)).map (· + 1)) = _
      unfold strlen at h
      split at h
      next hb => rw [if_pos hb, h]
      next hb =>
        obtain ⟨k, hk, rfl⟩ := Option.map_eq_some_iff.mp h
        rw [if_neg hb, ih hk]
        rfl

/-- The scan goes on behind memory without a NUL. -/
theorem strlen_append_none {s : Bytes} (h : strlen s = none) (rest : Bytes) :
    strlen (s ++ rest) = (strlen rest).map (s.length + ·) := by
  induction s with
  | nil => simp
  | cons b s ih =>
      show (if b = 0 then some 0 else (strlen (s ++ rest)).map (· + 1)) = _
      unfold strlen at h
      split at h
      next => cases h
      next hb =>
        rw [if_neg hb, ih (Option.map_eq_none_iff.mp h), Option.map_map]
        congr 1
        funext k
        show s.length + k + 1 = s.length + 1 + k
        omega

/-! ## §3. Copies into and out of a buffer. -/

/-- `memcpy` of `src` to offset `off`; none when it leaves the buffer. -/
def writeAt (buf : Bytes) (off : Nat) (src : Bytes) : Option Bytes :=
  if off + src.length ≤ buf.length then
    some (buf.take off ++ src ++ buf.drop (off + src.length))
  else none

/-- `memcpy` of `sz` bytes from offset `off`; none when it leaves the buffer. -/
def readAt (buf : Bytes) (off sz : Nat) : Option Bytes :=
  if off + sz ≤ buf.length then some ((buf.drop off).take sz) else none

theorem writeAt_length {buf buf' src : Bytes} {off : Nat} (h : writeAt buf off src = some buf') :
    buf'.length = buf.length := by
  unfold writeAt at h
  split at h
  next hle =>
    injection h with h
    subst h
    simp
    omega
  next => exact absurd h (by simp)

/-- Overwriting the middle field of a buffer. -/
theorem writeAt_append (pre mid post src : Bytes) (h : src.length = mid.length) :
    writeAt (pre ++ mid ++ post) pre.length src = some (pre ++ src ++ post) := by
  unfold writeAt
  rw [if_pos (by simp [h])]
  simp [h]

/-- Reading the middle field of a buffer. -/
theorem readAt_append (pre mid post : Bytes) :
    readAt (pre ++ mid ++ post) pre.length mid.length = some mid := by
  unfold readAt
  rw [if_pos (by simp)]
  simp

/-- A buffer splits at any offset within it. -/
theorem exists_split {b : Bytes} {n : Nat} (h : n ≤ b.length) :
    ∃ pre post, b = pre ++ post ∧ pre.length = n :=
  ⟨b.take n, b.drop n, (List.take_append_drop n b).symm, List.length_take_of_le h⟩

end Bytes

/-- A C string: the bytes before its terminator, none of them NUL. -/
structure CString where
  bytes : Bytes
  nulFree : 0 ∉ bytes

namespace CString

/-- The object `strlen(s) + 1` bytes long that holds the string. -/
def toMemory (s : CString) : Bytes := s.bytes ++ [0]

@[simp] theorem toMemory_length (s : CString) : s.toMemory.length = s.bytes.length + 1 := by
  simp [toMemory]

/-- Whatever follows it in memory, a C string has its own length. -/
theorem strlen_toMemory (s : CString) (rest : Bytes) :
    Bytes.strlen (s.toMemory ++ rest) = some s.bytes.length := by
  rw [toMemory, List.append_assoc]
  exact Bytes.strlen_append_nul s.nulFree rest

end CString

end MqttBenchmark.Lib
