/-
  MqttBenchmark.Lib.Reader
  ────────────────────────
  **READING ITEMS FROM BYTES THAT ARRIVE IN PIECES.**

  A reader looks at the bytes at hand and takes one item off their front, or
  finds too few of them, or finds an error.  What it found once it finds
  again however many bytes follow, so where the stream is cut makes no
  difference:

    • `Reader` — one attempt, with the laws it keeps,
    • `drain` — attempts until no further item is complete,
    • `feed` — the bytes kept back, then the next piece,
    • `foldl_feed` — piece by piece is all at once,
    • `drain_flatten` — what a writer wrote is read back.
-/
import MqttBenchmark.Lib.Bytes

namespace MqttBenchmark.Lib

variable {ε α : Type*}

/-! ## §1. One attempt. -/

/-- What one attempt makes of the bytes at hand. -/
inductive Outcome (ε α : Type*) where
  | complete (a : α) (rest : Bytes)
  | interrupted
  | error (e : ε)
  deriving DecidableEq

/-- A reader takes at least one byte for an item, and more bytes do not change
what it found. -/
structure Reader (ε α : Type*) where
  read : Bytes → Outcome ε α
  shorter : ∀ {bs a rest}, read bs = .complete a rest → rest.length < bs.length
  complete_append : ∀ {bs a rest}, read bs = .complete a rest →
    ∀ more, read (bs ++ more) = .complete a (rest ++ more)
  error_append : ∀ {bs e}, read bs = .error e → ∀ more, read (bs ++ more) = .error e

/-! ## §2. All items at hand. -/

/-- What a stream has come to: the items read, the bytes kept back for the
next attempt, the error that ended it. -/
structure Drained (ε α : Type*) where
  items : List α
  kept : Bytes
  failed : Option ε
  deriving DecidableEq

namespace Reader

variable (r : Reader ε α)

/-- At most `n` attempts. -/
def drainFrom : Nat → Bytes → Drained ε α
  | 0, bs => ⟨[], bs, none⟩
  | n + 1, bs =>
      match r.read bs with
      | .complete a rest => { drainFrom n rest with items := a :: (drainFrom n rest).items }
      | .interrupted => ⟨[], bs, none⟩
      | .error e => ⟨[], [], some e⟩

/-- Attempts until no further item is complete. -/
def drain (bs : Bytes) : Drained ε α := r.drainFrom (bs.length + 1) bs

/-- The next piece of the stream, unless an error has ended it. -/
def feed (d : Drained ε α) (piece : Bytes) : Drained ε α :=
  match d.failed with
  | some _ => d
  | none =>
      let next := r.drain (d.kept ++ piece)
      { next with items := d.items ++ next.items }

variable {r}

/-- One attempt for each byte, and one more, is enough. -/
theorem drainFrom_of_lt : ∀ {n m : Nat} {bs : Bytes}, bs.length < n → bs.length < m →
    r.drainFrom n bs = r.drainFrom m bs := by
  intro n
  induction n with
  | zero => intro m bs hn; omega
  | succ n ih =>
      intro m bs hn hm
      obtain ⟨m, rfl⟩ : ∃ k, m = k + 1 := ⟨m - 1, by omega⟩
      simp only [drainFrom]
      cases hread : r.read bs with
      | complete a rest =>
          have hlt := r.shorter hread
          have heq : r.drainFrom n rest = r.drainFrom m rest := ih (by omega) (by omega)
          simp only [heq]
      | interrupted => rfl
      | error e => rfl

/-- The first item, then the rest. -/
theorem drain_complete {bs rest : Bytes} {a : α} (h : r.read bs = .complete a rest) :
    r.drain bs = { r.drain rest with items := a :: (r.drain rest).items } := by
  have hlt := r.shorter h
  have hrest : r.drainFrom bs.length rest = r.drain rest :=
    drainFrom_of_lt hlt (Nat.lt_succ_self _)
  show r.drainFrom (bs.length + 1) bs = _
  simp only [drainFrom, h, hrest]

theorem drain_interrupted {bs : Bytes} (h : r.read bs = .interrupted) :
    r.drain bs = ⟨[], bs, none⟩ := by
  show r.drainFrom (bs.length + 1) bs = _
  simp only [drainFrom, h]

theorem drain_error {bs : Bytes} {e : ε} (h : r.read bs = .error e) :
    r.drain bs = ⟨[], [], some e⟩ := by
  show r.drainFrom (bs.length + 1) bs = _
  simp only [drainFrom, h]

/-! ## §3. The stream in pieces. -/

/-- Items that were read before stay in front. -/
theorem feed_cons (d : Drained ε α) (a : α) (piece : Bytes) :
    r.feed { d with items := a :: d.items } piece
      = { r.feed d piece with items := a :: (r.feed d piece).items } := by
  obtain ⟨items, kept, failed⟩ := d
  cases failed <;> rfl

/-- **Two pieces are one.** -/
theorem drain_append (bs more : Bytes) : r.drain (bs ++ more) = r.feed (r.drain bs) more := by
  -- on the length of the first piece: every item makes it shorter
  induction hn : bs.length using Nat.strongRecOn generalizing bs with
  | ind n ih =>
      cases hread : r.read bs with
      | complete a rest =>
          have hlt := r.shorter hread
          rw [drain_complete (r.complete_append hread more), drain_complete hread, feed_cons,
            ih rest.length (by omega) rest rfl]
      | interrupted =>
          rw [drain_interrupted hread]
          rfl
      | error e =>
          rw [drain_error hread, drain_error (r.error_append hread more)]
          rfl

/-- **WHERE THE STREAM IS CUT MAKES NO DIFFERENCE.** -/
theorem foldl_feed (pieces : List Bytes) :
    pieces.foldl r.feed (r.drain []) = r.drain pieces.flatten := by
  have hfrom : ∀ bs, pieces.foldl r.feed (r.drain bs) = r.drain (bs ++ pieces.flatten) := by
    induction pieces with
    | nil =>
        intro bs
        rw [List.flatten_nil, List.append_nil]
        rfl
    | cons piece pieces ih =>
        intro bs
        rw [List.foldl_cons, ← drain_append, ih, List.flatten_cons, List.append_assoc]
  exact hfrom []

/-! ## §4. Writing and reading. -/

/-- **What was written is read back**, item by item, and nothing is left. -/
theorem drain_flatten {β : Type*} {write : β → Bytes} {item : β → α} (hnil : r.read [] = .interrupted)
    (bs : List β)
    (h : ∀ b ∈ bs, ∀ rest, r.read (write b ++ rest) = .complete (item b) rest) :
    r.drain (bs.map write).flatten = ⟨bs.map item, [], none⟩ := by
  induction bs with
  | nil => exact drain_interrupted hnil
  | cons b bs ih =>
      rw [List.map_cons, List.flatten_cons, drain_complete (h b List.mem_cons_self _),
        ih fun b hb => h b (List.mem_cons_of_mem _ hb)]
      rfl

end Reader

end MqttBenchmark.Lib
