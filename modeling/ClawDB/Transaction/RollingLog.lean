/-
# `Transaction.RollingLog` — the log of what was committed

`transaction/log.rs`.  The log holds a window of its last `max_entries` entries.  Its lock is
held for the whole of `append`, so that a log is what a sequence of appends makes of it; that
it does not outgrow its window is part of its type.

The manager's log is such a window of `8192` entries, over one order of all that was ever
committed.
-/
import ClawDB.Lib.Window
import ClawDB.Transaction.Runs

namespace ClawDB.Transaction

open Effect Window

/-- Append-only in-memory transaction log. -/
structure TransactionLog where
  maxEntries : Nat
  entries : List TransactionLogEntry
  bounded : entries.length ≤ room maxEntries

namespace TransactionLog

/-- Creates a log with a rolling window of `maxEntries`. -/
def new (maxEntries : Nat) : TransactionLog := ⟨maxEntries, [], Nat.zero_le _⟩

/-- Appends a committed transaction entry to the log. -/
def append (log : TransactionLog) (entry : TransactionLogEntry) : TransactionLog where
  maxEntries := log.maxEntries
  entries := appendLog log.maxEntries log.entries entry
  bounded := length_push log.bounded entry

/-- Returns a snapshot of all current log entries. -/
def snapshot (log : TransactionLog) : List TransactionLogEntry := log.entries

/-- Returns the number of entries currently in the log. -/
def len (log : TransactionLog) : Nat := log.entries.length

/-- Returns `true` if the log is empty. -/
def isEmpty (log : TransactionLog) : Bool := log.len = 0

/-- The `Default` instance. -/
def default : TransactionLog := new 10000

/-- A log after a sequence of appends. -/
def appends (log : TransactionLog) (entries : List TransactionLogEntry) : TransactionLog :=
  entries.foldl append log

/-- The code's `append` is a window's, entry for entry. -/
theorem entries_appends (log : TransactionLog) (entries : List TransactionLogEntry) :
    (log.appends entries).entries = entries.foldl (push log.maxEntries) log.entries := by
  induction entries generalizing log with
  | nil => rfl
  | cons e entries ih => exact ih (log.append e)

/-- What a log holds, whatever its window: at `max_entries = 0` it still holds the last one. -/
theorem snapshot_appends (maxEntries : Nat) (appended : List TransactionLogEntry) :
    ((new maxEntries).appends appended).snapshot = appended.rtake (room maxEntries) := by
  have h := entries_appends (new maxEntries) appended
  rw [show (new maxEntries).entries = [] from rfl, foldl_push_nil] at h
  exact h

/-- The last `min n max_entries` entries in append order, none of them moved or repeated. -/
theorem snapshot_window (maxEntries : Nat) (h : 1 ≤ maxEntries)
    (appended : List TransactionLogEntry) :
    let log := (new maxEntries).appends appended
    log.snapshot = appended.drop (appended.length - min appended.length maxEntries) ∧
    (∃ evicted, appended = evicted ++ log.snapshot) ∧
    log.len = min appended.length maxEntries ∧
    log.len ≤ maxEntries := by
  intro log
  have hsnapshot : log.snapshot = appended.rtake maxEntries := by
    rw [← room_eq h]
    exact snapshot_appends maxEntries appended
  have hlen : log.len = min appended.length maxEntries := by
    show log.snapshot.length = _
    rw [hsnapshot, length_rtake]
  refine ⟨?_, ?_, hlen, hlen ▸ Nat.min_le_right _ _⟩
  · rw [hsnapshot]
    show appended.drop (appended.length - maxEntries) = _
    congr 1
    omega
  · obtain ⟨evicted, he⟩ := rtake_suffix appended maxEntries
    exact ⟨evicted, by rw [hsnapshot, he]⟩

/-- Three entries come into a window for two. -/
theorem snapshot_window_evicts :
    let entry := fun n : Uuid => (⟨n, 0, 0, []⟩ : TransactionLogEntry)
    ((new 2).appends [entry 1, entry 2, entry 3]).snapshot = [entry 2, entry 3] := by
  intro entry
  exact (snapshot_window 2 (by decide) [entry 1, entry 2, entry 3]).1

theorem isEmpty_appends (maxEntries : Nat) (appended : List TransactionLogEntry) :
    ((new maxEntries).appends appended).isEmpty = true ↔ appended = [] := by
  have hlen : ((new maxEntries).appends appended).len = min appended.length (room maxEntries) := by
    rw [← length_rtake, ← snapshot_appends]
    rfl
  have hroom : 0 < room maxEntries := room_pos
  unfold isEmpty
  rw [decide_eq_true_iff, hlen, ← List.length_eq_zero_iff]
  omega

end TransactionLog

/-! ## The manager's log -/

/-- What an operation adds to the log, and on whose behalf. -/
def Op.logs : Op → List (Uuid × TransactionLogEntry)
  | .append tx entry => [(tx, entry)]
  | _ => []

/-- What a transaction has in a list of entries, each with the transaction it is about. -/
def entriesOf (tx : Uuid) (order : List (Uuid × TransactionLogEntry)) :
    List TransactionLogEntry :=
  (order.filter fun e => e.1 = tx).map Prod.snd

theorem entriesOf_append (tx : Uuid) (order order' : List (Uuid × TransactionLogEntry)) :
    entriesOf tx (order ++ order') = entriesOf tx order ++ entriesOf tx order' := by
  unfold entriesOf
  rw [List.filter_append, List.map_append]

/-- The log has taken in `order`, and each transaction has what `order` has of it. -/
def Logs (w : World) (order : List (Uuid × TransactionLogEntry)) (w' : World) : Prop :=
  w'.log = (order.map Prod.snd).foldl (push 8192) w.log ∧
    ∀ tx, (w'.cells tx).logged = (w.cells tx).logged ++ entriesOf tx order

section Logs

variable {w w' w'' : World} {tx : Uuid} {order order' : List (Uuid × TransactionLogEntry)}

theorem Logs.refl (w : World) : Logs w [] w :=
  ⟨rfl, fun _ => (List.append_nil _).symm⟩

theorem Logs.trans (h : Logs w order w') (h' : Logs w' order' w'') :
    Logs w (order ++ order') w'' := by
  refine ⟨?_, fun tx => ?_⟩
  · rw [h'.1, h.1, List.map_append, List.foldl_append]
  · rw [h'.2, h.2, entriesOf_append, List.append_assoc]

/-- A change of one cell that logs nothing. -/
theorem Logs.setCell {c : Cell} (h : c.logged = (w.cells tx).logged) :
    Logs w [] (w.setCell tx c) := by
  refine ⟨rfl, fun t => ?_⟩
  show (Function.update w.cells tx c t).logged = _
  rw [show entriesOf t [] = [] from rfl, List.append_nil]
  by_cases ht : t = tx
  · subst ht
    rw [Function.update_self, h]
  · rw [Function.update_of_ne ht]

/-- Neither log nor cells hold a mutex. -/
theorem Logs.setFree (h : Logs w order w') (b : Bool) : Logs w order (w'.setFree tx b) := h

theorem logs_append (entry : TransactionLogEntry) : Logs w [(tx, entry)] { w.setCell tx
    { w.cells tx with logged := (w.cells tx).logged ++ [entry] } with
      log := appendLog 8192 w.log entry } := by
  refine ⟨rfl, fun t => ?_⟩
  show (Function.update w.cells tx _ t).logged = _
  unfold entriesOf
  by_cases ht : t = tx
  · subst ht
    simp
  · rw [Function.update_of_ne ht]
    simp [Ne.symm ht]

/-- One operation. -/
theorem sem_logs {o : Op} {r : o.Ret} (h : sem o w r w') : Logs w o.logs w' := by
  cases o with
  | append t entry =>
      obtain rfl := h
      exact logs_append entry
  | insert t state =>
      obtain rfl := h
      refine Logs.setFree (Logs.setCell ?_) true
      rfl
  | hand t ctx =>
      obtain rfl := h
      refine Logs.setFree (Logs.setCell ?_) true
      rfl
  | unlock t a =>
      obtain rfl := h
      refine Logs.setFree (Logs.setCell ?_) true
      rfl
  | lock t =>
      cases r with
      | true => obtain ⟨-, rfl⟩ := h; exact Logs.refl w
      | false => obtain rfl := h; exact Logs.refl w'
  | load t => obtain ⟨-, rfl⟩ := h; exact Logs.refl _
  | loadCtx t => obtain ⟨-, rfl⟩ := h; exact Logs.refl _
  | get t => obtain ⟨-, rfl⟩ := h; exact Logs.refl _
  | component c => obtain ⟨-, rfl⟩ := h; exact Logs.refl _
  | newV4 => obtain ⟨-, rfl⟩ := h; exact Logs.refl w
  | now => obtain rfl := h; exact Logs.refl _
  | register t s => obtain ⟨now, -, rfl⟩ := h; exact Logs.refl w
  | deregister t => obtain rfl := h; exact Logs.refl w
  | staleTransactions n => obtain ⟨now, -, -, rfl⟩ := h; exact Logs.refl w
  | extendWriteSet t keys =>
      simp only [sem] at h
      split at h
      next record _ => rw [h]; exact Logs.refl w
      next => rw [h]; exact Logs.refl w
  | prepare t more =>
      cases r with
      | ok u => obtain ⟨-, rfl⟩ := h; exact Logs.setCell rfl
      | error e => obtain ⟨-, rfl⟩ := h; exact Logs.refl _
  | engine t call =>
      obtain ⟨b, -, rfl⟩ := h
      exact Logs.setCell rfl
  | remove t | store t s | emit t s | storeCtx t ctx =>
      obtain rfl := h
      exact Logs.setCell rfl

end Logs

section Runs

variable [Crates] [Texts]

theorem Later.logs {c c' : System} (h : Later c c') : ∃ order, Logs c.world order c'.world := by
  induction h with
  | refl => exact ⟨[], Logs.refl _⟩
  | @tail b d _ hs ih =>
      obtain ⟨order, horder⟩ := ih
      rcases Pool.Step.world hs with he | ⟨o, r, hr⟩
      · rw [he]
        exact ⟨order, horder⟩
      · exact ⟨order ++ o.logs, horder.trans (sem_logs hr)⟩

/-- However its calls interleave, the manager's log is the window over one order of all that
was logged, in which every transaction finds its own entries in their order. -/
theorem manager_log_window {c c' : System} (h : Later c c') (hlog : c.world.log = [])
    (hcells : ∀ tx, (c.world.cells tx).logged = []) :
    ∃ order, c'.world.log = (order.map Prod.snd).rtake 8192 ∧
      ∀ tx, (c'.world.cells tx).logged = entriesOf tx order := by
  obtain ⟨order, hwindow, hown⟩ := Later.logs h
  refine ⟨order, ?_, fun tx => ?_⟩
  · rw [hwindow, hlog, foldl_push_nil]
    rfl
  · rw [hown, hcells, List.nil_append]

end Runs

end ClawDB.Transaction
