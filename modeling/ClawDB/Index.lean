/-
# `ClawDB.Index` — the vector index beside the core store

Runs of the library: any sequence of the calls that write memories, with any
number of transactions open at once, any of the calls failing.  A run is labelled
with its calls and their replies, so that a condition on a run can speak of them.

`Inv` holds in every run: ids are unique, every row was handed out as a memory
identifier, and no document's id ever was.  `Indexed`, that the index describes the
store, is kept by every call but an update or a delete of an indexed memory.
-/
import ClawDB.Memories

namespace ClawDB

open Effect Prog
open Json (Value)

/-- The world, the transactions a caller still holds, and the memory identifiers
the calls have returned. -/
structure Store where
  world : World
  live : List ClawTransaction
  written : List Uuid

/-- A call and its reply. -/
inductive Event where
  | remember (session : ClawDBSession) (content : String)
      (reply : Except ClawDBError RememberResult)
  | rememberTyped (session : ClawDBSession) (content memoryType : String) (tags : List String)
      (metadata : Value) (reply : Except ClawDBError RememberResult)
  | transaction (session : ClawDBSession) (reply : Except ClawDBError ClawTransaction)
  | txRememberTyped (tx : ClawTransaction) (content memoryType : String) (tags : List String)
      (metadata : Value) (reply : Except ClawDBError (Uuid × ClawTransaction))
  | commit (tx : ClawTransaction) (reply : Except ClawDBError Unit)
  | rollback (tx : ClawTransaction) (reply : Except ClawDBError Unit)
  | dropped (tx : ClawTransaction)
  | updateMemory (session : ClawDBSession) (memoryId : Uuid) (content : String)
      (reply : Except ClawDBError Unit)
  | deleteMemory (session : ClawDBSession) (memoryId : Uuid) (reply : Except ClawDBError Unit)
  | elsewhere

/-- The identifier a reply of `remember_typed` hands out. -/
def returned : Except ClawDBError RememberResult → List Uuid
  | .ok result => [result.memoryId]
  | .error _ => []

/-- The caller's transactions and identifiers after a staging. -/
def staged (tx : ClawTransaction) : Except ClawDBError (Uuid × ClawTransaction) →
    ClawTransaction × List Uuid
  | .ok (id, tx') => (tx', [id])
  | .error _ => (tx, [])

theorem map_setContent_id (rows : List MemoryRecord) (id : Uuid) (content : String) :
    (rows.map (setContent id content)).map MemoryRecord.id = rows.map MemoryRecord.id := by
  rw [List.map_map]
  refine List.map_congr_left fun r _ => ?_
  simp only [Function.comp, setContent]
  split <;> rfl

/-! ## One row of the core -/

section Rows

variable {w : World} {r : MemoryRecord}

/-- Rows with one id are one row. -/
theorem row_unique (hn : (w.rows.map MemoryRecord.id).Nodup) (hr : r ∈ w.rows)
    {r' : MemoryRecord} (hr' : r' ∈ w.rows) (he : r'.id = r.id) : r' = r :=
  List.inj_on_of_nodup_map hn hr' hr he

theorem recallOne_row (hn : (w.rows.map MemoryRecord.id).Nodup) (hr : r ∈ w.rows)
    {session : ClawDBSession} {r' : MemoryRecord} {w' : World}
    (h : Exec Op.sem (ClawDBEngine.recallOne session r.id).run w (.ok r') w') : r' = r := by
  unfold ClawDBEngine.recallOne at h
  obtain ⟨-, e, he⟩ | h := exec_authorize_bind h
  · cases he
  obtain ⟨rep, hrep, hok⟩ := Try.exec_of.mp h
  rw [exec_core] at hrep
  rcases rep with e | a
  · cases hok
  · cases hok
    exact row_unique hn hr hrep.2.1 hrep.2.2

theorem updateMemory_row (hn : (w.rows.map MemoryRecord.id).Nodup) (hr : r ∈ w.rows)
    {session : ClawDBSession} {content : String} {w' : World}
    (h : Exec Op.sem (ClawDBEngine.updateMemory session r.id content).run w (.ok ()) w')
    (r' : MemoryRecord) :
    r' ∈ w'.rows ↔ r' = { r with content := content } ∨ r' ∈ w.rows ∧ r' ≠ r := by
  obtain ⟨⟨e, he⟩, -⟩ | ⟨-, rfl⟩ := exec_updateMemory h
  · cases he
  · rw [List.mem_map]
    constructor
    · rintro ⟨r₀, hr₀, rfl⟩
      unfold setContent
      split
      next he => exact .inl (by rw [row_unique hn hr hr₀ he])
      next he => exact .inr ⟨hr₀, fun h => he (h ▸ rfl)⟩
    · rintro (rfl | ⟨hr', hne⟩)
      · exact ⟨r, hr, if_pos rfl⟩
      · exact ⟨r', hr', if_neg fun he => hne (row_unique hn hr hr' he)⟩

theorem deleteMemory_row (hn : (w.rows.map MemoryRecord.id).Nodup) (hr : r ∈ w.rows)
    {session : ClawDBSession} {w' : World}
    (h : Exec Op.sem (ClawDBEngine.deleteMemory session r.id).run w (.ok ()) w')
    (r' : MemoryRecord) : r' ∈ w'.rows ↔ r' ∈ w.rows ∧ r' ≠ r := by
  obtain ⟨⟨e, he⟩, -⟩ | ⟨-, rfl⟩ := exec_deleteMemory h
  · cases he
  · rw [List.mem_filter, decide_eq_true_eq]
    exact and_congr_right fun hr' =>
      not_congr ⟨fun he => row_unique hn hr hr' he, fun he => he ▸ rfl⟩

end Rows

/-! ## Runs -/

section Runs

variable [Crates]

/-- One call.  `elsewhere` is the guard or the process at work: sessions come and
go, random ids are drawn. -/
inductive Store.Step (db : ClawDBEngine) : Store → Event → Store → Prop where
  | remember {w w' live written session content b} :
      Exec Op.sem (db.remember session content).run w b w' →
      Step db ⟨w, live, written⟩ (.remember session content b)
        ⟨w', live, written ++ returned b⟩
  | rememberTyped {w w' live written session content memoryType tags metadata b} :
      Exec Op.sem (db.rememberTyped session content memoryType tags metadata).run w b w' →
      Step db ⟨w, live, written⟩ (.rememberTyped session content memoryType tags metadata b)
        ⟨w', live, written ++ returned b⟩
  | transaction {w w' live written session b} :
      Exec Op.sem (db.transaction session).run w b w' →
      Step db ⟨w, live, written⟩ (.transaction session b)
        ⟨w', live ++ b.toOption.toList, written⟩
  | txRememberTyped {w w' pre post written tx content memoryType tags metadata b} :
      Exec Op.sem (tx.rememberTyped content memoryType tags metadata).run w b w' →
      Step db ⟨w, pre ++ tx :: post, written⟩
        (.txRememberTyped tx content memoryType tags metadata b)
        ⟨w', pre ++ (staged tx b).1 :: post, written ++ (staged tx b).2⟩
  | commit {w w' pre post written tx b} : Exec Op.sem tx.commit.run w b w' →
      Step db ⟨w, pre ++ tx :: post, written⟩ (.commit tx b) ⟨w', pre ++ post, written⟩
  | rollback {w w' pre post written tx b} : Exec Op.sem tx.rollback.run w b w' →
      Step db ⟨w, pre ++ tx :: post, written⟩ (.rollback tx b) ⟨w', pre ++ post, written⟩
  | dropped {w pre post written tx} :
      Step db ⟨w, pre ++ tx :: post, written⟩ (.dropped tx) ⟨w, pre ++ post, written⟩
  | updateMemory {w w' live written session memoryId content b} :
      Exec Op.sem (ClawDBEngine.updateMemory session memoryId content).run w b w' →
      Step db ⟨w, live, written⟩ (.updateMemory session memoryId content b) ⟨w', live, written⟩
  | deleteMemory {w w' live written session memoryId b} :
      Exec Op.sem (ClawDBEngine.deleteMemory session memoryId).run w b w' →
      Step db ⟨w, live, written⟩ (.deleteMemory session memoryId b) ⟨w', live, written⟩
  | elsewhere {w w' live written} {o : Op} {r : o.Ret} :
      (∃ g, o = .guard g) ∨ (∃ h, o = .host h) → Op.sem o w r w' →
      Step db ⟨w, live, written⟩ .elsewhere ⟨w', live, written⟩

/-- Stores a run reaches, all of whose calls meet a condition. -/
inductive Store.Run (db : ClawDBEngine) (P : Store → Event → Prop) : Store → Prop where
  | init {w : World} : w.rows = [] → w.docs = [] → Run db P ⟨w, [], []⟩
  | step {st st' : Store} {e : Event} : Run db P st → P st e → Store.Step db st e st' →
      Run db P st'

/-- The induction rule for an invariant that the condition helps to keep. -/
theorem Store.Run.invariant {db : ClawDBEngine} {P : Store → Event → Prop} {I : Store → Prop}
    (hinit : ∀ w : World, w.rows = [] → w.docs = [] → I ⟨w, [], []⟩)
    (hstep : ∀ st e st', I st → P st e → Store.Step db st e st' → I st') {st : Store}
    (h : Store.Run db P st) : I st := by
  induction h with
  | init hr hd => exact hinit _ hr hd
  | step _ hp hs ih => exact hstep _ _ _ ih hp hs

namespace Store

/-! ## What holds in every run -/

/-- Staged vector work describes rows of the open transaction. -/
def Backed (kept : List MemoryRecord) (p : String × Value) : Prop :=
  ∃ r ∈ kept, p.2.get "memory_id" = some (uuid r.id) ∧ p.1 = r.content

/-- An open transaction: its rows are unique memories, and back its vector work. -/
def Held (w : World) (written : List Uuid) (tx : ClawTransaction) : Prop :=
  ∃ kept, w.opened tx.inner = some kept ∧ (kept.map MemoryRecord.id).Nodup ∧
    (∀ r ∈ kept, r.id ∈ written) ∧ ∀ p ∈ tx.pendingVectorUpserts, Backed kept p

structure Inv (st : Store) : Prop where
  handles : (st.live.map ClawTransaction.inner).Nodup
  given : ∀ tx ∈ st.live, tx.inner ∈ st.world.handles
  held : ∀ tx ∈ st.live, Held st.world st.written tx
  rows_nodup : (st.world.rows.map MemoryRecord.id).Nodup
  rows_written : ∀ r ∈ st.world.rows, r.id ∈ st.written
  written_used : ∀ id ∈ st.written, id ∈ st.world.used
  docs_used : ∀ d ∈ st.world.docs, d.id ∈ st.world.used
  docs_apart : ∀ d ∈ st.world.docs, d.id ∉ st.written

theorem Held.mono {w w' : World} {written written' : List Uuid} {tx : ClawTransaction}
    (h : Held w written tx) (ho : w'.opened tx.inner = w.opened tx.inner)
    (hw : ∀ id ∈ written, id ∈ written') : Held w' written' tx := by
  obtain ⟨kept, hk, hn, hkw, hp⟩ := h
  exact ⟨kept, ho.trans hk, hn, fun r hr => hw _ (hkw r hr), hp⟩

section Steps

variable {db : ClawDBEngine} {w w' : World} {live pre post : List ClawTransaction}
  {written : List Uuid} {tx : ClawTransaction}

theorem Inv.draw (hi : Inv ⟨w, live, written⟩) (id : Uuid) : Inv ⟨w.draw id, live, written⟩ :=
  { hi with
    held := fun tx htx => (hi.held tx htx).mono rfl fun _ h => h
    written_used := fun _ h => List.mem_cons_of_mem _ (hi.written_used _ h)
    docs_used := fun d h => List.mem_cons_of_mem _ (hi.docs_used d h) }

/-- A new id is handed out, that was never drawn before. -/
theorem Inv.issue (hi : Inv ⟨w, live, written⟩) {id : Uuid} (hid : id ∉ w.used) :
    Inv ⟨w.draw id, live, written ++ [id]⟩ :=
  { hi.draw id with
    held := fun tx htx => (hi.held tx htx).mono rfl fun _ h => List.mem_append_left _ h
    rows_written := fun r hr => List.mem_append_left _ (hi.rows_written r hr)
    written_used := fun id' h => by
      rcases List.mem_append.mp h with h | h
      · exact List.mem_cons_of_mem _ (hi.written_used _ h)
      · obtain rfl := List.mem_singleton.mp h
        exact List.mem_cons_self
    docs_apart := fun d hd h => by
      rcases List.mem_append.mp h with h | h
      · exact hi.docs_apart d hd h
      · exact hid (List.mem_singleton.mp h ▸ hi.docs_used d hd) }

/-- A new memory is stored under it. -/
theorem Inv.store (hi : Inv ⟨w, live, written⟩) {record : MemoryRecord}
    (hid : record.id ∉ w.used) :
    Inv ⟨(w.draw record.id).addRow record, live, written ++ [record.id]⟩ :=
  { hi.issue hid with
    held := fun tx htx => ((hi.issue hid).held tx htx).mono rfl fun _ h => h
    rows_nodup := by
      have hnew : record.id ∉ w.rows.map MemoryRecord.id := fun h => by
        obtain ⟨r, hr, he⟩ := List.mem_map.mp h
        exact hid (he ▸ hi.written_used _ (hi.rows_written r hr))
      simpa [World.addRow, World.draw, List.nodup_append] using
        ⟨hi.rows_nodup, fun r hr he => hnew (List.mem_map.mpr ⟨r, hr, he⟩)⟩
    rows_written := fun r hr => by
      rcases List.mem_append.mp hr with hr | hr
      · exact (hi.issue hid).rows_written r hr
      · obtain rfl := List.mem_singleton.mp hr
        exact List.mem_append_right _ (List.mem_singleton_self _) }

/-- New documents take ids that are nobody's. -/
theorem Inv.index (hi : Inv ⟨w, live, written⟩) {ds : List Doc} (h : w.Indexing ds w') :
    Inv ⟨w', live, written⟩ := by
  obtain ⟨hr, ho, hh, hd⟩ := h.frame
  obtain ⟨hkeep, hnew⟩ := h.used
  exact
    { handles := hi.handles
      given := fun tx htx => by rw [hh]; exact hi.given tx htx
      held := fun tx htx => (hi.held tx htx).mono (by rw [ho]) fun _ h => h
      rows_nodup := by rw [hr]; exact hi.rows_nodup
      rows_written := by rw [hr]; exact hi.rows_written
      written_used := fun id hid => hkeep id (hi.written_used id hid)
      docs_used := fun d hmem => by
        rcases List.mem_append.mp (hd ▸ hmem) with h | h
        · exact hkeep _ (hi.docs_used d h)
        · exact (hnew d h).2
      docs_apart := fun d hmem hid => by
        rcases List.mem_append.mp (hd ▸ hmem) with h | h
        · exact hi.docs_apart d h hid
        · exact (hnew d h).1 (hi.written_used _ hid) }

/-- Rows rewritten or removed, ids unchanged. -/
theorem Inv.setRows (hi : Inv ⟨w, live, written⟩) {rows : List MemoryRecord}
    (hr : (rows.map MemoryRecord.id).Sublist (w.rows.map MemoryRecord.id)) :
    Inv ⟨{ w with rows := rows }, live, written⟩ :=
  { hi with
    held := fun tx htx => (hi.held tx htx).mono rfl fun _ h => h
    rows_nodup := hi.rows_nodup.sublist hr
    rows_written := fun r hmem => by
      obtain ⟨r', hr', he⟩ := List.mem_map.mp (hr.subset (List.mem_map_of_mem hmem))
      exact he ▸ hi.rows_written r' hr' }

/-- The other open transactions are open under other handles. -/
theorem Inv.other (hi : Inv ⟨w, pre ++ tx :: post, written⟩) {tx' : ClawTransaction}
    (h : tx' ∈ pre ++ post) : tx'.inner ≠ tx.inner := by
  have hn : ((tx :: (pre ++ post)).map ClawTransaction.inner).Nodup :=
    (List.Perm.map _ List.perm_middle).nodup_iff.mp hi.handles
  rw [List.map_cons, List.nodup_cons] at hn
  exact fun he => hn.1 (he ▸ List.mem_map_of_mem h)

/-- A transaction given up: nobody else held its handle. -/
theorem Inv.close (hi : Inv ⟨w, pre ++ tx :: post, written⟩) :
    Inv ⟨w.setOpened tx.inner none, pre ++ post, written⟩ :=
  { hi with
    handles := hi.handles.sublist
      (((List.sublist_cons_self tx post).append_left pre).map _)
    given := fun tx' h => hi.given tx' (Pool.mem_without h)
    held := fun tx' h => (hi.held tx' (Pool.mem_without h)).mono
      (Function.update_of_ne (hi.other h) ..) fun _ h => h }

theorem Inv.drop (hi : Inv ⟨w, pre ++ tx :: post, written⟩) : Inv ⟨w, pre ++ post, written⟩ :=
  { hi with
    handles := hi.handles.sublist
      (((List.sublist_cons_self tx post).append_left pre).map _)
    given := fun tx' h => hi.given tx' (Pool.mem_without h)
    held := fun tx' h => hi.held tx' (Pool.mem_without h) }

/-- A new transaction, under a handle not given out before. -/
theorem Inv.begin (hi : Inv ⟨w, live, written⟩) {inner : TxHandle} (hnew : inner ∉ w.handles)
    (vector : Bool) (workspaceId : String) :
    Inv ⟨{ w.setOpened inner (some []) with handles := inner :: w.handles },
      live ++ [⟨inner, vector, workspaceId, []⟩], written⟩ :=
  { hi with
    handles := by
      have hne : ∀ tx ∈ live, tx.inner ≠ inner := fun tx htx he => hnew (he ▸ hi.given tx htx)
      simpa [List.nodup_append] using ⟨hi.handles, fun tx htx he => hne tx htx he⟩
    given := fun tx htx => by
      rcases List.mem_append.mp htx with h | h
      · exact List.mem_cons_of_mem _ (hi.given tx h)
      · obtain rfl := List.mem_singleton.mp h
        exact List.mem_cons_self
    held := fun tx htx => by
      rcases List.mem_append.mp htx with h | h
      · have hne : tx.inner ≠ inner := fun he => hnew (he ▸ hi.given tx h)
        exact (hi.held tx h).mono (Function.update_of_ne hne ..) fun _ h => h
      · obtain rfl := List.mem_singleton.mp h
        exact ⟨[], Function.update_self .., List.nodup_nil, fun r hr => (nomatch hr),
          fun p hp => (nomatch hp)⟩ }

/-- One more row is kept aside for a transaction, its vector work beside it. -/
theorem Held.keep (h : Held w written tx) {record : MemoryRecord} {metadata : Value}
    {kept : List MemoryRecord} (hk : w.opened tx.inner = some kept)
    (hfree : ∀ r ∈ kept, r.id ≠ record.id) :
    Held (w.setOpened tx.inner (some (kept ++ [record]))) (written ++ [record.id])
      { tx with pendingVectorUpserts := tx.pendingVectorUpserts ++
        [(record.content, vectorMetadata record.id record metadata)] } := by
  obtain ⟨kept', hk', hn, hkw, hp⟩ := h
  obtain rfl : kept' = kept := Option.some.inj (hk'.symm.trans hk)
  refine ⟨kept' ++ [record], Function.update_self .., ?_, ?_, ?_⟩
  · simpa [List.nodup_append] using ⟨hn, hfree⟩
  · intro r hr
    rcases List.mem_append.mp hr with hr | hr
    · exact List.mem_append_left _ (hkw r hr)
    · obtain rfl := List.mem_singleton.mp hr
      exact List.mem_append_right _ (List.mem_singleton_self _)
  · intro p hpm
    rcases List.mem_append.mp hpm with hpm | hpm
    · obtain ⟨r, hr, hb⟩ := hp p hpm
      exact ⟨r, List.mem_append_left _ hr, hb⟩
    · obtain rfl := List.mem_singleton.mp hpm
      exact ⟨record, List.mem_append_right _ (List.mem_singleton_self _), rfl, rfl⟩

/-- A memory is staged. -/
theorem Inv.keep (hi : Inv ⟨w, pre ++ tx :: post, written⟩) {record : MemoryRecord}
    {metadata : Value} {kept : List MemoryRecord} (hid : record.id ∉ w.used)
    (hk : w.opened tx.inner = some kept) (hfree : ∀ r ∈ kept, r.id ≠ record.id) :
    Inv ⟨(w.draw record.id).setOpened tx.inner (some (kept ++ [record])),
      pre ++ { tx with pendingVectorUpserts := tx.pendingVectorUpserts ++
        [(record.content, vectorMetadata record.id record metadata)] } :: post,
      written ++ [record.id]⟩ :=
  { hi.issue hid with
    handles := by simpa using hi.handles
    given := fun tx' htx' => by
      rcases List.mem_append.mp htx' with h | h
      · exact hi.given tx' (List.mem_append_left _ h)
      · rcases List.mem_cons.mp h with rfl | h
        · exact hi.given tx List.mem_append_cons_self
        · exact hi.given tx' (List.mem_append_right _ (List.mem_cons_of_mem _ h))
    held := fun tx' htx' => by
      have hothers : tx' ∈ pre ++ post → Held ((w.draw record.id).setOpened tx.inner
          (some (kept ++ [record]))) (written ++ [record.id]) tx' := fun h =>
        ((hi.issue hid).held tx' (Pool.mem_without h)).mono (Function.update_of_ne (hi.other h) ..)
          fun _ h => h
      have hown : Held (w.draw record.id) written tx :=
        (hi.held tx List.mem_append_cons_self).mono rfl fun _ h => h
      rcases List.mem_append.mp htx' with h | h
      · exact hothers (List.mem_append_left _ h)
      · rcases List.mem_cons.mp h with rfl | h
        · exact hown.keep hk hfree
        · exact hothers (List.mem_append_right _ h) }

/-- A commit publishes the rows kept aside. -/
theorem Inv.publish (hi : Inv ⟨w, pre ++ tx :: post, written⟩) {kept : List MemoryRecord}
    (hk : w.opened tx.inner = some kept) (hfree : ∀ r ∈ kept, ∀ r' ∈ w.rows, r'.id ≠ r.id) :
    Inv ⟨{ w.setOpened tx.inner none with rows := w.rows ++ kept }, pre ++ post, written⟩ := by
  obtain ⟨kept', hk', hn, hkw, -⟩ := hi.held tx List.mem_append_cons_self
  obtain rfl : kept' = kept := Option.some.inj (hk'.symm.trans hk)
  exact
    { hi.close with
      held := fun tx' h => (hi.close.held tx' h).mono rfl fun _ h => h
      rows_nodup := by
        simpa [List.nodup_append] using
          ⟨hi.rows_nodup, hn, fun r hr r' hr' he => hfree r' hr' r hr he⟩
      rows_written := fun r hr => by
        rcases List.mem_append.mp hr with hr | hr
        · exact hi.rows_written r hr
        · exact hkw r hr }

theorem Inv.elsewhere (hi : Inv ⟨w, live, written⟩) {o : Op} {r : o.Ret}
    (ho : (∃ g, o = .guard g) ∨ ∃ h, o = .host h) (h : Op.sem o w r w') :
    Inv ⟨w', live, written⟩ := by
  obtain ⟨g, rfl⟩ | ⟨g, rfl⟩ := ho
  · obtain rfl | ⟨g, -, -, rfl⟩ | ⟨id, rfl⟩ := GuardOp.sem_cases h
    · exact hi
    · exact { hi.draw g.id with held := fun tx htx => hi.held tx htx }
    · exact { hi with held := fun tx htx => hi.held tx htx }
  · obtain rfl | ⟨id, -, rfl⟩ := HostOp.sem_cases h
    · exact hi
    · exact hi.draw id

theorem inv_rememberTyped (hi : Inv ⟨w, live, written⟩) {session : ClawDBSession}
    {content memoryType : String} {tags : List String} {metadata : Value}
    {b : Except ClawDBError RememberResult}
    (h : Exec Op.sem (db.rememberTyped session content memoryType tags metadata).run w b w') :
    Inv ⟨w', live, written ++ returned b⟩ := by
  obtain ⟨e, rfl, hw⟩ | ⟨record, indexed, ds, -, -, -, hid, -, rfl, hds, -⟩ :=
    exec_rememberTyped h
  · rw [returned, List.append_nil]
    obtain rfl | ⟨id, -, rfl⟩ := hw
    · exact hi
    · exact hi.draw id
  · exact (hi.store hid).index hds

/-- Every call keeps the invariant. -/
theorem inv_step {st st' : Store} {e : Event} (hi : Inv st) (h : Step db st e st') : Inv st' := by
  cases h with
  | remember h => exact inv_rememberTyped hi h
  | rememberTyped h => exact inv_rememberTyped hi h
  | transaction h =>
      obtain ⟨⟨e, rfl⟩, rfl⟩ | ⟨inner, hnew, rfl, rfl⟩ := exec_transaction h
      · simpa [Except.toOption] using hi
      · exact hi.begin hnew _ _
  | txRememberTyped h =>
      obtain ⟨record, hid, rfl, -, -, ⟨⟨e, rfl⟩, rfl⟩ | ⟨kept, hk, hfree, rfl, rfl⟩⟩ :=
        exec_txRememberTyped h
      · simpa [staged] using hi.draw record.id
      · exact hi.keep hid hk hfree
  | commit h =>
      obtain ⟨-, rfl⟩ | ⟨-, kept, ds, hk, hfree, hds, -⟩ := exec_commit h
      · exact hi.close
      · exact (hi.publish hk hfree).index hds
  | rollback h => rw [exec_rollback h]; exact hi.close
  | dropped => exact hi.drop
  | updateMemory h =>
      obtain ⟨-, rfl⟩ | ⟨-, rfl⟩ := exec_updateMemory h
      · exact hi
      · exact hi.setRows (by rw [map_setContent_id])
  | deleteMemory h =>
      obtain ⟨-, rfl⟩ | ⟨-, rfl⟩ := exec_deleteMemory h
      · exact hi
      · exact hi.setRows (List.filter_sublist.map _)
  | elsewhere ho h => exact hi.elsewhere ho h

theorem inv_run {P : Store → Event → Prop} {st : Store} (h : Run db P st) : Inv st := by
  refine h.invariant (fun w hr hd => ?_) fun st e st' hi _ hs => inv_step hi hs
  exact
    { handles := List.nodup_nil
      given := fun tx h => by cases h
      held := fun tx h => by cases h
      rows_nodup := by simp [hr]
      rows_written := by simp [hr]
      written_used := fun id h => by cases h
      docs_used := by simp [hd]
      docs_apart := by simp [hd] }

/-! ## The index describes the store -/

/-- The document was made from the record as it stands: it names it, and has its
content. -/
def Describes (d : Doc) (r : MemoryRecord) : Prop :=
  d.metadata.get "memory_id" = some (uuid r.id) ∧ d.text = r.content

def Indexed (w : World) : Prop := ∀ d ∈ w.docs, ∃ r ∈ w.rows, Describes d r

/-- The calls that leave the index behind: a successful delete of a memory that has
a document, a successful update of one to another content. -/
def Safe (st : Store) : Event → Prop
  | .updateMemory _ id content (.ok _) =>
      ∀ d ∈ st.world.docs, d.metadata.get "memory_id" = some (uuid id) → d.text = content
  | .deleteMemory _ id (.ok _) =>
      ∀ d ∈ st.world.docs, d.metadata.get "memory_id" ≠ some (uuid id)
  | _ => True

/-- More rows, and documents that describe some of them. -/
theorem Indexed.grow (hx : Indexed w) {kept : List MemoryRecord} {ds : List Doc}
    (hrows : w'.rows = w.rows ++ kept) (hdocs : w'.docs = w.docs ++ ds)
    (hds : ∀ d ∈ ds, ∃ r ∈ kept, Describes d r) : Indexed w' := by
  intro d hd
  rw [hrows]
  rcases List.mem_append.mp (hdocs ▸ hd) with h | h
  · obtain ⟨r, hr, hdr⟩ := hx d h
    exact ⟨r, List.mem_append_left _ hr, hdr⟩
  · obtain ⟨r, hr, hdr⟩ := hds d h
    exact ⟨r, List.mem_append_right _ hr, hdr⟩

theorem indexed_rememberTyped (hx : Indexed w) {session : ClawDBSession}
    {content memoryType : String} {tags : List String} {metadata : Value}
    {b : Except ClawDBError RememberResult}
    (h : Exec Op.sem (db.rememberTyped session content memoryType tags metadata).run w b w') :
    Indexed w' := by
  obtain ⟨-, -, rfl | ⟨_, -, rfl⟩⟩ | ⟨record, indexed, ds, -, -, -, -, -, -, hds, hcase⟩ :=
    exec_rememberTyped h
  · exact hx
  · exact hx
  · obtain ⟨hr, -, -, hd⟩ := hds.frame
    refine hx.grow hr hd fun d hmem => ⟨record, List.mem_singleton_self _, ?_⟩
    obtain ⟨-, rfl⟩ | ⟨-, -, docId, rfl⟩ := hcase
    · cases hmem
    · obtain rfl := List.mem_singleton.mp hmem
      exact ⟨rfl, rfl⟩

/-- A safe call keeps the index in step with the store. -/
theorem indexed_step {st st' : Store} {e : Event} (hi : Inv st) (hx : Indexed st.world)
    (hsafe : Safe st e) (h : Step db st e st') : Indexed st'.world := by
  cases h with
  | remember h => exact indexed_rememberTyped hx h
  | rememberTyped h => exact indexed_rememberTyped hx h
  | transaction h =>
      obtain ⟨-, rfl⟩ | ⟨inner, -, -, rfl⟩ := exec_transaction h <;> exact hx
  | txRememberTyped h =>
      obtain ⟨_, -, -, -, -, ⟨-, rfl⟩ | ⟨_, -, -, -, rfl⟩⟩ := exec_txRememberTyped h <;> exact hx
  | commit h =>
      obtain ⟨-, rfl⟩ | ⟨-, kept, ds, hk, -, hds, -, hsub, -⟩ := exec_commit h
      · exact hx
      · -- the staged work was backed by the rows that are published with it
        obtain ⟨kept', hk', -, -, hbacked⟩ := hi.held _ List.mem_append_cons_self
        obtain rfl : kept' = kept := Option.some.inj (hk'.symm.trans hk)
        obtain ⟨hr, -, -, hd⟩ := hds.frame
        refine Indexed.grow hx hr hd fun d hmem => ?_
        exact hbacked _ (hsub.subset (List.mem_map_of_mem (f := Doc.staged) hmem))
  | rollback h => rw [exec_rollback h]; exact hx
  | dropped => exact hx
  | updateMemory h =>
      obtain ⟨-, rfl⟩ | ⟨rfl, rfl⟩ := exec_updateMemory h
      · exact hx
      · intro d hd
        obtain ⟨r, hr, hid, hc⟩ := hx d hd
        refine ⟨_, List.mem_map_of_mem hr, ?_⟩
        unfold setContent
        split
        next he => exact ⟨hid, hsafe d hd (he ▸ hid)⟩
        next => exact ⟨hid, hc⟩
  | deleteMemory h =>
      obtain ⟨-, rfl⟩ | ⟨rfl, rfl⟩ := exec_deleteMemory h
      · exact hx
      · intro d hd
        obtain ⟨r, hr, hid, hc⟩ := hx d hd
        refine ⟨r, List.mem_filter.mpr ⟨hr, ?_⟩, hid, hc⟩
        exact decide_eq_true fun he => hsafe d hd (he ▸ hid)
  | elsewhere ho h =>
      obtain ⟨g, rfl⟩ | ⟨g, rfl⟩ := ho
      · obtain rfl | ⟨_, -, -, rfl⟩ | ⟨_, rfl⟩ := GuardOp.sem_cases h <;> exact hx
      · obtain rfl | ⟨_, -, rfl⟩ := HostOp.sem_cases h <;> exact hx

/-- And an unsafe one does not: where ids print differently, the two conditions are
one. -/
theorem indexed_step_iff (hprint : Function.Injective Crates.uuidToString) {st st' : Store}
    {e : Event} (hi : Inv st) (hx : Indexed st.world) (h : Step db st e st') :
    Indexed st'.world ↔ Safe st e := by
  refine ⟨fun hx' => ?_, fun hsafe => indexed_step hi hx hsafe h⟩
  have hid : ∀ {d : Doc} {a b : Uuid}, d.metadata.get "memory_id" = some (uuid a) →
      d.metadata.get "memory_id" = some (uuid b) → a = b := by
    intro d a b ha hb
    exact hprint (Value.string.inj (Option.some.inj (ha.symm.trans hb)))
  cases h with
  | @updateMemory w w' live written session id content b h =>
      obtain ⟨⟨e, rfl⟩, -⟩ | ⟨rfl, rfl⟩ := exec_updateMemory h
      · trivial
      · intro d hd hnames
        obtain ⟨r', hr', hnames', hc⟩ := hx' d hd
        obtain ⟨r, -, rfl⟩ := List.mem_map.mp hr'
        have he := hid hnames hnames'
        unfold setContent at he hc
        split at hc
        next => exact hc
        next hne => rw [if_neg hne] at he; exact absurd he.symm hne
  | @deleteMemory w w' live written session id b h =>
      obtain ⟨⟨e, rfl⟩, -⟩ | ⟨rfl, rfl⟩ := exec_deleteMemory h
      · trivial
      · intro d hd hnames
        obtain ⟨r, hr, hnames', -⟩ := hx' d hd
        have hne := (List.mem_filter.mp hr).2
        rw [decide_eq_true_eq] at hne
        exact hne (hid hnames' hnames)
  | _ => trivial

theorem indexed_run {st : Store} (h : Run db Safe st) : Indexed st.world := by
  refine (h.invariant (I := fun st => Inv st ∧ Indexed st.world) (fun w hr hd => ?_) ?_).2
  · have hrun : Run db Safe ⟨w, [], []⟩ := .init hr hd
    exact ⟨inv_run hrun, by simp [Indexed, hd]⟩
  · rintro st e st' ⟨hi, hx⟩ hs h
    exact ⟨inv_step hi h, indexed_step hi hx hs h⟩

end Steps

end Store

/-! ## Semantic hits and the memories they speak of -/

/-- In a run of safe calls, every semantic hit is a memory of the store, as it
stands. -/
theorem semantic_hits_current {db : ClawDBEngine} {st : Store}
    (hrun : Store.Run db Store.Safe st) {session : ClawDBSession} {query : String} {topK : Nat}
    {semantic : Bool} {filter : Option Value} {hits : List SearchHit} {w' : World}
    (hsem : db.useSemantic semantic = true)
    (hsearch : Exec Op.sem (db.searchWithOptions session query topK semantic filter).run
      st.world (.ok hits) w') :
    ∀ hit ∈ hits, ∃ r ∈ st.world.rows,
      hit.metadata.get "memory_id" = some (uuid r.id) ∧ hit.content = r.content := by
  intro hit hhit
  obtain ⟨-, -, hall⟩ := exec_hits (exec_searchWithOptions hsearch)
  have hdoc := hall hit hhit
  rw [if_pos hsem] at hdoc
  obtain ⟨d, hd, -, score, rfl⟩ := hdoc
  exact Store.indexed_run hrun d hd

/-- What a hit's identifier is for: it is one that a write returned, of a memory in
the store, and recall, update and delete by it act on that memory alone. -/
def IdentifiesMemory (st : Store) (hit : SearchHit) : Prop :=
  ∃ r ∈ st.world.rows, hit.id = r.id ∧ hit.content = r.content ∧ hit.id ∈ st.written ∧
    (∀ session r' w', Exec Op.sem (ClawDBEngine.recallOne session hit.id).run st.world (.ok r') w' →
      r' = r) ∧
    (∀ session content w',
      Exec Op.sem (ClawDBEngine.updateMemory session hit.id content).run st.world (.ok ()) w' →
      ∀ r', r' ∈ w'.rows ↔ r' = { r with content := content } ∨ r' ∈ st.world.rows ∧ r' ≠ r) ∧
    ∀ session w',
      Exec Op.sem (ClawDBEngine.deleteMemory session hit.id).run st.world (.ok ()) w' →
      ∀ r', r' ∈ w'.rows ↔ r' ∈ st.world.rows ∧ r' ≠ r

/-- A hit identifies a memory exactly when the search ran in full-text mode. -/
theorem hit_identifies_iff {db : ClawDBEngine} {st : Store} {P : Store → Event → Prop}
    (hrun : Store.Run db P st) {session : ClawDBSession} {query : String} {topK : Nat}
    {semantic : Bool} {filter : Option Value} {hits : List SearchHit} {w' : World}
    (hsearch : Exec Op.sem (db.searchWithOptions session query topK semantic filter).run
      st.world (.ok hits) w') {hit : SearchHit} (hhit : hit ∈ hits) :
    IdentifiesMemory st hit ↔ db.useSemantic semantic = false := by
  have hi := Store.inv_run hrun
  obtain ⟨-, -, hall⟩ := exec_hits (exec_searchWithOptions hsearch)
  have hfrom := hall hit hhit
  split at hfrom
  next hsem =>
    -- the hit carries the document's id, which no write ever returned
    obtain ⟨d, hd, -, score, rfl⟩ := hfrom
    constructor
    · rintro ⟨-, -, -, -, hw, -⟩
      exact absurd hw (hi.docs_apart d hd)
    · intro h; rw [hsem] at h; cases h
  next hsem =>
    obtain ⟨r, hr, -, rfl⟩ := hfrom
    refine ⟨fun _ => Bool.eq_false_iff.mpr hsem, fun _ => ?_⟩
    exact ⟨r, hr, rfl, rfl, hi.rows_written r hr,
      fun session r' w' h => recallOne_row hi.rows_nodup hr h,
      fun session content w' h => updateMemory_row hi.rows_nodup hr h,
      fun session w' h => deleteMemory_row hi.rows_nodup hr h⟩

end Runs

/-! ## Witnesses

One memory, remembered and found again; and the same memory, updated behind the
index's back. -/

section Witnesses

attribute [local instance] Crates.sample

/-- A store in which the owner has remembered `x`. -/
def rememberedStore : Store :=
  ⟨(reference (vectorDb.remember ownerSession "x") ownerWorld).2, [],
    returned (reference (vectorDb.remember ownerSession "x") ownerWorld).1⟩

theorem rememberedStore_run {P : Store → Event → Prop}
    (hP : ∀ st b, P st (.remember ownerSession "x" b)) :
    Store.Run vectorDb P rememberedStore :=
  .step (.init rfl rfl) (hP _ _) (.remember (exec_reference _ ownerWorld))

/-- The same store after the owner updated the memory to `y`. -/
def updatedStore : Store :=
  { rememberedStore with
    world := (reference (ClawDBEngine.updateMemory ownerSession 2 "y") rememberedStore.world).2 }

def searchHits (st : Store) (semantic : Bool) : List SearchHit :=
  okOr [] (reference (vectorDb.searchWithOptions ownerSession "x" 10 semantic none) st.world).1

theorem searchHits_exec (st : Store) (semantic : Bool)
    (hok : (reference (vectorDb.searchWithOptions ownerSession "x" 10 semantic none)
      st.world).1.isOk = true) :
    Exec Op.sem (vectorDb.searchWithOptions ownerSession "x" 10 semantic none).run st.world
      (.ok (searchHits st semantic))
      (reference (vectorDb.searchWithOptions ownerSession "x" 10 semantic none) st.world).2 :=
  ok_okOr hok ▸ exec_reference _ st.world

theorem semantic_hits_current_remembered :
    (searchHits rememberedStore true).length = 1 ∧
    ∀ hit ∈ searchHits rememberedStore true, ∃ r ∈ rememberedStore.world.rows,
      hit.metadata.get "memory_id" = some (uuid r.id) ∧ hit.content = r.content :=
  ⟨by decide, semantic_hits_current (rememberedStore_run fun _ _ => trivial) (by decide)
    (searchHits_exec rememberedStore true (by decide))⟩

theorem updatedStore_run : Store.Run vectorDb (fun _ _ => True) updatedStore :=
  .step (rememberedStore_run fun _ _ => trivial) trivial
    (.updateMemory (exec_reference _ rememberedStore.world))

/-- After the update the semantic search still returns `x`. -/
theorem semantic_hits_stale :
    ¬ ∀ (db : ClawDBEngine) (st : Store), Store.Run db (fun _ _ => True) st →
      ∀ (session : ClawDBSession) (query : String) (topK : Nat) (semantic : Bool)
        (filter : Option Value) (hits : List SearchHit) (w' : World),
        db.useSemantic semantic = true →
        Exec Op.sem (db.searchWithOptions session query topK semantic filter).run st.world
          (.ok hits) w' →
        ∀ hit ∈ hits, ∃ r ∈ st.world.rows,
          hit.metadata.get "memory_id" = some (uuid r.id) ∧ hit.content = r.content := by
  intro hclaim
  have hstale := hclaim vectorDb updatedStore updatedStore_run ownerSession "x" 10 true none _ _
    (by decide) (searchHits_exec updatedStore true (by decide))
  revert hstale
  decide

/-- In full-text mode the remembered memory is found under its own identifier. -/
theorem hit_identifies_iff_fts :
    ∃ hit ∈ searchHits rememberedStore false, IdentifiesMemory rememberedStore hit := by
  have hmem : ∃ hit, hit ∈ searchHits rememberedStore false :=
    List.exists_mem_of_length_pos (by decide)
  obtain ⟨hit, hhit⟩ := hmem
  exact ⟨hit, hhit, (hit_identifies_iff (rememberedStore_run (P := fun _ _ => True)
    fun _ _ => trivial) (searchHits_exec rememberedStore false (by decide)) hhit).mpr (by decide)⟩

/-- In semantic mode it is found under the identifier of its document. -/
theorem semantic_hit_misidentifies :
    ¬ ∀ (db : ClawDBEngine) (st : Store), Store.Run db (fun _ _ => True) st →
      ∀ (session : ClawDBSession) (query : String) (topK : Nat) (semantic : Bool)
        (filter : Option Value) (hits : List SearchHit) (w' : World),
        Exec Op.sem (db.searchWithOptions session query topK semantic filter).run st.world
          (.ok hits) w' →
        ∀ hit ∈ hits, hit.id ∈ st.written := by
  intro hclaim
  have hids := hclaim vectorDb rememberedStore (rememberedStore_run fun _ _ => trivial)
    ownerSession "x" 10 true none _ _ (searchHits_exec rememberedStore true (by decide))
  revert hids
  decide

end Witnesses

end ClawDB
