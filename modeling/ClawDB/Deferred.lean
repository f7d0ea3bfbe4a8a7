/-
# `ClawDB.Deferred` — a transaction against the same memories one by one

A memory can be stored by `ClawDB::remember_typed`, or staged by the method of that name on a
`ClawTransaction` and stored by its commit.  The two ways are compared on a list of memories:
what they store, what they index, and what they tell the plugins and the metrics.

The stores cannot tell them apart: for every transaction that commits there is a run of the
direct calls that draws the same ids and leaves the same rows and the same documents, whichever
upserts failed.  The plugins and the metrics can: the transaction tells them nothing.
-/
import ClawDB.Memories
import ClawDB.Server.Monitor

namespace ClawDB

open Effect Prog
open Json (Value)

/-! ## The two ways -/

/-- The arguments of one `remember_typed`. -/
structure Item where
  content : String
  memoryType : String
  tags : List String
  metadata : Value

/-- The row of an item, under the id that was drawn for it. -/
def Item.record (item : Item) (id : Uuid) : MemoryRecord :=
  ⟨id, item.content, parseMemoryType item.memoryType, item.tags⟩

theorem Item.record_eq {item : Item} {r : MemoryRecord} (hcontent : r.content = item.content)
    (htype : r.memoryType = parseMemoryType item.memoryType) (htags : r.tags = item.tags) :
    item.record r.id = r := by
  rw [Item.record, ← hcontent, ← htype, ← htags]

section

variable [Crates]

/-- What the vector engine is given of an item. -/
def Item.upsert (item : Item) (id : Uuid) : String × Value :=
  (item.content, vectorMetadata id (item.record id) item.metadata)

def ClawTransaction.rememberAll (tx : ClawTransaction) :
    List Item → Eng (List Uuid × ClawTransaction)
  | [] => pure ([], tx)
  | item :: items => do
      let (id, tx) ← tx.rememberTyped item.content item.memoryType item.tags item.metadata
      let (ids, tx) ← tx.rememberAll items
      pure (id :: ids, tx)

variable (db : ClawDBEngine) (session : ClawDBSession)

/-- All items in one transaction, which is committed. -/
def inTransaction (items : List Item) : Eng (List Uuid) := do
  let tx ← db.transaction session
  let (ids, tx) ← tx.rememberAll items
  tx.commit
  pure ids

/-- Each item by a call of its own. -/
def oneByOne : List Item → Eng (List Uuid)
  | [] => pure []
  | item :: items => do
      let result ← db.rememberTyped session item.content item.memoryType item.tags item.metadata
      let ids ← oneByOne items
      pure (result.memoryId :: ids)

end

/-! ## What can be observed -/

/-- What plugins and metrics were told of stored memories: the `MemoryWritten` events, and the
labels under which `remember_total` was increased. -/
structure Telemetry where
  written : List (String × Uuid)
  remembered : List (String × String)
deriving DecidableEq

def Telemetry.next (t : Telemetry) : Op → Telemetry
  | .host (.emit (.memoryWritten memoryId workspaceId)) =>
      { t with written := t.written ++ [(memoryId, workspaceId)] }
  | .host (.count (.rememberTotal workspaceId result)) =>
      { t with remembered := t.remembered ++ [(workspaceId, result)] }
  | _ => t

/-- Nothing is forbidden; events and counters are kept. -/
def telemetry : Protocol Sig Telemetry where
  allowed _ _ := True
  next t o _ := t.next o

/-- The components, and what was told so far. -/
abbrev Op.observed : Prog.Rel Sig (World × Telemetry) := Rel.watched Op.sem telemetry

/-- A document, without the ids that were drawn for it. -/
structure DocView where
  /-- which of the new rows it is about -/
  row : Option Nat
  workspaceId : String
  collection : String
  text : String
  metadata : Value
deriving DecidableEq

/-- All that a run adds, with every new id replaced by the place of its row. -/
structure View where
  memories : List Shape
  documents : List DocView
  written : List (Option Nat × Uuid)
  remembered : List (String × String)
deriving DecidableEq

def withoutMember (key : String) : Value → Value
  | .object fields => .object (fields.filter fun kv => decide (kv.1 ≠ key))
  | v => v

section

variable [Crates]

def rowOf (rows : List MemoryRecord) (id : Option Value) : Option Nat :=
  rows.findIdx? fun r => decide (id = some (uuid r.id))

def Doc.view (rows : List MemoryRecord) (d : Doc) : DocView :=
  ⟨rowOf rows (d.metadata.get "memory_id"), d.workspaceId, d.collection, d.text,
    withoutMember "memory_id" d.metadata⟩

/-- What a run from `s` to `s'` adds. -/
def view (s s' : World × Telemetry) : View :=
  let rows := s'.1.rows.drop s.1.rows.length
  { memories := rows.map MemoryRecord.shape
    documents := (s'.1.docs.drop s.1.docs.length).map (Doc.view rows)
    written := (s'.2.written.drop s.2.written.length).map fun e =>
      (rowOf rows (some (.string e.1)), e.2)
    remembered := s'.2.remembered.drop s.2.remembered.length }

end

/-! ## What the plugins and the metrics are told -/

/-- An operation that tells neither of them of a stored memory. -/
def Op.Quiet (o : Op) : Prop := ∀ t : Telemetry, t.next o = t

theorem Op.Quiet.skips {o : Op} (h : o.Quiet) (t : Telemetry) : telemetry.Skips t o :=
  ⟨trivial, fun _ => h t⟩

theorem quiet_authorize {α : Type} {session : ClawDBSession} {accepted : List String}
    {f : Unit → Eng α} (hf : (f ()).run.Within Op.Quiet) :
    (ClawDBEngine.authorize session accepted >>= f).run.Within Op.Quiet :=
  within_authorize (fun _ => rfl) (fun _ => rfl) (fun _ _ _ _ => rfl) hf

theorem quiet_core (o : CoreOp) : (Eng.core o).Within Op.Quiet :=
  ⟨fun _ => rfl, fun _ => trivial⟩

theorem quiet_flush (workspaceId : String) (pending : List (String × Value)) :
    (ClawTransaction.flush workspaceId pending).run.Within Op.Quiet := by
  induction pending with
  | nil => trivial
  | cons p rest ih =>
      exact Try.within_bind (Try.within_lift ⟨fun t => rfl, fun _ => trivial⟩) fun _ => ih

theorem quiet_commit (tx : ClawTransaction) : tx.commit.run.Within Op.Quiet := by
  refine Try.within_bind (Try.within_of (quiet_core _)) fun _ => ?_
  split
  · exact quiet_flush tx.workspaceId tx.pendingVectorUpserts
  · trivial

theorem quiet_new (content : String) (memoryType : MemoryType) (tags : List String) :
    (MemoryRecord.new content memoryType tags).run.Within Op.Quiet :=
  Try.within_bind (Try.within_lift ⟨fun _ => rfl, fun _ => trivial⟩) fun _ => trivial

section

variable [Crates]

theorem quiet_rememberAll (tx : ClawTransaction) (items : List Item) :
    (tx.rememberAll items).run.Within Op.Quiet := by
  induction items generalizing tx with
  | nil => trivial
  | cons item items ih =>
      refine Try.within_bind ?_ fun x => Try.within_bind (ih x.2) fun _ => trivial
      refine Try.within_bind (quiet_new _ _ _) fun record => ?_
      exact Try.within_bind (Try.within_of (quiet_core _)) fun _ => trivial

variable {db : ClawDBEngine} {session : ClawDBSession}

theorem quiet_inTransaction (items : List Item) :
    (inTransaction db session items).run.Within Op.Quiet := by
  refine Try.within_bind ?_ fun tx => ?_
  · refine quiet_authorize ?_
    exact Try.within_bind (Try.within_of (quiet_core _)) fun _ => trivial
  · refine Try.within_bind (quiet_rememberAll tx items) fun x => ?_
    exact Try.within_bind (quiet_commit x.2) fun _ => trivial

/-- A transaction tells them nothing. -/
theorem inTransaction_telemetry {items : List Item} {s s' : World × Telemetry}
    {b : Except ClawDBError (List Uuid)}
    (h : Exec Op.observed (inTransaction db session items).run s b s') : s'.2 = s.2 :=
  wp_watched (Q := fun t' _ => t' = s.2) h
    (wp_of_within ((quiet_inTransaction items).mono fun _ ho => ho.skips s.2))

/-- What they were told after a memory was stored by a call of its own, or was not. -/
def Telemetry.stored (session : ClawDBSession) (t : Telemetry) :
    Except ClawDBError RememberResult → Telemetry
  | .ok result =>
      ⟨t.written ++ [(Crates.uuidToString result.memoryId, session.workspaceId)],
        t.remembered ++ [(Crates.uuidToString session.workspaceId, "ok")]⟩
  | .error _ => t

theorem wp_rememberTyped (item : Item) (t : Telemetry) :
    (db.rememberTyped session item.content item.memoryType item.tags item.metadata).run.wp
      telemetry (fun t' r => t' = t.stored session r) t := by
  refine wp_authorize ⟨trivial, fun _ => rfl⟩ ⟨trivial, fun _ => rfl⟩
    (fun _ _ _ => ⟨trivial, fun _ => rfl⟩) ?_ fun e => rfl
  refine ⟨trivial, fun id => ⟨trivial, fun r => ?_⟩⟩
  cases r with
  | error e => exact rfl
  | ok memoryId =>
      refine Try.wp_bind.mpr (wp_mono ?_ (wp_indexed fun _ => ⟨trivial, fun _ => rfl⟩))
      rintro t' r ⟨rfl, indexed, rfl⟩
      exact ⟨trivial, fun _ => ⟨trivial, fun _ => rfl⟩⟩

/-- A call of its own tells them of every memory it stored. -/
theorem oneByOne_telemetry {items : List Item} {s s' : World × Telemetry} {ids : List Uuid}
    (h : Exec Op.observed (oneByOne db session items).run s (.ok ids) s') :
    s'.2.written = s.2.written ++
        ids.map (fun id => (Crates.uuidToString id, session.workspaceId)) ∧
      s'.2.remembered = s.2.remembered ++
        items.map (fun _ => (Crates.uuidToString session.workspaceId, "ok")) := by
  induction items generalizing s ids with
  | nil =>
      obtain ⟨hids, rfl⟩ := exec_pure.mp h
      cases hids
      simp
  | cons item items ih =>
      obtain ⟨result, s₁, hstored, h⟩ | ⟨e, -, he⟩ := Try.exec_bind.mp h
      · obtain ⟨ids', s₂, hrest, h⟩ | ⟨e, -, he⟩ := Try.exec_bind.mp h
        · obtain ⟨hids, rfl⟩ := exec_pure.mp h
          cases hids
          have hone : s₁.2 = s.2.stored session (.ok result) :=
            wp_watched (Q := fun t' r => t' = s.2.stored session r) hstored
              (wp_rememberTyped item s.2)
          obtain ⟨hwritten, hremembered⟩ := ih hrest
          rw [hwritten, hremembered, hone]
          simp [Telemetry.stored]
        · cases he
      · cases he

end

/-! ## What the stores hold afterwards -/

section

variable {w w' : World} {α : Type} {session : ClawDBSession} {accepted : List String}
  {f : Unit → Eng α}

/-- The guard accepts the session's token, and one of its scopes is enough. -/
def World.Accepts (w : World) (session : ClawDBSession) (accepted : List String) : Prop :=
  ClawDBEngine.permits session.scopes accepted = true ∧
    ∃ g ∈ w.sessions, g.token = session.token ∧ g.id ∉ w.revoked

theorem exec_authorize_ok {a : α}
    (h : Exec Op.sem (ClawDBEngine.authorize session accepted >>= f).run w (.ok a) w') :
    w.Accepts session accepted ∧ Exec Op.sem (f ()).run w (.ok a) w' := by
  rw [authorize_bind] at h
  obtain ⟨r, w₁, hr, hk⟩ := exec_op.mp h
  rcases r with e | g
  · cases (exec_pure.mp hk).1
  · obtain ⟨rfl, hg, htoken, hrevoked⟩ := hr
    dsimp only at hk
    split at hk
    next hpermits => exact ⟨⟨hpermits, g, hg, htoken, hrevoked⟩, hk⟩
    next =>
      obtain ⟨_, _, -, hk⟩ := exec_op.mp hk
      obtain ⟨_, _, -, hk⟩ := exec_op.mp hk
      cases (exec_pure.mp hk).1

theorem exec_authorize_of {b : Except ClawDBError α} (hw : w.Accepts session accepted)
    (hf : Exec Op.sem (f ()).run w b w') :
    Exec Op.sem (ClawDBEngine.authorize session accepted >>= f).run w b w' := by
  obtain ⟨hpermits, g, hg, htoken, hrevoked⟩ := hw
  rw [authorize_bind]
  refine exec_op.mpr ⟨.ok g, w, ⟨rfl, hg, htoken, hrevoked⟩, ?_⟩
  dsimp only
  rw [if_pos hpermits]
  exact hf

end

theorem World.Indexing.nodup {w w' : World} {ds : List Doc} (h : w.Indexing ds w') :
    (ds.map Doc.id).Nodup := by
  induction h with
  | nil => exact List.nodup_nil
  | @cons w w' d ds _ htail ih =>
      refine List.nodup_cons.mpr ⟨fun hmem => ?_, ih⟩
      obtain ⟨d', hd', hid⟩ := List.mem_map.mp hmem
      exact (htail.used.2 d' hd').1 (hid ▸ List.mem_cons_self)

/-- The rows carry the ids that were drawn. -/
theorem map_id_record {items : List Item} {ids : List Uuid} (h : ids.length = items.length) :
    (List.zipWith Item.record items ids).map MemoryRecord.id = ids := by
  induction items generalizing ids with
  | nil =>
      obtain rfl := List.eq_nil_of_length_eq_zero h
      rfl
  | cons item items ih =>
      cases ids with
      | nil => cases h
      | cons id ids => exact congrArg (id :: ·) (ih (Nat.succ.inj h))

section

variable [Crates] {w w' : World} {db : ClawDBEngine} {session : ClawDBSession}

theorem exec_rememberItem {item : Item} {tx tx' : ClawTransaction} {id : Uuid}
    {kept : List MemoryRecord} (hkept : w.opened tx.inner = some kept)
    (h : Exec Op.sem
      (tx.rememberTyped item.content item.memoryType item.tags item.metadata).run w
      (.ok (id, tx')) w') :
    id ∉ w.used ∧
      tx' = { tx with pendingVectorUpserts := tx.pendingVectorUpserts ++ [item.upsert id] } ∧
      w' = (w.draw id).setOpened tx.inner (some (kept ++ [item.record id])) := by
  obtain ⟨record, hid, hcontent, htype, htags, ⟨⟨e, he⟩, -⟩ | ⟨kept', hk, -, hb, hw⟩⟩ :=
    exec_txRememberTyped h
  · cases he
  · obtain rfl : kept' = kept := Option.some.inj (hk.symm.trans hkept)
    have hrecord := Item.record_eq hcontent htype htags
    obtain ⟨rfl, rfl⟩ := Prod.mk.inj (Except.ok.inj hb)
    refine ⟨hid, ?_, ?_⟩
    · rw [Item.upsert, hrecord]
    · rw [hrecord]
      exact hw

/-- A transaction keeps its rows aside, and remembers what to index. -/
theorem exec_rememberAll {items : List Item} {tx tx' : ClawTransaction} {ids : List Uuid}
    {kept : List MemoryRecord} (hkept : w.opened tx.inner = some kept)
    (h : Exec Op.sem (tx.rememberAll items).run w (.ok (ids, tx')) w') :
    ids.length = items.length ∧ ids.Nodup ∧ (∀ id ∈ ids, id ∉ w.used) ∧
      tx' = { tx with pendingVectorUpserts :=
        tx.pendingVectorUpserts ++ List.zipWith Item.upsert items ids } ∧
      w' = { w with
        used := ids.reverse ++ w.used
        opened := Function.update w.opened tx.inner
          (some (kept ++ List.zipWith Item.record items ids)) } := by
  induction items generalizing w tx ids kept with
  | nil =>
      obtain ⟨hb, rfl⟩ := exec_pure.mp h
      cases hb
      refine ⟨rfl, List.nodup_nil, fun id hid => (nomatch hid), ?_, ?_⟩
      · simp
      · simp [← hkept]
  | cons item items ih =>
      obtain ⟨⟨id, tx₁⟩, w₁, hone, h⟩ | ⟨e, -, he⟩ := Try.exec_bind.mp h
      · obtain ⟨⟨ids', tx₂⟩, w₂, hrest, h⟩ | ⟨e, -, he⟩ := Try.exec_bind.mp h
        · obtain ⟨hb, rfl⟩ := exec_pure.mp h
          cases hb
          obtain ⟨hid, rfl, rfl⟩ := exec_rememberItem hkept hone
          obtain ⟨hlength, hnodup, hfresh, rfl, rfl⟩ := ih (Function.update_self ..) hrest
          refine ⟨congrArg (· + 1) hlength, ?_, ?_, ?_, ?_⟩
          · refine List.nodup_cons.mpr ⟨fun hmem => ?_, hnodup⟩
            exact hfresh _ hmem List.mem_cons_self
          · intro id hmem
            rcases List.mem_cons.mp hmem with rfl | hmem
            · exact hid
            · exact fun hu => hfresh id hmem (List.mem_cons_of_mem _ hu)
          · simp [Item.upsert]
          · simp [World.draw, World.setOpened]
        · cases he
      · cases he

/-- Where a run finds the scope it needs to write memories. -/
def writeScopes : List String := ["memory:write", "memory:*", "*"]

/-- Ids and documents with which the items can be added to a world: the ids are new, and some
of the items are indexed, in their order. -/
structure Addable (db : ClawDBEngine) (session : ClawDBSession) (items : List Item) (w : World)
    (ids : List Uuid) (ds : List Doc) : Prop where
  accepts : w.Accepts session writeScopes
  length : ids.length = items.length
  nodup : (ids ++ ds.map Doc.id).Nodup
  unused : ∀ id ∈ ids ++ ds.map Doc.id, id ∉ w.used
  rows : ∀ id ∈ ids, ∀ r ∈ w.rows, r.id ≠ id
  vector : db.vector = false → ds = []
  staged : (ds.map Doc.staged).Sublist (List.zipWith Item.upsert items ids)
  docs : ∀ d ∈ ds,
    d.workspaceId = Crates.uuidToString session.workspaceId ∧ d.collection = "memories"

/-- What a transaction that commits adds. -/
theorem exec_inTransaction {items : List Item} {ids : List Uuid}
    (h : Exec Op.sem (inTransaction db session items).run w (.ok ids) w') :
    ∃ ds, Addable db session items w ids ds ∧
      w'.rows = w.rows ++ List.zipWith Item.record items ids ∧ w'.docs = w.docs ++ ds := by
  obtain ⟨tx, w₁, htx, h⟩ | ⟨e, -, he⟩ := Try.exec_bind.mp h
  · obtain ⟨⟨ids', tx'⟩, w₂, hall, h⟩ | ⟨e, -, he⟩ := Try.exec_bind.mp h
    · obtain ⟨⟨⟩, w₃, hcommit, h⟩ | ⟨e, -, he⟩ := Try.exec_bind.mp h
      · obtain ⟨hids, rfl⟩ := exec_pure.mp h
        cases hids
        obtain ⟨⟨e, he⟩, -⟩ | ⟨inner, -, hb, rfl⟩ := exec_transaction htx
        · cases he
        cases hb
        obtain ⟨hlength, hnodup, hfresh, rfl, rfl⟩ :=
          exec_rememberAll (Function.update_self ..) hall
        obtain ⟨⟨e, he⟩, -⟩ | ⟨-, kept, ds, hk, hfree, hds, hvector, hsub, hdocs⟩ :=
          exec_commit hcommit
        · cases he
        simp only [Function.update_self, List.nil_append, Option.some.injEq] at hk
        subst hk
        obtain ⟨hrows, -, -, hd⟩ := hds.frame
        refine ⟨ds, ⟨(exec_authorize_ok htx).1, hlength, ?_, ?_, ?_, hvector, hsub, hdocs⟩,
          hrows, hd⟩
        · refine List.nodup_append.mpr ⟨hnodup, hds.nodup, fun id hid docId hdoc he => ?_⟩
          obtain ⟨d, hd, rfl⟩ := List.mem_map.mp hdoc
          refine (hds.used.2 d hd).1 ?_
          simp [World.setOpened, ← he, hid]
        · intro id hmem
          rcases List.mem_append.mp hmem with hid | hdoc
          · exact hfresh id hid
          · obtain ⟨d, hd, rfl⟩ := List.mem_map.mp hdoc
            refine fun hu => (hds.used.2 d hd).1 ?_
            simp [World.setOpened, hu]
        · intro id hid r hr
          rw [← map_id_record hlength] at hid
          obtain ⟨record, hrecord, rfl⟩ := List.mem_map.mp hid
          exact hfree record hrecord r hr
      · cases he
    · cases he
  · cases he

/-! ## The same by calls of their own -/

section

variable {item : Item} {items : List Item} {id : Uuid} {ids : List Uuid} {d : Doc} {ds : List Doc}

theorem exec_rememberTyped_of {indexed : Bool} (hw : w.Accepts session writeScopes)
    (hid : id ∉ w.used) (hrows : ∀ r ∈ w.rows, r.id ≠ id)
    (hi : Exec Op.sem
      (db.indexed session item.content id (item.record id) item.metadata).run
      ((w.draw id).addRow (item.record id)) (.ok indexed) w') :
    Exec Op.sem
      (db.rememberTyped session item.content item.memoryType item.tags item.metadata).run w
      (.ok ⟨id, indexed⟩) w' := by
  refine exec_authorize_of hw ?_
  refine Try.exec_bind_of (a := item.record id) (t := w.draw id) ?_ ?_
  · exact exec_op.mpr ⟨id, w.draw id, ⟨hid, rfl⟩, .pure ..⟩
  refine Try.exec_bind_of (a := id) (t := (w.draw id).addRow (item.record id)) ?_ ?_
  · exact Try.exec_of.mpr ⟨.ok id, exec_core.mpr ⟨rfl, hrows, rfl⟩, rfl⟩
  refine Try.exec_bind_of hi ?_
  exact exec_op.mpr ⟨(), w', rfl, exec_op.mpr ⟨(), w', rfl, .pure ..⟩⟩

/-- An upsert may always fail. -/
theorem exec_indexed_skip (db : ClawDBEngine) (content : String) (record : MemoryRecord)
    (metadata : Value) :
    Exec Op.sem (db.indexed session content id record metadata).run w (.ok false) w := by
  unfold ClawDBEngine.indexed
  split
  · exact exec_op.mpr ⟨.error "", w, rfl, .pure ..⟩
  · exact .pure ..

theorem exec_indexed_of (hv : db.vector = true) (hid : d.id ∉ w.used)
    (hworkspace : d.workspaceId = Crates.uuidToString session.workspaceId)
    (hcollection : d.collection = "memories") (hstaged : d.staged = item.upsert id) :
    Exec Op.sem (db.indexed session item.content id (item.record id) item.metadata).run w
      (.ok true) { w with docs := w.docs ++ [d], used := d.id :: w.used } := by
  unfold ClawDBEngine.indexed
  rw [if_pos hv]
  refine exec_op.mpr ⟨.ok d.id, _, ⟨hid, ?_⟩, .pure ..⟩
  obtain ⟨docId, workspaceId, collection, text, metadata⟩ := d
  obtain ⟨htext, hmetadata⟩ := Prod.mk.inj hstaged
  dsimp only at htext hmetadata hworkspace hcollection
  rw [htext, hmetadata, hworkspace, hcollection]

namespace Addable

theorem skip (h : Addable db session (item :: items) w (id :: ids) ds)
    (hsub : (ds.map Doc.staged).Sublist (List.zipWith Item.upsert items ids)) :
    Addable db session items ((w.draw id).addRow (item.record id)) ids ds where
  accepts := h.accepts
  length := Nat.succ.inj h.length
  nodup := (List.nodup_cons.mp h.nodup).2
  unused id' hid' hu := by
    rcases List.mem_cons.mp hu with rfl | hu
    · exact (List.nodup_cons.mp h.nodup).1 hid'
    · exact h.unused id' (List.mem_cons_of_mem _ hid') hu
  rows id' hid' r hr := by
    rcases List.mem_append.mp hr with hr | hr
    · exact h.rows id' (List.mem_cons_of_mem _ hid') r hr
    · obtain rfl := List.mem_singleton.mp hr
      rintro rfl
      exact (List.nodup_cons.mp h.nodup).1 (List.mem_append_left _ hid')
  vector := h.vector
  staged := hsub
  docs := h.docs

theorem index (h : Addable db session (item :: items) w (id :: ids) (d :: ds))
    (hsub : (ds.map Doc.staged).Sublist (List.zipWith Item.upsert items ids)) :
    Addable db session items
      { (w.draw id).addRow (item.record id) with
        docs := w.docs ++ [d], used := d.id :: id :: w.used } ids ds := by
  have hskip : Addable db session items ((w.draw id).addRow (item.record id)) ids ds :=
    skip
      { h with
        nodup := h.nodup.sublist (List.Sublist.append_left (List.sublist_cons_self ..) _)
        unused := fun id' hid' => h.unused id'
          ((List.Sublist.append_left (List.sublist_cons_self ..) _).subset hid')
        vector := fun hno => (nomatch h.vector hno)
        staged := hsub.cons _
        docs := fun d' hd' => h.docs d' (List.mem_cons_of_mem _ hd') } hsub
  have hnodup : (d.id :: (ids ++ ds.map Doc.id)).Nodup :=
    List.nodup_middle.mp (List.nodup_cons.mp h.nodup).2
  exact
    { hskip with
      unused := fun id' hid' hu => by
        rcases List.mem_cons.mp hu with rfl | hu
        · exact (List.nodup_cons.mp hnodup).1 hid'
        · exact hskip.unused id' hid' hu }

theorem unused_doc (h : Addable db session (item :: items) w (id :: ids) (d :: ds)) :
    d.id ∉ id :: w.used := by
  have hmem : d.id ∈ ids ++ (d :: ds).map Doc.id := List.mem_append_right _ List.mem_cons_self
  intro hu
  rcases List.mem_cons.mp hu with he | hu
  · exact (List.nodup_cons.mp h.nodup).1 (he ▸ hmem)
  · exact h.unused d.id (List.mem_cons_of_mem _ hmem) hu

end Addable

/-- Whatever can be added, calls of their own can add. -/
theorem exec_oneByOne_of (h : Addable db session items w ids ds) :
    ∃ w', Exec Op.sem (oneByOne db session items).run w (.ok ids) w' ∧
      w'.rows = w.rows ++ List.zipWith Item.record items ids ∧ w'.docs = w.docs ++ ds := by
  induction items generalizing w ids ds with
  | nil =>
      obtain rfl := List.eq_nil_of_length_eq_zero h.length
      obtain rfl := List.map_eq_nil_iff.mp (List.sublist_nil.mp h.staged)
      exact ⟨w, .pure .., by simp, by simp⟩
  | cons item items ih =>
      cases ids with
      | nil => cases h.length
      | cons id ids =>
          have hid : id ∉ w.used := h.unused id List.mem_cons_self
          have hrows : ∀ r ∈ w.rows, r.id ≠ id := h.rows id List.mem_cons_self
          rcases List.sublist_cons_iff.mp h.staged with hsub | ⟨staged, hds, hsub⟩
          · obtain ⟨w', hrest, hr, hd⟩ := ih (h.skip hsub)
            have hone := exec_rememberTyped_of h.accepts hid hrows
              (exec_indexed_skip db item.content (item.record id) item.metadata)
            refine ⟨w', ?_, ?_, hd⟩
            · exact Try.exec_bind_of hone (Try.exec_bind_of hrest (.pure ..))
            · rw [hr]
              simp [World.addRow, World.draw]
          · cases ds with
            | nil => cases hds
            | cons d ds =>
                obtain ⟨hstaged, rfl⟩ := List.cons.inj hds
                have hv : db.vector = true := by
                  cases hv : db.vector with
                  | true => rfl
                  | false => cases h.vector hv
                obtain ⟨hworkspace, hcollection⟩ := h.docs d List.mem_cons_self
                obtain ⟨w', hrest, hr, hd⟩ := ih (h.index hsub)
                have hone := exec_rememberTyped_of h.accepts hid hrows
                  (exec_indexed_of hv h.unused_doc hworkspace hcollection hstaged)
                refine ⟨w', ?_, ?_, ?_⟩
                · exact Try.exec_bind_of hone (Try.exec_bind_of hrest (.pure ..))
                · rw [hr]
                  simp [World.addRow, World.draw]
                · rw [hd]
                  simp

end

/-! ## The comparison -/

theorem view_congr {s s₁ s₂ : World × Telemetry} (hrows : s₁.1.rows = s₂.1.rows)
    (hdocs : s₁.1.docs = s₂.1.docs) (htold : s₁.2 = s₂.2) : view s s₁ = view s s₂ := by
  unfold view
  rw [hrows, hdocs, htold]

/-- A transaction that commits stores and indexes what calls of their own can store and index,
and all in all they can do what it did only if there was nothing to do. -/
theorem transaction_matched_iff {items : List Item} {ids : List Uuid} {s s' : World × Telemetry}
    (h : Exec Op.observed (inTransaction db session items).run s (.ok ids) s') :
    (∃ s₂, Exec Op.observed (oneByOne db session items).run s (.ok ids) s₂ ∧
      s₂.1.rows = s'.1.rows ∧ s₂.1.docs = s'.1.docs) ∧
    ((∃ ids₂ s₂, Exec Op.observed (oneByOne db session items).run s (.ok ids₂) s₂ ∧
      view s s₂ = view s s') ↔ items = []) := by
  obtain ⟨ds, hadd, hrows, hdocs⟩ := exec_inTransaction h.unwatched
  obtain ⟨w₂, hone, hrows₂, hdocs₂⟩ := exec_oneByOne_of hadd
  obtain ⟨t₂, hone⟩ := hone.watched telemetry s.2
  have hr : w₂.rows = s'.1.rows := hrows₂.trans hrows.symm
  have hd : w₂.docs = s'.1.docs := hdocs₂.trans hdocs.symm
  refine ⟨⟨(w₂, t₂), hone, hr, hd⟩, ?_, ?_⟩
  · rintro ⟨ids₂, s₂, hone, hview⟩
    have hremembered : s₂.2.remembered.drop s.2.remembered.length =
        s'.2.remembered.drop s.2.remembered.length := congrArg View.remembered hview
    rw [(oneByOne_telemetry hone).2, inTransaction_telemetry h, List.drop_left,
      List.drop_length] at hremembered
    exact List.map_eq_nil_iff.mp hremembered
  · rintro rfl
    obtain rfl := List.eq_nil_of_length_eq_zero hadd.length
    obtain ⟨hwritten, hremembered⟩ := oneByOne_telemetry hone
    simp only [List.map_nil, List.append_nil] at hwritten hremembered
    refine ⟨[], (w₂, t₂), hone, view_congr hr hd ?_⟩
    calc t₂ = ⟨t₂.written, t₂.remembered⟩ := rfl
      _ = ⟨s.2.written, s.2.remembered⟩ := by rw [hwritten, hremembered]
      _ = s'.2 := (inTransaction_telemetry h).symm

end

/-! ## One memory -/

section Witnesses

attribute [local instance] Crates.sample

def oneItem : List Item := [⟨"x", "semantic", [], .null⟩]

/-- The owner stores one memory in a transaction. -/
def afterTransaction : World :=
  (reference (inTransaction vectorDb ownerSession oneItem) ownerWorld).2

theorem exec_oneItem :
    Exec Op.sem (inTransaction vectorDb ownerSession oneItem).run ownerWorld (.ok [(2 : Nat)])
      afterTransaction := by
  have h := exec_reference (inTransaction vectorDb ownerSession oneItem) ownerWorld
  have hids : (reference (inTransaction vectorDb ownerSession oneItem) ownerWorld).1 =
      .ok [(2 : Nat)] := by
    decide +kernel
  rw [hids] at h
  exact h

theorem transaction_matched_oneItem :
    ∃ s', Exec Op.observed (inTransaction vectorDb ownerSession oneItem).run (ownerWorld, ⟨[], []⟩)
        (.ok [(2 : Nat)]) s' ∧
      ∃ s₂, Exec Op.observed (oneByOne vectorDb ownerSession oneItem).run (ownerWorld, ⟨[], []⟩)
          (.ok [(2 : Nat)]) s₂ ∧
        s₂.1.rows = s'.1.rows ∧ s₂.1.docs = s'.1.docs := by
  obtain ⟨t', h⟩ := exec_oneItem.watched telemetry ⟨[], []⟩
  exact ⟨_, h, (transaction_matched_iff h).1⟩

/-- No call of its own stores it as quietly. -/
theorem transaction_is_silent :
    ¬ ∀ (db : ClawDBEngine) (session : ClawDBSession) (items : List Item) (ids : List Uuid)
      (s s' : World × Telemetry),
      Exec Op.observed (inTransaction db session items).run s (.ok ids) s' →
        ∃ ids₂ s₂, Exec Op.observed (oneByOne db session items).run s (.ok ids₂) s₂ ∧
          view s s₂ = view s s' := by
  intro hclaim
  obtain ⟨t', h⟩ := exec_oneItem.watched telemetry ⟨[], []⟩
  obtain ⟨ids₂, s₂, hone, hview⟩ := hclaim _ _ _ _ _ _ h
  have hremembered : s₂.2.remembered.drop 0 = t'.remembered.drop 0 :=
    congrArg View.remembered hview
  obtain rfl : t' = ⟨[], []⟩ := inTransaction_telemetry h
  rw [(oneByOne_telemetry hone).2] at hremembered
  cases hremembered

end Witnesses

end ClawDB
