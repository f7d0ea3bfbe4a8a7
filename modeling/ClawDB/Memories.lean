/-
# `ClawDB.Memories` — what one call does to the stores

For each method that writes or searches memories, one lemma that says everything
an execution of it can do to the world: the ways it can end, and the exact world
each of them leaves.  The invariants of `Index` are derived from these lemmas; no
method is unfolded after this module.
-/
import ClawDB.Authorize

namespace ClawDB

open Effect Prog
open Json (Value)

/-! ## Single calls -/

section Calls

variable {σ : Type} {R : Prog.Rel Sig σ} {s s' : σ}

theorem exec_core {o : CoreOp} {r : o.Ret} :
    Exec R (Eng.core o) s r s' ↔ R (.core o) s r s' := exec_perform

theorem exec_vector {o : VectorOp} {r : o.Ret} :
    Exec R (Eng.vector o) s r s' ↔ R (.vector o) s r s' := exec_perform

theorem exec_host {o : HostOp} {r : o.Ret} :
    Exec R (Eng.host o) s r s' ↔ R (.host o) s r s' := exec_perform

/-- A fallible call ends the method where it was, or its reply goes on. -/
theorem exec_fallible_bind {ε α β : Type} {p : Act (Except ε β)} {conv : ε → ClawDBError}
    {k : β → Eng α} {b : Except ClawDBError α} (h : Exec R (Try.of p conv >>= k).run s b s') :
    (∃ e, Exec R p s (.error e) s' ∧ b = .error (conv e)) ∨
      ∃ a s₁, Exec R p s (.ok a) s₁ ∧ Exec R (k a).run s₁ b s' := by
  obtain ⟨a, s₁, hp, hk⟩ | ⟨e, hp, rfl⟩ := Try.exec_bind.mp h
  · obtain ⟨r, hr, he⟩ := Try.exec_of.mp hp
    cases r with
    | error e => cases he
    | ok a' => cases he; exact .inr ⟨a, s₁, hr, hk⟩
  · obtain ⟨r, hr, he⟩ := Try.exec_of.mp hp
    cases r with
    | error e' => cases he; exact .inl ⟨e', hr, rfl⟩
    | ok a => cases he

theorem exec_lift_bind {α β : Type} {p : Act β} {k : β → Eng α} {b : Except ClawDBError α}
    (h : Exec R (Try.lift p >>= k).run s b s') :
    ∃ a s₁, Exec R p s a s₁ ∧ Exec R (k a).run s₁ b s' := by
  obtain ⟨a, s₁, hp, hk⟩ | ⟨e, hp, -⟩ := Try.exec_bind.mp h
  · obtain ⟨a', hp', he⟩ := Try.exec_lift.mp hp
    cases he
    exact ⟨a, s₁, hp', hk⟩
  · obtain ⟨a', -, he⟩ := Try.exec_lift.mp hp
    cases he

end Calls

variable {w w' : World}

theorem exec_count {m : Metric} {b : Except ClawDBError Unit}
    (h : Exec Op.sem (ClawDBEngine.count m).run w b w') : b = .ok () ∧ w' = w := by
  obtain ⟨a, ha, rfl⟩ := Try.exec_lift.mp h
  exact ⟨rfl, exec_host.mp ha⟩

theorem exec_emit {event : ClawEvent} {b : Except ClawDBError Unit}
    (h : Exec Op.sem (ClawDBEngine.emit event).run w b w') : b = .ok () ∧ w' = w := by
  obtain ⟨a, ha, rfl⟩ := Try.exec_lift.mp h
  exact ⟨rfl, exec_host.mp ha⟩

section Binds

variable {α : Type} {f : Unit → Eng α} {b : Except ClawDBError α}

theorem exec_count_bind {m : Metric}
    (h : Exec Op.sem (ClawDBEngine.count m >>= f).run w b w') :
    Exec Op.sem (f ()).run w b w' := by
  obtain ⟨_, _, hc, hf⟩ | ⟨e, hc, -⟩ := Try.exec_bind.mp h
  · obtain ⟨-, rfl⟩ := exec_count hc; exact hf
  · cases (exec_count hc).1

theorem exec_emit_bind {event : ClawEvent}
    (h : Exec Op.sem (ClawDBEngine.emit event >>= f).run w b w') :
    Exec Op.sem (f ()).run w b w' := by
  obtain ⟨_, _, hc, hf⟩ | ⟨e, hc, -⟩ := Try.exec_bind.mp h
  · obtain ⟨-, rfl⟩ := exec_emit hc; exact hf
  · cases (exec_emit hc).1

/-- An authorization changes nothing: it stops the method, or lets it go on. -/
theorem exec_authorize_bind {session : ClawDBSession} {accepted : List String}
    (h : Exec Op.sem (ClawDBEngine.authorize session accepted >>= f).run w b w') :
    (w' = w ∧ ∃ e, b = .error e) ∨ Exec Op.sem (f ()).run w b w' := by
  rw [authorize_bind] at h
  obtain ⟨r, w₁, hr, hk⟩ := exec_op.mp h
  rcases r with e | g
  · obtain ⟨rfl, rfl⟩ := exec_pure.mp hk
    exact .inl ⟨hr, _, rfl⟩
  · obtain ⟨rfl, -⟩ := hr
    dsimp only at hk
    split at hk
    · exact .inr hk
    · obtain ⟨_, _, rfl, hk'⟩ := exec_op.mp hk
      obtain ⟨_, _, rfl, hk''⟩ := exec_op.mp hk'
      obtain ⟨rfl, rfl⟩ := exec_pure.mp hk''
      exact .inl ⟨rfl, _, rfl⟩

end Binds

/-! ## Worlds a call leaves -/

namespace World

def draw (w : World) (id : Uuid) : World := { w with used := id :: w.used }

def addRow (w : World) (r : MemoryRecord) : World := { w with rows := w.rows ++ [r] }

/-- Documents added one by one, each under an id not drawn before. -/
inductive Indexing : World → List Doc → World → Prop where
  | nil {w : World} : Indexing w [] w
  | cons {w w' : World} {d : Doc} {ds : List Doc} : d.id ∉ w.used →
      Indexing { w with docs := w.docs ++ [d], used := d.id :: w.used } ds w' →
      Indexing w (d :: ds) w'

theorem Indexing.frame {w w' : World} {ds : List Doc} (h : Indexing w ds w') :
    w'.rows = w.rows ∧ w'.opened = w.opened ∧ w'.handles = w.handles ∧
      w'.docs = w.docs ++ ds := by
  induction h with
  | nil => simp
  | cons _ _ ih =>
      obtain ⟨hr, ho, hh, hd⟩ := ih
      exact ⟨hr, ho, hh, by rw [hd]; simp⟩

/-- Ids drawn stay drawn, and the new documents' ids are new. -/
theorem Indexing.used {w w' : World} {ds : List Doc} (h : Indexing w ds w') :
    (∀ id ∈ w.used, id ∈ w'.used) ∧ ∀ d ∈ ds, d.id ∉ w.used ∧ d.id ∈ w'.used := by
  induction h with
  | nil => exact ⟨fun _ h => h, fun d hd => by cases hd⟩
  | @cons w w' d ds hd _ ih =>
      refine ⟨fun id hid => ih.1 id (List.mem_cons_of_mem _ hid), fun d' hd' => ?_⟩
      rcases List.mem_cons.mp hd' with rfl | hd'
      · exact ⟨hd, ih.1 _ List.mem_cons_self⟩
      · exact ⟨fun hu => (ih.2 d' hd').1 (List.mem_cons_of_mem _ hu), (ih.2 d' hd').2⟩

end World

/-! ## Writing -/

theorem exec_new_bind {α : Type} {content : String} {memoryType : MemoryType}
    {tags : List String} {f : MemoryRecord → Eng α} {b : Except ClawDBError α}
    (h : Exec Op.sem (MemoryRecord.new content memoryType tags >>= f).run w b w') :
    ∃ record : MemoryRecord, record.id ∉ w.used ∧ record.content = content ∧
      record.memoryType = memoryType ∧ record.tags = tags ∧
      Exec Op.sem (f record).run (w.draw record.id) b w' := by
  simp only [MemoryRecord.new, bind_assoc, pure_bind] at h
  obtain ⟨id, w₁, hid, hk⟩ := exec_lift_bind h
  obtain ⟨hu, rfl⟩ := exec_host.mp hid
  exact ⟨⟨id, content, memoryType, tags⟩, hu, rfl, rfl, rfl, hk⟩

theorem exec_updateMemory {session : ClawDBSession} {memoryId : Uuid} {content : String}
    {b : Except ClawDBError Unit}
    (h : Exec Op.sem (ClawDBEngine.updateMemory session memoryId content).run w b w') :
    (∃ e, b = .error e) ∧ w' = w ∨
      b = .ok () ∧ w' = { w with rows := w.rows.map (setContent memoryId content) } := by
  unfold ClawDBEngine.updateMemory at h
  obtain ⟨rfl, he⟩ | h := exec_authorize_bind h
  · exact .inl ⟨he, rfl⟩
  obtain ⟨r, hr, rfl⟩ := Try.exec_of.mp h
  rw [exec_core] at hr
  rcases r with e | ⟨⟩
  · exact .inl ⟨⟨_, rfl⟩, hr⟩
  · exact .inr ⟨rfl, hr⟩

theorem exec_deleteMemory {session : ClawDBSession} {memoryId : Uuid}
    {b : Except ClawDBError Unit}
    (h : Exec Op.sem (ClawDBEngine.deleteMemory session memoryId).run w b w') :
    (∃ e, b = .error e) ∧ w' = w ∨
      b = .ok () ∧ w' = { w with rows := w.rows.filter fun r => decide (r.id ≠ memoryId) } := by
  unfold ClawDBEngine.deleteMemory at h
  obtain ⟨rfl, he⟩ | h := exec_authorize_bind h
  · exact .inl ⟨he, rfl⟩
  obtain ⟨r, hr, rfl⟩ := Try.exec_of.mp h
  rw [exec_core] at hr
  rcases r with e | ⟨⟩
  · exact .inl ⟨⟨_, rfl⟩, hr⟩
  · exact .inr ⟨rfl, hr⟩

/-! ## Transactions -/

namespace World

def setOpened (w : World) (tx : TxHandle) (kept : Option (List MemoryRecord)) : World :=
  { w with opened := Function.update w.opened tx kept }

end World

/-- A document as it was staged. -/
def Doc.staged (d : Doc) : String × Value := (d.text, d.metadata)

/-- Some of the staged documents are indexed, in the order they were staged in. -/
theorem exec_flush {workspaceId : String} {pending : List (String × Value)}
    {b : Except ClawDBError Unit}
    (h : Exec Op.sem (ClawTransaction.flush workspaceId pending).run w b w') :
    b = .ok () ∧ ∃ ds, w.Indexing ds w' ∧ (ds.map Doc.staged).Sublist pending ∧
      ∀ d ∈ ds, d.workspaceId = workspaceId ∧ d.collection = "memories" := by
  induction pending generalizing w with
  | nil =>
      obtain ⟨rfl, rfl⟩ := exec_pure.mp h
      exact ⟨rfl, [], .nil, .slnil, fun d hd => by cases hd⟩
  | cons p rest ih =>
      obtain ⟨content, metadata⟩ := p
      obtain ⟨r, w₁, hr, h⟩ := exec_lift_bind h
      obtain ⟨hb, ds, hds, hsub, hall⟩ := ih h
      refine ⟨hb, ?_⟩
      rw [exec_vector] at hr
      rcases r with e | docId
      · cases (hr : w₁ = w)
        exact ⟨ds, hds, hsub.cons _, hall⟩
      · obtain ⟨hid, rfl⟩ := hr
        refine ⟨⟨docId, workspaceId, "memories", content, metadata⟩ :: ds, .cons hid hds,
          hsub.cons_cons _, ?_⟩
        intro d hd
        rcases List.mem_cons.mp hd with rfl | hd
        · exact ⟨rfl, rfl⟩
        · exact hall d hd

/-- What a commit can do: fail and leave nothing, or publish the rows kept aside
and index some of the staged documents. -/
theorem exec_commit {tx : ClawTransaction} {b : Except ClawDBError Unit}
    (h : Exec Op.sem tx.commit.run w b w') :
    (∃ e, b = .error e) ∧ w' = w.setOpened tx.inner none ∨
    b = .ok () ∧ ∃ kept ds, w.opened tx.inner = some kept ∧
      (∀ r ∈ kept, ∀ r' ∈ w.rows, r'.id ≠ r.id) ∧
      World.Indexing { w.setOpened tx.inner none with rows := w.rows ++ kept } ds w' ∧
      (tx.vector = false → ds = []) ∧ (ds.map Doc.staged).Sublist tx.pendingVectorUpserts ∧
      ∀ d ∈ ds, d.workspaceId = tx.workspaceId ∧ d.collection = "memories" := by
  unfold ClawTransaction.commit at h
  obtain ⟨e, hc, rfl⟩ | ⟨_, w₁, hc, h⟩ := exec_fallible_bind h
  · exact .inl ⟨⟨_, rfl⟩, exec_core.mp hc⟩
  obtain ⟨kept, hk, hfree, rfl⟩ := exec_core.mp hc
  split at h
  next hv =>
    obtain ⟨rfl, ds, hds, hsub, hall⟩ := exec_flush h
    exact .inr ⟨rfl, kept, ds, hk, hfree, hds, fun hno => absurd hv (by rw [hno]; decide), hsub,
      hall⟩
  next hv =>
    obtain ⟨rfl, rfl⟩ := exec_pure.mp h
    exact .inr ⟨rfl, kept, [], hk, hfree, .nil, fun _ => rfl, List.nil_sublist _,
      fun d hd => by cases hd⟩

theorem exec_rollback {tx : ClawTransaction} {b : Except ClawDBError Unit}
    (h : Exec Op.sem tx.rollback.run w b w') : w' = w.setOpened tx.inner none := by
  obtain ⟨r, hr, -⟩ := Try.exec_of.mp h
  exact exec_core.mp hr

section

variable [Crates]

/-! ## Writing through the wrapper -/

/-- The document of a memory: what the vector engine is given. -/
def documentOf (workspaceId : String) (docId : Uuid) (record : MemoryRecord)
    (metadata : Value) : Doc :=
  ⟨docId, workspaceId, "memories", record.content, vectorMetadata record.id record metadata⟩

theorem exec_indexed {db : ClawDBEngine} {session : ClawDBSession} {content : String}
    {memoryId : Uuid} {record : MemoryRecord} {metadata : Value} {b : Except ClawDBError Bool}
    (h : Exec Op.sem (db.indexed session content memoryId record metadata).run w b w') :
    (b = .ok false ∧ w' = w) ∨ (b = .ok true ∧ db.vector = true ∧ ∃ docId,
      w.Indexing [⟨docId, Crates.uuidToString session.workspaceId, "memories", content,
        vectorMetadata memoryId record metadata⟩] w') := by
  unfold ClawDBEngine.indexed at h
  split at h
  next hv =>
    obtain ⟨r, w₁, hr, hk⟩ := exec_lift_bind h
    obtain ⟨rfl, rfl⟩ := exec_pure.mp hk
    rw [exec_vector] at hr
    rcases r with e | docId
    · exact .inl ⟨rfl, hr⟩
    · obtain ⟨hid, rfl⟩ := hr
      exact .inr ⟨rfl, hv, docId, .cons hid .nil⟩
  next => exact .inl (exec_pure.mp h)

/-- A protocol that does not remember upserts ends with the memory it began with. -/
theorem wp_indexed {M : Type} {P : Protocol Sig M} {db : ClawDBEngine} {session : ClawDBSession}
    {content : String} {memoryId : Uuid} {record : MemoryRecord} {metadata : Value} {m : M}
    (hvector : ∀ o, P.Skips m (.vector o)) :
    (db.indexed session content memoryId record metadata).run.wp P
      (fun m' r => m' = m ∧ ∃ indexed, r = .ok indexed) m := by
  unfold ClawDBEngine.indexed
  split
  · exact ⟨(hvector _).1, fun r => ⟨(hvector _).2 r, _, rfl⟩⟩
  · exact ⟨rfl, false, rfl⟩

/-- What `remember_typed` can do: stop before the core write, or store one record,
indexed or not. -/
theorem exec_rememberTyped {db : ClawDBEngine} {session : ClawDBSession}
    {content memoryType : String} {tags : List String} {metadata : Value}
    {b : Except ClawDBError RememberResult}
    (h : Exec Op.sem (db.rememberTyped session content memoryType tags metadata).run w b w') :
    (∃ e, b = .error e ∧ (w' = w ∨ ∃ id ∉ w.used, w' = w.draw id)) ∨
    ∃ (record : MemoryRecord) (indexed : Bool) (ds : List Doc),
      record.content = content ∧ record.memoryType = parseMemoryType memoryType ∧
      record.tags = tags ∧ record.id ∉ w.used ∧ (∀ r ∈ w.rows, r.id ≠ record.id) ∧
      b = .ok ⟨record.id, indexed⟩ ∧ ((w.draw record.id).addRow record).Indexing ds w' ∧
      (indexed = false ∧ ds = [] ∨ indexed = true ∧ db.vector = true ∧ ∃ docId,
        ds = [documentOf (Crates.uuidToString session.workspaceId) docId record metadata]) := by
  unfold ClawDBEngine.rememberTyped at h
  obtain ⟨rfl, e, rfl⟩ | h := exec_authorize_bind h
  · exact .inl ⟨e, rfl, .inl rfl⟩
  obtain ⟨record, hid, hcontent, htype, htags, h⟩ := exec_new_bind h
  obtain ⟨e, hc, rfl⟩ | ⟨memoryId, w₁, hc, h⟩ := exec_fallible_bind h
  · exact .inl ⟨_, rfl, .inr ⟨record.id, hid, exec_core.mp hc⟩⟩
  obtain ⟨rfl, hfree, rfl⟩ := exec_core.mp hc
  obtain ⟨i, w₂, hi, h⟩ | ⟨e, hi, -⟩ := Try.exec_bind.mp h
  · obtain ⟨rfl, rfl⟩ := exec_pure.mp (exec_emit_bind (exec_count_bind h))
    obtain ⟨hb, rfl⟩ | ⟨hb, hv, docId, hd⟩ := exec_indexed hi
    · cases hb
      exact .inr ⟨record, false, [], hcontent, htype, htags, hid, hfree, rfl, .nil,
        .inl ⟨rfl, rfl⟩⟩
    · cases hb
      rw [← hcontent] at hd
      exact .inr ⟨record, true, _, hcontent, htype, htags, hid, hfree, rfl, hd,
        .inr ⟨rfl, hv, docId, rfl⟩⟩
  · obtain ⟨hb, -⟩ | ⟨hb, -⟩ := exec_indexed hi <;> cases hb

theorem exec_transaction {db : ClawDBEngine} {session : ClawDBSession}
    {b : Except ClawDBError ClawTransaction}
    (h : Exec Op.sem (db.transaction session).run w b w') :
    (∃ e, b = .error e) ∧ w' = w ∨ ∃ inner ∉ w.handles,
      b = .ok ⟨inner, db.vector, Crates.uuidToString session.workspaceId, []⟩ ∧
      w' = { w.setOpened inner (some []) with handles := inner :: w.handles } := by
  unfold ClawDBEngine.transaction at h
  obtain ⟨rfl, he⟩ | h := exec_authorize_bind h
  · exact .inl ⟨he, rfl⟩
  obtain ⟨e, hc, rfl⟩ | ⟨inner, w₁, hc, h⟩ := exec_fallible_bind h
  · exact .inl ⟨⟨_, rfl⟩, exec_core.mp hc⟩
  obtain ⟨rfl, rfl⟩ := exec_pure.mp h
  obtain ⟨hi, rfl⟩ := exec_core.mp hc
  exact .inr ⟨inner, hi, rfl, rfl⟩

/-- What a staging can do: fail, or keep one record aside in the core transaction. -/
theorem exec_txRememberTyped {tx : ClawTransaction} {content memoryType : String}
    {tags : List String} {metadata : Value} {b : Except ClawDBError (Uuid × ClawTransaction)}
    (h : Exec Op.sem (tx.rememberTyped content memoryType tags metadata).run w b w') :
    ∃ record : MemoryRecord, record.id ∉ w.used ∧ record.content = content ∧
      record.memoryType = parseMemoryType memoryType ∧ record.tags = tags ∧
      ((∃ e, b = .error e) ∧ w' = w.draw record.id ∨
        ∃ kept, w.opened tx.inner = some kept ∧ (∀ r ∈ kept, r.id ≠ record.id) ∧
          b = .ok (record.id, { tx with pendingVectorUpserts := tx.pendingVectorUpserts ++
            [(content, vectorMetadata record.id record metadata)] }) ∧
          w' = (w.draw record.id).setOpened tx.inner (some (kept ++ [record]))) := by
  unfold ClawTransaction.rememberTyped at h
  obtain ⟨record, hid, hcontent, htype, htags, h⟩ := exec_new_bind h
  refine ⟨record, hid, hcontent, htype, htags, ?_⟩
  obtain ⟨e, hc, rfl⟩ | ⟨memoryId, w₁, hc, h⟩ := exec_fallible_bind h
  · exact .inl ⟨⟨_, rfl⟩, exec_core.mp hc⟩
  obtain ⟨rfl, kept, hk, hfree, rfl⟩ := exec_core.mp hc
  obtain ⟨rfl, rfl⟩ := exec_pure.mp h
  exact .inr ⟨kept, hk, hfree, rfl, rfl⟩

/-! ## Searching -/

/-- Whether a document can be in a search's results at all. -/
def Doc.Candidate (d : Doc) (workspaceId : String) (filter : Option Value) : Prop :=
  d.workspaceId = workspaceId ∧ d.collection = "memories" ∧
    ClawDBEngine.keeps (metadataMatches d.metadata) filter = true

/-- Hits are documents in one mode, records in the other; finding them changes nothing. -/
theorem exec_hits {db : ClawDBEngine} {session : ClawDBSession} {query : String} {topK : Nat}
    {semantic : Bool} {filter : Option Value} {hs : List SearchHit}
    (h : Exec Op.sem (db.hits session query topK semantic filter).run w (.ok hs) w') :
    w' = w ∧ hs.length ≤ topK ∧ ∀ hit ∈ hs,
      if db.useSemantic semantic then
        ∃ d ∈ w.docs, d.Candidate (Crates.uuidToString session.workspaceId) filter ∧
          ∃ score, hit = searchResultToHit (d.result score)
      else
        ∃ r ∈ w.rows, ClawDBEngine.keeps (memoryRecordMatches r) filter = true ∧
          hit = recordToHit r := by
  unfold ClawDBEngine.hits at h
  split at h
  next hsem =>
    obtain ⟨e, -, he⟩ | ⟨results, w₁, hr, hp⟩ := exec_fallible_bind h
    · cases he
    obtain ⟨hok, rfl⟩ := exec_pure.mp hp
    cases hok
    obtain ⟨rfl, -, hall⟩ := exec_vector.mp hr
    refine ⟨rfl, by rw [List.length_map]; exact List.length_take_le .., ?_⟩
    intro hit hhit
    obtain ⟨r, hr, rfl⟩ := List.mem_map.mp hhit
    obtain ⟨hmem, hkeep⟩ := List.mem_filter.mp (List.mem_of_mem_take hr)
    obtain ⟨d, hd, hws, hcol, hdr⟩ := hall r hmem
    rw [if_pos hsem]
    refine ⟨d, hd, ⟨hws, hcol, ?_⟩, r.score, by rw [← hdr]⟩
    rw [hdr] at hkeep
    exact hkeep
  next hsem =>
    obtain ⟨e, -, he⟩ | ⟨records, w₁, hr, hp⟩ := exec_fallible_bind h
    · cases he
    obtain ⟨hok, rfl⟩ := exec_pure.mp hp
    cases hok
    obtain ⟨rfl, hall⟩ := exec_core.mp hr
    refine ⟨rfl, by rw [List.length_map]; exact List.length_take_le .., ?_⟩
    intro hit hhit
    obtain ⟨r, hr, rfl⟩ := List.mem_map.mp hhit
    obtain ⟨hmem, hkeep⟩ := List.mem_filter.mp (List.mem_of_mem_take hr)
    rw [if_neg hsem]
    exact ⟨r, hall r hmem, hkeep, rfl⟩

/-- A search adds the permission, the counters and the event. -/
theorem exec_searchWithOptions {db : ClawDBEngine} {session : ClawDBSession} {query : String}
    {topK : Nat} {semantic : Bool} {filter : Option Value} {hs : List SearchHit}
    (h : Exec Op.sem (db.searchWithOptions session query topK semantic filter).run w (.ok hs)
      w') : Exec Op.sem (db.hits session query topK semantic filter).run w (.ok hs) w' := by
  unfold ClawDBEngine.searchWithOptions at h
  obtain ⟨-, e, he⟩ | h := exec_authorize_bind h
  · cases he
  obtain ⟨hits, w₁, hh, h⟩ | ⟨e, -, he⟩ := Try.exec_bind.mp h
  · obtain ⟨hok, rfl⟩ := exec_pure.mp (exec_emit_bind (exec_count_bind (exec_count_bind h)))
    cases hok
    exact hh
  · cases he

end

/-! ## Against the reference components -/

/-- A method run against the reference components. -/
def reference {α : Type} (p : Eng α) (w : World) : Except ClawDBError α × World :=
  Prog.run Op.reference p.run w

theorem exec_reference {α : Type} (p : Eng α) (w : World) :
    Exec Op.sem p.run w (reference p w).1 (reference p w).2 :=
  exec_run Op.reference_refines p.run w

def okOr {ε α : Type} (a : α) : Except ε α → α
  | .ok x => x
  | .error _ => a

theorem ok_okOr {ε α : Type} {a : α} {r : Except ε α} (h : r.isOk = true) :
    r = .ok (okOr a r) := by
  cases r with
  | ok x => rfl
  | error e => cases h

/-- A wrapper with every component. -/
def vectorDb : ClawDBEngine := ⟨3, true, true, false⟩

/-- A session that may do everything, and the world of a guard that knows it. -/
def ownerSession : ClawDBSession := ⟨1, 2, 3, "agent", ["*"], "t", 0⟩

def ownerWorld : World :=
  { World.empty with sessions := [⟨1, 2, 3, "agent", ["*"], "t", 0⟩], used := [1] }

end ClawDB
