/-
# `ClawDB.Filter` — one filter, two views of a memory

A search filter is matched against the metadata object of the document in semantic
mode, and against a view of the core record in full-text mode.  The two objects
share the keys `memory_type` and `tags`, with the same values; each has two keys the
other lacks.
-/
import ClawDB.Memories

namespace ClawDB

open Effect Prog
open Json (Value)

/-- The keys a filter asks about; a filter that is no object asks about none. -/
def filterKeys : Value → List String
  | .object expected => expected.map Prod.fst
  | _ => []

/-- The keys only the document's metadata has. -/
def metadataKeys : List String := ["memory_id", "metadata"]

/-- The keys only the view of the record has. -/
def recordKeys : List String := ["id", "content"]

/-- A filter that asks for a key the object lacks admits nothing. -/
theorem metadataMatches_absent {metadata filter : Value} {k : String}
    (hk : k ∈ filterKeys filter) (h : metadata.get k = none) :
    metadataMatches metadata filter = false := by
  cases filter with
  | object expected =>
      obtain ⟨kv, hkv, rfl⟩ := List.mem_map.mp hk
      refine Bool.eq_false_iff.mpr fun hall => ?_
      have := of_decide_eq_true (List.all_eq_true.mp hall kv hkv)
      rw [h] at this
      cases this
  | _ => cases hk

/-- A filter cannot tell objects apart that agree on its keys. -/
theorem metadataMatches_congr {m₁ m₂ filter : Value}
    (h : ∀ k ∈ filterKeys filter, m₁.get k = m₂.get k) :
    metadataMatches m₁ filter = metadataMatches m₂ filter := by
  cases filter with
  | object expected =>
      refine Bool.eq_iff_iff.mpr ?_
      simp only [metadataMatches, List.all_eq_true, decide_eq_true_eq]
      exact forall₂_congr fun kv hkv => by rw [h _ (List.mem_map_of_mem hkv)]
  | _ => rfl

section Views

variable [Crates] (record : MemoryRecord) (metadata : Value) (k : String)

theorem vectorMetadata_get : (vectorMetadata record.id record metadata).get k =
    if k = "memory_id" then some (uuid record.id)
    else if k = "memory_type" then some (.string (Crates.asStr record.memoryType))
    else if k = "metadata" then some metadata
    else if k = "tags" then some (strings record.tags) else none := by
  simp only [vectorMetadata, Value.get_object_cons, Value.get_object_nil]

theorem memoryRecordView_get : (memoryRecordView record).get k =
    if k = "content" then some (.string record.content)
    else if k = "id" then some (uuid record.id)
    else if k = "memory_type" then some (.string (Crates.asStr record.memoryType))
    else if k = "tags" then some (strings record.tags) else none := by
  simp only [memoryRecordView, Value.get_object_cons, Value.get_object_nil]

variable {k}

theorem vectorMetadata_get_recordKey (hk : k ∈ recordKeys) :
    (vectorMetadata record.id record metadata).get k = none := by
  rw [vectorMetadata_get]
  simp only [recordKeys, List.mem_cons, List.not_mem_nil, or_false] at hk
  rcases hk with rfl | rfl <;> simp

theorem memoryRecordView_get_metadataKey (hk : k ∈ metadataKeys) :
    (memoryRecordView record).get k = none := by
  rw [memoryRecordView_get]
  simp only [metadataKeys, List.mem_cons, List.not_mem_nil, or_false] at hk
  rcases hk with rfl | rfl <;> simp

theorem views_agree (hm : k ∉ metadataKeys) (hr : k ∉ recordKeys) :
    (vectorMetadata record.id record metadata).get k = (memoryRecordView record).get k := by
  rw [vectorMetadata_get, memoryRecordView_get]
  simp only [metadataKeys, recordKeys, List.mem_cons, List.not_mem_nil, or_false, not_or] at hm hr
  simp only [hm, hr, if_false]

end Views

/-- A memory that `remember_typed` stored and indexed passes a filter in both modes
alike, unless the filter asks for a key that only one of the views has; such a
filter admits the memory in no other mode than that view's. -/
theorem filter_modes_agree [Crates] {db : ClawDBEngine} {session : ClawDBSession}
    {content memoryType : String} {tags : List String} {metadata : Value} {memoryId : Uuid}
    {w w' : World}
    (h : Exec Op.sem (db.rememberTyped session content memoryType tags metadata).run w
      (.ok ⟨memoryId, true⟩) w') :
    ∃ (record : MemoryRecord) (doc : Doc), w'.rows = w.rows ++ [record] ∧
      w'.docs = w.docs ++ [doc] ∧ record.id = memoryId ∧ record.content = content ∧
      ∀ filter : Value,
        ((∀ k ∈ filterKeys filter, k ∉ metadataKeys ∧ k ∉ recordKeys) →
          metadataMatches doc.metadata filter = memoryRecordMatches record filter) ∧
        ((∃ k ∈ filterKeys filter, k ∈ metadataKeys) →
          memoryRecordMatches record filter = false) ∧
        ((∃ k ∈ filterKeys filter, k ∈ recordKeys) →
          metadataMatches doc.metadata filter = false) := by
  obtain ⟨e, he, -⟩ | ⟨record, indexed, ds, hc, -, -, -, -, hb, hds, hcase⟩ :=
    exec_rememberTyped h
  · cases he
  cases hb
  obtain ⟨hi, -⟩ | ⟨-, -, docId, rfl⟩ := hcase
  · cases hi
  obtain ⟨hrows, -, -, hdocs⟩ := hds.frame
  refine ⟨record, _, hrows, hdocs, rfl, hc, fun filter => ⟨?_, ?_, ?_⟩⟩
  · intro hk
    exact metadataMatches_congr fun k hmem =>
      views_agree record metadata (hk k hmem).1 (hk k hmem).2
  · rintro ⟨k, hk, hm⟩
    exact metadataMatches_absent hk (memoryRecordView_get_metadataKey record hm)
  · rintro ⟨k, hk, hr⟩
    exact metadataMatches_absent hk (vectorMetadata_get_recordKey record metadata hr)

/-! ## One memory, and a filter on its content -/

section Witnesses

attribute [local instance] Crates.sample

/-- `remember_typed("x", "episodic", ["a"], null)`, against the reference components. -/
def taggedReply : Except ClawDBError RememberResult × World :=
  reference (vectorDb.rememberTyped ownerSession "x" "episodic" ["a"] .null) ownerWorld

theorem taggedReply_exec :
    Exec Op.sem (vectorDb.rememberTyped ownerSession "x" "episodic" ["a"] .null).run ownerWorld
      (.ok ⟨2, true⟩) taggedReply.2 := by
  have hok : taggedReply.1 = .ok ⟨2, true⟩ := by decide
  rw [← hok]
  exact exec_reference _ _

/-- A filter on the type admits the memory in both modes. -/
theorem filter_modes_agree_type :
    ∃ (record : MemoryRecord) (doc : Doc), taggedReply.2.rows = [record] ∧
      taggedReply.2.docs = [doc] ∧
      metadataMatches doc.metadata (.object [("memory_type", .string "episodic")]) =
        memoryRecordMatches record (.object [("memory_type", .string "episodic")]) := by
  obtain ⟨record, doc, hr, hd, -, -, hall⟩ := filter_modes_agree taggedReply_exec
  exact ⟨record, doc, hr, hd,
    (hall (.object [("memory_type", .string "episodic")])).1 (by decide)⟩

/-- A filter on the content admits it in full-text mode only. -/
theorem filter_modes_differ :
    ¬ ∀ (db : ClawDBEngine) (session : ClawDBSession) (content memoryType : String)
      (tags : List String) (metadata : Value) (memoryId : Uuid) (w w' : World),
      Exec Op.sem (db.rememberTyped session content memoryType tags metadata).run w
        (.ok ⟨memoryId, true⟩) w' →
      ∀ (record : MemoryRecord) (doc : Doc), w'.rows = w.rows ++ [record] →
        w'.docs = w.docs ++ [doc] →
        ∀ filter : Value,
          metadataMatches doc.metadata filter = memoryRecordMatches record filter := by
  intro hclaim
  have := hclaim _ _ _ _ _ _ _ _ _ taggedReply_exec ⟨2, "x", .episodic, ["a"]⟩
    (documentOf (Crates.uuidToString 3) 3 ⟨2, "x", .episodic, ["a"]⟩ .null)
    (by decide) (by decide) (.object [("content", .string "x")])
  revert this
  decide

end Witnesses

end ClawDB
