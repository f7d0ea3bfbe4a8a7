/-
# `ClawDB.Search` — how many of the best hits a search returns

Each engine ranks what it finds for a query.  A search that asks for `topK` hits under a
filter wants the first `topK` entries of the ranking that pass it.  Full-text search filters
the whole ranking of the core.  Semantic search filters a window of the ranking of the vector
engine, three times as wide as what it was asked for, and stops there.

The components are open: all that is assumed of them is how the two engines answer.
-/
import ClawDB.Memories
import ClawDB.Lib.Ranking

namespace ClawDB

open Effect Prog Ranking
open Json (Value)

/-- What the engines would answer to a query if they were asked for everything. -/
structure Rankings where
  documents (workspaceId collection query : String) : List SearchResult
  records (query : String) : List MemoryRecord

/-- The vector engine replies as much of its ranking as it is asked for, the core the whole. -/
structure Rankings.Answers {σ : Type} (R : Rankings) (S : Prog.Rel Sig σ) : Prop where
  searchTextInWorkspace {workspaceId collection query : String} {limit : Nat} {s s' : σ}
    {r : (VectorOp.searchTextInWorkspace workspaceId collection query limit).Ret} :
    S (.vector (.searchTextInWorkspace workspaceId collection query limit)) s r s' →
      r = .ok ((R.documents workspaceId collection query).take limit)
  ftsSearch {query : String} {s s' : σ} {r : (CoreOp.ftsSearch query).Ret} :
    S (.core (.ftsSearch query)) s r s' → r = .ok (R.records query)

/-- The window is never narrower than what was asked for, though the product saturates. -/
theorem le_overfetch (topK : Nat) : topK ≤ ClawDBEngine.overfetch topK := Nat.le_max_right ..

section Search

variable [Crates] (R : Rankings) (db : ClawDBEngine) (session : ClawDBSession) (query : String)
  (topK : Nat) (semantic : Bool) (filter : Option Value)

/-- The documents of the session's workspace that match the query. -/
def Rankings.memories : List SearchResult :=
  R.documents (Crates.uuidToString session.workspaceId) "memories" query

/-- The hits that were asked for. -/
def Rankings.wanted : List SearchHit :=
  if db.useSemantic semantic then
    (best (fun r => ClawDBEngine.keeps (metadataMatches r.metadata) filter) topK
      (R.memories session query)).map searchResultToHit
  else
    (best (fun r => ClawDBEngine.keeps (memoryRecordMatches r) filter) topK
      (R.records query)).map recordToHit

/-- A semantic search sees enough of the ranking. -/
def Rankings.Covers : Prop :=
  db.useSemantic semantic = true →
    Enough (fun r => ClawDBEngine.keeps (metadataMatches r.metadata) filter)
      (ClawDBEngine.overfetch topK) topK (R.memories session query)

instance : Decidable (R.Covers db session query topK semantic filter) :=
  inferInstanceAs (Decidable (_ → _))

variable {R db session query topK semantic filter}

/-- Without a filter the window is wide enough. -/
theorem covers_unfiltered : R.Covers db session query topK semantic none := by
  intro _
  refine enough_of_failing ?_
  have hnone : ((R.memories session query).take (ClawDBEngine.overfetch topK)).filter
      (fun r => !ClawDBEngine.keeps (metadataMatches r.metadata) none) = [] := by
    simp [ClawDBEngine.keeps]
  rw [hnone]
  exact le_overfetch topK

/-- The window is wide enough for a ranking no longer than it. -/
theorem covers_of_length_le
    (h : (R.memories session query).length ≤ ClawDBEngine.overfetch topK) :
    R.Covers db session query topK semantic filter :=
  fun _ => enough_of_length_le h

section Executions

variable {σ : Type} {S : Prog.Rel Sig σ} {s s' : σ} {r : Except ClawDBError (List SearchHit)}

/-- The engines do not fail, and the hits are the wanted ones if enough was seen. -/
theorem hits_answered (hS : R.Answers S)
    (h : Exec S (db.hits session query topK semantic filter).run s r s') :
    ∃ hs, r = .ok hs ∧ (hs = R.wanted db session query topK semantic filter ↔
      R.Covers db session query topK semantic filter) := by
  cases hsem : db.useSemantic semantic with
  | true =>
      simp only [ClawDBEngine.hits, Rankings.wanted, Rankings.Covers, hsem, if_true] at h ⊢
      obtain ⟨e, hr, -⟩ | ⟨results, s₁, hr, hp⟩ := exec_fallible_bind h
      · cases hS.searchTextInWorkspace (exec_vector.mp hr)
      · have hresults := Except.ok.inj (hS.searchTextInWorkspace (exec_vector.mp hr))
        obtain ⟨hok, -⟩ := exec_pure.mp hp
        refine ⟨_, hok, ?_⟩
        rw [hresults, forall_const]
        exact map_best_window_iff searchResultToHit
  | false =>
      simp only [ClawDBEngine.hits, Rankings.wanted, Rankings.Covers, hsem, Bool.false_eq_true,
        if_false] at h ⊢
      obtain ⟨e, hr, -⟩ | ⟨records, s₁, hr, hp⟩ := exec_fallible_bind h
      · cases hS.ftsSearch (exec_core.mp hr)
      · have hrecords := Except.ok.inj (hS.ftsSearch (exec_core.mp hr))
        obtain ⟨hok, -⟩ := exec_pure.mp hp
        refine ⟨_, hok, ?_⟩
        rw [hrecords]
        exact iff_of_true rfl fun hno => nomatch hno

/-- A search is turned away, or it returns, and it returns the wanted hits exactly if it sees
enough of the ranking. -/
theorem search_wanted_iff (hS : R.Answers S)
    (h : Exec S (db.searchWithOptions session query topK semantic filter).run s r s') :
    (∃ e, r = .error e ∧ Exec S (ClawDBEngine.authorize session
      ["memory:read", "memory:search", "memory:*", "*"]).run s (.error e) s') ∨
    ∃ hs, r = .ok hs ∧ (hs = R.wanted db session query topK semantic filter ↔
      R.Covers db session query topK semantic filter) := by
  obtain ⟨_, s₁, -, h⟩ | ⟨e, he, hr⟩ := Try.exec_bind.mp h
  · obtain ⟨hs, s₂, hhits, h⟩ | ⟨e, hhits, -⟩ := Try.exec_bind.mp h
    · obtain ⟨_, s₃, -, h⟩ := exec_lift_bind h
      obtain ⟨_, s₄, -, h⟩ := exec_lift_bind h
      obtain ⟨_, s₅, -, h⟩ := exec_lift_bind h
      obtain ⟨hr, -⟩ := exec_pure.mp h
      obtain ⟨hs', hok, hwanted⟩ := hits_answered hS hhits
      obtain rfl := Except.ok.inj hok
      exact .inr ⟨hs, hr, hwanted⟩
    · obtain ⟨_, hok, -⟩ := hits_answered hS hhits
      cases hok
  · exact .inl ⟨e, hr, he⟩

end Executions

end Search

/-! ## Four memories, and a filter that only the last of them passes -/

section Witnesses

attribute [local instance] Crates.sample

/-- The engines as `R` has them, and the rest of the components. -/
def Rankings.handler (R : Rankings) : Prog.Handler Sig World
  | .vector (.searchTextInWorkspace workspaceId collection query limit), w =>
      (.ok ((R.documents workspaceId collection query).take limit), w)
  | .core (.ftsSearch query), w => (.ok (R.records query), w)
  | o, w => Op.reference o w

/-- What that handler does. -/
def Rankings.sem (R : Rankings) : Prog.Rel Sig World :=
  fun o w r w' => (R.handler o w).1 = r ∧ (R.handler o w).2 = w'

theorem Rankings.answers_sem (R : Rankings) : R.Answers R.sem :=
  ⟨fun h => h.1.symm, fun h => h.1.symm⟩

def typedResult (id : Uuid) (type : String) : SearchResult :=
  ⟨id, 0, some "x", .object [("memory_type", .string type)]⟩

/-- Three semantic memories are ranked before an episodic one. -/
def fourRanked : Rankings where
  documents _ _ _ := [typedResult 1 "semantic", typedResult 2 "semantic", typedResult 3 "semantic",
    typedResult 4 "episodic"]
  records _ := []

def episodicOnly : Option Value := some (.object [("memory_type", .string "episodic")])

/-- The search of the owner for `topK` episodic memories. -/
def episodicSearch (topK : Nat) : Except ClawDBError (List SearchHit) × World :=
  Prog.run fourRanked.handler
    (vectorDb.searchWithOptions ownerSession "x" topK true episodicOnly).run ownerWorld

theorem episodicSearch_exec (topK : Nat) :
    Exec fourRanked.sem (vectorDb.searchWithOptions ownerSession "x" topK true episodicOnly).run
      ownerWorld (episodicSearch topK).1 (episodicSearch topK).2 :=
  exec_run (fun _ _ => ⟨rfl, rfl⟩) _ _

/-- Asked for two it sees six, and so finds the one there is. -/
theorem search_wanted_iff_two :
    (episodicSearch 2).1 =
      .ok (fourRanked.wanted vectorDb ownerSession "x" 2 true episodicOnly) := by
  obtain ⟨e, he, -⟩ | ⟨hs, hok, hwanted⟩ :=
    search_wanted_iff fourRanked.answers_sem (episodicSearch_exec 2)
  · have hreturns : (episodicSearch 2).1.isOk = true := by decide
    rw [he] at hreturns
    cases hreturns
  · rw [hok, hwanted.mpr (by decide)]

/-- Asked for one it sees three, and finds none. -/
theorem search_finds_none :
    ¬ ∀ (R : Rankings) (S : Prog.Rel Sig World), R.Answers S →
      ∀ (db : ClawDBEngine) (session : ClawDBSession) (query : String) (topK : Nat)
        (semantic : Bool) (filter : Option Value) (w w' : World) (hs : List SearchHit),
      Exec S (db.searchWithOptions session query topK semantic filter).run w (.ok hs) w' →
        hs = R.wanted db session query topK semantic filter := by
  intro hclaim
  have hnone : (episodicSearch 1).1 = .ok [] := by decide
  have hexec := episodicSearch_exec 1
  rw [hnone] at hexec
  have hwanted : (fourRanked.wanted vectorDb ownerSession "x" 1 true episodicOnly).length = 1 := by
    decide
  rw [← hclaim _ _ fourRanked.answers_sem _ _ _ _ _ _ _ _ _ hexec] at hwanted
  cases hwanted

end Witnesses

end ClawDB
