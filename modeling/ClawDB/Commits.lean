/-
# `ClawDB.Commits` — what a failed commit leaves

Both commit handlers take the transaction out of the map before they do anything else, and
nothing puts it back.  So a commit that fails has ended the transaction as a rollback would:
whatever the others do, the map is without it from then on, and whoever names it later takes
nothing and, if the request gets as far as the map, is told that there is none.
-/
import ClawDB.Transactions

namespace ClawDB

open Effect Escrow
open Prog (Exec exec_run)

section Commits

variable [Crates] (db : ClawDBEngine) {accepts : Request → Prop}

/-- The transaction a request took is not in the map. -/
theorem gone_of_taken {b : Desk} (hb : Book b.world b.all b.ended) {x : Request × Local}
    (hx : x ∈ b.all) {id : Uuid} (hends : x.1.intent.ends = some id)
    {pending : PendingTransaction} (ht : x.2.taken = some pending) :
    b.world.transactions id = none := by
  have htaking : taking x = some (id, pending.stagedMemories) := taking_some hends ht
  have hmap := (hb.entries.taken _ (List.mem_filterMap.mpr ⟨x, hx, htaking⟩)).2
  exact Option.map_eq_none_iff.mp hmap

/-- Of two that ended, one took the transaction. -/
theorem not_taken_later {b : Desk} (hb : Book b.world b.all b.ended)
    {l₁ l₂ : List (Ended Request Reply Local)} (hended : b.ended = l₁ ++ l₂)
    {e e' : Ended Request Reply Local} (he : e ∈ l₁) (he' : e' ∈ l₂) {id : Uuid}
    (hends : e.req.intent.ends = some id) {pending : PendingTransaction}
    (ht : e.mem.taken = some pending) (hends' : e'.req.intent.ends = some id) :
    e'.mem.taken = none := by
  cases ht' : e'.mem.taken with
  | none => rfl
  | some pending' =>
      have hone := takers_le_one hb id
      let test : Request × Local → Bool := fun x =>
        decide (x.1.intent.ends = some id) && x.2.taken.isSome
      have hmem : ∀ {e : Ended Request Reply Local} {l : List (Ended Request Reply Local)},
          e ∈ l → test (e.req, e.mem) = true →
            0 < ((l.map fun e => (e.req, e.mem)).filter test).length := by
        intro e l he htest
        refine List.length_pos_of_mem (a := (e.req, e.mem)) (List.mem_filter.mpr ⟨?_, htest⟩)
        exact List.mem_map_of_mem (f := fun e => (e.req, e.mem)) he
      have h₁ := hmem he (by simp [test, hends, ht])
      have h₂ := hmem he' (by simp [test, hends', ht'])
      have hall : takers b id = (b.running ++ b.ended.map fun e => (e.req, e.mem)).filter test :=
        rfl
      rw [hall, hended, List.map_append, List.filter_append, List.filter_append,
        List.length_append, List.length_append] at hone
      omega

/-- A commit that found its transaction and failed has made nothing durable, and the
transaction is gone for good. -/
theorem failed_commit_ends {w₀ : World} (hw₀ : w₀.transactions = fun _ => none)
    {c c' : Pool Sig World Request Reply Local}
    (h : Pool.Reachable (server db accepts) monitor (· = w₀) c)
    {e : Ended Request Reply Local} (he : e ∈ c.ended) {id : Uuid}
    (hint : e.req.intent = .commit id) {pending : PendingTransaction}
    (htaken : e.mem.taken = some pending) {rep : Reply} (hrep : e.rep = some rep)
    (hfailed : rep.isSuccess = false)
    (hlater : Relation.ReflTransGen (Pool.Step (server db accepts) monitor) c c') :
    e.mem.committed = false ∧ c'.world.transactions id = none ∧
      ∃ l, c'.ended = c.ended ++ l ∧ ∀ e' ∈ l, e'.req.intent.ends = some id →
        e'.mem.taken = none ∧ ∀ rep', e'.rep = some rep' → e'.mem.Refused rep' := by
  have hconforms := server_conforms db accepts
  have hreach := Pool.reachable_board hconforms (h.later hlater)
  have hb := book db (by rintro w rfl; exact hw₀) hreach
  have hends : e.req.intent.ends = some id := by rw [hint]; rfl
  obtain ⟨l, hl⟩ := Pool.ended_later hlater
  have he' : e ∈ c'.ended := by
    rw [hl]
    exact List.mem_append_left _ he
  have hx : (e.req, e.mem) ∈ c'.board.all := Board.mem_all_of_ended he'
  refine ⟨?_, gone_of_taken hb hx hends htaken, l, hl, fun e' hmem hends' => ?_⟩
  · have hsaid : answered e.req e.mem rep := hreach.replied e he' rep hrep
    refine Bool.eq_false_iff.mpr fun hc => ?_
    rw [((answered_commit hint).mp hsaid).2.mpr hc] at hfailed
    cases hfailed
  · have hnone := not_taken_later hb hl he hmem hends htaken hends'
    refine ⟨hnone, fun rep' hrep' => ?_⟩
    have hafter : e' ∈ c'.ended := by
      rw [hl]
      exact List.mem_append_right _ hmem
    have hsaid : answered e'.req e'.mem rep' := hreach.replied e' hafter rep' hrep'
    rcases Intent.ends_cases hends' with hint' | hint'
    · exact ((answered_commit hint').mp hsaid).1 hnone
    · exact (answered_rollback hint').mp hsaid hnone

end Commits

/-! ## One such commit -/

section Witnesses

attribute [local instance] Crates.sample

/-- A session that may read and no more, and the world of a guard that knows it. -/
def viewerSession : ClawDBSession := ⟨1, 2, 3, "agent", ["memory:read"], "t", 0⟩

def viewerWorld : World :=
  { World.empty with sessions := [⟨1, 2, 3, "agent", ["memory:read"], "t", 0⟩], used := [1] }

/-- Its transaction is begun and filled, and cannot be committed. -/
def viewerRequests : List Request :=
  let id := Crates.uuidToString 2
  [.grpc ⟨"r", some "t", .beginTx⟩, .grpc ⟨"r", none, .txRemember id "x"⟩,
    .grpc ⟨"r", none, .commitTx id⟩]

def viewerPool : Pool Sig World Request Reply Local :=
  Pool.acts (server vectorDb fun _ => True) monitor Op.reference ⟨viewerWorld, [], []⟩
    (Pool.oneByOne 12 viewerRequests)

/-- The commit is sent again. -/
def retriedPool : Pool Sig World Request Reply Local :=
  Pool.acts (server vectorDb fun _ => True) monitor Op.reference viewerPool
    (Pool.oneByOne 12 [.grpc ⟨"r", none, .commitTx (Crates.uuidToString 2)⟩])

theorem viewerPool_reachable :
    Pool.Reachable (server vectorDb fun _ => True) monitor (· = viewerWorld) viewerPool :=
  Pool.acts_reachable Op.reference_refines _ (fun _ _ => trivial) (.init rfl)

theorem failed_commit_ends_retried :
    retriedPool.world.transactions 2 = none ∧
      ∃ l, retriedPool.ended = viewerPool.ended ++ l ∧ ∀ e' ∈ l,
        e'.req.intent.ends = some 2 → e'.mem.taken = none ∧
          ∀ rep', e'.rep = some rep' → e'.mem.Refused rep' := by
  have hfailed : ∃ e ∈ viewerPool.ended, e.req.intent = .commit 2 ∧
      e.mem.taken.isSome = true ∧ e.rep.any (fun rep => !rep.isSuccess) = true := by
    decide +kernel
  obtain ⟨e, he, hint, htaken, hrep⟩ := hfailed
  obtain ⟨pending, htaken⟩ := Option.isSome_iff_exists.mp htaken
  obtain ⟨rep, hrep, hno⟩ := (Option.any_eq_true _ _).mp hrep
  rw [Bool.not_eq_true'] at hno
  have hlater : Relation.ReflTransGen (Pool.Step (server vectorDb fun _ => True) monitor)
      viewerPool retriedPool :=
    Pool.acts_later Op.reference_refines _ (fun _ _ => trivial) viewerPool
  exact (failed_commit_ends vectorDb rfl viewerPool_reachable he hint htaken hrep hno hlater).2

/-- The viewer's transaction, with a memory in it. -/
def viewerPending : PendingTransaction := ⟨2, viewerSession, [⟨"x", "semantic", [], .null⟩]⟩

/-- A commit that is refused, with nothing stored, does not leave the transaction in place. -/
theorem failed_commit_not_left :
    ¬ ∀ (w w' : World) (req : Request) (id : Uuid) (pending : PendingTransaction) (rep : Reply),
      req.intent = .commit id → w.transactions id = some pending →
        Exec Op.sem (handle vectorDb req) w rep w' → rep.isSuccess = false → w'.rows = w.rows →
          w'.transactions id = some pending := by
  intro hclaim
  let w := viewerWorld.setTransaction 2 (some viewerPending)
  let req : Request := .grpc ⟨"r", none, .commitTx (Crates.uuidToString 2)⟩
  have hint : req.intent = .commit 2 := by decide +kernel
  have hfailed : (Prog.run Op.reference (handle vectorDb req) w).1.isSuccess = false := by
    decide +kernel
  have hkept := hclaim w _ req 2 viewerPending _ hint (World.setTransaction_same ..)
    (exec_run Op.reference_refines _ w) hfailed (by decide +kernel)
  have hgone :
      ((Prog.run Op.reference (handle vectorDb req) w).2.transactions 2).isSome = false := by
    decide +kernel
  rw [hkept] at hgone
  cases hgone

end Witnesses

end ClawDB
