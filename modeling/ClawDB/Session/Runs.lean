/-
# `Session.Runs` — what survives a revocation, and what a token opens

Two results about every interleaving of the manager's calls.

* A session that was revoked stays out of the store in every run in which no refresh writes
  back a session that was removed since it was read; without that, it comes back
  (`refreshed_after_revoke`).
* A session that was not revoked is in the store under its id.  Its token opens it, and revoking
  it revokes that token, exactly if the guard bound the token to the very id the manager drew;
  the manager never tells the guard that id.

`Change` says once what an operation does to the store; both invariants go by it.
-/
import ClawDB.Lib.Trace
import ClawDB.Session.System
import ClawDB.World

namespace ClawDB.Session

open Effect Prog

abbrev Sessions := Pool Shared World Request Reply Memory

/-- The manager as it starts. -/
structure Fresh (c : Sessions) : Prop where
  world : c.world.Init
  running : c.running = []
  ended : c.ended = []

/-! ## What one operation does -/

/-- What an operation does to the store: nothing, or one of its three writes. -/
inductive Change (o : Op) (w w' : World) : Prop where
  | still : w'.store = w.store → w'.born = w.born → w'.removals = w.removals → Change o w w'
  | files (ctx : SessionContext) : (∀ b ∈ w.born, b.sessionId ≠ ctx.sessionId) →
      ctx.sessionId ∉ w.removals → w'.store = w.store.insert ctx → w'.born = ctx :: w.born →
      w'.removals = w.removals → Change o w w'
  | writes (ctx : SessionContext) : o = .insert ctx → w'.store = w.store.insert ctx →
      w'.born = w.born → w'.removals = w.removals → Change o w w'
  | removes (id : Uuid) : w'.store = w.store.remove id → w'.born = w.born →
      w'.removals = id :: w.removals → Change o w w'

section Operations

variable {o : Op} {r : o.Ret} {w w' : World} {m : Memory}

theorem sem_change (ho : m.allowed o) (h : sem o w r w') : Change o w w' := by
  cases o with
  | guard => obtain ⟨-, rfl⟩ := h; exact .still rfl rfl rfl
  | issueSessionToken principal task =>
      cases r with
      | ok token => obtain ⟨session, rfl⟩ := h; exact .still rfl rfl rfl
      | error e => obtain rfl := h; exact .still rfl rfl rfl
  | validateToken token => obtain rfl := h; exact .still rfl rfl rfl
  | revokeSession id =>
      rcases h with rfl | ⟨-, rfl⟩
      · exact .still rfl rfl rfl
      · exact .still rfl rfl rfl
  | now => obtain rfl := h; exact .still rfl rfl rfl
  | fileNew session =>
      obtain ⟨hborn, hremovals, rfl⟩ := h
      have hid : (session r).asContext.sessionId = r := ho r
      refine .files (session r).asContext ?_ ?_ rfl rfl rfl
      · rw [hid]; exact hborn
      · rw [hid]; exact hremovals
  | insert ctx => obtain rfl := h; exact .writes ctx rfl rfl rfl rfl
  | get id => obtain ⟨now, -, rfl⟩ := h; exact .still rfl rfl rfl
  | remove id => obtain ⟨-, rfl⟩ := h; exact .removes id rfl rfl rfl
  | idsForAgent agentId => obtain ⟨-, rfl⟩ := h; exact .still rfl rfl rfl
  | emit event => obtain rfl := h; exact .still rfl rfl rfl

theorem Change.filed (h : Change o w w') (hw : w.store.Filed) : w'.store.Filed := by
  cases h with
  | still hstore _ _ => rw [hstore]; exact hw
  | files ctx _ _ hstore _ _ => rw [hstore]; exact hw.insert ctx
  | writes ctx _ hstore _ _ => rw [hstore]; exact hw.insert ctx
  | removes id hstore _ _ => rw [hstore]; exact hw.remove id

theorem Change.born (h : Change o w w') {ctx : SessionContext} (hctx : ctx ∈ w.born) :
    ctx ∈ w'.born := by
  cases h with
  | still _ hborn _ => rw [hborn]; exact hctx
  | files ctx' _ _ _ hborn _ => rw [hborn]; exact List.mem_cons_of_mem _ hctx
  | writes ctx' _ _ hborn _ => rw [hborn]; exact hctx
  | removes id _ hborn _ => rw [hborn]; exact hctx

theorem Change.removals (h : Change o w w') {id : Uuid} (hid : id ∈ w.removals) :
    id ∈ w'.removals := by
  cases h with
  | still _ _ hremovals => rw [hremovals]; exact hid
  | files ctx _ _ _ _ hremovals => rw [hremovals]; exact hid
  | writes ctx _ _ _ hremovals => rw [hremovals]; exact hid
  | removes id' _ _ hremovals => rw [hremovals]; exact List.mem_cons_of_mem _ hid

/-- What a read was told is in the store. -/
theorem found_next (h : sem o w r w') {ctx : SessionContext}
    (hfound : (m.next o r).found = some ctx) : ∃ id, w.store.lookup id = some ctx := by
  cases o with
  | get id =>
      obtain ⟨now, rfl, -⟩ := h
      refine ⟨id, ?_⟩
      have hget : (w.store.get (timestamp now) id).toOption = some ctx := hfound
      cases hr : w.store.get (timestamp now) id with
      | error e => rw [hr] at hget; cases hget
      | ok found =>
          rw [hr] at hget
          obtain rfl := Option.some.inj hget
          exact (SessionStore.get_ok.mp hr).1
  | _ => cases hfound

end Operations

/-! ## What a call remembers is so -/

/-- The store and the ghosts fit together. -/
structure Sound (w : World) : Prop where
  filed : w.store.Filed
  known : ∀ id ctx, w.store.lookup id = some ctx → ∃ b ∈ w.born, b.Same ctx
  kept : ∀ b ∈ w.born, b.sessionId ∉ w.removals → ∃ ctx, w.store.lookup b.sessionId = some ctx
  once : ∀ b ∈ w.born, ∀ b' ∈ w.born, b.sessionId = b'.sessionId → b = b'
  guardRevoked : ∀ id ∈ w.guardRevoked, id ∈ w.removals

/-- What a call remembers to have been told, to have written and to have removed. -/
structure Remembers (w : World) (m : Memory) : Prop where
  seen : ∀ ctx, m.seen = some ctx → ∃ b ∈ w.born, b.Same ctx
  filed : ∀ ctx, m.filed = some ctx → ∃ b ∈ w.born, b.Same ctx
  removed : ∀ id ∈ m.removed, id ∈ w.removals

section Memories

variable {o : Op} {r : o.Ret} {w w' : World} {m : Memory}

theorem sound_init (h : w.Init) : Sound w where
  filed := by rw [h.store]; exact SessionStore.filed_empty
  known := by
    intro id ctx hctx
    rw [h.store, AList.lookup_empty] at hctx
    cases hctx
  kept := by
    intro b hb
    rw [h.born] at hb
    cases hb
  once := by
    intro b hb
    rw [h.born] at hb
    cases hb
  guardRevoked := by
    intro id hid
    rw [h.guardRevoked] at hid
    cases hid

theorem Remembers.mono (h : Remembers w m) (hchange : Change o w w') : Remembers w' m where
  seen ctx hctx := by
    obtain ⟨b, hb, hsame⟩ := h.seen ctx hctx
    exact ⟨b, hchange.born hb, hsame⟩
  filed ctx hctx := by
    obtain ⟨b, hb, hsame⟩ := h.filed ctx hctx
    exact ⟨b, hchange.born hb, hsame⟩
  removed id hid := hchange.removals (h.removed id hid)

/-- The contexts that are written are known: a new one is, and a refreshed one was read. -/
theorem remembers_next (hw : Sound w) (hm : Remembers w m) (ho : m.allowed o)
    (h : sem o w r w') : Remembers w' (m.next o r) := by
  have hkept : Remembers w' m := hm.mono (sem_change ho h)
  cases o with
  | get id =>
      refine ⟨fun ctx hctx => ?_, hkept.filed, hkept.removed⟩
      obtain ⟨id', hlookup⟩ := found_next (m := m) h hctx
      obtain ⟨b, hb, hsame⟩ := hw.known id' ctx hlookup
      exact ⟨b, (sem_change ho h).born hb, hsame⟩
  | insert ctx =>
      refine ⟨hkept.seen, fun ctx' hctx => ?_, hkept.removed⟩
      obtain rfl : ctx = ctx' := Option.some.inj hctx
      obtain ⟨ctx₀, hseen, hsame⟩ := ho
      obtain ⟨b, hb, hsame₀⟩ := hkept.seen ctx₀ hseen
      exact ⟨b, hb, hsame₀.trans hsame⟩
  | fileNew session =>
      refine ⟨hkept.seen, fun ctx hctx => ?_, hkept.removed⟩
      obtain rfl : (session r).asContext = ctx := Option.some.inj hctx
      obtain ⟨-, -, rfl⟩ := h
      exact ⟨_, List.mem_cons_self, .refl _⟩
  | remove id =>
      refine ⟨hkept.seen, hkept.filed, fun id' hid => ?_⟩
      obtain ⟨-, rfl⟩ := h
      rcases List.mem_cons.mp hid with rfl | hid
      · exact List.mem_cons_self
      · exact hkept.removed id' hid
  | _ => exact ⟨hkept.seen, hkept.filed, hkept.removed⟩

theorem guardRevoked_next (ho : m.allowed o) (h : sem o w r w') :
    ∀ id ∈ w'.guardRevoked, id ∈ w.guardRevoked ∨ id ∈ m.removed := by
  intro id hid
  cases o with
  | guard => obtain ⟨-, rfl⟩ := h; exact .inl hid
  | issueSessionToken principal task =>
      cases r with
      | ok token => obtain ⟨session, rfl⟩ := h; exact .inl hid
      | error e => obtain rfl := h; exact .inl hid
  | revokeSession id' =>
      rcases h with rfl | ⟨-, rfl⟩
      · rcases List.mem_cons.mp hid with rfl | hid
        · exact .inr ho
        · exact .inl hid
      · exact .inl hid
  | fileNew session => obtain ⟨-, -, rfl⟩ := h; exact .inl hid
  | get id => obtain ⟨now, -, rfl⟩ := h; exact .inl hid
  | remove id => obtain ⟨-, rfl⟩ := h; exact .inl hid
  | idsForAgent agentId => obtain ⟨-, rfl⟩ := h; exact .inl hid
  | validateToken _ | now | insert _ | emit _ => obtain rfl := h; exact .inl hid

/-- A context that is filed anew is its own origin, and one written back was read. -/
theorem known_next (hw : Sound w) (hm : Remembers w m) (ho : m.allowed o) (h : sem o w r w')
    {id : Uuid} {ctx' : SessionContext} (hctx : w'.store.lookup id = some ctx') :
    ∃ b ∈ w'.born, b.Same ctx' := by
  cases sem_change ho h with
  | still hstore hborn _ =>
      rw [hstore] at hctx
      rw [hborn]
      exact hw.known id ctx' hctx
  | files ctx _ _ hstore hborn _ =>
      rw [hstore] at hctx
      rw [hborn]
      rcases SessionStore.lookup_insert_cases hctx with ⟨-, rfl⟩ | hctx
      · exact ⟨_, List.mem_cons_self, .refl _⟩
      · obtain ⟨b, hb, hsame⟩ := hw.known id ctx' hctx
        exact ⟨b, List.mem_cons_of_mem _ hb, hsame⟩
  | writes ctx ho' hstore hborn _ =>
      subst ho'
      obtain ⟨ctx₀, hseen, hsame⟩ := ho
      rw [hstore] at hctx
      rw [hborn]
      rcases SessionStore.lookup_insert_cases hctx with ⟨-, rfl⟩ | hctx
      · obtain ⟨b, hb, hsame₀⟩ := hm.seen ctx₀ hseen
        exact ⟨b, hb, hsame₀.trans hsame⟩
      · exact hw.known id ctx' hctx
  | removes id' hstore hborn _ =>
      rw [hstore] at hctx
      rw [hborn]
      by_cases hid : id = id'
      · rw [hid, SessionStore.lookup_remove_self] at hctx
        cases hctx
      · rw [SessionStore.lookup_remove_ne hid] at hctx
        exact hw.known id ctx' hctx

theorem Change.kept (hchange : Change o w w') (hw : Sound w) {b : SessionContext}
    (hb : b ∈ w'.born) (hlive : b.sessionId ∉ w'.removals) :
    ∃ ctx, w'.store.lookup b.sessionId = some ctx := by
  cases hchange with
  | still hstore hborn hremovals =>
      rw [hborn] at hb
      rw [hremovals] at hlive
      rw [hstore]
      exact hw.kept b hb hlive
  | files ctx hfresh _ hstore hborn hremovals =>
      rw [hborn] at hb
      rw [hremovals] at hlive
      rw [hstore]
      rcases List.mem_cons.mp hb with rfl | hb
      · exact ⟨_, SessionStore.lookup_insert_self⟩
      · rw [SessionStore.lookup_insert_ne (hfresh b hb)]
        exact hw.kept b hb hlive
  | writes ctx _ hstore hborn hremovals =>
      rw [hborn] at hb
      rw [hremovals] at hlive
      rw [hstore]
      by_cases hid : b.sessionId = ctx.sessionId
      · rw [hid]
        exact ⟨_, SessionStore.lookup_insert_self⟩
      · rw [SessionStore.lookup_insert_ne hid]
        exact hw.kept b hb hlive
  | removes id hstore hborn hremovals =>
      rw [hborn] at hb
      rw [hremovals] at hlive
      obtain ⟨hid, hnot⟩ : b.sessionId ≠ id ∧ b.sessionId ∉ w.removals := by simpa using hlive
      rw [hstore, SessionStore.lookup_remove_ne hid]
      exact hw.kept b hb hnot

theorem Change.once (hchange : Change o w w') (hw : Sound w) {b b' : SessionContext}
    (hb : b ∈ w'.born) (hb' : b' ∈ w'.born) (hid : b.sessionId = b'.sessionId) : b = b' := by
  cases hchange with
  | files ctx hfresh _ _ hborn _ =>
      rw [hborn] at hb hb'
      rcases List.mem_cons.mp hb with rfl | hold
      · rcases List.mem_cons.mp hb' with rfl | hold'
        · rfl
        · exact absurd hid.symm (hfresh b' hold')
      · rcases List.mem_cons.mp hb' with rfl | hold'
        · exact absurd hid (hfresh b hold)
        · exact hw.once b hold b' hold' hid
  | still _ hborn _ | writes _ _ _ hborn _ | removes _ _ hborn _ =>
      rw [hborn] at hb hb'
      exact hw.once b hb b' hb' hid

theorem sound_next (hw : Sound w) (hm : Remembers w m) (ho : m.allowed o) (h : sem o w r w') :
    Sound w' where
  filed := (sem_change ho h).filed hw.filed
  known _ _ hctx := known_next hw hm ho h hctx
  kept _ hb hlive := (sem_change ho h).kept hw hb hlive
  once _ hb _ hb' hid := (sem_change ho h).once hw hb hb' hid
  guardRevoked := by
    intro id hid
    refine (sem_change ho h).removals ?_
    rcases guardRevoked_next ho h id hid with hid | hid
    · exact hw.guardRevoked id hid
    · exact hm.removed id hid

end Memories

/-! ## Every pool the manager can come to -/

section Runs

variable [Crates] {workspaceId : Uuid} {c₀ c c' : Sessions}

/-- The pools the manager can come to. -/
abbrev Reached (workspaceId : Uuid) : Sessions → Prop :=
  Pool.Reachable (server workspaceId) monitor World.Init

theorem reached_of_fresh (h : Fresh c) : Reached workspaceId c :=
  .of_empty h.world h.running h.ended

theorem removals_step (hc : Reached workspaceId c)
    (hs : Pool.Step (server workspaceId) monitor c c') {id : Uuid} (hid : id ∈ c.world.removals) :
    id ∈ c'.world.removals := by
  rcases Pool.step_op conforms hc hs with hw | ⟨th, -, o, k, r, -, hallowed, hr⟩
  · rw [hw]; exact hid
  · exact (sem_change hallowed hr).removals hid

/-- In every pool the manager can come to. -/
theorem sound_reached (h : Reached workspaceId c) :
    Sound c.world ∧ ∀ x ∈ c.board.all, Remembers c.world x.2 := by
  refine Board.Reachable.each (J := Sound) (I := fun w x => Remembers w x.2) ?_ ?_ ?_ ?_
    (Pool.reachable_board conforms h)
  · intro w hw
    exact sound_init hw
  · intro w req _
    exact ⟨fun ctx h => (nomatch h), fun ctx h => (nomatch h), fun id h => (nomatch h)⟩
  · intro w w' req m o r ho hr hsound hm
    exact ⟨sound_next hsound hm ho hr, remembers_next hsound hm ho hr⟩
  · intro w w' req m o r x ho hr _ hx
    exact hx.mono (sem_change ho hr)

theorem remembers_ended (h : Reached workspaceId c) {e : Ended Request Reply Memory}
    (he : e ∈ c.ended) : Remembers c.world e.mem :=
  (sound_reached h).2 (e.req, e.mem) (Board.mem_all_of_ended he)

end Runs

/-! ## Runs without a late write -/

/-- A refresh writes its session back only while the session is still in the store. -/
def timely (w : World) : Op → Bool
  | .insert ctx => (w.store.lookup ctx.sessionId).isSome
  | _ => true

/-- A run in which every operation is so. -/
abbrev Run [Crates] (workspaceId : Uuid) : Sessions → Sessions → Prop :=
  Pool.RunWhen (server workspaceId) monitor fun w _ o => timely w o = true

/-- What was removed is not in the store. -/
def Clean (w : World) : Prop := ∀ id ∈ w.removals, w.store.lookup id = none

/-- The call returned, and has revoked the session. -/
def Revoked (e : Ended Request Reply Memory) (id : Uuid) : Prop :=
  ∃ rep, e.rep = some rep ∧ id ∈ idsRevoked e.req e.mem

/-- The call, `get_session` or `validate`, returned the context. -/
def Read (e : Ended Request Reply Memory) (ctx : SessionContext) : Prop :=
  ∃ rep, e.rep = some rep ∧ contextRead e.req rep = some ctx

theorem Change.clean {o : Op} {w w' : World} (h : Change o w w') (hw : Clean w)
    (hwrite : ∀ ctx, o = .insert ctx → ctx.sessionId ∉ w.removals) : Clean w' := by
  intro id hid
  cases h with
  | still hstore _ hremovals =>
      rw [hremovals] at hid
      rw [hstore]
      exact hw id hid
  | files ctx _ hnew hstore _ hremovals =>
      rw [hremovals] at hid
      rw [hstore, SessionStore.lookup_insert_ne fun he => hnew (he ▸ hid)]
      exact hw id hid
  | writes ctx ho hstore _ hremovals =>
      have hnew := hwrite ctx ho
      rw [hremovals] at hid
      rw [hstore, SessionStore.lookup_insert_ne fun he => hnew (he ▸ hid)]
      exact hw id hid
  | removes id' hstore _ hremovals =>
      rw [hstore]
      by_cases he : id = id'
      · rw [he]
        exact SessionStore.lookup_remove_self
      · rw [SessionStore.lookup_remove_ne he]
        rw [hremovals] at hid
        rcases List.mem_cons.mp hid with h | h
        · exact absurd h he
        · exact hw id h

theorem clean_init {w : World} (hw : w.Init) : Clean w := by
  intro id hid
  rw [hw.removals] at hid
  cases hid

section Runs

variable [Crates] {workspaceId : Uuid} {c₀ c c' : Sessions}

theorem removals_of_revoked (h : Reached workspaceId c) {e : Ended Request Reply Memory}
    (he : e ∈ c.ended) {id : Uuid} (hid : Revoked e id) : id ∈ c.world.removals := by
  obtain ⟨rep, hrep, hid⟩ := hid
  have hpost := (Pool.reachable_board conforms h).replied e he rep hrep
  exact (remembers_ended h he).removed id (hpost.revoked id hid)

theorem clean_step (hc : Reached workspaceId c)
    (hs : Pool.StepWhen (server workspaceId) monitor (fun w _ o => timely w o = true) c c')
    (hclean : Clean c.world) : Clean c'.world := by
  rcases hs.op conforms hc with hw | ⟨x, -, o, r, htimely, hallowed, hr⟩
  · rw [hw]; exact hclean
  · refine (sem_change hallowed hr).clean hclean fun ctx ho hremoved => ?_
    subst ho
    obtain ⟨stored, hstored⟩ := Option.isSome_iff_exists.mp htimely
    rw [hclean _ hremoved] at hstored
    cases hstored

/-- A context that is returned is in the store as it is returned. -/
theorem read_step (hc : Reached workspaceId c)
    (hs : Pool.Step (server workspaceId) monitor c c') :
    ∃ l, c'.ended = c.ended ++ l ∧ ∀ e ∈ l, ∀ ctx, Read e ctx →
      c.world.store.lookup ctx.sessionId = some ctx := by
  obtain ⟨l, hl, hrep⟩ := Pool.step_replied conforms hc hs
  refine ⟨l, hl, fun e he ctx hread => ?_⟩
  obtain ⟨rep, hr, hctx⟩ := hread
  obtain ⟨hpost, hmem⟩ := hrep e he rep hr
  have hfound : e.mem.found = some ctx := hpost.read ctx hctx
  rcases hmem with hinit | ⟨m, o, r, hnext, hsem⟩
  · rw [hinit] at hfound
    cases hfound
  · rw [hnext] at hfound
    obtain ⟨id, hlookup⟩ := found_next hsem hfound
    rw [(sound_reached hc).1.filed id ctx hlookup]
    exact hlookup

theorem Run.clean (h : Run workspaceId c c') (hc : Reached workspaceId c)
    (hclean : Clean c.world) : Clean c'.world := by
  induction h with
  | refl => exact hclean
  | tail hrun hs ih => exact clean_step (Pool.RunWhen.reachable hrun hc) hs ih

/-- Nothing that was removed is returned later in the run. -/
theorem Run.read (h : Run workspaceId c c') (hc : Reached workspaceId c)
    (hclean : Clean c.world) {id : Uuid} (hid : id ∈ c.world.removals) :
    ∃ l, c'.ended = c.ended ++ l ∧ ∀ e ∈ l, ∀ ctx, Read e ctx → ctx.sessionId ≠ id := by
  suffices id ∈ c'.world.removals ∧ ∃ l, c'.ended = c.ended ++ l ∧
      ∀ e ∈ l, ∀ ctx, Read e ctx → ctx.sessionId ≠ id from this.2
  induction h with
  | refl => exact ⟨hid, [], (List.append_nil _).symm, fun e he => nomatch he⟩
  | @tail c₁ c₂ hrun hs ih =>
      obtain ⟨hid₁, l₁, hl₁, hreads₁⟩ := ih
      have hreached : Reached workspaceId c₁ := Pool.RunWhen.reachable hrun hc
      obtain ⟨l₂, hl₂, hreads₂⟩ := read_step hreached hs.step
      refine ⟨removals_step hreached hs.step hid₁, l₁ ++ l₂, ?_, fun e he ctx hread heq => ?_⟩
      · rw [hl₂, hl₁, List.append_assoc]
      · rcases List.mem_append.mp he with he | he
        · exact hreads₁ e he ctx hread heq
        · have hstored := hreads₂ e he ctx hread
          rw [heq, Run.clean hrun hc hclean id hid₁] at hstored
          cases hstored

/-- In a run without a late write. -/
theorem revoked_never_read (h₀ : Fresh c₀) (h : Run workspaceId c₀ c) {id : Uuid}
    {e : Ended Request Reply Memory} (he : e ∈ c.ended) (hrevoked : Revoked e id)
    (h' : Run workspaceId c c') :
    ∃ l, c'.ended = c.ended ++ l ∧ ∀ e ∈ l, ∀ ctx, Read e ctx → ctx.sessionId ≠ id := by
  have hreached : Reached workspaceId c := Pool.RunWhen.reachable h (reached_of_fresh h₀)
  have hclean : Clean c.world := Run.clean h (reached_of_fresh h₀) (clean_init h₀.world)
  exact Run.read h' hreached hclean (removals_of_revoked hreached he hrevoked)

end Runs

section Witnesses

attribute [local instance] Crates.sample

def empty : Sessions := ⟨{}, [], []⟩

theorem fresh_empty : Fresh empty := ⟨⟨rfl, rfl, rfl, rfl⟩, rfl, rfl⟩

abbrev schedule (first : Nat) (c : Sessions) (as : List (Pool.Act Request)) : Sessions :=
  Pool.turns (server 0) monitor (fun _ _ => true) (serve first) c as

theorem refines_serve (first : Nat) :
    Pool.RefinesWhen (fun _ _ => true) (serve first) (server 0).sem :=
  fun o w _ => serve_refines first o w

/-- The call has returned and revoked the session. -/
def revokes (id : Uuid) (e : Ended Request Reply Memory) : Bool :=
  e.rep.isSome && (idsRevoked e.req e.mem).contains id

theorem revoked_of_any (c : Sessions) (id : Uuid) (h : c.ended.any (revokes id) = true) :
    ∃ e ∈ c.ended, Revoked e id := by
  obtain ⟨e, he, h⟩ := List.any_eq_true.mp h
  obtain ⟨hrep, hid⟩ := Bool.and_eq_true_iff.mp h
  obtain ⟨rep, hrep⟩ := Option.isSome_iff_exists.mp hrep
  exact ⟨e, he, rep, hrep, List.contains_iff_mem.mp hid⟩

/-- A session is created, refreshed and revoked. -/
def created : Sessions :=
  schedule 100 empty (Pool.oneByOne 5 [.create 9 "assistant" ["memory:read"] none, .refresh 1,
    .revoke 1])

theorem revoked_never_read_one :
    ∃ l, (schedule 100 created (Pool.oneByOne 3 [.getSession 1, .validate (tokenText 1)])).ended =
      created.ended ++ l ∧ ∀ e ∈ l, ∀ ctx, Read e ctx → ctx.sessionId ≠ 1 := by
  obtain ⟨e, he, hrevoked⟩ := revoked_of_any created (1 : Nat) (by decide +kernel)
  exact revoked_never_read fresh_empty
    (Pool.turns_along (refines_serve 100) (fun _ => trivial) (by decide +kernel)) he hrevoked
    (Pool.turns_along (refines_serve 100) (fun _ => trivial) (by decide +kernel))

/-- As `created`, with the revocation while the refresh waits for its token. -/
def overtaken : Sessions :=
  schedule 100 empty (Pool.oneByOne 5 [.create 9 "assistant" ["memory:read"] none] ++
    [.arrive (.refresh 1), .run 0, .run 0, .arrive (.revoke 1), .run 1, .run 1, .run 1, .run 1])

def reads (id : Uuid) (e : Ended Request Reply Memory) : Bool :=
  (e.rep.bind (contextRead e.req)).any fun ctx => ctx.sessionId == id

/-- The refresh puts the revoked session back, and `get_session` returns it. -/
theorem refreshed_after_revoke :
    ¬ ∀ (c₀ c c' : Sessions), Fresh c₀ →
      Relation.ReflTransGen (Pool.Step (server 0) monitor) c₀ c →
      ∀ id, ∀ e ∈ c.ended, Revoked e id →
        Relation.ReflTransGen (Pool.Step (server 0) monitor) c c' →
        ∃ l, c'.ended = c.ended ++ l ∧ ∀ e ∈ l, ∀ ctx, Read e ctx → ctx.sessionId ≠ id := by
  intro hclaim
  let after := [Pool.Act.run 0, .run 0, .run 0, .arrive (Request.getSession 1), .run 0]
  obtain ⟨e, he, hrevoked⟩ := revoked_of_any overtaken (1 : Nat) (by decide +kernel)
  obtain ⟨l, hl, hread⟩ := hclaim empty overtaken (schedule 100 overtaken after) fresh_empty
    (Pool.turns_later (refines_serve 100) (fun _ => trivial) _ _) 1 e he hrevoked
    (Pool.turns_later (refines_serve 100) (fun _ => trivial) _ _)
  have hany : ((schedule 100 overtaken after).ended.drop overtaken.ended.length).any (reads 1) =
      true := by decide +kernel
  rw [hl, List.drop_left] at hany
  obtain ⟨e, he, hreads⟩ := List.any_eq_true.mp hany
  obtain ⟨ctx, hctx, hid⟩ := (Option.any_eq_true _ _).mp hreads
  obtain ⟨rep, hrep, hctx⟩ := Option.bind_eq_some_iff.mp hctx
  exact hread e he ctx ⟨rep, hrep, hctx⟩ (by simpa using hid)

end Witnesses

end ClawDB.Session
