/-
# `Lib.Quiet` — requests that change nothing

Some requests perform quiet operations only, which leave the components as they are.  Two
results about a server that serves such requests beside others, or alone.

`Reachable.only` : the quiet requests can be taken out of a run.  What is left is a run of the
other requests, with the same components and the same replies; so nobody can tell from the
components, or from the replies to the other requests, whether the quiet ones were there.

`Reachable.undisturbed` : where every request is quiet, each reply is one its request could have
got with nobody else there.
-/
import ClawDB.Lib.Pool

namespace Effect

open Prog

variable {F : Sig} {σ Req Rep M : Type}

/-- The server, open to the requests with `p` only. -/
def Server.only (S : Server F σ Req Rep) (p : Req → Bool) : Server F σ Req Rep :=
  { S with accepts := fun req => S.accepts req ∧ p req = true }

namespace Pool

variable {S : Server F σ Req Rep} {Mo : Monitor F Req Rep M} {quiet : F.Op → Prop}
  {p : Req → Bool}

/-! ## Without the quiet requests -/

/-- The pool as it is without the requests that have not `p`. -/
def only (p : Req → Bool) (c : Pool F σ Req Rep M) : Pool F σ Req Rep M :=
  ⟨c.world, c.running.filter fun th => p th.req, c.ended.filter fun e => p e.req⟩

/-- What is left of the requests without `p` is quiet. -/
def Silent (quiet : F.Op → Prop) (p : Req → Bool) (running : List (Thread F Req Rep M)) : Prop :=
  ∀ th ∈ running, p th.req = false → th.prog.Within quiet

theorem only_settle_pos {w : σ} {pre post : List (Thread F Req Rep M)}
    {ended : List (Ended Req Rep M)} {req : Req} {m : M} {prog : Prog F Rep} (h : p req = true) :
    (settle w pre post ended req m prog : Pool F σ Req Rep M).only p =
      settle w (pre.filter fun th => p th.req) (post.filter fun th => p th.req)
        (ended.filter fun e => p e.req) req m prog := by
  cases prog with
  | pure a => simp [only, settle, h]
  | op o k => simp [only, settle, h]

theorem only_settle_neg {w : σ} {pre post : List (Thread F Req Rep M)}
    {ended : List (Ended Req Rep M)} {req : Req} {m : M} {prog : Prog F Rep} (h : p req = false) :
    (settle w pre post ended req m prog : Pool F σ Req Rep M).only p =
      ⟨w, (pre.filter fun th => p th.req) ++ post.filter fun th => p th.req,
        ended.filter fun e => p e.req⟩ := by
  cases prog with
  | pure a => simp [only, settle, h]
  | op o k => simp [only, settle, h]

theorem silent_settle {w : σ} {pre post : List (Thread F Req Rep M)}
    {ended : List (Ended Req Rep M)} {req : Req} {m : M} {prog : Prog F Rep}
    (hrest : Silent quiet p (pre ++ post)) (hprog : p req = false → prog.Within quiet) :
    Silent quiet p (settle w pre post ended req m prog : Pool F σ Req Rep M).running := by
  cases prog with
  | pure a => exact hrest
  | op o k =>
      intro th hth
      rcases mem_middle.mp hth with rfl | hth
      · exact hprog
      · exact hrest th hth

/-- A step is one without the quiet requests too, or one of theirs. -/
theorem Step.only (hquiet : ∀ o w r w', quiet o → S.sem o w r w' → w' = w)
    (hS : ∀ req, S.accepts req → p req = false → (S.handler req).Within quiet)
    {c c' : Pool F σ Req Rep M} (hc : Silent quiet p c.running) (h : Step S Mo c c') :
    Silent quiet p c'.running ∧
      (c'.only p = c.only p ∨ Step (S.only p) Mo (c.only p) (c'.only p)) := by
  cases h with
  | @arrive w running ended req haccepts =>
      refine ⟨silent_settle (by rwa [List.append_nil]) (hS req haccepts), ?_⟩
      cases hp : p req with
      | true =>
          rw [only_settle_pos hp]
          exact .inr (.arrive req ⟨haccepts, hp⟩)
      | false =>
          rw [only_settle_neg hp]
          exact .inl (by simp [Pool.only])
  | @run w w' pre post ended req m o k r hr =>
      have hth : p req = false → (Prog.op o k).Within quiet :=
        hc ⟨req, m, .op o k⟩ List.mem_append_cons_self
      have hrest : Silent quiet p (pre ++ post) := fun th h => hc th (mem_without h)
      refine ⟨silent_settle hrest fun hp => (hth hp).2 r, ?_⟩
      cases hp : p req with
      | true =>
          rw [only_settle_pos hp]
          refine .inr ?_
          simp only [Pool.only, List.filter_append, List.filter_cons, hp, if_true]
          exact .run hr
      | false =>
          obtain rfl : w' = w := hquiet o w r w' (hth hp).1 hr
          rw [only_settle_neg hp]
          exact .inl (by simp [Pool.only, hp])
  | @drop w pre post ended th =>
      refine ⟨fun t ht => hc t (mem_without ht), ?_⟩
      cases hp : p th.req with
      | true =>
          refine .inr ?_
          simp only [Pool.only, List.filter_append, List.filter_cons, List.filter_nil, hp,
            if_true]
          exact .drop
      | false => exact .inl (by simp [Pool.only, hp])

/-- A run without its quiet requests is a run of the others. -/
theorem Reachable.only (hquiet : ∀ o w r w', quiet o → S.sem o w r w' → w' = w)
    (hS : ∀ req, S.accepts req → p req = false → (S.handler req).Within quiet)
    {init : σ → Prop} {c : Pool F σ Req Rep M} (h : Reachable S Mo init c) :
    Silent quiet p c.running ∧ Reachable (S.only p) Mo init (c.only p) := by
  induction h with
  | init hw => exact ⟨fun _ h => (nomatch h), .init hw⟩
  | step _ hstep ih =>
      obtain ⟨hc, hreach⟩ := ih
      obtain ⟨hc', he | hs⟩ := hstep.only hquiet hS hc
      · rw [he]
        exact ⟨hc', hreach⟩
      · exact ⟨hc', .step hreach hs⟩

/-! ## Nothing but quiet requests -/

/-- What is left of a request, alone with the components, leads to what the whole leads to. -/
structure Thread.Alone (S : Server F σ Req Rep) (quiet : F.Op → Prop) (w : σ)
    (th : Thread F Req Rep M) : Prop where
  within : th.prog.Within quiet
  completes : ∀ rep w', Exec S.sem th.prog w rep w' → Exec S.sem (S.handler th.req) w rep w'

/-- A reply the request could have got alone. -/
def Ended.Alone (S : Server F σ Req Rep) (w : σ) (e : Ended Req Rep M) : Prop :=
  ∀ rep, e.rep = some rep → Exec S.sem (S.handler e.req) w rep w

theorem settle_alone {w : σ} {pre post : List (Thread F Req Rep M)}
    {ended : List (Ended Req Rep M)} {req : Req} {m : M} {p : Prog F Rep}
    (hrunning : ∀ th ∈ pre ++ post, Thread.Alone S quiet w th)
    (hended : ∀ e ∈ ended, Ended.Alone S w e) (hp : Thread.Alone S quiet w ⟨req, m, p⟩) :
    (∀ th ∈ (settle w pre post ended req m p).running, Thread.Alone S quiet w th) ∧
      ∀ e ∈ (settle w pre post ended req m p).ended, Ended.Alone S w e := by
  cases p with
  | pure a =>
      refine ⟨hrunning, fun e he => ?_⟩
      rcases List.mem_append.mp he with he | he
      · exact hended e he
      · obtain rfl := List.mem_singleton.mp he
        intro rep hrep
        obtain rfl := Option.some.inj hrep
        exact hp.completes a w (.pure ..)
  | op o k =>
      refine ⟨fun th hth => ?_, hended⟩
      rcases mem_middle.mp hth with rfl | hth
      · exact hp
      · exact hrunning th hth

/-- Requests whose operations change nothing do not notice each other. -/
theorem Reachable.undisturbed (hquiet : ∀ o w r w', quiet o → S.sem o w r w' → w' = w)
    (hS : ∀ req, S.accepts req → (S.handler req).Within quiet) {init : σ → Prop}
    {c : Pool F σ Req Rep M} (h : Reachable S Mo init c) :
    init c.world ∧ (∀ th ∈ c.running, Thread.Alone S quiet c.world th) ∧
      ∀ e ∈ c.ended, Ended.Alone S c.world e := by
  induction h with
  | init hw => exact ⟨hw, fun _ h => (nomatch h), fun _ h => (nomatch h)⟩
  | step _ hstep ih =>
      obtain ⟨hworld, hrunning, hended⟩ := ih
      cases hstep with
      | @arrive w running ended req haccepts =>
          rw [settle_world]
          refine ⟨hworld, settle_alone ?_ hended ⟨hS req haccepts, fun _ _ h => h⟩⟩
          rw [List.append_nil]
          exact hrunning
      | @run w w' pre post ended req m o k r hr =>
          have hth : Thread.Alone S quiet w ⟨req, m, .op o k⟩ :=
            hrunning _ List.mem_append_cons_self
          obtain rfl : w' = w := hquiet o w r w' hth.within.1 hr
          rw [settle_world]
          refine ⟨hworld, settle_alone (fun th h => hrunning th (mem_without h)) hended
            ⟨hth.within.2 r, fun rep w₁ h => ?_⟩⟩
          exact hth.completes rep w₁ (.op hr h)
      | @drop w pre post ended th =>
          refine ⟨hworld, fun t ht => hrunning t (mem_without ht), fun e he => ?_⟩
          rcases List.mem_append.mp he with he | he
          · exact hended e he
          · obtain rfl := List.mem_singleton.mp he
            exact fun rep hrep => nomatch hrep

end Pool

end Effect
