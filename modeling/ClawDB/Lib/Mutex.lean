/-
# `Lib.Mutex` — what a mutex protects, while programs are interleaved

The state of some components splits into parts, one for each handle.  A program that holds
the mutex of a handle is the only one to change the part that belongs to it; it may be
interrupted after every operation, and other programs may read meanwhile.

A `Discipline` says what holds of a part while nobody holds its mutex (`inv`), and what a
holder may do to it (`move`).  `owns` is the calculus for one program: when it takes a mutex
it may assume `inv` of a part it knows nothing else about, while it holds the mutex it knows
the part exactly, every change it makes is a `move`, and it gives the mutex back with `inv`
restored.  A program that ends, or is dropped, without giving it back leaves the mutex taken
for good.

`reachable_guarded` is the connection: if every handler keeps to the discipline by itself,
then in every reachable pool the parts nobody holds satisfy `inv`; and by `guarded_step` every
step of the pool changes every part by a `move`, or not at all.
-/
import ClawDB.Lib.Pool
import Mathlib.Data.List.Nodup

namespace Effect

open Prog

/-- What an operation, given its reply, has to do with the mutex of a handle. -/
inductive Role (H : Type) where
  | quiet
  | take (h : H)
  | act (h : H)
  | give (h : H)

/-- Components whose state has a part for each handle, and a mutex for each part. -/
structure Parts (F : Sig) (σ H V : Type) where
  sem : Rel F σ
  view : σ → H → V
  free : σ → H → Prop
  role : (o : F.Op) → F.Ret o → Role H

variable {F : Sig} {σ H V Req Rep α β ε : Type}

/-- Nothing of the handle changed. -/
def Parts.Same (P : Parts F σ H V) (w w' : σ) (h : H) : Prop :=
  P.view w' h = P.view w h ∧ (P.free w' h ↔ P.free w h)

/-- An operation changes no part but the one it is about. -/
structure Parts.Lawful (P : Parts F σ H V) : Prop where
  quiet {o r w w'} : P.sem o w r w' → P.role o r = .quiet → ∀ h, P.Same w w' h
  take {o r w w' h} : P.sem o w r w' → P.role o r = .take h →
    P.free w h ∧ ¬P.free w' h ∧ ∀ h', h' ≠ h → P.Same w w' h'
  act {o r w w' h} : P.sem o w r w' → P.role o r = .act h →
    (P.free w' h ↔ P.free w h) ∧ ∀ h', h' ≠ h → P.Same w w' h'
  give {o r w w' h} : P.sem o w r w' → P.role o r = .give h → ∀ h', h' ≠ h → P.Same w w' h'

structure Discipline (P : Parts F σ H V) where
  inv : H → V → Prop
  move : H → σ → σ → Prop
  still {h w w'} : P.view w' h = P.view w h → move h w w'

namespace Discipline

variable {P : Parts F σ H V} (D : Discipline P)

/-- What must hold of the rest of a program, `K`, once operation `o` has replied `r` to a
program that owns `own`: the handle it holds, with its part. -/
def After (own : Option (H × V)) (o : F.Op) (r : F.Ret o) (K : Option (H × V) → Prop) : Prop :=
  match P.role o r with
  | .quiet => K own
  | .take h => own = none ∧ ∀ w w', P.sem o w r w' → D.inv h (P.view w h) →
      D.move h w w' ∧ K (some (h, P.view w' h))
  | .act h => ∃ v, own = some (h, v) ∧ ∀ w w', P.sem o w r w' → P.view w h = v →
      D.move h w w' ∧ K (some (h, P.view w' h))
  | .give h => ∃ v, own = some (h, v) ∧ ∀ w w', P.sem o w r w' → P.view w h = v →
      D.move h w w' ∧ D.inv h (P.view w' h) ∧ K none

/-- The program keeps to the discipline, whatever it is told, and `Q` holds of what it owns
and returns at its end. -/
def owns : Prog F α → (Option (H × V) → α → Prop) → Option (H × V) → Prop
  | .pure a, Q, own => Q own a
  | .op o k, Q, own => ∀ r, D.After own o r fun own' => owns (k r) Q own'

variable {D}

theorem After.mono {own : Option (H × V)} {o : F.Op} {r : F.Ret o}
    {K K' : Option (H × V) → Prop} (hK : ∀ own, K own → K' own) (h : D.After own o r K) :
    D.After own o r K' := by
  unfold After at h ⊢
  split at h
  · exact hK _ h
  · exact ⟨h.1, fun w w' hs hi => ⟨(h.2 w w' hs hi).1, hK _ (h.2 w w' hs hi).2⟩⟩
  · obtain ⟨v, hv, h⟩ := h
    exact ⟨v, hv, fun w w' hs hw => ⟨(h w w' hs hw).1, hK _ (h w w' hs hw).2⟩⟩
  · obtain ⟨v, hv, h⟩ := h
    exact ⟨v, hv, fun w w' hs hw => ⟨(h w w' hs hw).1, (h w w' hs hw).2.1, hK _ (h w w' hs hw).2.2⟩⟩

theorem owns_mono {Q Q' : Option (H × V) → α → Prop} (hQ : ∀ own a, Q own a → Q' own a)
    {p : Prog F α} {own : Option (H × V)} (h : D.owns p Q own) : D.owns p Q' own := by
  induction p generalizing own with
  | pure a => exact hQ own a h
  | op o k ih => exact fun r => (h r).mono fun own' => ih r

theorem owns_bind {Q : Option (H × V) → β → Prop} {p : Prog F α} {f : α → Prog F β}
    {own : Option (H × V)} :
    D.owns (p >>= f) Q own ↔ D.owns p (fun own' a => D.owns (f a) Q own') own := by
  induction p generalizing own with
  | pure a => exact Iff.rfl
  | op o k ih =>
      rw [op_bind]
      constructor
      · exact fun h r => (h r).mono fun own' => (ih r).mp
      · exact fun h r => (h r).mono fun own' => (ih r).mpr

theorem owns_map {Q : Option (H × V) → β → Prop} {p : Prog F α} {f : α → β}
    {own : Option (H × V)} :
    D.owns (f <$> p) Q own ↔ D.owns p (fun own' a => Q own' (f a)) own := by
  rw [← bind_pure_comp, owns_bind]
  exact Iff.rfl

theorem owns_perform {Q : Option (H × V) → F.Ret o → Prop} {own : Option (H × V)} :
    D.owns (perform o) Q own ↔ ∀ r, D.After own o r fun own' => Q own' r :=
  Iff.rfl

/-- The rule for a sequence of fallible programs. -/
theorem owns_try {Q : Option (H × V) → Except ε β → Prop} {x : Try F ε α} {f : α → Try F ε β}
    {own : Option (H × V)}
    (h : D.owns x.run (fun own' => fun
      | .ok a => D.owns (f a).run Q own'
      | .error e => Q own' (.error e)) own) : D.owns (x >>= f).run Q own := by
  rw [Try.run_bind, owns_bind]
  refine owns_mono (fun own' r hr => ?_) h
  cases r <;> exact hr

/-! ## One operation -/

variable (P) in
/-- The mutex a program holds after an operation. -/
def held (m : Option H) (o : F.Op) (r : F.Ret o) : Option H :=
  match P.role o r with
  | .quiet => m
  | .take h => some h
  | .act _ => m
  | .give _ => none

variable (P) in
/-- What a program owns that holds the mutex `m`. -/
def owned (w : σ) (m : Option H) : Option (H × V) := m.map fun h => (h, P.view w h)

variable (D) in
/-- What an operation does to every handle and to the program that performs it. -/
structure Kept (w w' : σ) (m m' : Option H) (K : Option (H × V) → Prop) : Prop where
  goes : K (owned P w' m')
  taken : ∀ h, m' = some h → ¬P.free w' h
  inv : ∀ h, P.free w' h → D.inv h (P.view w' h)
  moves : ∀ h, D.move h w w'
  others : ∀ h, ¬P.free w h → m ≠ some h → P.Same w w' h
  gained : ∀ h, m' = some h → m = some h ∨ P.free w h

/-- An operation that changed nothing. -/
theorem Kept.quiet {w w' : σ} {m : Option H} {K : Option (H × V) → Prop}
    (hsame : ∀ h, P.Same w w' h) (htaken : ∀ h, m = some h → ¬P.free w h)
    (hinv : ∀ h, P.free w h → D.inv h (P.view w h)) (hK : K (owned P w m)) :
    D.Kept w w' m m K where
  goes := by
    have ho : owned P w' m = owned P w m := by
      cases m with
      | none => rfl
      | some h₀ => simp only [owned, Option.map_some, (hsame h₀).1]
    rw [ho]; exact hK
  taken h hm hf := htaken h hm ((hsame h).2.mp hf)
  inv h hf := by rw [(hsame h).1]; exact hinv h ((hsame h).2.mp hf)
  moves h := D.still (hsame h).1
  others h _ _ := hsame h
  gained h hm := .inl hm

/-- An operation at one handle, which was free or belongs to the program. -/
theorem Kept.single {w w' : σ} {m m' : Option H} {K : Option (H × V) → Prop} {h₀ : H}
    (hsame : ∀ h, h ≠ h₀ → P.Same w w' h) (hmine : P.free w h₀ ∨ m = some h₀)
    (hinv : ∀ h, P.free w h → D.inv h (P.view w h))
    (hi : P.free w' h₀ → D.inv h₀ (P.view w' h₀)) (hmove : D.move h₀ w w')
    (hK : K (owned P w' m')) (htaken : ∀ h, m' = some h → h = h₀ ∧ ¬P.free w' h₀) :
    D.Kept w w' m m' K where
  goes := hK
  taken h hm hf := by
    obtain ⟨rfl, hbusy⟩ := htaken h hm
    exact hbusy hf
  inv h hf := by
    by_cases he : h = h₀
    · subst he; exact hi hf
    · obtain ⟨hview, hfree⟩ := hsame h he
      rw [hview]; exact hinv h (hfree.mp hf)
  moves h := by
    by_cases he : h = h₀
    · rw [he]; exact hmove
    · exact D.still (hsame h he).1
  others h hb hm := hsame h fun he => hmine.elim (he ▸ hb) (he ▸ hm)
  gained h hm := by
    obtain ⟨rfl, -⟩ := htaken h hm
    exact hmine.symm

theorem After.kept (hP : P.Lawful) {o : F.Op} {r : F.Ret o} {w w' : σ} {m : Option H}
    {K : Option (H × V) → Prop} (hs : P.sem o w r w')
    (htaken : ∀ h, m = some h → ¬P.free w h)
    (hinv : ∀ h, P.free w h → D.inv h (P.view w h))
    (h : D.After (owned P w m) o r K) : D.Kept w w' m (held P m o r) K := by
  unfold After at h
  split at h
  next hr =>
      rw [show held P m o r = m by simp only [held, hr]]
      exact .quiet (hP.quiet hs hr) htaken hinv h
  next h₀ hr =>
      obtain ⟨hfree, hbusy, hothers⟩ := hP.take hs hr
      obtain ⟨-, h⟩ := h
      obtain ⟨hmove, hK⟩ := h w w' hs (hinv h₀ hfree)
      rw [show held P m o r = some h₀ by simp only [held, hr]]
      refine .single hothers (.inl hfree) hinv (fun hf => absurd hf hbusy) hmove hK ?_
      intro h hm
      exact ⟨(Option.some.inj hm).symm, hbusy⟩
  next h₀ hr =>
      obtain ⟨hfree, hothers⟩ := hP.act hs hr
      obtain ⟨v, hm, h⟩ := h
      obtain ⟨h₁, rfl, he⟩ := Option.map_eq_some_iff.mp hm
      obtain ⟨rfl, hv⟩ := Prod.mk.inj he
      obtain ⟨hmove, hK⟩ := h w w' hs hv
      have hbusy : ¬P.free w' h₁ := mt hfree.mp (htaken h₁ rfl)
      rw [show held P (some h₁) o r = some h₁ by simp only [held, hr]]
      refine .single hothers (.inr rfl) hinv (fun hf => absurd hf hbusy) hmove hK ?_
      intro h hm
      exact ⟨(Option.some.inj hm).symm, hbusy⟩
  next h₀ hr =>
      have hothers := hP.give hs hr
      obtain ⟨v, hm, h⟩ := h
      obtain ⟨h₁, rfl, he⟩ := Option.map_eq_some_iff.mp hm
      obtain ⟨rfl, hv⟩ := Prod.mk.inj he
      obtain ⟨hmove, hi, hK⟩ := h w w' hs hv
      rw [show held P (some h₁) o r = none by simp only [held, hr]]
      refine .single hothers (.inr rfl) hinv (fun _ => hi) hmove hK ?_
      intro h hm
      cases hm

/-! ## A pool of such programs -/

variable (P) in
/-- The monitor that remembers which mutex a request holds, and permits everything. -/
def holder : Monitor F Req Rep (Option H) where
  init _ := none
  allowed _ _ _ := True
  next := held P
  post _ _ _ := True

/-- Two requests do not hold the same mutex. -/
def Apart (a b : Thread F Req Rep (Option H)) : Prop := ∀ h, a.mem = some h → b.mem ≠ some h

theorem Apart.symm {a b : Thread F Req Rep (Option H)} (h : Apart a b) : Apart b a :=
  fun h' hb ha => h h' ha hb

variable (D) in
/-- The invariant of a pool. -/
structure Guarded (c : Pool F σ Req Rep (Option H)) : Prop where
  owns : ∀ th ∈ c.running, D.owns th.prog (fun _ _ => True) (owned P c.world th.mem)
  taken : ∀ th ∈ c.running, ∀ h, th.mem = some h → ¬P.free c.world h
  alone : c.running.Pairwise Apart
  inv : ∀ h, P.free c.world h → D.inv h (P.view c.world h)

variable {S : Server F σ Req Rep}

variable (D S) in
/-- Every handler of the server keeps to the discipline by itself. -/
structure Obeys : Prop where
  lawful : P.Lawful
  sem : S.sem = P.sem
  owns : ∀ req, S.accepts req → D.owns (S.handler req) (fun _ _ => True) none

/-- Where a program of the discipline settles, the pool is guarded. -/
theorem guarded_settle {w w' : σ} {m m' : Option H} {p : Prog F Rep}
    {pre post : List (Thread F Req Rep (Option H))} {ended : List (Ended Req Rep (Option H))}
    {req : Req} (hk : D.Kept w w' m m' fun own => D.owns p (fun _ _ => True) own)
    (howns : ∀ th ∈ pre ++ post, D.owns th.prog (fun _ _ => True) (owned P w th.mem))
    (htaken : ∀ th ∈ pre ++ post, ∀ h, th.mem = some h → ¬P.free w h)
    (halone : (pre ++ post).Pairwise Apart)
    (hothers : ∀ th ∈ pre ++ post, ∀ h, th.mem = some h → m ≠ some h) :
    D.Guarded (Pool.settle w' pre post ended req m' p) := by
  have hsame : ∀ th ∈ pre ++ post, ∀ h, th.mem = some h → P.Same w w' h := fun th hth h hm =>
    hk.others h (htaken th hth h hm) (hothers th hth h hm)
  have howns' : ∀ th ∈ pre ++ post, D.owns th.prog (fun _ _ => True) (owned P w' th.mem) := by
    intro th hth
    have ho : owned P w' th.mem = owned P w th.mem := by
      cases hm : th.mem with
      | none => rfl
      | some h => simp only [owned, Option.map_some, (hsame th hth h hm).1]
    rw [ho]
    exact howns th hth
  have htaken' : ∀ th ∈ pre ++ post, ∀ h, th.mem = some h → ¬P.free w' h := by
    intro th hth h hm hf
    exact htaken th hth h hm ((hsame th hth h hm).2.mp hf)
  have hapart : ∀ th ∈ pre ++ post, ∀ h, th.mem = some h → m' ≠ some h := by
    intro th hth h hm hm'
    rcases hk.gained h hm' with hmine | hfree
    · exact hothers th hth h hm hmine
    · exact htaken th hth h hm hfree
  cases p with
  | pure a => exact ⟨howns', htaken', halone, hk.inv⟩
  | op o k =>
      have hmem : ∀ {th : Thread F Req Rep (Option H)}, th ∈ pre ++ ⟨req, m', .op o k⟩ :: post →
          th = ⟨req, m', .op o k⟩ ∨ th ∈ pre ++ post := by
        intro th hth
        rcases List.mem_append.mp hth with h | h
        · exact .inr (List.mem_append_left _ h)
        · exact (List.mem_cons.mp h).imp id (List.mem_append_right _)
      refine ⟨?_, ?_, ?_, hk.inv⟩
      · intro th hth
        rcases hmem hth with rfl | hth
        · exact hk.goes
        · exact howns' th hth
      · intro th hth
        rcases hmem hth with rfl | hth
        · exact hk.taken
        · exact htaken' th hth
      · refine (List.pairwise_middle Apart.symm).mpr (List.pairwise_cons.mpr ⟨?_, halone⟩)
        exact fun th hth h hm hm' => hapart th hth h hm' hm

/-- One step of a guarded pool. -/
theorem guarded_step (hS : D.Obeys S) {c c' : Pool F σ Req Rep (Option H)} (hc : D.Guarded c)
    (hs : Pool.Step S (holder P) c c') :
    D.Guarded c' ∧ ∀ h, D.move h c.world c'.world := by
  cases hs with
  | @arrive w running ended req hadm =>
      refine ⟨?_, fun h => D.still (congrArg (P.view · h) Pool.settle_world)⟩
      have hk : D.Kept w w none none fun own => D.owns (S.handler req) (fun _ _ => True) own :=
        { goes := hS.owns req hadm
          taken := by intro h hm; cases hm
          inv := hc.inv
          moves := fun h => D.still rfl
          others := fun h _ _ => ⟨rfl, Iff.rfl⟩
          gained := by intro h hm; cases hm }
      refine guarded_settle hk ?_ ?_ ?_ ?_ <;> rw [List.append_nil]
      · exact hc.owns
      · exact hc.taken
      · exact hc.alone
      · intro th _ h _ hm; cases hm
  | @run w w' pre post ended req m o k r hr =>
      rw [hS.sem] at hr
      have hth : (⟨req, m, .op o k⟩ : Thread F Req Rep (Option H)) ∈
          pre ++ ⟨req, m, .op o k⟩ :: post := List.mem_append_cons_self
      have hrest : ∀ th ∈ pre ++ post, th ∈ pre ++ ⟨req, m, .op o k⟩ :: post :=
        fun _ h => Pool.mem_without h
      have halone := List.pairwise_cons.mp ((List.pairwise_middle Apart.symm).mp hc.alone)
      have hk := After.kept hS.lawful hr (hc.taken _ hth) hc.inv (hc.owns _ hth r)
      refine ⟨?_, fun h => ?_⟩
      · exact guarded_settle hk (fun th h => hc.owns th (hrest th h))
          (fun th h => hc.taken th (hrest th h)) halone.2
          fun th hth h hm hm' => halone.1 th hth h hm' hm
      · rw [Pool.settle_world]
        exact hk.moves h
  | @drop w pre post ended th =>
      have hsub : (pre ++ post).Sublist (pre ++ th :: post) :=
        (List.Sublist.refl pre).append (List.sublist_cons_self _ _)
      refine ⟨⟨fun t ht => hc.owns t (hsub.subset ht), fun t ht => hc.taken t (hsub.subset ht),
        hc.alone.sublist hsub, hc.inv⟩, fun h => D.still rfl⟩

variable {init : σ → Prop}

/-- In every reachable pool, what nobody holds satisfies its invariant. -/
theorem reachable_guarded (hS : D.Obeys S)
    (hinit : ∀ w, init w → ∀ h, P.free w h → D.inv h (P.view w h))
    {c : Pool F σ Req Rep (Option H)} (hc : Pool.Reachable S (holder P) init c) :
    D.Guarded c := by
  induction hc with
  | init hw => exact ⟨by simp, by simp, List.Pairwise.nil, hinit _ hw⟩
  | step _ hs ih => exact (guarded_step hS ih hs).1

/-- What every move keeps, and holds of a reachable pool, holds of every pool after it. -/
theorem stays_true (hS : D.Obeys S)
    {I : σ → Prop} (hI : ∀ w w', (∀ h, D.move h w w') → I w → I w')
    {c c' : Pool F σ Req Rep (Option H)} (hc : D.Guarded c)
    (hs : Relation.ReflTransGen (Pool.Step S (holder P)) c c') (h : I c.world) :
    I c'.world := by
  suffices D.Guarded c' ∧ I c'.world from this.2
  induction hs with
  | refl => exact ⟨hc, h⟩
  | tail _ hstep ih =>
      obtain ⟨hg, hmove⟩ := guarded_step hS ih.1 hstep
      exact ⟨hg, hI _ _ hmove ih.2⟩

end Discipline

end Effect
