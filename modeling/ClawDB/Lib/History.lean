/-
# `Lib.History` — what the replies about a part say, and what the part then holds

A `Discipline` (`Lib.Mutex`) says what holds of a part while nobody holds its mutex, whatever
became of the part before.  A `History` adds what was said of it: some replies are notes about
a handle, and `inv` relates a part to the notes about it, in the order of the replies.

A note is given with a reply, and the reply in the step that gives the mutex back (see
`Lib.Pool`).  A program that has given a mutex back therefore still owes `inv`: with its note
if it ends there, without one if it goes on.  `Own.gave` is the program in that state.

`told_step` is the connection: if every handler keeps the history by itself, then every step of
a pool keeps `inv` of the parts nobody holds, and `inv` holds of a part whenever a note about it
has just been given.
-/
import ClawDB.Lib.Mutex

namespace Effect

open Prog

variable {F : Sig} {σ H V Req Rep N M α β ε : Type} {P : Parts F σ H V}

/-- Notes about handles; `env` is something about the components that does not change. -/
structure History (D : Discipline P) (Req Rep N : Type) where
  env : σ → Prop
  steady {o r w w'} : P.sem o w r w' → env w → env w'
  note : H → Req → Rep → Option N
  inv : H → List N → V → Prop

/-- What a program owns: the handle it holds, with its part and the notes about it, or the
handle it has given back with its last operation. -/
inductive Own (H V N : Type) where
  | free
  | holds (h : H) (v : V) (notes : List N)
  | gave (h : H) (v : V) (notes : List N)

/-- What a program owns at its next operation. -/
def Own.next : Own H V N → Own H V N
  | .gave _ _ _ => .free
  | own => own

namespace History

variable {D : Discipline P} (T : History D Req Rep N)

/-- What a program owes that goes on. -/
def Clear : Own H V N → Prop
  | .gave h v notes => T.inv h notes v
  | _ => True

/-- What a program owes that ends with this reply. -/
def Closes (req : Req) (own : Own H V N) (rep : Rep) : Prop :=
  match own with
  | .gave h v notes => T.inv h (notes ++ (T.note h req rep).toList) v ∧
      ∀ h', h' ≠ h → T.note h' req rep = none
  | _ => ∀ h, T.note h req rep = none

/-- What must hold of the rest of a program, `K`, once operation `o` has replied `r`. -/
def After (own : Own H V N) (o : F.Op) (r : F.Ret o) (K : Own H V N → Prop) : Prop :=
  match P.role o r with
  | .quiet => ∀ w w', P.sem o w r w' → T.env w → K own
  | .take h => own = .free ∧ ∀ w w' notes, P.sem o w r w' → T.env w → D.inv h (P.view w h) →
      T.inv h notes (P.view w h) → K (.holds h (P.view w' h) notes)
  | .act h => ∃ v notes, own = .holds h v notes ∧ ∀ w w', P.sem o w r w' → T.env w →
      P.view w h = v → K (.holds h (P.view w' h) notes)
  | .give h => ∃ v notes, own = .holds h v notes ∧ ∀ w w', P.sem o w r w' → T.env w →
      P.view w h = v → K (.gave h (P.view w' h) notes)

/-- The program keeps the history, whatever it is told, and `Q` holds of what it owns and
returns at its end. -/
def keeps : Prog F α → (Own H V N → α → Prop) → Own H V N → Prop
  | .pure a, Q, own => Q own a
  | .op o k, Q, own => T.Clear own ∧ ∀ r, T.After own.next o r fun own' => keeps (k r) Q own'

variable {T}

theorem After.mono {own : Own H V N} {o : F.Op} {r : F.Ret o} {K K' : Own H V N → Prop}
    (hK : ∀ own, K own → K' own) (h : T.After own o r K) : T.After own o r K' := by
  unfold After at h ⊢
  split at h
  · exact fun w w' hs he => hK _ (h w w' hs he)
  · exact ⟨h.1, fun w w' notes hs he hd hi => hK _ (h.2 w w' notes hs he hd hi)⟩
  · obtain ⟨v, notes, hv, h⟩ := h
    exact ⟨v, notes, hv, fun w w' hs he hw => hK _ (h w w' hs he hw)⟩
  · obtain ⟨v, notes, hv, h⟩ := h
    exact ⟨v, notes, hv, fun w w' hs he hw => hK _ (h w w' hs he hw)⟩

theorem keeps_mono {Q Q' : Own H V N → α → Prop} (hQ : ∀ own a, Q own a → Q' own a)
    {p : Prog F α} {own : Own H V N} (h : T.keeps p Q own) : T.keeps p Q' own := by
  induction p generalizing own with
  | pure a => exact hQ own a h
  | op o k ih => exact ⟨h.1, fun r => (h.2 r).mono fun own' => ih r⟩

theorem keeps_bind {Q : Own H V N → β → Prop} {p : Prog F α} {f : α → Prog F β}
    {own : Own H V N} :
    T.keeps (p >>= f) Q own ↔ T.keeps p (fun own' a => T.keeps (f a) Q own') own := by
  induction p generalizing own with
  | pure a => exact Iff.rfl
  | op o k ih =>
      rw [op_bind]
      constructor
      · exact fun h => ⟨h.1, fun r => (h.2 r).mono fun own' => (ih r).mp⟩
      · exact fun h => ⟨h.1, fun r => (h.2 r).mono fun own' => (ih r).mpr⟩

theorem keeps_map {Q : Own H V N → β → Prop} {p : Prog F α} {f : α → β} {own : Own H V N} :
    T.keeps (f <$> p) Q own ↔ T.keeps p (fun own' a => Q own' (f a)) own := by
  rw [← bind_pure_comp, keeps_bind]
  exact Iff.rfl

theorem keeps_perform {o : F.Op} {Q : Own H V N → F.Ret o → Prop} {own : Own H V N} :
    T.keeps (perform o) Q own ↔
      T.Clear own ∧ ∀ r, T.After own.next o r fun own' => Q own' r :=
  Iff.rfl

/-- The rule for a sequence of fallible programs. -/
theorem keeps_try {Q : Own H V N → Except ε β → Prop} {x : Try F ε α} {f : α → Try F ε β}
    {own : Own H V N}
    (h : T.keeps x.run (fun own' => fun
      | .ok a => T.keeps (f a).run Q own'
      | .error e => Q own' (.error e)) own) : T.keeps (x >>= f).run Q own := by
  rw [Try.run_bind, keeps_bind]
  refine keeps_mono (fun own' r hr => ?_) h
  cases r <;> exact hr

/-! ## A pool of such programs -/

variable (T) in
/-- The notes about a handle in the replies given so far. -/
def told (h : H) (ended : List (Ended Req Rep M)) : List N :=
  ended.filterMap fun e => e.rep.bind (T.note h e.req)

theorem told_reply (h : H) (ended : List (Ended Req Rep M)) (req : Req) (m : M) (rep : Rep) :
    T.told h (ended ++ [⟨req, m, some rep⟩]) = T.told h ended ++ (T.note h req rep).toList := by
  unfold told
  rw [List.filterMap_append]
  congr 1

theorem told_reply_none {h : H} {ended : List (Ended Req Rep M)} {req : Req} {m : M} {rep : Rep}
    (hn : T.note h req rep = none) : T.told h (ended ++ [⟨req, m, some rep⟩]) = T.told h ended := by
  rw [told_reply, hn]
  exact List.append_nil _

theorem told_drop (h : H) (ended : List (Ended Req Rep M)) (req : Req) (m : M) :
    T.told h (ended ++ [⟨req, m, none⟩]) = T.told h ended := by
  unfold told
  rw [List.filterMap_append]
  exact List.append_nil _

variable (T) in
/-- What a program owns that holds the mutex `m`. -/
def current (w : σ) (ended : List (Ended Req Rep M)) : Option H → Own H V N
  | none => .free
  | some h => .holds h (P.view w h) (T.told h ended)

variable (T) in
/-- The same right after an operation, which may have given `gives` back. -/
def landing (w : σ) (ended : List (Ended Req Rep M)) (m gives : Option H) : Own H V N :=
  match gives with
  | none => T.current w ended m
  | some h => .gave h (P.view w h) (T.told h ended)

variable (P) in
/-- The mutex an operation gives back. -/
def given (o : F.Op) (r : F.Ret o) : Option H :=
  match P.role o r with
  | .give h => some h
  | _ => none

theorem current_congr {w w' : σ} {ended ended' : List (Ended Req Rep M)} {m : Option H}
    (hview : ∀ h, m = some h → P.view w' h = P.view w h)
    (htold : ∀ h, m = some h → T.told h ended' = T.told h ended) :
    T.current w' ended' m = T.current w ended m := by
  cases m with
  | none => rfl
  | some h =>
      simp only [current, hview h rfl, htold h rfl]

theorem current_next (w : σ) (ended : List (Ended Req Rep M)) (m : Option H) :
    (T.current w ended m).next = T.current w ended m := by
  cases m <;> rfl

theorem current_clear (w : σ) (ended : List (Ended Req Rep M)) (m : Option H) :
    T.Clear (T.current w ended m) := by
  cases m <;> trivial

/-- An operation of a program that owns what is there. -/
theorem After.lands (hP : P.Lawful) {o : F.Op} {r : F.Ret o} {w w' : σ}
    {ended : List (Ended Req Rep M)} {m : Option H} {K : Own H V N → Prop} (hs : P.sem o w r w')
    (henv : T.env w) (hdisc : ∀ h, P.free w h → D.inv h (P.view w h))
    (hinv : ∀ h, P.free w h → T.inv h (T.told h ended) (P.view w h))
    (h : T.After (T.current w ended m) o r K) :
    K (T.landing w' ended (Discipline.held P m o r) (given P o r)) := by
  unfold After at h
  unfold landing given Discipline.held
  split at h
  next hr =>
      simp only [hr]
      rw [current_congr (fun h _ => (hP.quiet hs hr h).1) fun _ _ => rfl]
      exact h w w' hs henv
  next h₀ hr =>
      obtain ⟨hfree, -, -⟩ := hP.take hs hr
      simp only [hr]
      exact h.2 w w' _ hs henv (hdisc h₀ hfree) (hinv h₀ hfree)
  next h₀ hr =>
      obtain ⟨v, notes, hm, h⟩ := h
      simp only [hr]
      cases m with
      | none => cases hm
      | some h₁ =>
          obtain ⟨rfl, rfl, rfl⟩ := Own.holds.inj hm
          exact h w w' hs henv rfl
  next h₀ hr =>
      obtain ⟨v, notes, hm, h⟩ := h
      simp only [hr]
      cases m with
      | none => cases hm
      | some h₁ =>
          obtain ⟨rfl, rfl, rfl⟩ := Own.holds.inj hm
          exact h w w' hs henv rfl

/-- Who acts on a part, or gives its mutex back, held it. -/
theorem After.holder {o : F.Op} {r : F.Ret o} {w : σ} {ended : List (Ended Req Rep M)}
    {m : Option H} {K : Own H V N → Prop} {h : H}
    (hr : P.role o r = .act h ∨ P.role o r = .give h)
    (ha : T.After (T.current w ended m) o r K) : m = some h := by
  have howns : ∀ {v notes}, T.current w ended m = .holds h v notes → m = some h := by
    intro v notes hm
    cases m with
    | none => cases hm
    | some h₁ => exact congrArg some (Own.holds.inj hm).1
  unfold After at ha
  rcases hr with hr | hr <;> simp only [hr] at ha <;> obtain ⟨v, notes, hm, -⟩ := ha
  · exact howns hm
  · exact howns hm

theorem role_of_given {o : F.Op} {r : F.Ret o} {h : H} (hg : given P o r = some h) :
    P.role o r = .give h := by
  unfold given at hg
  split at hg
  next h₀ hr => rw [hr, Option.some.inj hg]
  next => cases hg

/-- A handle that is free after an operation, and was not given back by it, was free before
and is as it was. -/
theorem After.untouched (hP : P.Lawful) {o : F.Op} {r : F.Ret o} {w w' : σ}
    {ended : List (Ended Req Rep M)} {m : Option H} {K : Own H V N → Prop} {h : H}
    (hs : P.sem o w r w') (htaken : ∀ h, m = some h → ¬P.free w h)
    (ha : T.After (T.current w ended m) o r K) (hne : given P o r ≠ some h) (hf : P.free w' h) :
    P.Same w w' h := by
  cases hr : P.role o r with
  | quiet => exact hP.quiet hs hr h
  | take h₀ =>
      obtain ⟨-, hbusy, hothers⟩ := hP.take hs hr
      exact hothers h fun he => hbusy (he ▸ hf)
  | act h₀ =>
      obtain ⟨hfree, hothers⟩ := hP.act hs hr
      exact hothers h fun he =>
        htaken h₀ (ha.holder (.inl hr)) (hfree.mp (he ▸ hf))
  | give h₀ =>
      refine hP.give hs hr h fun he => hne ?_
      simp only [given, hr, he]

variable (T) in
/-- The invariant of a pool. -/
structure Told (c : Pool F σ Req Rep (Option H)) : Prop where
  env : T.env c.world
  keeps : ∀ th ∈ c.running,
    T.keeps th.prog (T.Closes th.req) (T.current c.world c.ended th.mem)
  inv : ∀ h, P.free c.world h → T.inv h (T.told h c.ended) (P.view c.world h)

variable (T) in
/-- What a step has said of a handle, if anything, fits the part. -/
def Fits (c c' : Pool F σ Req Rep (Option H)) : Prop :=
  ∀ h, T.told h c'.ended = T.told h c.ended ∨ T.inv h (T.told h c'.ended) (P.view c'.world h)

/-- Where a program that keeps the history settles, with the other requests apart from it. -/
theorem told_settle {w : σ} {m gives : Option H} {p : Prog F Rep}
    {pre post : List (Thread F Req Rep (Option H))} {ended : List (Ended Req Rep (Option H))}
    {req : Req} {c : Pool F σ Req Rep (Option H)} (hended : c.ended = ended) (henv : T.env w)
    (hp : T.keeps p (T.Closes req) (T.landing w ended m gives))
    (hgives : ∀ h, gives = some h → m = none)
    (hinv : ∀ h, gives ≠ some h → P.free w h → T.inv h (T.told h ended) (P.view w h))
    (hrest : ∀ th ∈ pre ++ post,
      T.keeps th.prog (T.Closes th.req) (T.current w ended th.mem))
    (hapart : ∀ th ∈ pre ++ post, ∀ h, th.mem = some h → gives ≠ some h) :
    T.Told (Pool.settle w pre post ended req m p) ∧
      T.Fits c (Pool.settle w pre post ended req m p) := by
  subst hended
  cases p with
  | pure rep =>
      -- the note, if there is one, is about the handle that was given back
      have hquiet : ∀ h, gives ≠ some h → T.note h req rep = none := by
        intro h hne
        cases gives with
        | none => cases m <;> exact hp h
        | some h₀ => exact hp.2 h fun he => hne (congrArg some he.symm)
      have hsame : ∀ h, gives ≠ some h →
          T.told h (c.ended ++ [⟨req, m, some rep⟩]) = T.told h c.ended :=
        fun h hne => told_reply_none (hquiet h hne)
      have hgiven : ∀ h, gives = some h →
          T.inv h (T.told h (c.ended ++ [⟨req, m, some rep⟩])) (P.view w h) := by
        rintro h rfl
        rw [told_reply]
        exact hp.1
      refine ⟨⟨henv, fun th hth => ?_, fun h hf => ?_⟩, fun h => ?_⟩
      · show T.keeps _ _ (T.current w (c.ended ++ _) th.mem)
        rw [current_congr (fun _ _ => rfl) fun h hm => hsame h (hapart th hth h hm)]
        exact hrest th hth
      · by_cases he : gives = some h
        · exact hgiven h he
        · show T.inv h (T.told h (c.ended ++ _)) _
          rw [hsame h he]
          exact hinv h he hf
      · by_cases he : gives = some h
        · exact .inr (hgiven h he)
        · exact .inl (hsame h he)
  | op o k =>
      obtain ⟨hclear, hp⟩ := hp
      refine ⟨⟨henv, fun th hth => ?_, fun h hf => ?_⟩, fun h => .inl rfl⟩
      · have hmem : th = ⟨req, m, .op o k⟩ ∨ th ∈ pre ++ post := by
          rcases List.mem_append.mp hth with h | h
          · exact .inr (List.mem_append_left _ h)
          · exact (List.mem_cons.mp h).imp id (List.mem_append_right _)
        rcases hmem with rfl | hth
        · have hnext : (T.landing w c.ended m gives).next = T.current w c.ended m := by
            cases gives with
            | none => exact current_next _ _ m
            | some h => rw [hgives h rfl]; rfl
          refine ⟨current_clear _ _ m, fun r => ?_⟩
          show T.After (T.current w c.ended m).next o r _
          rw [current_next, ← hnext]
          exact hp r
        · exact hrest th hth
      · by_cases he : gives = some h
        · subst he; exact hclear
        · exact hinv h he hf

theorem told_init {w : σ} (henv : T.env w) (hinv : ∀ h, P.free w h → T.inv h [] (P.view w h)) :
    T.Told (⟨w, [], []⟩ : Pool F σ Req Rep (Option H)) :=
  ⟨henv, fun _ hth => (List.not_mem_nil hth).elim, hinv⟩

variable {S : Server F σ Req Rep}

/-- One step of a pool whose handlers keep the history. -/
theorem told_step (hD : D.Obeys S)
    (hT : ∀ req, S.accepts req → T.keeps (S.handler req) (T.Closes req) .free)
    {c c' : Pool F σ Req Rep (Option H)} (hg : D.Guarded c) (hc : T.Told c)
    (hs : Pool.Step S (Discipline.holder P) c c') : T.Told c' ∧ T.Fits c c' := by
  cases hs with
  | @arrive w running ended req hadm =>
      have hp : T.keeps (S.handler req) (T.Closes req) (T.landing w ended none none) := hT req hadm
      refine told_settle rfl hc.env hp nofun (fun h _ => hc.inv h) ?_ fun _ _ _ _ => nofun
      rw [List.append_nil]
      exact hc.keeps
  | @run w w' pre post ended req m o k r hr =>
      rw [hD.sem] at hr
      have hth : (⟨req, m, .op o k⟩ : Thread F Req Rep (Option H)) ∈
          pre ++ ⟨req, m, .op o k⟩ :: post := List.mem_append_cons_self
      have hrest : ∀ th ∈ pre ++ post, th ∈ pre ++ ⟨req, m, .op o k⟩ :: post :=
        fun _ h => Pool.mem_without h
      have halone := List.pairwise_cons.mp
        ((List.pairwise_middle Discipline.Apart.symm).mp hg.alone)
      have hk := Discipline.After.kept hD.lawful hr (hg.taken _ hth) hg.inv (hg.owns _ hth r)
      have hafter := (hc.keeps _ hth).2 r
      rw [current_next] at hafter
      have hother : ∀ th ∈ pre ++ post, ∀ h, th.mem = some h → m ≠ some h := fun th h =>
        fun h' hm hm' => halone.1 th h h' hm' hm
      refine told_settle rfl (T.steady hr hc.env)
        (After.lands hD.lawful hr hc.env hg.inv hc.inv hafter) ?_ ?_ ?_ ?_
      · intro h he
        show Discipline.held P m o r = none
        simp only [Discipline.held, role_of_given he]
      · intro h hne hf
        have hsame := hafter.untouched hD.lawful hr (hg.taken _ hth) hne hf
        rw [hsame.1]
        exact hc.inv h (hsame.2.mp hf)
      · intro th h
        rw [current_congr (fun h' hm => ?_) fun _ _ => rfl]
        · exact hc.keeps th (hrest th h)
        · exact (hk.others h' (hg.taken th (hrest th h) h' hm) (hother th h h' hm)).1
      · exact fun th h h' hm he => hother th h h' hm (hafter.holder (.inr (role_of_given he)))
  | @drop w pre post ended th =>
      have hsub : (pre ++ post).Sublist (pre ++ th :: post) :=
        (List.Sublist.refl pre).append (List.sublist_cons_self _ _)
      refine ⟨⟨hc.env, fun t ht => ?_, fun h hf => ?_⟩, fun h => .inl (told_drop h ended _ _)⟩
      · show T.keeps _ _ (T.current w (ended ++ _) t.mem)
        rw [current_congr (fun _ _ => rfl) fun h _ => told_drop h ended _ _]
        exact hc.keeps t (hsub.subset ht)
      · show T.inv h (T.told h (ended ++ _)) _
        rw [told_drop]
        exact hc.inv h hf

end History

end Effect
