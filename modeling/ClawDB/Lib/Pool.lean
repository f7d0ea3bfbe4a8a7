/-
# `Lib.Pool` — requests served by interleaved programs

A server gives every request a handler program.  Many requests are in progress
at once; a step of the server is one operation of one of them, so that between
two operations of a request any other request may run, arrive or be dropped.
The operations are the only atomic steps.

What is proved about a server is proved in two layers.

* A `Monitor` attaches to every request a memory of what it did and was told,
  and says which operation and which reply each memory permits.  That a handler
  keeps to the monitor (`Conforms`) is a statement about one program, proved
  with `wp`, with no other request in sight.
* The `Board` is the server with the programs erased: requests with memories.
  Its steps do whatever the monitor permits.  Global invariants are proved of
  boards, with no program in sight.

`reachable_board` connects the two: every reachable pool of a conforming server
shows a reachable board.

A reply that follows its last operation without another operation in between is
given in the same step: nothing can come between a critical section and the
reply computed inside it.
-/
import ClawDB.Lib.Prog
import Mathlib.Logic.Relation

namespace Effect

open Prog

/-- A server: a handler for each request, the behaviour of its components, and
the requests it may be sent. -/
structure Server (F : Sig) (σ Req Rep : Type) where
  handler : Req → Prog F Rep
  sem : Rel F σ
  accepts : Req → Prop

/-- What is remembered of a request, and what each memory permits. -/
structure Monitor (F : Sig) (Req Rep M : Type) where
  init : Req → M
  allowed : Req → M → F.Op → Prop
  next : M → (o : F.Op) → F.Ret o → M
  post : Req → M → Rep → Prop

/-- A request in progress. -/
structure Thread (F : Sig) (Req Rep M : Type) where
  req : Req
  mem : M
  prog : Prog F Rep

/-- A request that ended: with a reply, or dropped before it had one. -/
structure Ended (Req Rep M : Type) where
  req : Req
  mem : M
  rep : Option Rep

structure Pool (F : Sig) (σ Req Rep M : Type) where
  world : σ
  running : List (Thread F Req Rep M)
  ended : List (Ended Req Rep M)

/-- The server with its programs erased. -/
structure Board (σ Req Rep M : Type) where
  world : σ
  running : List (Req × M)
  ended : List (Ended Req Rep M)

variable {F : Sig} {σ Req Rep M : Type}

def Monitor.protocol (Mo : Monitor F Req Rep M) (req : Req) : Protocol F M :=
  ⟨Mo.allowed req, Mo.next⟩

/-- The same memory, with no operation forbidden and another condition on the replies. -/
def Monitor.lax (Mo : Monitor F Req Rep M) (post : Req → M → Rep → Prop) :
    Monitor F Req Rep M where
  init := Mo.init
  allowed _ _ _ := True
  next := Mo.next
  post := post

namespace Pool

theorem mem_middle {α : Type} {pre post : List α} {x y : α} :
    y ∈ pre ++ x :: post ↔ y = x ∨ y ∈ pre ++ post :=
  List.perm_middle.mem_iff.trans List.mem_cons

theorem mem_without {α : Type} {pre post : List α} {x y : α} (h : y ∈ pre ++ post) :
    y ∈ pre ++ x :: post :=
  mem_middle.mpr (.inr h)

/-- The pool after a request of position `pre`, `post` has come to `p`: ended if
`p` has nothing left to do, in progress otherwise. -/
def settle (w : σ) (pre post : List (Thread F Req Rep M)) (ended : List (Ended Req Rep M))
    (req : Req) (m : M) : Prog F Rep → Pool F σ Req Rep M
  | .pure a => ⟨w, pre ++ post, ended ++ [⟨req, m, some a⟩]⟩
  | .op o k => ⟨w, pre ++ ⟨req, m, .op o k⟩ :: post, ended⟩

@[simp] theorem settle_world {w : σ} {pre post : List (Thread F Req Rep M)}
    {ended : List (Ended Req Rep M)} {req : Req} {m : M} {p : Prog F Rep} :
    (settle w pre post ended req m p : Pool F σ Req Rep M).world = w := by
  cases p <;> rfl

variable (S : Server F σ Req Rep) (Mo : Monitor F Req Rep M)

inductive Step : Pool F σ Req Rep M → Pool F σ Req Rep M → Prop where
  | arrive {w running ended} (req : Req) : S.accepts req →
      Step ⟨w, running, ended⟩ (settle w running [] ended req (Mo.init req) (S.handler req))
  | run {w w' pre post ended req m o k r} : S.sem o w r w' →
      Step ⟨w, pre ++ ⟨req, m, .op o k⟩ :: post, ended⟩
        (settle w' pre post ended req (Mo.next m o r) (k r))
  | drop {w pre post ended th} :
      Step ⟨w, pre ++ th :: post, ended⟩ ⟨w, pre ++ post, ended ++ [⟨th.req, th.mem, none⟩]⟩

inductive Reachable (init : σ → Prop) : Pool F σ Req Rep M → Prop where
  | init {w : σ} : init w → Reachable init ⟨w, [], []⟩
  | step {c c' : Pool F σ Req Rep M} : Reachable init c → Step S Mo c c' → Reachable init c'

def board (c : Pool F σ Req Rep M) : Board σ Req Rep M :=
  ⟨c.world, c.running.map fun th => (th.req, th.mem), c.ended⟩

end Pool

namespace Board

theorem exists_perm_cons {α : Type} {l : List α} {x : α} (hx : x ∈ l) :
    ∃ l', l.Perm (x :: l') := by
  obtain ⟨pre, post, he⟩ := List.append_of_mem hx
  exact ⟨pre ++ post, he ▸ List.perm_middle⟩

/-- A request put back on the board: in progress, or ended with a reply. -/
def place (w : σ) (pre post : List (Req × M)) (ended : List (Ended Req Rep M))
    (req : Req) (m : M) : Option Rep → Board σ Req Rep M
  | none => ⟨w, pre ++ (req, m) :: post, ended⟩
  | some a => ⟨w, pre ++ post, ended ++ [⟨req, m, some a⟩]⟩

variable (S : Server F σ Req Rep) (Mo : Monitor F Req Rep M)

/-- What becomes of a request whose memory is now `m`: it goes on, and then some
operation is permitted next, or it replies as the monitor permits. -/
def Fate (req : Req) (m : M) : Option Rep → Prop
  | none => ∃ o, Mo.allowed req m o
  | some a => Mo.post req m a

inductive Step : Board σ Req Rep M → Board σ Req Rep M → Prop where
  | arrive {w running ended} (req : Req) (f : Option Rep) : S.accepts req →
      Fate Mo req (Mo.init req) f →
      Step ⟨w, running, ended⟩ (place w running [] ended req (Mo.init req) f)
  | run {w w' pre post ended req m o r} (f : Option Rep) : Mo.allowed req m o →
      S.sem o w r w' → Fate Mo req (Mo.next m o r) f →
      Step ⟨w, pre ++ (req, m) :: post, ended⟩ (place w' pre post ended req (Mo.next m o r) f)
  | drop {w pre post ended req m} :
      Step ⟨w, pre ++ (req, m) :: post, ended⟩ ⟨w, pre ++ post, ended ++ [⟨req, m, none⟩]⟩

inductive Reachable (init : σ → Prop) : Board σ Req Rep M → Prop where
  | init {w : σ} : init w → Reachable init ⟨w, [], []⟩
  | step {b b' : Board σ Req Rep M} : Reachable init b → Step S Mo b b' → Reachable init b'

/-- Every request the board has seen, with its memory. -/
def all (b : Board σ Req Rep M) : List (Req × M) :=
  b.running ++ b.ended.map fun e => (e.req, e.mem)

theorem mem_all_of_ended {b : Board σ Req Rep M} {e : Ended Req Rep M} (he : e ∈ b.ended) :
    (e.req, e.mem) ∈ b.all :=
  List.mem_append_right _ (List.mem_map_of_mem (f := fun e => (e.req, e.mem)) he)

/-- The other requests: those of a board without the one at `pre`, `post`. -/
def others (pre post : List (Req × M)) (ended : List (Ended Req Rep M)) : List (Req × M) :=
  pre ++ post ++ ended.map fun e => (e.req, e.mem)

variable {w : σ} {pre post : List (Req × M)} {ended : List (Ended Req Rep M)} {req : Req} {m : M}

theorem all_at : (⟨w, pre ++ (req, m) :: post, ended⟩ : Board σ Req Rep M).all.Perm
    ((req, m) :: others pre post ended) := by
  simp only [all, others, List.append_assoc, List.cons_append]
  exact List.perm_middle

theorem all_place (f : Option Rep) :
    (place w pre post ended req m f).all.Perm ((req, m) :: others pre post ended) := by
  cases f with
  | none => exact all_at
  | some a =>
      simp only [place, all, others, List.map_append, List.map_cons, List.map_nil,
        ← List.append_assoc]
      exact List.perm_append_comm

theorem all_drop :
    (⟨w, pre ++ post, ended ++ [⟨req, m, none⟩]⟩ : Board σ Req Rep M).all.Perm
      ((req, m) :: others pre post ended) := by
  simp only [all, others, List.map_append, List.map_cons, List.map_nil, ← List.append_assoc]
  exact List.perm_append_comm

@[simp] theorem world_place (f : Option Rep) :
    (place w pre post ended req m f).world = w := by
  cases f <;> rfl

variable {S Mo}

/-- What is recorded of a request that has come to `f`. -/
def record (ended : List (Ended Req Rep M)) (req : Req) (m : M) :
    Option Rep → List (Ended Req Rep M)
  | none => ended
  | some a => ended ++ [⟨req, m, some a⟩]

@[simp] theorem ended_place (f : Option Rep) :
    (place w pre post ended req m f).ended = record ended req m f := by
  cases f <;> rfl

theorem record_eq (ended : List (Ended Req Rep M)) (req : Req) (m : M) (f : Option Rep) :
    ∃ l, record ended req m f = ended ++ l ∧
      ∀ e ∈ l, e.req = req ∧ e.mem = m ∧ ∀ a, e.rep = some a → f = some a := by
  cases f with
  | none => exact ⟨[], (List.append_nil _).symm, fun e he => nomatch he⟩
  | some a =>
      refine ⟨_, rfl, fun e he => ?_⟩
      obtain rfl := List.mem_singleton.mp he
      exact ⟨rfl, rfl, fun a ha => ha⟩

/-- A step adds to the replies, and what it adds the monitor permits: the reply to a request
that has just arrived, or one that follows the operation the step performs. -/
theorem Step.replied {b b' : Board σ Req Rep M} (h : Step S Mo b b') :
    ∃ l, b'.ended = b.ended ++ l ∧ ∀ e ∈ l, ∀ a, e.rep = some a → Mo.post e.req e.mem a ∧
      (e.mem = Mo.init e.req ∨
        ∃ m o r, e.mem = Mo.next m o r ∧ S.sem o b.world r b'.world) := by
  cases h with
  | @arrive w running ended req f _ hf =>
      obtain ⟨l, hl, hrep⟩ := record_eq ended req (Mo.init req) f
      refine ⟨l, by rw [ended_place, hl], fun e he a ha => ?_⟩
      obtain ⟨hreq, hmem, hfate⟩ := hrep e he
      obtain rfl := hfate a ha
      rw [hreq, hmem]
      exact ⟨hf, .inl rfl⟩
  | @run w w' pre post ended req m o r f _ hr hf =>
      obtain ⟨l, hl, hrep⟩ := record_eq ended req (Mo.next m o r) f
      refine ⟨l, by rw [ended_place, hl], fun e he a ha => ?_⟩
      obtain ⟨hreq, hmem, hfate⟩ := hrep e he
      obtain rfl := hfate a ha
      rw [hreq, hmem, world_place]
      exact ⟨hf, .inr ⟨m, o, r, rfl, hr⟩⟩
  | @drop w pre post ended req m =>
      refine ⟨_, rfl, fun e he a ha => ?_⟩
      obtain rfl := List.mem_singleton.mp he
      cases ha

variable {init : σ → Prop}

/-- The induction rule for boards. -/
theorem Reachable.invariant {I : Board σ Req Rep M → Prop} (hinit : ∀ w, init w → I ⟨w, [], []⟩)
    (hstep : ∀ b b', I b → Step S Mo b b' → I b') {b : Board σ Req Rep M}
    (h : Reachable S Mo init b) : I b := by
  induction h with
  | init hw => exact hinit _ hw
  | step _ hs ih => exact hstep _ _ ih hs

/-- A reply was one the monitor permits. -/
theorem Reachable.replied {b : Board σ Req Rep M} (h : Reachable S Mo init b) :
    ∀ e ∈ b.ended, ∀ a, e.rep = some a → Mo.post e.req e.mem a := by
  have hrecord : ∀ {ended : List (Ended Req Rep M)} {req : Req} {m : M} {f : Option Rep},
      (∀ e ∈ ended, ∀ a, e.rep = some a → Mo.post e.req e.mem a) → Fate Mo req m f →
      ∀ e ∈ record ended req m f, ∀ a, e.rep = some a → Mo.post e.req e.mem a := by
    intro ended req m f hended hf e he a ha
    cases f with
    | none => exact hended e he a ha
    | some reply =>
        rcases List.mem_append.mp he with he | he
        · exact hended e he a ha
        · obtain rfl := List.mem_singleton.mp he
          obtain rfl := Option.some.inj ha
          exact hf
  refine h.invariant (I := fun b => ∀ e ∈ b.ended, ∀ a, e.rep = some a → Mo.post e.req e.mem a)
    ?_ ?_
  · intro w _ e he; cases he
  · intro b b' hb hs
    cases hs with
    | arrive req f _ hf => rw [ended_place]; exact hrecord hb hf
    | run f _ _ hf => rw [ended_place]; exact hrecord hb hf
    | drop =>
        intro e he a ha
        rcases List.mem_append.mp he with he | he
        · exact hb e he a ha
        · obtain rfl := List.mem_singleton.mp he
          cases ha

/-- The induction rule for what does not depend on the order of the requests: it is kept
where a request arrives, where one performs an operation, and where one is dropped. -/
theorem Reachable.rule {I : σ → List (Req × M) → List (Ended Req Rep M) → Prop}
    (hperm : ∀ {w l l' ended}, l.Perm l' → I w l ended → I w l' ended)
    (hinit : ∀ w, init w → I w [] [])
    (harrive : ∀ {w l ended req f}, S.accepts req → Fate Mo req (Mo.init req) f → I w l ended →
      I w ((req, Mo.init req) :: l) (record ended req (Mo.init req) f))
    (hrun : ∀ {w w' l ended req m o r f}, S.accepts req → Mo.allowed req m o → S.sem o w r w' →
      Fate Mo req (Mo.next m o r) f → I w ((req, m) :: l) ended →
      I w' ((req, Mo.next m o r) :: l) (record ended req (Mo.next m o r) f))
    (hdrop : ∀ {w l ended req m}, I w l ended → I w l (ended ++ [⟨req, m, none⟩]))
    {b : Board σ Req Rep M} (h : Reachable S Mo init b) :
    (∀ x ∈ b.all, S.accepts x.1) ∧ I b.world b.all b.ended := by
  refine h.invariant (I := fun b => (∀ x ∈ b.all, S.accepts x.1) ∧ I b.world b.all b.ended) ?_ ?_
  · intro w hw
    exact ⟨fun x hx => (nomatch hx), hinit w hw⟩
  · intro b b' hb hs
    obtain ⟨haccepts, hI⟩ := hb
    cases hs with
    | @arrive w running ended req f hadm hf =>
        have hall : ((req, Mo.init req) :: others running [] ended).Perm
            (place w running [] ended req (Mo.init req) f).all := (all_place f).symm
        have hothers : others running [] ended = (⟨w, running, ended⟩ : Board σ Req Rep M).all := by
          simp [others, all]
        rw [hothers] at hall
        refine ⟨?_, ?_⟩
        · intro x hx
          rcases List.mem_cons.mp (hall.mem_iff.mpr hx) with rfl | hx
          · exact hadm
          · exact haccepts x hx
        · rw [world_place, ended_place]
          exact hperm hall (harrive hadm hf hI)
    | @run w w' pre post ended req m o r f hallowed hr hf =>
        have hadm : S.accepts req :=
          haccepts (req, m) (all_at.mem_iff.mpr List.mem_cons_self)
        refine ⟨?_, ?_⟩
        · intro x hx
          rcases List.mem_cons.mp ((all_place f).mem_iff.mp hx) with rfl | hx
          · exact hadm
          · exact haccepts x (all_at.mem_iff.mpr (List.mem_cons_of_mem _ hx))
        · rw [world_place, ended_place]
          exact hperm (all_place f).symm (hrun hadm hallowed hr hf (hperm all_at hI))
    | @drop w pre post ended req m =>
        refine ⟨?_, ?_⟩
        · intro x hx
          exact haccepts x (all_at.mem_iff.mpr (all_drop.mem_iff.mp hx))
        · exact hperm all_drop.symm (hdrop (hperm all_at hI))

/-- The rule for what holds of the components and of each request beside them: an operation
keeps it for the request that performs it, and takes it from no other. -/
theorem Reachable.each {J : σ → Prop} {I : σ → Req × M → Prop} (hinit : ∀ w, init w → J w)
    (harrive : ∀ {w req}, J w → I w (req, Mo.init req))
    (hrun : ∀ {w w' req m o r}, Mo.allowed req m o → S.sem o w r w' → J w → I w (req, m) →
      J w' ∧ I w' (req, Mo.next m o r))
    (hothers : ∀ {w w' req m o r x}, Mo.allowed req m o → S.sem o w r w' → J w → I w x →
      I w' x)
    {b : Board σ Req Rep M} (h : Reachable S Mo init b) :
    J b.world ∧ ∀ x ∈ b.all, I b.world x := by
  refine (h.rule (I := fun w l _ => J w ∧ ∀ x ∈ l, I w x) ?_ ?_ ?_ ?_ ?_).2
  · intro w l l' ended hperm hI
    exact ⟨hI.1, fun x hx => hI.2 x (hperm.mem_iff.mpr hx)⟩
  · intro w hw
    exact ⟨hinit w hw, fun x hx => nomatch hx⟩
  · intro w l ended req f _ _ hI
    exact ⟨hI.1, List.forall_mem_cons.mpr ⟨harrive hI.1, hI.2⟩⟩
  · intro w w' l ended req m o r f _ hallowed hr _ hI
    have hmine := hI.2 (req, m) List.mem_cons_self
    obtain ⟨hJ, hnext⟩ := hrun hallowed hr hI.1 hmine
    refine ⟨hJ, List.forall_mem_cons.mpr ⟨hnext, fun x hx => ?_⟩⟩
    exact hothers hallowed hr hI.1 (hI.2 x (List.mem_cons_of_mem _ hx))
  · intro w l ended req m hI
    exact hI

end Board

/-! ## A conforming server shows a board -/

variable {S : Server F σ Req Rep} {Mo : Monitor F Req Rep M}

/-- Every handler keeps to the monitor, from arrival to reply. -/
def Conforms (S : Server F σ Req Rep) (Mo : Monitor F Req Rep M) : Prop :=
  ∀ req, S.accepts req → (S.handler req).wp (Mo.protocol req) (Mo.post req) (Mo.init req)

namespace Pool

/-- A pool nobody has come to. -/
theorem Reachable.of_empty {init : σ → Prop} {c : Pool F σ Req Rep M} (hworld : init c.world)
    (hrunning : c.running = []) (hended : c.ended = []) : Reachable S Mo init c := by
  obtain ⟨world, running, ended⟩ := c
  obtain rfl : running = [] := hrunning
  obtain rfl : ended = [] := hended
  exact .init hworld

/-- A step changes the components by one operation, or not at all. -/
theorem Step.world {c c' : Pool F σ Req Rep M} (h : Step S Mo c c') :
    c'.world = c.world ∨ ∃ o r, S.sem o c.world r c'.world := by
  cases h with
  | arrive req _ => exact .inl settle_world
  | @run w w' pre post ended req m o k r hr =>
      rw [settle_world]
      exact .inr ⟨o, r, hr⟩
  | drop => exact .inl rfl

/-- What the components have at the start, and every operation keeps, they have always. -/
theorem Reachable.components {init J : σ → Prop} (hinit : ∀ w, init w → J w)
    (hsem : ∀ {o w r w'}, S.sem o w r w' → J w → J w') {c : Pool F σ Req Rep M}
    (hc : Reachable S Mo init c) : J c.world := by
  induction hc with
  | init hw => exact hinit _ hw
  | step _ hs ih =>
      rcases hs.world with he | ⟨o, r, hr⟩
      · rw [he]
        exact ih
      · exact hsem hr ih

theorem Reachable.later {init : σ → Prop} {c c' : Pool F σ Req Rep M}
    (hc : Reachable S Mo init c) (h : Relation.ReflTransGen (Step S Mo) c c') :
    Reachable S Mo init c' := by
  induction h with
  | refl => exact hc
  | tail _ hs ih => exact .step ih hs

/-- Replies are not taken back. -/
theorem Step.ended {c c' : Pool F σ Req Rep M} (h : Step S Mo c c') :
    ∃ l, c'.ended = c.ended ++ l := by
  have hsettle : ∀ (w : σ) (pre post : List (Thread F Req Rep M))
      (ended : List (Ended Req Rep M)) (req : Req) (m : M) (p : Prog F Rep),
      ∃ l, (settle w pre post ended req m p).ended = ended ++ l := by
    intro w pre post ended req m p
    cases p with
    | pure a => exact ⟨_, rfl⟩
    | op o k => exact ⟨[], (List.append_nil _).symm⟩
  cases h with
  | arrive req _ => exact hsettle ..
  | run _ => exact hsettle ..
  | drop => exact ⟨_, rfl⟩

theorem ended_later {c c' : Pool F σ Req Rep M}
    (h : Relation.ReflTransGen (Step S Mo) c c') : ∃ l, c'.ended = c.ended ++ l := by
  induction h with
  | refl => exact ⟨[], (List.append_nil _).symm⟩
  | tail _ hs ih =>
      obtain ⟨l₁, h₁⟩ := ih
      obtain ⟨l₂, h₂⟩ := hs.ended
      exact ⟨l₁ ++ l₂, by rw [h₂, h₁, List.append_assoc]⟩

/-- A thread that still keeps to the monitor, and is not finished. -/
def Thread.Good (Mo : Monitor F Req Rep M) (th : Thread F Req Rep M) : Prop :=
  th.prog.wp (Mo.protocol th.req) (Mo.post th.req) th.mem ∧ ∃ o k, th.prog = .op o k

/-- Where a request settles, its memory has the fate its program gives it. -/
theorem settle_board (w : σ) (pre post : List (Thread F Req Rep M))
    (ended : List (Ended Req Rep M)) {req : Req} {m : M} {p : Prog F Rep}
    (hp : p.wp (Mo.protocol req) (Mo.post req) m) :
    ∃ f, Board.Fate Mo req m f ∧ (settle w pre post ended req m p).board =
      Board.place w (pre.map fun th => (th.req, th.mem)) (post.map fun th => (th.req, th.mem))
        ended req m f := by
  cases p with
  | pure a => exact ⟨some a, hp, by simp [settle, board, Board.place]⟩
  | op o k => exact ⟨none, ⟨o, hp.1⟩, by simp [settle, board, Board.place]⟩

theorem settle_good {w : σ} {pre post : List (Thread F Req Rep M)}
    {ended : List (Ended Req Rep M)} {req : Req} {m : M} {p : Prog F Rep}
    (hrest : ∀ th ∈ pre ++ post, Thread.Good Mo th)
    (hp : p.wp (Mo.protocol req) (Mo.post req) m) :
    ∀ th ∈ (settle w pre post ended req m p).running, Thread.Good Mo th := by
  cases p with
  | pure a => exact hrest
  | op o k =>
      intro th hth
      rcases mem_middle.mp hth with rfl | h
      · exact ⟨hp, o, k, rfl⟩
      · exact hrest th h

/-- One step of a conforming pool is one step of its board. -/
theorem step_board (hS : Conforms S Mo) {c c' : Pool F σ Req Rep M}
    (hc : ∀ th ∈ c.running, Thread.Good Mo th) (h : Step S Mo c c') :
    Board.Step S Mo c.board c'.board ∧ ∀ th ∈ c'.running, Thread.Good Mo th := by
  cases h with
  | @arrive w running ended req hadm =>
      have hp := hS req hadm
      refine ⟨?_, settle_good (by rw [List.append_nil]; exact hc) hp⟩
      obtain ⟨f, hf, hb⟩ := settle_board w running [] ended hp
      rw [hb]
      exact .arrive req f hadm hf
  | @run w w' pre post ended req m o k r hr =>
      have hrest : ∀ th ∈ pre ++ post, Thread.Good Mo th := fun th hth => hc th (mem_without hth)
      have hth : (Prog.op o k).wp (Mo.protocol req) (Mo.post req) m :=
        (hc ⟨req, m, .op o k⟩ List.mem_append_cons_self).1
      have hk : (k r).wp (Mo.protocol req) (Mo.post req) (Mo.next m o r) := hth.2 r
      refine ⟨?_, settle_good hrest hk⟩
      obtain ⟨f, hf, hb⟩ := settle_board w' pre post ended hk
      rw [hb]
      simp only [board, List.map_append, List.map_cons]
      exact .run f hth.1 hr hf
  | @drop w pre post ended th =>
      refine ⟨?_, fun t ht => hc t (mem_without ht)⟩
      simp only [board, List.map_append, List.map_cons]
      exact .drop

/-- The connection of the two layers. -/
theorem reachable_sound (hS : Conforms S Mo) {init : σ → Prop} {c : Pool F σ Req Rep M}
    (h : Reachable S Mo init c) :
    Board.Reachable S Mo init c.board ∧ ∀ th ∈ c.running, Thread.Good Mo th := by
  induction h with
  | init hw => exact ⟨.init hw, by simp⟩
  | step _ hs ih =>
      obtain ⟨hb, hg⟩ := step_board hS ih.2 hs
      exact ⟨.step ih.1 hb, hg⟩

theorem reachable_board (hS : Conforms S Mo) {init : σ → Prop} {c : Pool F σ Req Rep M}
    (h : Reachable S Mo init c) : Board.Reachable S Mo init c.board :=
  (reachable_sound hS h).1

/-- `Board.Step.replied`, for a conforming pool. -/
theorem step_replied (hS : Conforms S Mo) {init : σ → Prop} {c c' : Pool F σ Req Rep M}
    (h : Reachable S Mo init c) (hs : Step S Mo c c') :
    ∃ l, c'.ended = c.ended ++ l ∧ ∀ e ∈ l, ∀ a, e.rep = some a → Mo.post e.req e.mem a ∧
      (e.mem = Mo.init e.req ∨
        ∃ m o r, e.mem = Mo.next m o r ∧ S.sem o c.world r c'.world) :=
  (step_board hS (reachable_sound hS h).2 hs).1.replied

/-- What is permitted has no part in what a pool can come to. -/
theorem Reachable.lax {init : σ → Prop} {c : Pool F σ Req Rep M} (h : Reachable S Mo init c)
    (post : Req → M → Rep → Prop) : Reachable S (Mo.lax post) init c := by
  induction h with
  | init hw => exact .init hw
  | step _ hs ih =>
      refine .step ih ?_
      cases hs with
      | arrive req hadm => exact .arrive req hadm
      | run hr => exact .run hr
      | drop => exact .drop

/-- A condition on the replies that the handlers meet, whatever they ask, is met by every
reply. -/
theorem Reachable.replies {init : σ → Prop} {c : Pool F σ Req Rep M}
    (h : Reachable S Mo init c) {post : Req → M → Rep → Prop}
    (hpost : Conforms S (Mo.lax post)) : ∀ e ∈ c.ended, ∀ a, e.rep = some a → post e.req e.mem a :=
  (reachable_board hpost (h.lax post)).replied

/-- The next operation of the request takes the components from `w` to `w'`. -/
def Thread.Performs (S : Server F σ Req Rep) (th : Thread F Req Rep M) (w w' : σ) : Prop :=
  ∃ o k r, th.prog = .op o k ∧ S.sem o w r w'

/-- A step that changes the components is the next operation of one request, and the monitor
permits it. -/
theorem step_op (hS : Conforms S Mo) {init : σ → Prop} {c c' : Pool F σ Req Rep M}
    (h : Reachable S Mo init c) (hs : Step S Mo c c') : c'.world = c.world ∨
      ∃ th ∈ c.running, ∃ o k r, th.prog = .op o k ∧ Mo.allowed th.req th.mem o ∧
        S.sem o c.world r c'.world := by
  have hgood := (reachable_sound hS h).2
  cases hs with
  | arrive req _ => exact .inl settle_world
  | @run w w' pre post ended req m o k r hr =>
      have hth : (⟨req, m, .op o k⟩ : Thread F Req Rep M) ∈ pre ++ ⟨req, m, .op o k⟩ :: post :=
        List.mem_append_cons_self
      have hwp : (Prog.op o k).wp (Mo.protocol req) (Mo.post req) m := (hgood _ hth).1
      rw [settle_world]
      exact .inr ⟨_, hth, o, k, r, rfl, hwp.1, hr⟩
  | drop => exact .inl rfl

/-! ## Runs in which a condition holds

A condition on a step is one on the pool before it and the operation performed. -/

variable (S Mo) in
/-- A step, with what is asked of its operation. -/
inductive StepWhen (ok : σ → List (Req × M) → F.Op → Prop) :
    Pool F σ Req Rep M → Pool F σ Req Rep M → Prop where
  | arrive {w running ended} (req : Req) : S.accepts req →
      StepWhen ok ⟨w, running, ended⟩
        (settle w running [] ended req (Mo.init req) (S.handler req))
  | run {w w' pre post ended req m o k r} :
      ok w ((pre ++ ⟨req, m, .op o k⟩ :: post).map fun th => (th.req, th.mem)) o →
      S.sem o w r w' →
      StepWhen ok ⟨w, pre ++ ⟨req, m, .op o k⟩ :: post, ended⟩
        (settle w' pre post ended req (Mo.next m o r) (k r))
  | drop {w pre post ended th} :
      StepWhen ok ⟨w, pre ++ th :: post, ended⟩
        ⟨w, pre ++ post, ended ++ [⟨th.req, th.mem, none⟩]⟩

variable (S Mo) in
/-- A run of such steps. -/
abbrev RunWhen (ok : σ → List (Req × M) → F.Op → Prop) :
    Pool F σ Req Rep M → Pool F σ Req Rep M → Prop :=
  Relation.ReflTransGen (StepWhen S Mo ok)

section When

variable {ok : σ → List (Req × M) → F.Op → Prop} {c c' : Pool F σ Req Rep M}

theorem StepWhen.step (h : StepWhen S Mo ok c c') : Step S Mo c c' := by
  cases h with
  | arrive req hadm => exact .arrive req hadm
  | run _ hr => exact .run hr
  | drop => exact .drop

theorem RunWhen.reachable {init : σ → Prop} (h : RunWhen S Mo ok c c')
    (hc : Reachable S Mo init c) : Reachable S Mo init c' :=
  hc.later (Relation.ReflTransGen.mono (fun _ _ hs => hs.step) _ _ h)

/-- A step that changes the components performs an operation that the monitor permits and that
is as asked. -/
theorem StepWhen.op (hS : Conforms S Mo) {init : σ → Prop} (hc : Reachable S Mo init c)
    (h : StepWhen S Mo ok c c') : c'.world = c.world ∨
      ∃ x ∈ c.board.running, ∃ o r, ok c.world c.board.running o ∧ Mo.allowed x.1 x.2 o ∧
        S.sem o c.world r c'.world := by
  have hgood := (reachable_sound hS hc).2
  cases h with
  | arrive req _ => exact .inl settle_world
  | @run w w' pre post ended req m o k r hok hr =>
      have hth : (⟨req, m, .op o k⟩ : Thread F Req Rep M) ∈ pre ++ ⟨req, m, .op o k⟩ :: post :=
        List.mem_append_cons_self
      have hwp : (Prog.op o k).wp (Mo.protocol req) (Mo.post req) m := (hgood _ hth).1
      rw [settle_world]
      exact .inr ⟨_, List.mem_map_of_mem hth, o, r, hok, hwp.1, hr⟩
  | drop => exact .inl rfl

/-- The induction rule for what holds of the requests in progress, in any order, and of those
that have ended: it is kept where a request arrives, where one performs an operation that is as
asked, where one replies, and where one is dropped. -/
theorem RunWhen.induct (hS : Conforms S Mo) {init : σ → Prop} (h : RunWhen S Mo ok c c')
    (hc : Reachable S Mo init c) {I : σ → List (Req × M) → List (Ended Req Rep M) → Prop}
    (hok : ∀ {w l l' o}, l.Perm l' → ok w l o → ok w l' o)
    (hperm : ∀ {w l l' ended}, l.Perm l' → I w l ended → I w l' ended)
    (harrive : ∀ {w l ended req}, I w l ended → I w ((req, Mo.init req) :: l) ended)
    (hrun : ∀ {w w' l ended req m o r}, ok w ((req, m) :: l) o → Mo.allowed req m o →
      S.sem o w r w' → I w ((req, m) :: l) ended → I w' ((req, Mo.next m o r) :: l) ended)
    (hreply : ∀ {w l ended req m a}, Mo.post req m a → I w ((req, m) :: l) ended →
      I w l (ended ++ [⟨req, m, some a⟩]))
    (hdrop : ∀ {w l ended req m}, I w ((req, m) :: l) ended → I w l (ended ++ [⟨req, m, none⟩]))
    (hI : I c.world c.board.running c.ended) : I c'.world c'.board.running c'.ended := by
  have hsettle : ∀ {w : σ} {pre post : List (Thread F Req Rep M)}
      {ended : List (Ended Req Rep M)} {req : Req} {m : M} {p : Prog F Rep},
      p.wp (Mo.protocol req) (Mo.post req) m →
      I w ((req, m) :: (pre ++ post).map fun th => (th.req, th.mem)) ended →
        I w (settle w pre post ended req m p).board.running
          (settle w pre post ended req m p).ended := by
    intro w pre post ended req m p hp hI
    cases p with
    | pure a => exact hreply hp hI
    | op o k =>
        refine hperm ?_ hI
        simp only [settle, board, List.map_append, List.map_cons]
        exact List.perm_middle.symm
  induction h with
  | refl => exact hI
  | @tail c₁ c₂ hrest hs ih =>
      have hreached : Reachable S Mo init c₁ := RunWhen.reachable hrest hc
      have hgood := (reachable_sound hS hreached).2
      cases hs with
      | @arrive w running ended req hadm =>
          rw [settle_world]
          refine hsettle (hS req hadm) (harrive ?_)
          rw [List.append_nil]
          exact ih
      | @run w w' pre post ended req m o k r hasked hr =>
          have hth : (⟨req, m, .op o k⟩ : Thread F Req Rep M) ∈
              pre ++ ⟨req, m, .op o k⟩ :: post :=
            List.mem_append_cons_self
          have hwp : (Prog.op o k).wp (Mo.protocol req) (Mo.post req) m := (hgood _ hth).1
          have hfront : ((pre ++ (⟨req, m, .op o k⟩ : Thread F Req Rep M) :: post).map
              fun th => (th.req, th.mem)).Perm
                ((req, m) :: (pre ++ post).map fun th => (th.req, th.mem)) := by
            simp only [List.map_append, List.map_cons]
            exact List.perm_middle
          rw [settle_world]
          exact hsettle (hwp.2 r) (hrun (hok hfront hasked) hwp.1 hr (hperm hfront ih))
      | @drop w pre post ended th =>
          refine hdrop (hperm ?_ ih)
          simp only [board, List.map_append, List.map_cons]
          exact List.perm_middle

/-- The rule for what holds of the requests in progress alone. -/
theorem RunWhen.rule (hS : Conforms S Mo) {init : σ → Prop} (h : RunWhen S Mo ok c c')
    (hc : Reachable S Mo init c) {I : σ → List (Req × M) → Prop}
    (hok : ∀ {w l l' o}, l.Perm l' → ok w l o → ok w l' o)
    (hperm : ∀ {w l l'}, l.Perm l' → I w l → I w l')
    (harrive : ∀ {w l req}, I w l → I w ((req, Mo.init req) :: l))
    (hrun : ∀ {w w' l req m o r}, ok w ((req, m) :: l) o → Mo.allowed req m o →
      S.sem o w r w' → I w ((req, m) :: l) → I w' ((req, Mo.next m o r) :: l))
    (hgone : ∀ {w l x}, I w (x :: l) → I w l) (hI : I c.world c.board.running) :
    I c'.world c'.board.running :=
  RunWhen.induct hS h hc (I := fun w l _ => I w l) hok hperm harrive hrun (fun _ => hgone) hgone hI

end When

/-! ## The operation a reply follows

A reply is given in the step of the last operation before it, so what that operation is
decides what the world looks like when the reply is given. -/

/-- A result with `ok` follows the operation `last`; `before` is the operation just performed. -/
def EndsWith {α : Type} (ok : α → Prop) (last : F.Op) : Option F.Op → Prog F α → Prop
  | before, .pure a => ok a → before = some last
  | _, .op o k => ∀ r, EndsWith ok last (some o) (k r)

theorem EndsWith.bind {α β : Type} {ok : β → Prop} {last : F.Op} {p : Prog F α}
    {f : α → Prog F β} (hf : ∀ a before, EndsWith ok last before (f a)) (before : Option F.Op) :
    EndsWith ok last before (p >>= f) := by
  induction p generalizing before with
  | pure a => exact hf a before
  | op o k ih => exact fun r => ih r (some o)

theorem EndsWith.map {α β : Type} {ok : β → Prop} {last : F.Op} {p : Prog F α} {f : α → β}
    {before : Option F.Op} (h : EndsWith (fun a => ok (f a)) last before p) :
    EndsWith ok last before (f <$> p) := by
  rw [← bind_pure_comp]
  induction p generalizing before with
  | pure a => exact h
  | op o k ih => exact fun r => ih r (h r)

theorem EndsWith.of_never {α : Type} {ok : α → Prop} {last : F.Op} (hok : ∀ a, ¬ok a)
    (p : Prog F α) (before : Option F.Op) : EndsWith ok last before p := by
  induction p generalizing before with
  | pure a => exact fun h => absurd h (hok a)
  | op o k ih => exact fun r => ih r (some o)

section Replies

variable {ok : Req → Rep → Prop} {last : Req → F.Op}

/-- The replies a step gives. -/
theorem ended_settle (w : σ) (pre post : List (Thread F Req Rep M))
    (ended : List (Ended Req Rep M)) {req : Req} (m : M) {p : Prog F Rep}
    {before : Option F.Op} (hp : EndsWith (ok req) (last req) before p) :
    ∃ l, (settle w pre post ended req m p).ended = ended ++ l ∧ l.length ≤ 1 ∧
      ∀ e ∈ l, e.req = req ∧ ∀ a, e.rep = some a → ok e.req a → before = some (last e.req) := by
  cases p with
  | pure a =>
      refine ⟨[⟨req, m, some a⟩], rfl, Nat.le_refl 1, fun e he => ?_⟩
      obtain rfl := List.mem_singleton.mp he
      refine ⟨rfl, fun a' ha hok => ?_⟩
      obtain rfl := Option.some.inj ha
      exact hp hok
  | op o k => exact ⟨[], (List.append_nil _).symm, Nat.zero_le 1, fun e he => nomatch he⟩

theorem running_settle {w : σ} {pre post : List (Thread F Req Rep M)}
    {ended : List (Ended Req Rep M)} {req : Req} {m : M} {p : Prog F Rep}
    {before : Option F.Op} (hp : EndsWith (ok req) (last req) before p)
    (hrest : ∀ th ∈ pre ++ post, EndsWith (ok th.req) (last th.req) none th.prog) :
    ∀ th ∈ (settle w pre post ended req m p).running,
      EndsWith (ok th.req) (last th.req) none th.prog := by
  cases p with
  | pure a => exact hrest
  | op o k =>
      intro th hth
      rcases mem_middle.mp hth with rfl | h
      · exact hp
      · exact hrest th h

/-- A reply with `ok` is given in a step that performs the operation it must follow. -/
theorem step_replies
    (hS : ∀ req, S.accepts req → EndsWith (ok req) (last req) none (S.handler req))
    {c c' : Pool F σ Req Rep M}
    (hc : ∀ th ∈ c.running, EndsWith (ok th.req) (last th.req) none th.prog)
    (h : Step S Mo c c') :
    (∀ th ∈ c'.running, EndsWith (ok th.req) (last th.req) none th.prog) ∧
      ∃ l, c'.ended = c.ended ++ l ∧ l.length ≤ 1 ∧
        ∀ e ∈ l, ∀ a, e.rep = some a → ok e.req a → ∃ r, S.sem (last e.req) c.world r c'.world := by
  cases h with
  | @arrive w running ended req hadm =>
      have hp := hS req hadm
      refine ⟨running_settle hp (by rw [List.append_nil]; exact hc), ?_⟩
      obtain ⟨l, hl, hlen, hrep⟩ := ended_settle w running [] ended (Mo.init req) hp
      exact ⟨l, hl, hlen, fun e he a ha hok => nomatch (hrep e he).2 a ha hok⟩
  | @run w w' pre post ended req m o k r hr =>
      have hth : EndsWith (ok req) (last req) none (.op o k) :=
        hc ⟨req, m, .op o k⟩ List.mem_append_cons_self
      have hp : EndsWith (ok req) (last req) (some o) (k r) := hth r
      have hrest : ∀ th ∈ pre ++ post, EndsWith (ok th.req) (last th.req) none th.prog :=
        fun th hth => hc th (mem_without hth)
      refine ⟨running_settle hp hrest, ?_⟩
      obtain ⟨l, hl, hlen, hrep⟩ := ended_settle w' pre post ended (Mo.next m o r) hp
      refine ⟨l, hl, hlen, fun e he a ha hok => ?_⟩
      have hlast : o = last e.req := Option.some.inj ((hrep e he).2 a ha hok)
      subst hlast
      rw [settle_world]
      exact ⟨r, hr⟩
  | @drop w pre post ended th =>
      refine ⟨fun t ht => hc t (mem_without ht), [⟨th.req, th.mem, none⟩], rfl, Nat.le_refl 1, ?_⟩
      intro e he a ha
      obtain rfl := List.mem_singleton.mp he
      cases ha

end Replies

/-! ## Running a schedule

Against a handler the server is a function of its schedule. -/

/-- One scheduling decision; a request is named by its position. -/
inductive Act (Req : Type) where
  | arrive (req : Req)
  | run (i : Nat)
  | drop (i : Nat)

variable (S Mo) in
def act (h : Handler F σ) (c : Pool F σ Req Rep M) : Act Req → Pool F σ Req Rep M
  | .arrive req => settle c.world c.running [] c.ended req (Mo.init req) (S.handler req)
  | .run i =>
      match c.running[i]? with
      | some ⟨req, m, .op o k⟩ =>
          settle (h o c.world).2 (c.running.take i) (c.running.drop (i + 1)) c.ended req
            (Mo.next m o (h o c.world).1) (k (h o c.world).1)
      | _ => c
  | .drop i =>
      match c.running[i]? with
      | some th => ⟨c.world, c.running.take i ++ c.running.drop (i + 1),
          c.ended ++ [⟨th.req, th.mem, none⟩]⟩
      | none => c

variable (S Mo) in
def acts (h : Handler F σ) (c : Pool F σ Req Rep M) (as : List (Act Req)) :
    Pool F σ Req Rep M :=
  as.foldl (act S Mo h) c

/-- One request after another, each with `n` turns. -/
def oneByOne (n : Nat) (reqs : List Req) : List (Act Req) :=
  reqs.flatMap fun req => .arrive req :: List.replicate n (.run 0)

theorem mem_of_oneByOne {n : Nat} {reqs : List Req} {req : Req}
    (h : .arrive req ∈ oneByOne n reqs) : req ∈ reqs := by
  obtain ⟨req', hreq, hm⟩ := List.mem_flatMap.mp h
  rcases List.mem_cons.mp hm with he | hm
  · exact Act.arrive.inj he ▸ hreq
  · cases List.eq_of_mem_replicate hm

theorem split_at {α : Type} {l : List α} {i : Nat} {a : α} (h : l[i]? = some a) :
    l = l.take i ++ a :: l.drop (i + 1) := by
  obtain ⟨hi, rfl⟩ := List.getElem?_eq_some_iff.mp h
  rw [List.getElem_cons_drop hi, List.take_append_drop]

theorem act_step {h : Handler F σ} (hR : h.Refines S.sem) (c : Pool F σ Req Rep M) (a : Act Req)
    (ha : ∀ req, a = .arrive req → S.accepts req) :
    act S Mo h c a = c ∨ Step S Mo c (act S Mo h c a) := by
  obtain ⟨w, running, ended⟩ := c
  cases a with
  | arrive req => exact .inr (.arrive req (ha req rfl))
  | run i =>
      simp only [act]
      split
      next req m o k hi =>
          refine .inr ?_
          conv => lhs; rw [split_at hi]
          exact .run (hR o w)
      next => exact .inl rfl
  | drop i =>
      simp only [act]
      split
      next th hi =>
          refine .inr ?_
          conv => lhs; rw [split_at hi]
          exact .drop
      next => exact .inl rfl

/-- The pool a schedule leads to comes after the one it starts from. -/
theorem acts_later {h : Handler F σ} (hR : h.Refines S.sem) (as : List (Act Req))
    (has : ∀ req, .arrive req ∈ as → S.accepts req) (c : Pool F σ Req Rep M) :
    Relation.ReflTransGen (Step S Mo) c (acts S Mo h c as) := by
  induction as generalizing c with
  | nil => exact .refl
  | cons a as ih =>
      have hrest : Relation.ReflTransGen (Step S Mo) (act S Mo h c a) (acts S Mo h c (a :: as)) :=
        ih (fun req hr => has req (List.mem_cons_of_mem _ hr)) _
      have hact : act S Mo h c a = c ∨ Step S Mo c (act S Mo h c a) :=
        act_step hR c a fun req hr => has req (hr ▸ List.mem_cons_self)
      rcases hact with he | hs
      · rwa [he] at hrest
      · exact .head hs hrest

/-- The pool a schedule leads to is reachable. -/
theorem acts_reachable {h : Handler F σ} (hR : h.Refines S.sem) {init : σ → Prop}
    (as : List (Act Req)) (has : ∀ req, .arrive req ∈ as → S.accepts req)
    {c : Pool F σ Req Rep M} (hc : Reachable S Mo init c) :
    Reachable S Mo init (acts S Mo h c as) :=
  hc.later (acts_later hR as has c)

/-! ## Schedules of components that may make a request wait -/

variable (S Mo) in
/-- As `act`, but an operation that is not `ready` is not performed. -/
def turn (ready : F.Op → σ → Bool) (h : Handler F σ) (c : Pool F σ Req Rep M) :
    Act Req → Pool F σ Req Rep M
  | .run i =>
      match c.running[i]? with
      | some ⟨_, _, .op o _⟩ => if ready o c.world then act S Mo h c (.run i) else c
      | _ => c
  | a => act S Mo h c a

variable (S Mo) in
def turns (ready : F.Op → σ → Bool) (h : Handler F σ) (c : Pool F σ Req Rep M)
    (as : List (Act Req)) : Pool F σ Req Rep M :=
  as.foldl (turn S Mo ready h) c

/-- `h` replies only what `R` allows, where it is ready. -/
def RefinesWhen (ready : F.Op → σ → Bool) (h : Handler F σ) (R : Rel F σ) : Prop :=
  ∀ o s, ready o s = true → R o s (h o s).1 (h o s).2

theorem turn_step {ready : F.Op → σ → Bool} {h : Handler F σ} (hR : RefinesWhen ready h S.sem)
    (hS : ∀ req, S.accepts req) (c : Pool F σ Req Rep M) (a : Act Req) :
    turn S Mo ready h c a = c ∨ Step S Mo c (turn S Mo ready h c a) := by
  obtain ⟨w, running, ended⟩ := c
  cases a with
  | arrive req => exact .inr (.arrive req (hS req))
  | run i =>
      simp only [turn]
      split
      next req m o k hi =>
          split
          next hready =>
              simp only [act, hi]
              refine .inr ?_
              conv => lhs; rw [split_at hi]
              exact .run (hR o w hready)
          next => exact .inl rfl
      next => exact .inl rfl
  | drop i =>
      simp only [turn, act]
      split
      next th hi =>
          refine .inr ?_
          conv => lhs; rw [split_at hi]
          exact .drop
      next => exact .inl rfl

/-- The pool a schedule leads to comes after the one it starts from. -/
theorem turns_later {ready : F.Op → σ → Bool} {h : Handler F σ}
    (hR : RefinesWhen ready h S.sem) (hS : ∀ req, S.accepts req) (as : List (Act Req))
    (c : Pool F σ Req Rep M) : Relation.ReflTransGen (Step S Mo) c (turns S Mo ready h c as) := by
  induction as generalizing c with
  | nil => exact .refl
  | cons a as ih =>
      have hturn : turn S Mo ready h c a = c ∨ Step S Mo c (turn S Mo ready h c a) :=
        turn_step hR hS c a
      rcases hturn with he | hs
      · have hrest := ih (turn S Mo ready h c a)
        rw [he] at hrest
        show Relation.ReflTransGen _ c (turns S Mo ready h (turn S Mo ready h c a) as)
        rw [he]
        exact hrest
      · exact .head hs (ih _)

variable (S Mo) in
/-- Every operation a schedule performs passes the test `p`. -/
def along (ready : F.Op → σ → Bool) (h : Handler F σ) (p : σ → List (Req × M) → F.Op → Bool) :
    Pool F σ Req Rep M → List (Act Req) → Bool
  | _, [] => true
  | c, a :: as =>
      (match a with
        | .run i =>
            match c.running[i]? with
            | some ⟨_, _, .op o _⟩ => p c.world c.board.running o
            | _ => true
        | _ => true) && along ready h p (turn S Mo ready h c a) as

theorem turn_stepWhen {ready : F.Op → σ → Bool} {h : Handler F σ}
    (hR : RefinesWhen ready h S.sem) (hS : ∀ req, S.accepts req)
    {p : σ → List (Req × M) → F.Op → Bool} {a : Act Req} {as : List (Act Req)}
    {c : Pool F σ Req Rep M} (hp : along S Mo ready h p c (a :: as) = true) :
    turn S Mo ready h c a = c ∨
      StepWhen S Mo (fun w l o => p w l o = true) c (turn S Mo ready h c a) := by
  obtain ⟨w, running, ended⟩ := c
  obtain ⟨hhead, -⟩ := Bool.and_eq_true_iff.mp hp
  cases a with
  | arrive req => exact .inr (.arrive req (hS req))
  | run i =>
      simp only [turn]
      split
      next req m o k hi =>
          split
          next hready =>
              simp only [hi] at hhead
              simp only [act, hi]
              have hsplit := split_at hi
              refine .inr ?_
              conv => lhs; rw [hsplit]
              refine .run ?_ (hR o w hready)
              rw [← hsplit]
              exact hhead
          next => exact .inl rfl
      next => exact .inl rfl
  | drop i =>
      simp only [turn, act]
      split
      next th hi =>
          refine .inr ?_
          conv => lhs; rw [split_at hi]
          exact .drop
      next => exact .inl rfl

/-- As `turns_later`, for a schedule all of whose operations pass the test. -/
theorem turns_along {ready : F.Op → σ → Bool} {h : Handler F σ}
    (hR : RefinesWhen ready h S.sem) (hS : ∀ req, S.accepts req)
    {p : σ → List (Req × M) → F.Op → Bool} {as : List (Act Req)} {c : Pool F σ Req Rep M}
    (hp : along S Mo ready h p c as = true) :
    RunWhen S Mo (fun w l o => p w l o = true) c (turns S Mo ready h c as) := by
  induction as generalizing c with
  | nil => exact .refl
  | cons a as ih =>
      have hrest := ih (Bool.and_eq_true_iff.mp hp).2
      rcases turn_stepWhen hR hS hp with he | hs
      · show RunWhen S Mo _ c (turns S Mo ready h (turn S Mo ready h c a) as)
        rw [he] at hrest ⊢
        exact hrest
      · exact .head hs hrest

end Pool

end Effect
