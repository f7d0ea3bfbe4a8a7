/-
# `ClawDB.Server.Endpoints` — from the text of a path to a pattern of the router

The client's URL parser and the server's router read the path of a request between them: the
first makes segments of its text, the second looks for the pattern that they match and decodes
what its parameters capture.

The address of the server is left out: the text begins behind the slash after it.
-/
import ClawDB.Lib.Url
import ClawDB.Cli.Client

namespace ClawDB.Http

open Url (Bytes)

/-! ## The router -/

inductive Part where
  | lit (s : String)
  | param
deriving DecidableEq

abbrev Pattern := List Part

/-- A literal is compared with the path as it is; a parameter is one segment, not empty. -/
def Pattern.captures : Pattern → List Bytes → Option (List Bytes)
  | [], [] => some []
  | .lit s :: pattern, segment :: path =>
      if segment = Url.bytes s then captures pattern path else none
  | .param :: pattern, segment :: path =>
      if segment = [] then none else (captures pattern path).map (segment :: ·)
  | _, _ => none

structure Endpoint where
  pattern : Pattern
  methods : List Cli.Method

/-- The routes, a literal before the parameter in its place. -/
def endpoints : List Endpoint :=
  [⟨[.lit "v1", .lit "health"], [.get]⟩,
    ⟨[.lit "v1", .lit "ready"], [.get]⟩,
    ⟨[.lit "v1", .lit "sessions"], [.post]⟩,
    ⟨[.lit "v1", .lit "metrics"], [.get]⟩,
    ⟨[.lit "v1", .lit "sessions", .lit "me"], [.get]⟩,
    ⟨[.lit "v1", .lit "sessions", .param], [.delete]⟩,
    ⟨[.lit "v1", .lit "sessions", .lit "active", .lit "count"], [.get]⟩,
    ⟨[.lit "v1", .lit "memories"], [.post, .get]⟩,
    ⟨[.lit "v1", .lit "memories", .lit "search"], [.get]⟩,
    ⟨[.lit "v1", .lit "memories", .param], [.get, .patch, .delete]⟩,
    ⟨[.lit "v1", .lit "branches"], [.post, .get]⟩,
    ⟨[.lit "v1", .lit "branches", .lit "trunk"], [.get]⟩,
    ⟨[.lit "v1", .lit "branches", .lit "by-name", .param], [.get]⟩,
    ⟨[.lit "v1", .lit "branches", .param, .lit "merge"], [.post]⟩,
    ⟨[.lit "v1", .lit "branches", .param, .lit "diff"], [.get]⟩,
    ⟨[.lit "v1", .lit "branches", .param, .lit "archive"], [.post]⟩,
    ⟨[.lit "v1", .lit "branches", .param], [.get, .delete]⟩,
    ⟨[.lit "v1", .lit "sync"], [.post]⟩,
    ⟨[.lit "v1", .lit "sync", .lit "push"], [.post]⟩,
    ⟨[.lit "v1", .lit "sync", .lit "pull"], [.post]⟩,
    ⟨[.lit "v1", .lit "sync", .lit "reconcile"], [.post]⟩,
    ⟨[.lit "v1", .lit "sync", .lit "status"], [.get]⟩,
    ⟨[.lit "v1", .lit "reflect"], [.post]⟩,
    ⟨[.lit "v1", .lit "reflect", .lit "jobs"], [.get]⟩,
    ⟨[.lit "v1", .lit "reflect", .lit "jobs", .param], [.get]⟩,
    ⟨[.lit "v1", .lit "reflect", .lit "facts", .param], [.get]⟩,
    ⟨[.lit "v1", .lit "reflect", .lit "preferences", .param], [.get]⟩,
    ⟨[.lit "v1", .lit "reflect", .lit "contradictions", .param], [.get]⟩,
    ⟨[.lit "v1", .lit "reflect", .lit "contradictions", .param, .param, .lit "resolve"], [.post]⟩,
    ⟨[.lit "v1", .lit "tx"], [.post]⟩,
    ⟨[.lit "v1", .lit "tx", .param, .lit "memories"], [.post]⟩,
    ⟨[.lit "v1", .lit "tx", .param, .lit "memories", .lit "typed"], [.post]⟩,
    ⟨[.lit "v1", .lit "tx", .param, .lit "commit"], [.post]⟩,
    ⟨[.lit "v1", .lit "tx", .param, .lit "rollback"], [.post]⟩]

/-- The pattern that a path matches, and what it captures: the first that there is. -/
def matched : List Endpoint → List Bytes → Option (Endpoint × List Bytes)
  | [], _ => none
  | endpoint :: rest, path =>
      match endpoint.pattern.captures path with
      | some captured => some (endpoint, captured)
      | none => matched rest path

/-- `Path<String>`, or a tuple of them. -/
def pathParams (captured : List Bytes) : Option (List String) :=
  captured.mapM fun segment => Url.text (Url.decode segment)

/-- The handler that a request gets, by its pattern, and the parameters it is given. -/
def arrives (method : Cli.Method) (input : Bytes) : Option (Pattern × List String) :=
  match matched endpoints (Url.segments input) with
  | some (endpoint, captured) =>
      if method ∈ endpoint.methods then
        (pathParams captured).map fun params => (endpoint.pattern, params)
      else
        none
  | none => none

/-- The handler is there, but a parameter is no text. -/
def unread (method : Cli.Method) (input : Bytes) : Bool :=
  match matched endpoints (Url.segments input) with
  | some (endpoint, captured) =>
      decide (method ∈ endpoint.methods) && (pathParams captured).isNone
  | none => false

/-- The text of a path, from behind its first slash. -/
def behind (path : String) : Bytes := (Url.bytes path).drop 1

/-! ## What a path arrives at -/

theorem bytes_append (s t : String) : Url.bytes (s ++ t) = Url.bytes s ++ Url.bytes t := by
  unfold Url.bytes
  rw [String.toByteArray_append, ByteArray.data_append, Array.toList_append]

theorem bytes_inj {s t : String} : Url.bytes s = Url.bytes t ↔ s = t := by
  constructor
  · intro h
    have hs : Url.text (Url.bytes s) = some s := Url.text_eq_some.mpr rfl
    rw [h, Url.text_eq_some.mpr rfl] at hs
    exact (Option.some.inj hs).symm
  · rintro rfl
    rfl

theorem bytes_eq_nil {s : String} : Url.bytes s = [] ↔ s = "" := bytes_inj (t := "")

theorem pathParams_cons {segment : Bytes} {captured : List Bytes} {params : List String}
    (h : pathParams (segment :: captured) = some params) :
    ∃ a args, Url.text (Url.decode segment) = some a ∧ pathParams captured = some args ∧
      params = a :: args := by
  unfold pathParams at h
  rw [List.mapM_cons] at h
  obtain ⟨a, ha, h⟩ := Option.bind_eq_some_iff.mp h
  obtain ⟨args, hargs, h⟩ := Option.bind_eq_some_iff.mp h
  exact ⟨a, args, ha, hargs, (Option.some.inj h).symm⟩

/-- Parameters that hold no percent-encoding are read as they were. -/
theorem pathParams_encode {args : List String} (h : ∀ a ∈ args, Url.Literal (Url.bytes a)) :
    pathParams (args.map fun a => Url.encode (Url.bytes a)) = some args := by
  induction args with
  | nil => rfl
  | cons a args ih =>
      have ha : Url.text (Url.decode (Url.encode (Url.bytes a))) = some a := by
        rw [Url.decode_encode, Url.decode_of_literal (h a List.mem_cons_self)]
        exact Url.text_eq_some.mpr rfl
      unfold pathParams at ih ⊢
      rw [List.map_cons, List.mapM_cons, ha, ih fun b hb => h b (List.mem_cons_of_mem _ hb)]
      rfl

namespace Pattern

/-- The segments of the path with these parameters. -/
def fill : Pattern → List String → List String
  | [], _ => []
  | .lit s :: pattern, args => s :: fill pattern args
  | .param :: pattern, args => args.headD "" :: fill pattern args.tail

/-- The segments as they arrive, with these parameters. -/
def inscribe : Pattern → List Bytes → List Bytes
  | [], _ => []
  | .lit s :: pattern, values => Url.bytes s :: inscribe pattern values
  | .param :: pattern, values => values.headD [] :: inscribe pattern values.tail

/-- Its literals stay as they are in a URL. -/
def Unescaped (pattern : Pattern) : Prop :=
  ∀ s, .lit s ∈ pattern → Url.Plain (Url.bytes s) ∧ Url.encode (Url.bytes s) = Url.bytes s

theorem encode_fill {pattern : Pattern} (h : pattern.Unescaped) (params : List String) :
    (pattern.fill params).map (fun a => Url.encode (Url.bytes a)) =
      pattern.inscribe (params.map fun a => Url.encode (Url.bytes a)) := by
  induction pattern generalizing params with
  | nil => rfl
  | cons part pattern ih =>
      have hrest : Unescaped pattern := fun s hs => h s (List.mem_cons_of_mem _ hs)
      cases part with
      | lit s =>
          rw [fill, inscribe, List.map_cons, (h s List.mem_cons_self).2, ih hrest]
      | param =>
          rw [fill, inscribe, List.map_cons, ih hrest]
          cases params <;> rfl

/-- What is captured is what stands in the path. -/
theorem captures_decode {pattern : Pattern} {path captured : List Bytes} {params : List String}
    (hpattern : pattern.Unescaped) (h : pattern.captures path = some captured)
    (hparams : pathParams captured = some params) :
    path.map Url.decode = (pattern.fill params).map Url.bytes ∧ ∀ a ∈ params, a ≠ "" := by
  induction pattern generalizing path captured params with
  | nil =>
      cases path with
      | nil =>
          obtain rfl := Option.some.inj h
          obtain rfl := Option.some.inj hparams
          exact ⟨rfl, fun a ha => nomatch ha⟩
      | cons segment path => cases h
  | cons part pattern ih =>
      have hrest : Unescaped pattern := fun s hs => hpattern s (List.mem_cons_of_mem _ hs)
      cases path with
      | nil => cases part <;> cases h
      | cons segment path =>
          cases part with
          | lit s =>
              simp only [captures] at h
              split at h
              next hs =>
                  obtain ⟨hpath, hargs⟩ := ih hrest h hparams
                  refine ⟨?_, hargs⟩
                  rw [fill, List.map_cons, List.map_cons, hpath, hs,
                    Url.decode_of_literal (hpattern s List.mem_cons_self).1.literal]
              next => cases h
          | param =>
              simp only [captures] at h
              split at h
              next => cases h
              next hne =>
                  obtain ⟨rest, hcaptured, rfl⟩ := Option.map_eq_some_iff.mp h
                  obtain ⟨a, args, ha, hargs, rfl⟩ := pathParams_cons hparams
                  obtain ⟨hpath, hne'⟩ := ih hrest hcaptured hargs
                  have hdecode := Url.text_eq_some.mp ha
                  refine ⟨?_, List.forall_mem_cons.mpr ⟨?_, hne'⟩⟩
                  · rw [fill, List.map_cons, List.map_cons, hpath, hdecode]
                    rfl
                  · rintro rfl
                    exact hne (Url.eq_nil_of_decode hdecode)

end Pattern

theorem captures_of_matched {table : List Endpoint} {path captured : List Bytes}
    {endpoint : Endpoint} (h : matched table path = some (endpoint, captured)) :
    endpoint ∈ table ∧ endpoint.pattern.captures path = some captured := by
  induction table with
  | nil => cases h
  | cons first table ih =>
      simp only [matched] at h
      split at h
      next found hfound =>
          obtain ⟨rfl, rfl⟩ := Prod.mk.inj (Option.some.inj h)
          exact ⟨List.mem_cons_self, hfound⟩
      next =>
          obtain ⟨hmem, hcaptures⟩ := ih h
          exact ⟨List.mem_cons_of_mem _ hmem, hcaptures⟩

/-- How many parameters a pattern has. -/
def Pattern.arity (pattern : Pattern) : Nat := pattern.count .param

theorem Pattern.length_captures {pattern : Pattern} {path captured : List Bytes}
    (h : pattern.captures path = some captured) : captured.length = pattern.arity := by
  induction pattern generalizing path captured with
  | nil =>
      cases path with
      | nil =>
          obtain rfl := Option.some.inj h
          rfl
      | cons segment path => cases h
  | cons part pattern ih =>
      cases path with
      | nil => cases part <;> cases h
      | cons segment path =>
          cases part with
          | lit s =>
              simp only [captures] at h
              split at h
              next =>
                  have hne : Part.lit s ≠ .param := Part.noConfusion
                  exact (ih h).trans (List.count_cons_of_ne hne).symm
              next => cases h
          | param =>
              simp only [captures] at h
              split at h
              next => cases h
              next =>
                  obtain ⟨rest, hrest, rfl⟩ := Option.map_eq_some_iff.mp h
                  rw [List.length_cons, ih hrest, arity, arity, List.count_cons_self]

theorem length_pathParams {captured : List Bytes} {params : List String}
    (h : pathParams captured = some params) : params.length = captured.length := by
  induction captured generalizing params with
  | nil =>
      obtain rfl := Option.some.inj h
      rfl
  | cons segment captured ih =>
      obtain ⟨a, args, -, hargs, rfl⟩ := pathParams_cons h
      rw [List.length_cons, List.length_cons, ih hargs]

theorem arrives_endpoint {method : Cli.Method} {input : Bytes} {pattern : Pattern}
    {params : List String} (h : arrives method input = some (pattern, params)) :
    ∃ methods, ⟨pattern, methods⟩ ∈ endpoints ∧ method ∈ methods ∧
      params.length = pattern.arity := by
  unfold arrives at h
  split at h
  next endpoint captured hmatched =>
      split at h
      next hmethod =>
          obtain ⟨params, hparams, he⟩ := Option.map_eq_some_iff.mp h
          obtain ⟨rfl, rfl⟩ := Prod.mk.inj he
          obtain ⟨hmem, hcaptures⟩ := captures_of_matched hmatched
          exact ⟨endpoint.methods, hmem, hmethod,
            (length_pathParams hparams).trans (Pattern.length_captures hcaptures)⟩
      next => cases h
  next => cases h

/-! ### Paths whose segments stay as they are -/

/-- A text behind a path is one more segment. -/
theorem bytes_segment {before : String} {segs : List Bytes} (h : segs ≠ [])
    (hbefore : Url.bytes before = 47 :: Url.join segs ++ [47]) (x : String) :
    Url.bytes (before ++ x) = 47 :: Url.join (segs ++ [Url.bytes x]) := by
  rw [bytes_append, hbefore, Url.join_concat h, List.append_assoc]
  rfl

theorem bytes_slash {before : String} {segs : List Bytes}
    (hbefore : Url.bytes before = 47 :: Url.join segs) :
    Url.bytes (before ++ "/") = 47 :: Url.join segs ++ [47] := by
  rw [bytes_append, hbefore]
  rfl

/-- A path ends as its last segment does. -/
theorem last_join {segs : List Bytes} (h : segs ≠ []) {s : Bytes} {last : UInt8}
    (hlast : s.getLast? = some last) (hblank : Url.blank last = false) :
    ∀ b, (Url.join (segs ++ [s])).getLast? = some b → Url.blank b = false := by
  intro b hb
  rw [Url.join_concat h, List.getLast?_append, List.getLast?_cons, hlast] at hb
  obtain rfl := Option.some.inj hb
  exact hblank

/-- The part of a pattern means the same in a URL. -/
def Part.Unescaped : Part → Prop
  | .lit s => Url.Plain (Url.bytes s) ∧ Url.encode (Url.bytes s) = Url.bytes s
  | .param => True

instance (part : Part) : Decidable part.Unescaped :=
  match part with
  | .lit s =>
      inferInstanceAs (Decidable (Url.Plain (Url.bytes s) ∧
        Url.encode (Url.bytes s) = Url.bytes s))
  | .param => inferInstanceAs (Decidable True)

theorem unescaped_of_mem {endpoint : Endpoint} (h : endpoint ∈ endpoints) :
    endpoint.pattern.Unescaped := by
  have hall : ∀ endpoint ∈ endpoints, ∀ part ∈ endpoint.pattern, part.Unescaped := by
    decide +kernel
  exact fun s hs => hall endpoint h (.lit s) hs

/-- A path that arrives with all its segments as they are has those of the pattern. -/
theorem fill_of_arrives {method : Cli.Method} {segs : List String} {pattern : Pattern}
    {params : List String} (hne : segs ≠ []) (hplain : ∀ s ∈ segs, Url.Plain (Url.bytes s))
    (hlast : ∀ b, (Url.join (segs.map Url.bytes)).getLast? = some b → Url.blank b = false)
    (h : arrives method (Url.join (segs.map Url.bytes)) = some (pattern, params)) :
    pattern.fill params = segs := by
  unfold arrives at h
  split at h
  next endpoint captured hmatched =>
      split at h
      next =>
          obtain ⟨params, hparams, he⟩ := Option.map_eq_some_iff.mp h
          obtain ⟨rfl, rfl⟩ := Prod.mk.inj he
          obtain ⟨hmem, hcaptures⟩ := captures_of_matched hmatched
          have hread : (Url.segments (Url.join (segs.map Url.bytes))).map Url.decode =
              segs.map Url.bytes :=
            (Url.segments_join_iff (by simpa using hne)).mpr
              ⟨fun s hs => by
                obtain ⟨a, ha, rfl⟩ := List.mem_map.mp hs
                exact hplain a ha, hlast⟩
          have hfill := (Pattern.captures_decode (unescaped_of_mem hmem) hcaptures hparams).1
          exact List.map_injective_iff.mpr (fun _ _ => bytes_inj.mp) (hfill.symm.trans hread)
      next => cases h
  next => cases h

/-! ### What is posted -/

/-- The endpoints that are posted to, each with its parameters. -/
inductive PostTo : Pattern → List String → Prop where
  | createSession : PostTo [.lit "v1", .lit "sessions"] []
  | remember : PostTo [.lit "v1", .lit "memories"] []
  | createBranch : PostTo [.lit "v1", .lit "branches"] []
  | mergeBranch (id : String) : PostTo [.lit "v1", .lit "branches", .param, .lit "merge"] [id]
  | archiveBranch (id : String) :
      PostTo [.lit "v1", .lit "branches", .param, .lit "archive"] [id]
  | sync : PostTo [.lit "v1", .lit "sync"] []
  | pushSync : PostTo [.lit "v1", .lit "sync", .lit "push"] []
  | pullSync : PostTo [.lit "v1", .lit "sync", .lit "pull"] []
  | reconcileSync : PostTo [.lit "v1", .lit "sync", .lit "reconcile"] []
  | reflect : PostTo [.lit "v1", .lit "reflect"] []
  | resolve (agentId contradictionId : String) :
      PostTo [.lit "v1", .lit "reflect", .lit "contradictions", .param, .param, .lit "resolve"]
        [agentId, contradictionId]
  | begin : PostTo [.lit "v1", .lit "tx"] []
  | txRemember (id : String) : PostTo [.lit "v1", .lit "tx", .param, .lit "memories"] [id]
  | txRememberTyped (id : String) :
      PostTo [.lit "v1", .lit "tx", .param, .lit "memories", .lit "typed"] [id]
  | commit (id : String) : PostTo [.lit "v1", .lit "tx", .param, .lit "commit"] [id]
  | rollback (id : String) : PostTo [.lit "v1", .lit "tx", .param, .lit "rollback"] [id]

/-- The patterns of the endpoints that are posted to. -/
def posted : List Pattern :=
  (endpoints.filter fun endpoint => decide (Cli.Method.post ∈ endpoint.methods)).map (·.pattern)

theorem postTo_of_posted {pattern : Pattern} {params : List String} (h : pattern ∈ posted)
    (hlength : params.length = pattern.arity) : PostTo pattern params := by
  have hposted : posted =
    [[.lit "v1", .lit "sessions"],
      [.lit "v1", .lit "memories"],
      [.lit "v1", .lit "branches"],
      [.lit "v1", .lit "branches", .param, .lit "merge"],
      [.lit "v1", .lit "branches", .param, .lit "archive"],
      [.lit "v1", .lit "sync"],
      [.lit "v1", .lit "sync", .lit "push"],
      [.lit "v1", .lit "sync", .lit "pull"],
      [.lit "v1", .lit "sync", .lit "reconcile"],
      [.lit "v1", .lit "reflect"],
      [.lit "v1", .lit "reflect", .lit "contradictions", .param, .param, .lit "resolve"],
      [.lit "v1", .lit "tx"],
      [.lit "v1", .lit "tx", .param, .lit "memories"],
      [.lit "v1", .lit "tx", .param, .lit "memories", .lit "typed"],
      [.lit "v1", .lit "tx", .param, .lit "commit"],
      [.lit "v1", .lit "tx", .param, .lit "rollback"]] := rfl
  rw [hposted] at h
  simp only [List.mem_cons, List.not_mem_nil, or_false] at h
  rcases h with rfl | rfl | rfl | rfl | rfl | rfl | rfl | rfl | rfl | rfl | rfl | rfl | rfl |
    rfl | rfl | rfl
  all_goals
    first
    | obtain rfl := List.length_eq_zero_iff.mp hlength
      constructor
    | obtain ⟨id, rfl⟩ := List.length_eq_one_iff.mp hlength
      constructor
    | obtain ⟨agentId, contradictionId, rfl⟩ := List.length_eq_two.mp hlength
      constructor

/-- What is posted arrives at one of these. -/
theorem postTo_of_arrives {input : Bytes} {pattern : Pattern} {params : List String}
    (h : arrives .post input = some (pattern, params)) : PostTo pattern params := by
  obtain ⟨methods, hmem, hmethod, hlength⟩ := arrives_endpoint h
  refine postTo_of_posted (List.mem_map.mpr ⟨_, List.mem_filter.mpr ⟨hmem, ?_⟩, rfl⟩) hlength
  exact decide_eq_true hmethod

end ClawDB.Http
