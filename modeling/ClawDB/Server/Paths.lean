/-
# `Server.Paths` — which route a path of the CLI reaches

`branch by-name` and the subcommands of `reflect` put a name or an id into the path of a URL as
it is.  The client's URL parser and the server's router read the text again; `lookup_arrives_iff`
says which names and ids come through.
-/
import ClawDB.Cli.Commands
import ClawDB.Server.Router

namespace ClawDB.Http

open Url (Bytes)

/-! ## The commands -/

/-- A command that puts names or ids into a path. -/
inductive Lookup where
  | branchByName (name : String)
  | reflectJob (jobId : String)
  | reflectFacts (agentId : String)
  | reflectPreferences (agentId : String)
  | reflectContradictions (agentId : String)
  | resolveContradiction (agentId contradictionId : String)

namespace Lookup

/-- The path the command asks for. -/
def path : Lookup → String
  | branchByName name => "/v1/branches/by-name/" ++ name
  | reflectJob jobId => "/v1/reflect/jobs/" ++ jobId
  | reflectFacts agentId => "/v1/reflect/facts/" ++ agentId
  | reflectPreferences agentId => "/v1/reflect/preferences/" ++ agentId
  | reflectContradictions agentId => "/v1/reflect/contradictions/" ++ agentId
  | resolveContradiction agentId contradictionId =>
      "/v1/reflect/contradictions/" ++ agentId ++ "/" ++ contradictionId ++ "/resolve"

def method : Lookup → Cli.Method
  | resolveContradiction .. => .post
  | _ => .get

/-- The names and ids. -/
def args : Lookup → List String
  | branchByName x | reflectJob x | reflectFacts x | reflectPreferences x
  | reflectContradictions x => [x]
  | resolveContradiction agentId contradictionId => [agentId, contradictionId]

/-- The pattern of the handler it is meant for. -/
def pattern : Lookup → Pattern
  | branchByName _ => [.lit "v1", .lit "branches", .lit "by-name", .param]
  | reflectJob _ => [.lit "v1", .lit "reflect", .lit "jobs", .param]
  | reflectFacts _ => [.lit "v1", .lit "reflect", .lit "facts", .param]
  | reflectPreferences _ => [.lit "v1", .lit "reflect", .lit "preferences", .param]
  | reflectContradictions _ => [.lit "v1", .lit "reflect", .lit "contradictions", .param]
  | resolveContradiction .. =>
      [.lit "v1", .lit "reflect", .lit "contradictions", .param, .param, .lit "resolve"]

/-- The handler is given the names and ids as they are. -/
def Arrives (l : Lookup) : Prop :=
  arrives l.method (behind l.path) = some (l.pattern, l.args)

instance (l : Lookup) : Decidable l.Arrives :=
  inferInstanceAs (Decidable (_ = some (l.pattern, l.args)))

end Lookup

/-! ## Which names and ids come through -/

namespace Lookup

/-- The segments of the path, as the command means them. -/
def segments (l : Lookup) : List String := l.pattern.fill l.args

/-- A URL can hold the names and ids as they are, and none is empty. -/
structure Holds (l : Lookup) : Prop where
  args : ∀ a ∈ l.args, a ≠ "" ∧ Url.Plain (Url.bytes a)
  last : ∀ b, (Url.bytes l.path).getLast? = some b → Url.blank b = false

theorem bytes_path (l : Lookup) :
    Url.bytes l.path = 47 :: Url.join (l.segments.map Url.bytes) := by
  have hnil : ∀ (s : Bytes) segs, s :: segs ≠ [] := List.cons_ne_nil
  cases l with
  | branchByName x | reflectJob x | reflectFacts x | reflectPreferences x
  | reflectContradictions x =>
      have hthree : ∀ {before : String} {s₁ s₂ s₃ : Bytes},
          Url.bytes before = 47 :: Url.join [s₁, s₂, s₃] ++ [47] →
            Url.bytes (before ++ x) = 47 :: Url.join [s₁, s₂, s₃, Url.bytes x] :=
        fun h => bytes_segment (hnil _ _) h x
      exact hthree (by decide +kernel)
  | resolveContradiction agentId contradictionId =>
      have hagent : Url.bytes ("/v1/reflect/contradictions/" ++ agentId) =
          47 :: Url.join ([Url.bytes "v1", Url.bytes "reflect", Url.bytes "contradictions"] ++
            [Url.bytes agentId]) :=
        bytes_segment (hnil _ _) (by decide +kernel) agentId
      have hcontradiction := bytes_segment (hnil _ _) (bytes_slash hagent) contradictionId
      have hresolve := bytes_segment (hnil _ _) (bytes_slash hcontradiction) "resolve"
      rw [String.append_assoc] at hresolve
      exact hresolve

theorem unescaped (l : Lookup) : l.pattern.Unescaped := by
  have hmem : ⟨l.pattern, [l.method]⟩ ∈ endpoints := by
    cases l <;> simp [endpoints, pattern, method]
  exact unescaped_of_mem hmem

/-- The router finds the pattern a path is meant for. -/
theorem matched_inscribe (l : Lookup) {values : List Bytes}
    (hlength : values.length = l.args.length) (hne : ∀ v ∈ values, v ≠ []) :
    matched endpoints (l.pattern.inscribe values) = some (⟨l.pattern, [l.method]⟩, values) := by
  cases l with
  | branchByName _ | reflectJob _ | reflectFacts _ | reflectPreferences _
  | reflectContradictions _ =>
      obtain ⟨x, rfl⟩ := List.length_eq_one_iff.mp hlength
      have hx : x ≠ [] := hne x List.mem_cons_self
      simp [matched, endpoints, pattern, Pattern.inscribe, Pattern.captures, bytes_inj, hx, method]
  | resolveContradiction _ _ =>
      obtain ⟨x, y, rfl⟩ := List.length_eq_two.mp hlength
      have hx : x ≠ [] := hne x List.mem_cons_self
      have hy : y ≠ [] := hne y (List.mem_cons_of_mem _ List.mem_cons_self)
      simp [matched, endpoints, pattern, Pattern.inscribe, Pattern.captures, bytes_inj, hx, hy,
        method]

theorem mem_segments {l : Lookup} {a : String} (h : a ∈ l.args) : a ∈ l.segments := by
  cases l with
  | resolveContradiction _ _ =>
      rcases List.mem_pair.mp h with rfl | rfl <;> simp [segments, pattern, args, Pattern.fill]
  | _ =>
      obtain rfl := List.mem_singleton.mp h
      simp [segments, pattern, args, Pattern.fill]

theorem mem_args_or_literal {l : Lookup} {s : String} (h : s ∈ l.segments) :
    s ∈ l.args ∨ .lit s ∈ l.pattern := by
  cases l <;> simp [segments, pattern, args, Pattern.fill] at h ⊢ <;> tauto

theorem getLast_path (l : Lookup) : (∀ b, (Url.bytes l.path).getLast? = some b →
    Url.blank b = false) ↔ ∀ b, (Url.join (l.segments.map Url.bytes)).getLast? = some b →
      Url.blank b = false := by
  rw [bytes_path]
  generalize Url.join (l.segments.map Url.bytes) = rest
  rw [List.getLast?_cons]
  constructor
  · intro h b hb
    exact h b (by rw [hb]; rfl)
  · rintro h b hb
    obtain rfl := Option.some.inj hb
    cases hrest : rest.getLast? with
    | none => rfl
    | some b => exact h b hrest

/-- The handler gets each name and id as it is exactly when none is empty, a URL can hold each
as it is, and the path does not end with a control or a space. -/
theorem lookup_arrives_iff (l : Lookup) : l.Arrives ↔ l.Holds := by
  have hdrop : behind l.path = Url.join (l.segments.map Url.bytes) := by
    rw [behind, bytes_path]
    rfl
  have hne : l.segments.map Url.bytes ≠ [] := by
    cases l <;> exact List.cons_ne_nil _ _
  unfold Arrives arrives
  rw [hdrop]
  constructor
  · intro h
    split at h
    next endpoint captured hmatched =>
        split at h
        next =>
            obtain ⟨params, hparams, he⟩ := Option.map_eq_some_iff.mp h
            obtain ⟨hpattern, rfl⟩ := Prod.mk.inj he
            have hcaptures := (captures_of_matched hmatched).2
            rw [hpattern] at hcaptures
            obtain ⟨hread, hargs⟩ := Pattern.captures_decode l.unescaped hcaptures hparams
            obtain ⟨hplain, hlast⟩ := (Url.segments_join_iff hne).mp hread
            refine ⟨fun a ha => ⟨hargs a ha, ?_⟩, l.getLast_path.mpr hlast⟩
            exact hplain _ (List.mem_map_of_mem (mem_segments ha))
        next => cases h
    next => cases h
  · intro h
    have hplain : ∀ s ∈ l.segments.map Url.bytes, Url.Plain s := by
      intro s hs
      obtain ⟨a, ha, rfl⟩ := List.mem_map.mp hs
      rcases mem_args_or_literal ha with ha | ha
      · exact (h.args a ha).2
      · exact (l.unescaped a ha).1
    have hencoded : l.segments.map (Url.encode ∘ Url.bytes) =
        l.pattern.inscribe (l.args.map fun a => Url.encode (Url.bytes a)) :=
      Pattern.encode_fill l.unescaped l.args
    have hread := Url.segments_join hne hplain (l.getLast_path.mp h.last)
    rw [List.map_map, hencoded] at hread
    have hvalues : ∀ v ∈ l.args.map fun a => Url.encode (Url.bytes a), v ≠ [] := by
      intro v hv he
      obtain ⟨a, ha, rfl⟩ := List.mem_map.mp hv
      have hdecode := Url.decode_encode (Url.bytes a)
      rw [he, Url.decode_of_literal (h.args a ha).2.literal] at hdecode
      exact (h.args a ha).1 (bytes_eq_nil.mp hdecode.symm)
    have hmatched := matched_inscribe l (List.length_map _) hvalues
    rw [hread, hmatched]
    show (if l.method ∈ [l.method] then _ else none) = _
    rw [if_pos List.mem_cons_self,
      pathParams_encode fun a ha => (h.args a ha).2.literal]
    rfl

/-! ### The commands and the handlers -/

section Ends

variable [Crates]

/-- The command itself; how a contradiction is resolved goes into the body. -/
def execute [Cli.Reasons] (client : Cli.ClawDBClient) (strategy : String)
    (mergedValue : Option Json.Value) : Lookup → Cli.Cmd Unit
  | branchByName name => (Cli.BranchCommand.byName name).execute client
  | reflectJob jobId => (Cli.ReflectCommand.job jobId).execute client
  | reflectFacts agentId => (Cli.ReflectCommand.facts agentId).execute client
  | reflectPreferences agentId => (Cli.ReflectCommand.preferences agentId).execute client
  | reflectContradictions agentId => (Cli.ReflectCommand.contradictions agentId).execute client
  | resolveContradiction agentId contradictionId =>
      (Cli.ReflectCommand.resolve agentId contradictionId strategy mergedValue).execute client

/-- The first thing the command does is to ask for the path. -/
theorem execute_sends [Cli.Reasons] (l : Lookup) (client : Cli.ClawDBClient) (strategy : String)
    (mergedValue : Option Json.Value) :
    ∃ body k, (l.execute client strategy mergedValue).run =
      .op (.send ⟨l.method, l.path, [], body, client.token⟩) k := by
  cases l <;> exact ⟨_, _, rfl⟩

/-- The handler it is meant for. -/
def handler [Frameworks] (body : Option Json.Value) : Lookup → Protected
  | branchByName name => .getBranchByName name
  | reflectJob jobId => .getReflectJob jobId
  | reflectFacts agentId => .getReflectFacts agentId
  | reflectPreferences agentId => .getReflectPreferences agentId
  | reflectContradictions agentId => .getReflectContradictions agentId
  | resolveContradiction agentId contradictionId =>
      .resolveReflectContradiction agentId contradictionId
        (jsonBody ResolveContradictionBody.decode body)

/-- A request that arrives is served by that handler, with the names and ids. -/
theorem route_lookup [Frameworks] {l : Lookup} (h : l.Arrives) (body : Option Json.Value)
    (bearer : Option String) :
    route ⟨l.method, l.path, [], body, bearer⟩ = some (.protected (l.handler body)) := by
  have hroute : route ⟨l.method, l.path, [], body, bearer⟩ =
      Http.handler ⟨l.method, l.path, [], body, bearer⟩ l.pattern l.args :=
    route_of_arrives h [] body bearer
  rw [hroute]
  cases l <;> rfl

end Ends

/-- A number sign ends the path: the handler is asked for the facts of `a`. -/
theorem name_cut_off : ¬ ∀ l : Lookup, l.Arrives := by
  intro hclaim
  have h := hclaim (.reflectFacts "a#b")
  revert h
  decide +kernel

end Lookup

end ClawDB.Http
