/-
# `Lib.Path` — `std::path` on Unix

An OS string is a string of bytes.  What of it is UTF-8 is kept as characters, and each
stretch that is not stays a stretch of bytes, split as `Utf8Chunks` splits it: so the text
`display` gives has one replacement character for each.

Two paths are the same when their components are, which is how `Path` compares; the
components of a path skip repeated separators and the dots inside it.
-/
import Mathlib.Data.List.Infix

namespace Unix

/-! ## OS strings -/

inductive OsChar where
  | char (c : Char)
  | bytes (bs : List UInt8)
deriving DecidableEq

namespace OsChar

def isChar : OsChar → Bool
  | .char _ => true
  | .bytes _ => false

/-- `char::REPLACEMENT_CHARACTER` stands for what is not UTF-8. -/
def lossy : OsChar → OsChar
  | .char c => .char c
  | .bytes _ => .char '\uFFFD'

def toChar : OsChar → Char
  | .char c => c
  | .bytes _ => '\uFFFD'

end OsChar

abbrev OsString := List OsChar

/-- `From<String>` -/
def osString (s : String) : OsString := s.toList.map .char

/-- `OsStr::to_str` -/
def toStr (s : OsString) : Option String :=
  if s.all OsChar.isChar then some (String.ofList (s.map OsChar.toChar)) else none

/-! ## Paths -/

abbrev PathBuf := OsString

/-- A path written out. -/
def path (s : String) : PathBuf := osString s

abbrev sep : OsChar := .char '/'

inductive Component where
  | rootDir
  | curDir
  | parentDir
  | normal (name : OsString)
deriving DecidableEq

/-- What lies between two separators, when it does not start the path. -/
def named (piece : OsString) : Option Component :=
  if piece = [] ∨ piece = path "." then none
  else if piece = path ".." then some .parentDir
  else some (.normal piece)

/-- The first component, if it is not a name. -/
def start (p : PathBuf) : List Component :=
  if p.head? = some sep then [.rootDir]
  else if (p.splitOn sep).head? = some (path ".") then [.curDir]
  else []

/-- `Path::components` -/
def components (p : PathBuf) : List Component :=
  start p ++ (p.splitOn sep).filterMap named

/-- `PartialEq for Path` -/
def Same (p q : PathBuf) : Prop := components p = components q

/-- `Path::starts_with`: `p` lies under `d`. -/
def Under (d p : PathBuf) : Prop := components d <+: components p

instance (p q : PathBuf) : Decidable (Same p q) := inferInstanceAs (Decidable (_ = _))

instance (d p : PathBuf) : Decidable (Under d p) :=
  inferInstanceAs (Decidable (components d <+: components p))

/-- `Path::join` -/
def join (p q : PathBuf) : PathBuf :=
  if q.head? = some sep then q
  else if p = [] ∨ p.getLast? = some sep then p ++ q
  else p ++ sep :: q

/-- What `as_path` makes of the pieces in front of a dropped one, the last one first. -/
def trimRight (first : OsString) (rest : List OsString) : PathBuf :=
  let rest := rest.dropWhile fun piece => piece = [] ∨ piece = path "."
  if rest = [] ∧ first = [] then [sep] else [sep].intercalate (first :: rest.reverse)

/-- `Path::parent` -/
def parent (p : PathBuf) : Option PathBuf :=
  match components p with
  | [] => none
  | [.rootDir] => none
  | _ =>
      match p.splitOn sep with
      | [] => none
      | first :: rest =>
          match rest.reverse.dropWhile fun piece => piece = [] ∨ piece = path "." with
          | [] => some []
          | _ :: rest => some (trimRight first rest)

/-- `Path::file_name` -/
def fileName (p : PathBuf) : Option OsString :=
  match (components p).getLast? with
  | some (.normal name) => some name
  | _ => none

/-- `Path::extension`: what stands behind the last dot of the file name, unless nothing stands
in front of it. -/
def extension (p : PathBuf) : Option OsString :=
  (fileName p).bind fun name =>
    match (name.splitOn (.char '.')).reverse with
    | [] | [_] | [_, []] => none
    | after :: _ => some after

/-- `Path::display`, as a text -/
def display (p : PathBuf) : String := String.ofList (p.map OsChar.toChar)

example : components (path "./a//b/./c/") =
    [.curDir, .normal (path "a"), .normal (path "b"), .normal (path "c")] := by decide

example : parent (path "a//b/./") = some (path "a") := by decide

example : parent (path "//a") = some (path "/") := by decide

example : [path "p/lib.v2.so", path "p/lib", path "p/.so", path "p/a.so/.."].map extension =
    [some (path "so"), none, none, none] := by decide

/-! ## Joining a name -/

/-- A component's name that is written out. -/
def IsName (q : OsString) : Prop := sep ∉ q ∧ named q = some (.normal q)

instance (q : OsString) : Decidable (IsName q) := inferInstanceAs (Decidable (_ ∧ _))

theorem start_append {p : PathBuf} (hp : p ≠ []) (q : OsString) :
    start (p ++ sep :: q) = start p := by
  obtain ⟨piece, pieces, hpieces⟩ := List.exists_cons_of_ne_nil (List.splitOn_ne_nil sep p)
  unfold start
  rw [List.head?_append_of_ne_nil _ hp, List.splitOn_append_cons_self, hpieces]
  rfl

/-- A path that ends with a separator, or not, and the name after it. -/
theorem components_append_sep {p : PathBuf} (hp : p ≠ []) (q : OsString) :
    components (p ++ sep :: q) = components p ++ (q.splitOn sep).filterMap named := by
  unfold components
  rw [start_append hp, List.splitOn_append_cons_self, List.filterMap_append, List.append_assoc]

theorem splitOn_name {q : OsString} (hq : IsName q) : (q.splitOn sep).filterMap named =
    [.normal q] := by
  rw [List.splitOn_eq_singleton hq.1, List.filterMap_cons_some hq.2, List.filterMap_nil]

theorem head_name {q : OsString} (hq : IsName q) : q.head? ≠ some sep := by
  intro h
  exact hq.1 (List.mem_of_mem_head? h)

theorem components_join {p : PathBuf} {q : OsString} (hq : IsName q) :
    components (join p q) = components p ++ [.normal q] := by
  unfold join
  rw [if_neg (head_name hq)]
  split
  next h =>
    rcases h with rfl | h
    · have hstart : start q = [] := by
        unfold start
        rw [if_neg (head_name hq), List.splitOn_eq_singleton hq.1, if_neg]
        intro hdot
        have hnone : named q = none := if_pos (.inr (Option.some.inj hdot))
        rw [hq.2] at hnone
        cases hnone
      unfold components
      rw [List.nil_append, hstart, splitOn_name hq]
      rfl
    · obtain ⟨p, rfl⟩ := List.getLast?_eq_some_iff.mp h
      rw [List.append_assoc, List.singleton_append]
      by_cases hp : p = []
      · subst hp
        unfold components
        rw [List.nil_append, List.nil_append, ← List.nil_append (sep :: q),
          List.splitOn_append_cons_self, List.filterMap_append, splitOn_name hq]
        rfl
      · rw [components_append_sep hp, components_append_sep hp, splitOn_name hq,
          List.append_assoc]
        rfl
  next h =>
    rw [components_append_sep (fun hp => h (.inl hp)), splitOn_name hq]

theorem under_join {p : PathBuf} {q : OsString} (hq : IsName q) : Under p (join p q) := by
  unfold Under
  rw [components_join hq]
  exact List.prefix_append _ _

theorem Under.trans {p q r : PathBuf} (h : Under p q) (h' : Under q r) : Under p r :=
  List.IsPrefix.trans h h'

/-- A path that lies under `d` whichever of two names it ends with. -/
theorem under_of_names {d p : PathBuf} {q q' : OsString} (hq : IsName q) (hq' : IsName q')
    (hne : q ≠ q') (h : Under d (join p q)) (h' : Under d (join p q')) : Under d p := by
  unfold Under at h h' ⊢
  rw [components_join hq] at h
  rw [components_join hq'] at h'
  rcases List.prefix_concat_iff.mp h with he | h
  · rw [he] at h'
    have heq := List.IsPrefix.eq_of_length h' (by simp)
    exact absurd (Component.normal.inj (List.cons.inj (List.append_cancel_left heq)).1) hne
  · exact h

/-! ## The text of a path -/

def Component.lossy : Component → Component
  | .normal name => .normal (name.map OsChar.lossy)
  | c => c

theorem osString_display (p : PathBuf) : osString (display p) = p.map OsChar.lossy := by
  unfold osString display
  rw [String.toList_ofList, List.map_map]
  refine List.map_congr_left fun c _ => ?_
  cases c <;> rfl

theorem lossy_eq_char {x : OsChar} {c : Char} (hc : c ≠ '\uFFFD') :
    x.lossy = .char c ↔ x = .char c := by
  cases x with
  | char d => exact Iff.rfl
  | bytes bs =>
      constructor
      · intro h
        exact absurd (OsChar.char.inj h).symm hc
      · intro h
        cases h

theorem splitOn_lossy (p : PathBuf) :
    (p.map OsChar.lossy).splitOn sep = (p.splitOn sep).map (List.map OsChar.lossy) := by
  induction p with
  | nil => rfl
  | cons x p ih =>
      rw [List.map_cons, List.splitOn_cons_eq_if_modifyHead, List.splitOn_cons_eq_if_modifyHead,
        ih]
      have hsep : (x.lossy == sep) = (x == sep) := by
        rw [Bool.eq_iff_iff, beq_iff_eq, beq_iff_eq]
        exact lossy_eq_char (by decide)
      rw [hsep]
      split
      · rfl
      · cases p.splitOn sep <;> rfl

theorem map_lossy_eq {s : OsString} {cs : List Char} (h : '\uFFFD' ∉ cs) :
    s.map OsChar.lossy = cs.map OsChar.char ↔ s = cs.map OsChar.char := by
  induction s generalizing cs with
  | nil => exact Iff.rfl
  | cons x s ih =>
      cases cs with
      | nil => exact ⟨(fun h => nomatch h), (fun h => nomatch h)⟩
      | cons c cs =>
          have hc : c ≠ '\uFFFD' := fun he => h (by rw [he]; exact List.mem_cons_self)
          rw [List.map_cons, List.map_cons, List.cons.injEq, List.cons.injEq, lossy_eq_char hc,
            ih fun hmem => h (List.mem_cons_of_mem c hmem)]

theorem named_lossy (piece : OsString) :
    named (piece.map OsChar.lossy) = (named piece).map Component.lossy := by
  unfold named
  have hdot : piece.map OsChar.lossy = path "." ↔ piece = path "." := map_lossy_eq (by decide)
  have hdots : piece.map OsChar.lossy = path ".." ↔ piece = path ".." := map_lossy_eq (by decide)
  simp only [List.map_eq_nil_iff, hdot, hdots]
  split
  · rfl
  · split <;> rfl

theorem start_lossy (p : PathBuf) : start (p.map OsChar.lossy) = start p := by
  have hhead : (p.map OsChar.lossy).head? = some sep ↔ p.head? = some sep := by
    cases p with
    | nil => exact Iff.rfl
    | cons x p =>
        rw [List.map_cons, List.head?_cons, List.head?_cons, Option.some_inj, Option.some_inj]
        exact lossy_eq_char (by decide)
  have hdot : ((p.map OsChar.lossy).splitOn sep).head? = some (path ".") ↔
      (p.splitOn sep).head? = some (path ".") := by
    rw [splitOn_lossy]
    cases p.splitOn sep with
    | nil => exact Iff.rfl
    | cons piece pieces =>
        rw [List.map_cons, List.head?_cons, List.head?_cons, Option.some_inj, Option.some_inj]
        exact map_lossy_eq (by decide)
  unfold start
  simp only [hhead, hdot]

theorem start_map_lossy (p : PathBuf) : (start p).map Component.lossy = start p := by
  unfold start
  split
  · rfl
  · split <;> rfl

theorem components_lossy (p : PathBuf) :
    components (p.map OsChar.lossy) = (components p).map Component.lossy := by
  unfold components
  rw [start_lossy, splitOn_lossy, List.filterMap_map, List.map_append, start_map_lossy,
    List.map_filterMap]
  refine congrArg _ (List.filterMap_congr fun piece _ => ?_)
  exact named_lossy piece

/-- Every character of a path but the separators is in one of its pieces. -/
theorem exists_piece {p : PathBuf} {x : OsChar} (hx : x ∈ p) (hne : x ≠ sep) :
    ∃ piece ∈ p.splitOn sep, x ∈ piece := by
  induction p with
  | nil => cases hx
  | cons y p ih =>
      rw [List.splitOn_cons_eq_if_modifyHead]
      obtain ⟨first, rest, hpieces⟩ := List.exists_cons_of_ne_nil (List.splitOn_ne_nil sep p)
      rw [hpieces] at ih ⊢
      cases hx with
      | head =>
          rw [if_neg (by rwa [beq_iff_eq])]
          exact ⟨x :: first, List.mem_cons_self, List.mem_cons_self⟩
      | tail _ hx =>
          obtain ⟨piece, hpiece, hmem⟩ := ih hx
          split
          · exact ⟨piece, List.mem_cons_of_mem _ hpiece, hmem⟩
          · cases hpiece with
            | head => exact ⟨y :: first, List.mem_cons_self, List.mem_cons_of_mem y hmem⟩
            | tail _ hpiece => exact ⟨piece, List.mem_cons_of_mem _ hpiece, hmem⟩

theorem display_path (s : String) : display (path s) = s := by
  simp [display, path, osString, OsChar.toChar, Function.comp_def]

theorem toStr_path (s : String) : toStr (path s) = some s := by
  have hall : (path s).all OsChar.isChar = true := by
    simp [path, osString, OsChar.isChar]
  rw [toStr, if_pos hall]
  exact congrArg some (display_path s)

/-- The text of a path is that of no other. -/
theorem path_toStr {p : PathBuf} {s : String} (h : toStr p = some s) : path s = p := by
  unfold toStr at h
  split at h
  next hall =>
      obtain rfl := Option.some.inj h
      have hchar : ∀ x ∈ p, OsChar.char x.toChar = x := by
        intro x hx
        have hx := List.all_eq_true.mp hall x hx
        cases x with
        | char c => rfl
        | bytes bs => cases hx
      show (String.ofList (p.map OsChar.toChar)).toList.map OsChar.char = p
      rw [String.toList_ofList, List.map_map]
      exact (List.map_congr_left hchar).trans (List.map_id p)
  next => cases h

theorem bytes_notMem_path (bs : List UInt8) (t : String) : .bytes bs ∉ path t := by
  intro h
  obtain ⟨c, -, hc⟩ := List.mem_map.mp h
  cases hc

theorem isSome_toStr {p : PathBuf} : (toStr p).isSome ↔ ∀ x ∈ p, x.isChar = true := by
  unfold toStr
  rw [← List.all_eq_true]
  split
  next h => exact iff_of_true rfl h
  next h => exact iff_of_false Bool.false_ne_true h

/-- A path whose text is the same path is a text. -/
theorem same_display_iff {p : PathBuf} : Same (osString (display p)) p ↔ (toStr p).isSome := by
  unfold Same
  rw [osString_display, components_lossy, isSome_toStr]
  constructor
  · intro h x hx
    cases x with
    | char c => rfl
    | bytes bs =>
        obtain ⟨piece, hpiece, hmem⟩ := exists_piece hx (fun h => nomatch h)
        have hnamed : named piece = some (.normal piece) := by
          unfold named
          rw [if_neg, if_neg]
          · exact fun he => bytes_notMem_path bs _ (he ▸ hmem)
          · rintro (he | he)
            · rw [he] at hmem
              cases hmem
            · exact bytes_notMem_path bs _ (he ▸ hmem)
        have hcomponent : .normal piece ∈ components p :=
          List.mem_append_right _ (List.mem_filterMap.mpr ⟨piece, hpiece, hnamed⟩)
        rw [← h] at hcomponent
        obtain ⟨c, -, hc⟩ := List.mem_map.mp hcomponent
        cases c with
        | normal name =>
            rw [← Component.normal.inj hc] at hmem
            obtain ⟨y, -, hy⟩ := List.mem_map.mp hmem
            cases y <;> cases hy
        | _ => cases hc
  · intro h
    have hp : p.map OsChar.lossy = p := by
      refine (List.map_congr_left fun x hx => ?_).trans (List.map_id p)
      cases x with
      | char c => rfl
      | bytes bs => exact absurd (h _ hx) Bool.false_ne_true
    rw [← components_lossy, hp]

/-- The text of a path under `d` is under `d` if `d` is a text, and not otherwise. -/
theorem under_display_iff {d p : PathBuf} (h : Under d p) :
    Under d (osString (display p)) ↔ (toStr d).isSome := by
  obtain ⟨rest, hrest⟩ := h
  rw [← same_display_iff]
  unfold Under Same
  rw [osString_display, osString_display, components_lossy, components_lossy, ← hrest,
    List.map_append]
  constructor
  · intro h
    have heq := List.prefix_iff_eq_take.mp h
    rw [List.take_left' (List.length_map ..)] at heq
    exact heq.symm
  · intro h
    rw [h]
    exact List.prefix_append _ _

end Unix
