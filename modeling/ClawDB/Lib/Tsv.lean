/-
# `Lib.Tsv` — tables as text: a line for each row, a tab between fields

Nothing is escaped, so a table can be read back from its text only if no field holds a
separator.  What separates lines is the reader's choice: a newline, a newline with or without a
carriage return in front of it (which is then dropped), or either of the two characters.
-/
import Mathlib.Data.List.Basic

namespace Tsv

abbrev Row := List (List Char)

def line (row : Row) : List Char := ['\t'].intercalate row

/-- Each line is ended by a newline. -/
def print (table : List Row) : List Char := table.flatMap fun row => line row ++ ['\n']

/-! ## Reading -/

/-- The lines of a text; the last one may lack its newline. -/
def linesOf (text : List Char) : List (List Char) :=
  let pieces := text.splitOn '\n'
  if pieces.getLast? = some [] then pieces.dropLast else pieces

/-- A carriage return at the end is dropped. -/
def chomp (l : List Char) : List Char := if l.getLast? = some '\r' then l.dropLast else l

/-- Every line break becomes a newline. -/
def unify : List Char → List Char
  | [] => []
  | '\r' :: '\n' :: cs => '\n' :: unify cs
  | c :: cs => (if c = '\r' then '\n' else c) :: unify cs

/-- What ends a line. -/
inductive Reader where
  /-- `\n` -/
  | newline
  /-- `\n` or `\r\n`, as for `str::lines` -/
  | crlf
  /-- `\n`, `\r\n` or `\r` -/
  | universal

namespace Reader

def lines : Reader → List Char → List (List Char)
  | newline, text => linesOf text
  | crlf, text => (linesOf text).map chomp
  | universal, text => linesOf (unify text)

/-- The rows of a text. -/
def read (reader : Reader) (text : List Char) : List Row :=
  (reader.lines text).map (·.splitOn '\t')

/-- A character that no field may hold. -/
def Separates : Reader → Char → Prop
  | universal, c => c = '\t' ∨ c = '\n' ∨ c = '\r'
  | _, c => c = '\t' ∨ c = '\n'

/-- A field of which something is lost at the end of a line. -/
def Trims : Reader → List Char → Prop
  | crlf, field => field.getLast? = some '\r'
  | _, _ => False

def Clean (reader : Reader) (field : List Char) : Prop := ∀ c ∈ field, ¬ reader.Separates c

/-- The row can be told from its line. -/
def Keeps (reader : Reader) (row : Row) : Prop :=
  (∀ field ∈ row, reader.Clean field) ∧ ∀ field, row.getLast? = some field → ¬ reader.Trims field

end Reader

/-! ## Lines -/

section Joining

variable {c : Char} {sep piece : List Char} {pieces : List (List Char)}

theorem mem_intercalate (hpiece : piece ∈ pieces) (hc : c ∈ piece) :
    c ∈ sep.intercalate pieces := by
  induction pieces with
  | nil => cases hpiece
  | cons first rest ih =>
      cases rest with
      | nil =>
          rw [List.intercalate_singleton]
          rwa [List.mem_singleton.mp hpiece] at hc
      | cons second rest =>
          rw [List.intercalate_cons_cons, List.mem_append, List.mem_append]
          rcases List.mem_cons.mp hpiece with rfl | hpiece
          · exact .inl (.inl hc)
          · exact .inr (ih hpiece)

theorem mem_of_mem_intercalate (hc : c ∈ sep.intercalate pieces) :
    c ∈ sep ∨ ∃ piece ∈ pieces, c ∈ piece := by
  induction pieces with
  | nil => cases hc
  | cons first rest ih =>
      cases rest with
      | nil =>
          rw [List.intercalate_singleton] at hc
          exact .inr ⟨first, List.mem_cons_self, hc⟩
      | cons second rest =>
          rw [List.intercalate_cons_cons, List.mem_append, List.mem_append] at hc
          rcases hc with (hc | hc) | hc
          · exact .inr ⟨first, List.mem_cons_self, hc⟩
          · exact .inl hc
          · obtain hc | ⟨piece, hpiece, hc⟩ := ih hc
            · exact .inl hc
            · exact .inr ⟨piece, List.mem_cons_of_mem _ hpiece, hc⟩

/-- What is joined ends as its last piece does, unless that is empty. -/
theorem getLast?_intercalate (hsep : ∃ d, sep.getLast? = some d ∧ d ≠ c) :
    (sep.intercalate pieces).getLast? = some c ↔
      ∃ piece, pieces.getLast? = some piece ∧ piece.getLast? = some c := by
  obtain ⟨d, hd, hdc⟩ := hsep
  induction pieces with
  | nil => simp
  | cons first rest ih =>
      cases rest with
      | nil => simp
      | cons second rest =>
          rw [List.intercalate_cons_cons, List.getLast?_append, List.getLast?_cons_cons, ← ih]
          cases (sep.intercalate (second :: rest)).getLast? with
          | none => simp [hd, hdc]
          | some e => simp

end Joining

section Splitting

variable {a c : Char} {text piece : List Char}

theorem not_mem_of_mem_splitOn (h : piece ∈ text.splitOn a) : a ∉ piece := by
  induction text generalizing piece with
  | nil =>
      rw [List.splitOn_nil, List.mem_singleton] at h
      rw [h]
      exact List.not_mem_nil
  | cons b text ih =>
      obtain ⟨first, rest, hpieces⟩ := List.exists_cons_of_ne_nil (List.splitOn_ne_nil a text)
      rw [hpieces] at ih
      rw [List.splitOn_cons_eq_if_modifyHead, hpieces] at h
      split at h
      next =>
        rcases List.mem_cons.mp h with rfl | h
        · exact List.not_mem_nil
        · exact ih h
      next hb =>
        rw [List.modifyHead_cons] at h
        rcases List.mem_cons.mp h with rfl | h
        · intro hmem
          rcases List.mem_cons.mp hmem with rfl | hmem
          · exact hb BEq.rfl
          · exact ih List.mem_cons_self hmem
        · exact ih (List.mem_cons_of_mem _ h)

theorem mem_of_mem_splitOn (h : piece ∈ text.splitOn a) (hc : c ∈ piece) : c ∈ text := by
  have htext : [a].intercalate (text.splitOn a) = text := List.intercalate_splitOn a
  rw [← htext]
  exact mem_intercalate h hc

theorem mem_linesOf (h : piece ∈ linesOf text) : '\n' ∉ piece ∧ ∀ c ∈ piece, c ∈ text := by
  have hpiece : piece ∈ text.splitOn '\n' := by
    unfold linesOf at h
    dsimp only at h
    split at h
    · exact List.dropLast_subset _ h
    · exact h
  exact ⟨not_mem_of_mem_splitOn hpiece, fun c hc => mem_of_mem_splitOn hpiece hc⟩

end Splitting

/-! ## Printing -/

theorem print_cons (row : Row) (table : List Row) :
    print (row :: table) = line row ++ '\n' :: print table := by
  unfold print
  rw [List.flatMap_cons, List.append_assoc]
  rfl

theorem linesOf_print {table : List Row} (h : ∀ row ∈ table, '\n' ∉ line row) :
    linesOf (print table) = table.map line := by
  have hpieces : (print table).splitOn '\n' = table.map line ++ [[]] := by
    induction table with
    | nil => exact List.splitOn_nil _
    | cons row table ih =>
        rw [print_cons, List.splitOn_append_cons_self_of_not_mem (h row List.mem_cons_self),
          ih fun r hr => h r (List.mem_cons_of_mem _ hr)]
        rfl
  unfold linesOf
  rw [hpieces]
  simp

theorem mem_print {table : List Row} {c : Char} (h : c ∈ print table) :
    c = '\t' ∨ c = '\n' ∨ ∃ row ∈ table, ∃ field ∈ row, c ∈ field := by
  obtain ⟨row, hrow, hc⟩ := List.mem_flatMap.mp h
  rcases List.mem_append.mp hc with hc | hc
  · obtain htab | hfield := mem_of_mem_intercalate hc
    · exact .inl (List.mem_singleton.mp htab)
    · exact .inr (.inr ⟨row, hrow, hfield⟩)
  · exact .inr (.inl (List.mem_singleton.mp hc))

/-! ## Carriage returns -/

theorem not_mem_unify (text : List Char) : '\r' ∉ unify text := by
  fun_induction unify text with
  | case1 => exact List.not_mem_nil
  | case2 cs ih => simpa using ih
  | case3 c cs hno ih =>
      rw [List.mem_cons, not_or]
      refine ⟨?_, ih⟩
      split
      · decide
      · exact Ne.symm ‹_›

theorem unify_eq {text : List Char} (h : '\r' ∉ text) : unify text = text := by
  fun_induction unify text with
  | case1 => rfl
  | case2 cs ih => exact absurd List.mem_cons_self h
  | case3 c cs hno ih =>
      rw [List.mem_cons, not_or] at h
      rw [ih h.2, if_neg (Ne.symm h.1)]

theorem chomp_eq_self {l : List Char} : chomp l = l ↔ l.getLast? ≠ some '\r' := by
  unfold chomp
  split
  next hlast =>
    refine iff_of_false (fun h => ?_) (fun hno => hno hlast)
    have hlength := congrArg List.length h
    rw [List.length_dropLast] at hlength
    rcases l with _ | ⟨c, l⟩
    · cases hlast
    · simp at hlength
  next hlast => exact iff_of_true rfl hlast

/-! ## Reading back -/

namespace Reader

variable {reader : Reader} {text : List Char} {table : List Row}

theorem mem_chomp {l : List Char} {c : Char} (h : c ∈ chomp l) : c ∈ l := by
  unfold chomp at h
  split at h
  · exact List.dropLast_subset _ h
  · exact h

/-- No line holds a character that ends lines. -/
theorem mem_lines {l : List Char} (h : l ∈ reader.lines text) :
    ∀ c ∈ l, reader.Separates c → c = '\t' := by
  intro c hc hsep
  cases reader with
  | newline =>
      rcases hsep with htab | rfl
      · exact htab
      · exact absurd hc (mem_linesOf h).1
  | crlf =>
      obtain ⟨whole, hwhole, rfl⟩ := List.mem_map.mp h
      rcases hsep with htab | rfl
      · exact htab
      · exact absurd (mem_chomp hc) (mem_linesOf hwhole).1
  | universal =>
      rcases hsep with htab | rfl | rfl
      · exact htab
      · exact absurd hc (mem_linesOf h).1
      · exact absurd ((mem_linesOf h).2 _ hc) (not_mem_unify text)

/-- So no field that was read holds a separator. -/
theorem mem_read {row : Row} (h : row ∈ reader.read text) :
    ∀ field ∈ row, reader.Clean field := by
  intro field hfield c hc hsep
  obtain ⟨l, hl, rfl⟩ := List.mem_map.mp h
  obtain rfl := mem_lines hl c (mem_of_mem_splitOn hfield hc) hsep
  exact not_mem_of_mem_splitOn hfield hc

theorem separates_newline : reader.Separates '\n' := by
  cases reader with
  | newline | crlf => exact .inr rfl
  | universal => exact .inr (.inl rfl)

theorem separates_tab : reader.Separates '\t' := by
  cases reader <;> exact .inl rfl

/-- Without separators in them, the rows are read up to what is trimmed from their lines. -/
theorem lines_print (hclean : ∀ row ∈ table, ∀ field ∈ row, reader.Clean field) :
    reader.lines (print table) =
      match reader with
      | .crlf => (table.map line).map chomp
      | .newline | .universal => table.map line := by
  have hlines : linesOf (print table) = table.map line := by
    refine linesOf_print fun row hrow hmem => ?_
    obtain htab | ⟨field, hfield, hc⟩ := mem_of_mem_intercalate hmem
    · exact absurd htab (by decide)
    · exact hclean row hrow field hfield _ hc separates_newline
  cases reader with
  | newline => exact hlines
  | crlf => exact congrArg _ hlines
  | universal =>
      have hno : '\r' ∉ print table := by
        intro hmem
        obtain htab | hnewline | ⟨row, hrow, field, hfield, hc⟩ := mem_print hmem
        · exact absurd htab (by decide)
        · exact absurd hnewline (by decide)
        · exact hclean row hrow field hfield _ hc (.inr (.inr rfl))
      show linesOf (unify (print table)) = _
      rw [unify_eq hno, hlines]

/-- A row without separators is read from its line. -/
theorem splitOn_line {row : Row} (hne : row ≠ [])
    (hclean : ∀ field ∈ row, reader.Clean field) :
    (line row).splitOn '\t' = row :=
  List.splitOn_intercalate '\t' (fun field hfield hmem => hclean field hfield _ hmem separates_tab)
    hne

theorem map_eq_self {f : Row → Row} : table.map f = table ↔ ∀ row ∈ table, f row = row := by
  conv_lhs => rhs; rw [← List.map_id table]
  exact List.map_inj_left

/-- What is read of a row whose line is trimmed. -/
theorem splitOn_chomp {row : Row} (hne : row ≠ [])
    (hclean : ∀ field ∈ row, crlf.Clean field) :
    (chomp (line row)).splitOn '\t' = row ↔
      ∀ field, row.getLast? = some field → ¬ crlf.Trims field := by
  have hline : (chomp (line row)).splitOn '\t' = row ↔ chomp (line row) = line row := by
    constructor
    · intro h
      have hchomp : ['\t'].intercalate ((chomp (line row)).splitOn '\t') = chomp (line row) :=
        List.intercalate_splitOn '\t'
      rw [← hchomp, h]
      rfl
    · intro h
      rw [h, splitOn_line hne hclean]
  have hlast : (line row).getLast? = some '\r' ↔ _ :=
    getLast?_intercalate ⟨'\t', rfl, by decide⟩
  rw [hline, chomp_eq_self, Ne, hlast]
  simp only [not_exists, not_and]
  rfl

/-- A table is read back from its text if and only if every row can be told from its line. -/
theorem read_print_iff (hne : ∀ row ∈ table, row ≠ []) :
    reader.read (print table) = table ↔ ∀ row ∈ table, reader.Keeps row := by
  have hread : (∀ row ∈ table, ∀ field ∈ row, reader.Clean field) →
      (reader.read (print table) = table ↔
        ∀ row ∈ table, ∀ field, row.getLast? = some field → ¬ reader.Trims field) := by
    intro hclean
    unfold read
    rw [lines_print hclean]
    cases reader with
    | newline | universal =>
        rw [List.map_map, map_eq_self]
        exact iff_of_true (fun row hrow => splitOn_line (hne row hrow) (hclean row hrow))
          fun _ _ _ _ => id
    | crlf =>
        rw [List.map_map, List.map_map, map_eq_self]
        exact forall₂_congr fun row hrow => splitOn_chomp (hne row hrow) (hclean row hrow)
  constructor
  · intro h
    have hclean : ∀ row ∈ table, ∀ field ∈ row, reader.Clean field := by
      intro row hrow
      refine mem_read (?_ : row ∈ reader.read (print table))
      rw [h]
      exact hrow
    exact fun row hrow => ⟨hclean row hrow, (hread hclean).mp h row hrow⟩
  · intro h
    exact (hread fun row hrow => (h row hrow).1).mpr fun row hrow => (h row hrow).2

end Reader

end Tsv
