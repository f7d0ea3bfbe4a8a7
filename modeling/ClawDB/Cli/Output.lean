/-
# `ClawDB.Cli.Output` — tab-separated output

`print_tsv`, and the rows that the listing commands print with it.  Nothing is escaped, so what
the server sent back decides whether the printed lines are the rows again: a tab in a name opens
a column, a line break in a content opens a row.

A score is written with four decimals, rounded to even.  How the lines of the text are told apart
is left to its reader.
-/
import ClawDB.Cli.Types
import ClawDB.Lib.Tsv
import Mathlib.Algebra.GroupWithZero.Nat

namespace ClawDB.Cli

open Json

/-! ## Formatting -/

/-- `numerator / denominator`, rounded to the nearest integer, a tie to the even one. -/
def roundDiv (numerator denominator : Nat) : Nat :=
  let quotient := numerator / denominator
  let rest := numerator % denominator
  if denominator < 2 * rest ∨ (2 * rest = denominator ∧ quotient % 2 = 1) then quotient + 1
  else quotient

/-- An integer as an `f64`. -/
def roundToDouble (n : Nat) : Nat :=
  let unit := 2 ^ (n.log2 - 52)
  roundDiv n unit * unit

/-- The magnitude of a finite double, as a fraction. -/
def magnitude (bits : BitVec 64) : Nat × Nat :=
  let mantissa := bits.toNat % 2 ^ 52
  let exponent := bits.toNat / 2 ^ 52 % 2 ^ 11
  if exponent = 0 then (mantissa, 2 ^ 1074)
  else if exponent < 1075 then (mantissa + 2 ^ 52, 2 ^ (1075 - exponent))
  else ((mantissa + 2 ^ 52) * 2 ^ (exponent - 1075), 1)

def fourDigits (n : Nat) : List Char :=
  [(n / 1000 % 10).digitChar, (n / 100 % 10).digitChar, (n / 10 % 10).digitChar,
    (n % 10).digitChar]

/-- `format!("{:.4}", …)` of so many ten-thousandths -/
def decimal (negative : Bool) (n : Nat) : String :=
  String.ofList ((if negative then ['-'] else []) ++ Nat.toDigits 10 (n / 10000) ++
    '.' :: fourDigits n)

def formatScore : Number → String
  | .int n => decimal (decide (n < 0)) (roundToDouble n.natAbs * 10000)
  | .float bits =>
      let (numerator, denominator) := magnitude bits
      decimal bits.msb (roundDiv (numerator * 10000) denominator)

example : [Number.int (-3), .float 0x3FED1EB851EB851F, .float 0x3FA0000000000000].map formatScore =
    ["-3.0000", "0.9100", "0.0312"] := by decide +kernel

def truncate (s : String) (max : Nat) : String :=
  if max < s.toList.length then String.ofList (s.toList.take max ++ ['…']) else s

/-- `tags.join(", ")` -/
def joinTags (tags : List String) : String := ", ".intercalate tags

/-- `println!("{}", line)` -/
def println (line : String) : String := line ++ "\n"

/-! ## Rows -/

/-- `tabled::Tabled`, which the rows derive: a header is the name of its field, where it is not
renamed, and a field is its text. -/
class Tabled (Row : Type) where
  headers : List String
  fields : Row → List String

/-- What `print_tsv` prints. -/
def printTsv {Row : Type} [Tabled Row] (rows : List Row) (quiet : Bool) : String :=
  if quiet || rows.isEmpty then ""
  else
    println ("\t".intercalate (Tabled.headers Row)) ++
      String.join (rows.map fun row => println ("\t".intercalate (Tabled.fields row)))

namespace Search

structure SearchRow where
  id : String
  content : String
  score : String
  tags : String

instance : Tabled SearchRow where
  headers := ["ID", "Content Preview", "Score", "Tags"]
  fields row := [row.id, row.content, row.score, row.tags]

def toRows (hits : List SearchHit) : List SearchRow :=
  hits.map fun h => ⟨truncate h.id 12, truncate h.content 80, formatScore h.score, joinTags h.tags⟩

end Search

namespace Recall

structure MemoryRow where
  id : String
  memoryType : String
  tags : String
  content : String
  createdAt : String

instance : Tabled MemoryRow where
  headers := ["ID", "Type", "Tags", "Content", "Created At"]
  fields row := [row.id, row.memoryType, row.tags, row.content, row.createdAt]

def toRows (memories : List MemoryRecord) : List MemoryRow :=
  memories.map fun m =>
    ⟨m.id, m.memoryType, joinTags m.tags, truncate m.content 80, m.createdAt.getD ""⟩

end Recall

namespace Memory

structure MemoryRow where
  id : String
  memoryType : String
  content : String

instance : Tabled MemoryRow where
  headers := ["id", "memory_type", "content"]
  fields row := [row.id, row.memoryType, row.content]

def rows (memories : List MemoryRecord) : List MemoryRow :=
  memories.map fun m => ⟨m.id, m.memoryType, m.content⟩

end Memory

namespace Branch

structure BranchRow where
  id : String
  name : String
  status : String
  createdAt : String

instance : Tabled BranchRow where
  headers := ["ID", "Name", "Status", "Created At"]
  fields row := [row.id, row.name, row.status, row.createdAt]

def toRows (branches : List BranchRecord) : List BranchRow :=
  branches.map fun b => ⟨b.id, b.name, b.status, b.createdAt.getD ""⟩

end Branch

namespace Policy

structure PolicyRow where
  id : String
  name : String
  effect : String
  createdAt : String

instance : Tabled PolicyRow where
  headers := ["ID", "Name", "Effect", "Created At"]
  fields row := [row.id, row.name, row.effect, row.createdAt]

def toRows (policies : List PolicyRecord) : List PolicyRow :=
  policies.map fun p => ⟨p.id, p.name, p.effect, p.createdAt.getD ""⟩

end Policy

/-- A listing command, with what the server sent back. -/
inductive Listing where
  | search (hits : List SearchHit)
  | «recall» (memories : List MemoryRecord)
  | memoryList (memories : List MemoryRecord)
  | branchList (branches : List BranchRecord)
  | policyList (policies : List PolicyRecord)

namespace Listing

/-- What the command prints with `--output tsv`. -/
def tsv (quiet : Bool) : Listing → String
  | search hits => printTsv (Search.toRows hits) quiet
  | «recall» memories => printTsv (Recall.toRows memories) quiet
  | memoryList memories => printTsv (Memory.rows memories) quiet
  | branchList branches => printTsv (Branch.toRows branches) quiet
  | policyList policies => printTsv (Policy.toRows policies) quiet

def headers : Listing → List String
  | search _ => Tabled.headers Search.SearchRow
  | «recall» _ => Tabled.headers Recall.MemoryRow
  | memoryList _ => Tabled.headers Memory.MemoryRow
  | branchList _ => Tabled.headers Branch.BranchRow
  | policyList _ => Tabled.headers Policy.PolicyRow

/-- The fields of the rows. -/
def fields : Listing → List (List String)
  | search hits => (Search.toRows hits).map Tabled.fields
  | «recall» memories => (Recall.toRows memories).map Tabled.fields
  | memoryList memories => (Memory.rows memories).map Tabled.fields
  | branchList branches => (Branch.toRows branches).map Tabled.fields
  | policyList policies => (Policy.toRows policies).map Tabled.fields

end Listing

/-! ## What is printed -/

/-- A line of texts, as characters. -/
def chars (texts : List String) : Tsv.Row := texts.map String.toList

theorem toList_println (texts : List String) :
    (println ("\t".intercalate texts)).toList = Tsv.line (chars texts) ++ ['\n'] := by
  unfold println Tsv.line chars
  rw [String.toList_append, String.toList_intercalate]
  rfl

theorem toList_printTsv {Row : Type} [Tabled Row] {rows : List Row} (hne : rows ≠ []) :
    (printTsv rows false).toList =
      Tsv.print (chars (Tabled.headers Row) :: (rows.map Tabled.fields).map chars) := by
  have hempty : rows.isEmpty = false := List.isEmpty_eq_false_iff.mpr hne
  unfold printTsv Tsv.print
  rw [hempty, Bool.or_self, if_neg Bool.false_ne_true, String.toList_append, toList_println,
    String.toList_join, List.flatMap_cons, List.map_map, List.flatMap_map, List.flatMap_map]
  exact congrArg _ (List.flatMap_congr fun row _ => toList_println _)

/-! ## Which texts can be told apart -/

section Texts

variable {reader : Tsv.Reader}

theorem clean_append {s t : List Char} :
    reader.Clean (s ++ t) ↔ reader.Clean s ∧ reader.Clean t := by
  unfold Tsv.Reader.Clean
  simp only [List.mem_append, or_imp, forall_and]

theorem clean_of_not_mem {s : List Char} (ht : '\t' ∉ s) (hn : '\n' ∉ s) (hr : '\r' ∉ s) :
    reader.Clean s := by
  intro c hc hsep
  have hno : c ≠ '\t' ∧ c ≠ '\n' ∧ c ≠ '\r' :=
    ⟨fun h => ht (h ▸ hc), fun h => hn (h ▸ hc), fun h => hr (h ▸ hc)⟩
  cases reader with
  | newline | crlf => exact hsep.elim hno.1 hno.2.1
  | universal => exact hsep.elim hno.1 fun h => h.elim hno.2.1 hno.2.2

/-- The ellipsis separates nothing. -/
theorem clean_truncate {s : String} {max : Nat} :
    reader.Clean (truncate s max).toList ↔ reader.Clean (s.toList.take max) := by
  unfold truncate
  split
  next =>
    rw [String.toList_ofList, clean_append]
    exact and_iff_left (clean_of_not_mem (by decide) (by decide) (by decide))
  next h => rw [List.take_of_length_le (Nat.le_of_not_gt h)]

theorem toList_joinTags (tags : List String) :
    (joinTags tags).toList = [',', ' '].intercalate (chars tags) := by
  unfold joinTags chars
  rw [String.toList_intercalate]
  rfl

theorem clean_joinTags {tags : List String} :
    reader.Clean (joinTags tags).toList ↔ ∀ tag ∈ tags, reader.Clean tag.toList := by
  rw [toList_joinTags]
  constructor
  · intro h tag htag c hc
    exact h c (Tsv.mem_intercalate (List.mem_map_of_mem htag) hc)
  · intro h c hc
    obtain hsep | ⟨text, htext, hc⟩ := Tsv.mem_of_mem_intercalate hc
    · exact clean_of_not_mem (s := [',', ' ']) (by decide) (by decide) (by decide) c hsep
    · obtain ⟨tag, htag, rfl⟩ := List.mem_map.mp htext
      exact h tag htag c hc

theorem trims_joinTags {tags : List String} :
    reader.Trims (joinTags tags).toList ↔ reader.Trims (tags.getLastD "").toList := by
  cases reader with
  | newline | universal => exact Iff.rfl
  | crlf =>
      show (joinTags tags).toList.getLast? = some '\r' ↔ (tags.getLastD "").toList.getLast? = _
      rw [toList_joinTags, Tsv.getLast?_intercalate ⟨' ', rfl, by decide⟩, chars,
        List.getLast?_map, List.getLastD_eq_getLast?]
      cases tags.getLast? with
      | none => simp
      | some tag => simp

theorem digit_clean {cs : List Char} (h : ∀ c ∈ cs, c.isDigit = true) : reader.Clean cs :=
  clean_of_not_mem (fun ht => absurd (h _ ht) (by decide)) (fun hn => absurd (h _ hn) (by decide))
    fun hr => absurd (h _ hr) (by decide)

theorem clean_decimal (negative : Bool) (n : Nat) : reader.Clean (decimal negative n).toList := by
  unfold decimal
  rw [String.toList_ofList, clean_append, clean_append]
  refine ⟨⟨?_, ?_⟩, ?_⟩
  · cases negative <;> exact clean_of_not_mem (by decide) (by decide) (by decide)
  · exact digit_clean fun c hc => Nat.isDigit_of_mem_toDigits (by decide) (by decide) hc
  · rw [← List.singleton_append, clean_append]
    refine ⟨clean_of_not_mem (by decide) (by decide) (by decide), digit_clean ?_⟩
    intro c hc
    have hdigit : ∀ m, (m % 10).digitChar.isDigit = true := by
      intro m
      rw [Nat.isDigit_digitChar]
      exact decide_eq_true (Nat.mod_lt m (by decide))
    simp only [fourDigits, List.mem_cons, List.not_mem_nil, or_false] at hc
    rcases hc with rfl | rfl | rfl | rfl <;> exact hdigit _

theorem clean_formatScore (score : Number) : reader.Clean (formatScore score).toList := by
  cases score <;> exact clean_decimal _ _

end Texts

/-! ## Reading the lines back -/

namespace Listing

/-- Splitting the printed text into lines and each line at tabs gives the header and the rows. -/
def ReadsBack (reader : Tsv.Reader) (listing : Listing) : Prop :=
  reader.read (listing.tsv false).toList = (listing.headers :: listing.fields).map chars

/-- The texts a row is made of, as far as they are printed, and the one it ends with. -/
structure Shown where
  texts : List (List Char)
  last : List Char

def shown : Listing → List Shown
  | search hits => hits.map fun h =>
      ⟨[h.id.toList.take 12, h.content.toList.take 80] ++ chars h.tags,
        (h.tags.getLastD "").toList⟩
  | «recall» memories => memories.map fun m =>
      ⟨chars [m.id, m.memoryType] ++ chars m.tags ++
        [m.content.toList.take 80, (m.createdAt.getD "").toList], (m.createdAt.getD "").toList⟩
  | memoryList memories => memories.map fun m =>
      ⟨chars [m.id, m.memoryType, m.content], m.content.toList⟩
  | branchList branches => branches.map fun b =>
      ⟨chars [b.id, b.name, b.status, b.createdAt.getD ""], (b.createdAt.getD "").toList⟩
  | policyList policies => policies.map fun p =>
      ⟨chars [p.id, p.name, p.effect, p.createdAt.getD ""], (p.createdAt.getD "").toList⟩

/-- No text that is printed holds a separator, and nothing is trimmed from a line. -/
def Clean (reader : Tsv.Reader) (listing : Listing) : Prop :=
  ∀ row ∈ listing.shown, (∀ text ∈ row.texts, reader.Clean text) ∧ ¬ reader.Trims row.last

variable {reader : Tsv.Reader} {listing : Listing}

theorem toList_tsv (hne : listing.fields ≠ []) :
    (listing.tsv false).toList = Tsv.print ((listing.headers :: listing.fields).map chars) := by
  cases listing <;> exact toList_printTsv fun hnil => hne (by rw [fields, hnil]; rfl)

theorem keeps_chars (front : List String) (last : String) :
    reader.Keeps (chars (front ++ [last])) ↔
      (∀ text ∈ chars (front ++ [last]), reader.Clean text) ∧ ¬ reader.Trims last.toList := by
  have hlast : (chars (front ++ [last])).getLast? = some last.toList := by
    unfold chars
    rw [List.map_append]
    exact List.getLast?_concat
  unfold Tsv.Reader.Keeps
  rw [hlast]
  simp only [Option.some.injEq, forall_eq']

theorem row_ne_nil : ∀ row ∈ (listing.headers :: listing.fields).map chars, row ≠ [] := by
  rw [List.forall_mem_map, List.forall_mem_cons]
  cases listing with
  | search rows | «recall» rows | memoryList rows | branchList rows | policyList rows =>
      refine ⟨List.cons_ne_nil _ _, ?_⟩
      unfold fields
      rw [List.forall_mem_map]
      exact fun row _ => List.cons_ne_nil _ _

/-- The names of the columns are plain texts. -/
theorem headers_plain :
    ∀ text ∈ chars listing.headers, '\t' ∉ text ∧ '\n' ∉ text ∧ '\r' ∉ text := by
  have hall : ∀ headers ∈ [Tabled.headers Search.SearchRow, Tabled.headers Recall.MemoryRow,
      Tabled.headers Memory.MemoryRow, Tabled.headers Branch.BranchRow,
      Tabled.headers Policy.PolicyRow], ∀ text ∈ chars headers,
        '\t' ∉ text ∧ '\n' ∉ text ∧ '\r' ∉ text := by decide
  refine hall _ ?_
  cases listing <;> simp [headers]

/-- The header is always told from its line. -/
theorem keeps_headers : reader.Keeps (chars listing.headers) := by
  refine ⟨fun text htext => ?_, fun text hlast htrims => ?_⟩
  · obtain ⟨ht, hn, hr⟩ := headers_plain text htext
    exact clean_of_not_mem ht hn hr
  · cases reader with
    | newline | universal => exact htrims
    | crlf =>
        obtain ⟨-, -, hr⟩ := headers_plain text (List.mem_of_getLast? hlast)
        exact hr (List.mem_of_getLast? htrims)

/-- Row by row. -/
theorem keeps_rows {α Row : Type} [Tabled Row] {toRow : α → Row} {shown : α → Shown} {xs : List α}
    (h : ∀ x, reader.Keeps (chars (Tabled.fields (toRow x))) ↔
      (∀ text ∈ (shown x).texts, reader.Clean text) ∧ ¬ reader.Trims (shown x).last) :
    (∀ row ∈ (xs.map toRow).map Tabled.fields, reader.Keeps (chars row)) ↔
      ∀ row ∈ xs.map shown, (∀ text ∈ row.texts, reader.Clean text) ∧ ¬ reader.Trims row.last := by
  rw [List.map_map, List.forall_mem_map, List.forall_mem_map]
  exact forall₂_congr fun x _ => h x

theorem keeps_fields :
    (∀ row ∈ listing.fields, reader.Keeps (chars row)) ↔ listing.Clean reader := by
  cases listing with
  | search hits =>
      refine keeps_rows fun h => (keeps_chars [_, _, _] _).trans ?_
      simp [chars, clean_truncate, clean_joinTags, clean_formatScore, trims_joinTags]
  | «recall» memories =>
      refine keeps_rows fun m => (keeps_chars [_, _, _, _] _).trans ?_
      simp [chars, clean_truncate, clean_joinTags, or_imp, forall_and]
  | memoryList memories => exact keeps_rows fun m => keeps_chars [_, _] _
  | branchList branches => exact keeps_rows fun b => keeps_chars [_, _, _] _
  | policyList policies => exact keeps_rows fun p => keeps_chars [_, _, _] _

/-- What is printed can be read back if and only if every text in it is clean. -/
theorem readsBack_iff (reader : Tsv.Reader) {listing : Listing} (hne : listing.fields ≠ []) :
    listing.ReadsBack reader ↔ listing.Clean reader := by
  unfold ReadsBack
  rw [toList_tsv hne, Tsv.Reader.read_print_iff row_ne_nil, List.forall_mem_map,
    List.forall_mem_cons, keeps_fields]
  exact and_iff_right keeps_headers

/-- One hit, with a tab that is cut off. -/
def oneHit : Listing :=
  .search [⟨"7", String.ofList (List.replicate 80 'x' ++ ['\t']), .float 0x3FED1EB851EB851F,
    ["a", "b"], none⟩]

theorem clean_oneHit : oneHit.Clean reader := by
  intro row hrow
  obtain rfl := List.mem_singleton.mp hrow
  have hplain : ∀ text ∈ [['7'], List.replicate 80 'x', ['a'], ['b']],
      '\t' ∉ text ∧ '\n' ∉ text ∧ '\r' ∉ text := by decide
  refine ⟨fun text htext => ?_, fun htrims => ?_⟩
  · obtain ⟨ht, hn, hr⟩ := hplain text htext
    exact clean_of_not_mem ht hn hr
  · cases reader with
    | newline | universal => exact htrims
    | crlf => exact absurd htrims (by unfold Tsv.Reader.Trims; decide)

theorem readsBack_oneHit :
    oneHit.fields ≠ [] ∧ ∀ reader, oneHit.ReadsBack reader :=
  have hne : oneHit.fields ≠ [] := List.cons_ne_nil _ _
  ⟨hne, fun reader => (readsBack_iff reader hne).mpr clean_oneHit⟩

theorem not_readsBack {row : List String} (text : String) {c : Char}
    (hrow : row ∈ listing.fields) (htext : text ∈ row) (hc : c ∈ text.toList)
    (hsep : reader.Separates c) : ¬ listing.ReadsBack reader := by
  intro h
  have hread : chars row ∈ reader.read (listing.tsv false).toList := by
    rw [h]
    exact List.mem_map_of_mem (List.mem_cons_of_mem _ hrow)
  exact Tsv.Reader.mem_read hread _ (List.mem_map_of_mem htext) c hc hsep

/-- A tab in a branch's name opens a column, and a newline in a content a row. -/
theorem fields_shifted :
    (¬ ∀ (reader : Tsv.Reader) (listing : Listing), listing.fields ≠ [] →
      listing.ReadsBack reader) ∧
    ∀ reader, ¬ (branchList [⟨"7", "a\tb", "active", none, none⟩]).ReadsBack reader ∧
      ¬ (memoryList [⟨"7", "a\nb", "semantic", [], none, none⟩]).ReadsBack reader := by
  have htab : ∀ reader, ¬ (branchList [⟨"7", "a\tb", "active", none, none⟩]).ReadsBack reader :=
    fun reader => not_readsBack "a\tb" (c := '\t') (.head _) (by decide) (by decide)
      Tsv.Reader.separates_tab
  refine ⟨fun hclaim => ?_, fun reader => ⟨htab reader, ?_⟩⟩
  · exact htab .newline (hclaim .newline _ (List.cons_ne_nil _ _))
  · exact not_readsBack "a\nb" (c := '\n') (.head _) (by decide) (by decide)
      Tsv.Reader.separates_newline

end Listing

end ClawDB.Cli
