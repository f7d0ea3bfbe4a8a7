/-
# `Lib.Text` — the string operations of the Rust standard library

`starts_with`, `strip_prefix`, `strip_suffix`, `trim`, `split`, `to_ascii_lowercase` and
`parse` on Lean strings.  A `str` is a sequence of Unicode scalar values, and so is
`s.toList`; all of them are defined there, and those that proofs speak of are
characterised by concatenation.
-/
import Mathlib.Tactic.Common

namespace Text

/-- `str::starts_with`. -/
def startsWith (s p : String) : Bool := p.toList.isPrefixOf s.toList

/-- `str::strip_prefix`. -/
def stripPrefix (s p : String) : Option String :=
  if p.toList.isPrefixOf s.toList then some (String.ofList (s.toList.drop p.toList.length))
  else none

/-- `str::strip_suffix`. -/
def stripSuffix (s x : String) : Option String :=
  if x.toList.isSuffixOf s.toList then
    some (String.ofList (s.toList.take (s.toList.length - x.toList.length)))
  else none

/-- `char::is_whitespace`: the Unicode property `White_Space`. -/
def isWhitespace (c : Char) : Bool :=
  let n := c.toNat
  (9 ≤ n && n ≤ 13) || n == 32 || n == 0x85 || n == 0xA0 || n == 0x1680 ||
    (0x2000 ≤ n && n ≤ 0x200A) || n == 0x2028 || n == 0x2029 || n == 0x202F || n == 0x205F ||
    n == 0x3000

/-- `str::trim`. -/
def trim (s : String) : String :=
  String.ofList ((s.toList.dropWhile isWhitespace).reverse.dropWhile isWhitespace).reverse

/-- `str::to_ascii_lowercase`. -/
def toAsciiLowercase (s : String) : String :=
  String.ofList (s.toList.map fun c => if 'A' ≤ c ∧ c ≤ 'Z' then Char.ofNat (c.toNat + 32) else c)

/-- `str::parse::<uN>`: decimal digits, perhaps after a plus sign, of a number below `bound`. -/
def parseUnsigned (bound : Nat) (s : String) : Option Nat :=
  let digits := match s.toList with
    | '+' :: cs => cs
    | cs => cs
  if digits ≠ [] ∧ digits.all Char.isDigit then
    let n := digits.foldl (fun n c => n * 10 + (c.toNat - 48)) 0
    if n < bound then some n else none
  else none

/-- `str::parse::<bool>`. -/
def parseBool : String → Option Bool
  | "true" => some true
  | "false" => some false
  | _ => none

/-- `str::split` at a character. -/
def splitAt (c : Char) (s : String) : List String := (s.toList.splitOn c).map String.ofList

theorem startsWith_iff {s p : String} : startsWith s p = true ↔ ∃ t, s = p ++ t := by
  simp only [startsWith, List.isPrefixOf_iff_prefix]
  constructor
  · rintro ⟨t, ht⟩
    refine ⟨String.ofList t, String.toList_inj.mp ?_⟩
    rw [String.toList_append, String.toList_ofList, ht]
  · rintro ⟨t, rfl⟩
    exact ⟨t.toList, by rw [String.toList_append]⟩

theorem stripSuffix_eq_some {s x p : String} : stripSuffix s x = some p ↔ s = p ++ x := by
  unfold stripSuffix
  constructor
  · intro h
    split at h
    next hx =>
      obtain ⟨t, ht⟩ := List.isSuffixOf_iff_suffix.mp hx
      refine String.toList_inj.mp ?_
      rw [← Option.some.inj h, ← ht, String.toList_append, String.toList_ofList]
      simp
    next => cases h
  · rintro rfl
    have hx : x.toList <:+ (p ++ x).toList := ⟨p.toList, by rw [String.toList_append]⟩
    rw [if_pos (List.isSuffixOf_iff_suffix.mpr hx)]
    simp [String.toList_append]

end Text
