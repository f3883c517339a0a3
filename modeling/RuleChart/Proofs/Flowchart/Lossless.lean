import Mathlib.Data.List.Infix
import RuleChart.Proofs.Flowchart.Escape

namespace RuleChart.Flowchart

/-- The text behind a label: its codes, from the left, as the characters that they stand for. -/
def decoded : List Char → List Char
  | '#' :: '3' :: '5' :: ';' :: rest => '#' :: decoded rest
  | '#' :: 'l' :: 't' :: ';' :: rest => '<' :: decoded rest
  | '#' :: 'g' :: 't' :: ';' :: rest => '>' :: decoded rest
  | c :: rest => c :: decoded rest
  | [] => []

/-- What a label shows in place of a character. -/
def lookAlike (c : Char) : Char :=
  if c.toNat < 32 ∨ c.toNat = 127 then ' '
  else if c = '"' then '\''
  else if c = '|' then '/'
  else c

/-- A text as far as its label tells it. -/
def plain (text : List Char) : List Char :=
  (text.filter (fun c => c ≠ '\x7b' ∧ c ≠ '\x7d')).map lookAlike

theorem decoded_cons {c : Char} (uncoded : c ≠ '#') (rest : List Char) :
    decoded (c :: rest) = c :: decoded rest := by
  rw [decoded]
  all_goals rintro _ rfl
  all_goals contradiction

theorem plain_append (front back : List Char) :
    plain (front ++ back) = plain front ++ plain back := by
  simp only [plain, List.filter_append, List.map_append]

theorem plain_singleton {c : Char} (kept : c ≠ '\x7b' ∧ c ≠ '\x7d') :
    plain [c] = [lookAlike c] := by
  simp [plain, kept]

/-- What one character adds to a label is read back without regard to what follows. -/
theorem decoded_escapedChar (c : Char) (rest : List Char) :
    decoded (escapedChar c ++ rest) = plain [c] ++ decoded rest := by
  by_cases special : c ∈ ['"', '#', '<', '>', '\x7b', '\x7d', '|']
  · simp only [List.mem_cons, List.not_mem_nil, or_false] at special
    rcases special with rfl | rfl | rfl | rfl | rfl | rfl | rfl <;>
      simp [escapedChar, isControl, decoded, plain, lookAlike]
  · simp only [List.mem_cons, List.not_mem_nil, or_false, not_or] at special
    obtain ⟨quote, number, less, greater, left, right, bar⟩ := special
    rw [plain_singleton ⟨left, right⟩]
    by_cases control : c.toNat < 32 ∨ c.toNat = 127
    · simp [escapedChar, isControl, lookAlike, control, decoded_cons]
    · simp [escapedChar, isControl, lookAlike, control, quote, number, less, greater, left, right,
        bar, decoded_cons]

theorem decoded_flatMap (text : List Char) : decoded (text.flatMap escapedChar) = plain text := by
  induction text with
  | nil => rfl
  | cons c rest restIH =>
      rw [List.flatMap_cons, decoded_escapedChar, restIH, ← plain_append, List.singleton_append]

/-- No two codes begin at one place. -/
theorem code_unique {code other text : List Char} (known : code ∈ codes)
    (otherKnown : other ∈ codes) (start : code <+: text) (otherStart : other <+: text) :
    code = other := by
  have width {code : List Char} (known : code ∈ codes) : code.length = 4 := by
    rcases codes_cases known with rfl | rfl | rfl <;> rfl
  have nested := List.prefix_of_prefix_length_le start otherStart
    (Nat.le_of_eq ((width known).trans (width otherKnown).symm))
  exact nested.eq_of_length ((width known).trans (width otherKnown).symm)

theorem slice_eq_take (limit : Int) (text : List Char) :
    slice limit text = text.take (if 0 ≤ limit then limit else text.length + limit).toNat := by
  unfold slice
  split
  · rfl
  · congr 1
    omega

theorem slice_mono {less limit : Int} (nonneg : 0 ≤ less) (within : less ≤ limit)
    (text : List Char) : slice less text <+: slice limit text := by
  rw [slice, slice, if_pos nonneg, if_pos (Int.le_trans nonneg within)]
  exact List.take_prefix_take_left (Int.toNat_le_toNat within)

theorem escapeLabel_mono {less limit : Int} (nonneg : 0 ≤ less) (within : less ≤ limit)
    (text : String) : (escapeLabel less text).toList <+: (escapeLabel limit text).toList := by
  rw [escapeLabel, escapeLabel, String.toList_ofList, String.toList_ofList]
  exact (slice_mono nonneg within text.toList).flatMap escapedChar

/-- A label has no markup in it, and each `#` in it begins one code.  Its codes, read back, give the
text up to the limit, a negative one counted from the end, as far as labels tell it.  What a
smaller limit leaves is the beginning of what a greater one leaves. -/
theorem escapeLabel_lossless (limit : Int) (text : String) :
    let label := (escapeLabel limit text).toList
    Safe label ∧
      (∀ rest, '#' :: rest <:+ label → ∃! code, code ∈ codes ∧ code <+: '#' :: rest) ∧
      decoded label =
        plain (text.toList.take (if 0 ≤ limit then limit else text.length + limit).toNat) ∧
      ∀ less : Int, 0 ≤ less → less ≤ limit → (escapeLabel less text).toList <+: label := by
  intro label
  have safe : Safe label := escapeLabel_safe limit text
  refine ⟨safe, fun rest suffix => ?_, ?_, fun less nonneg within => ?_⟩
  · obtain ⟨code, known, start⟩ := safe.coded rest suffix
    exact ⟨code, ⟨known, start⟩, fun other found => code_unique found.1 known found.2 start⟩
  · change decoded (escapeLabel limit text).toList = _
    rw [escapeLabel, String.toList_ofList, decoded_flatMap, slice_eq_take, String.length_toList]
  · exact escapeLabel_mono nonneg within text

end RuleChart.Flowchart
