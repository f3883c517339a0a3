import Mathlib.Tactic.SplitIfs
import RuleChart.Json.Printer
import RuleChart.Json.Reader

namespace RuleChart.Json

/-- The reader finds a value at the start of the text and leaves the rest of it. -/
def Reads {α : Type} (reader : JsonReader α) (text : List Char) (value : α)
    (rest : List Char) : Prop :=
  ∃ shorter, reader text = .ok ⟨some value, rest, shorter⟩

/-- That the rest is shorter comes with what was found. -/
theorem Reads.of_found {α : Type} {reader : JsonReader α} {text rest : List Char} {value : α}
    (found : (reader text).map (fun scan => (scan.value, scan.rest)) = .ok (some value, rest)) :
    Reads reader text value rest := by
  cases result : reader text with
  | error error =>
      rw [result] at found
      cases found
  | ok scan =>
      obtain ⟨seen, left, shorter⟩ := scan
      rw [result] at found
      cases found
      exact ⟨shorter, result⟩

/-- The text is over, or a comma or a closing mark follows. -/
def Ends (text : List Char) : Prop := ∀ c ∈ text.head?, c = ',' ∨ c = ']' ∨ c = '\x7d'

variable {left : List Char}

/-- A number is over where a value ends. -/
theorem Ends.no_digits (ends : Ends left) :
    left.takeWhile isDigit = [] ∧ left.dropWhile isDigit = left := by
  cases left with
  | nil => exact ⟨rfl, rfl⟩
  | cons c rest => rcases ends c rfl with rfl | rfl | rfl <;> exact ⟨rfl, rfl⟩

theorem Ends.no_fraction (ends : Ends left) :
    fractionDigits left = ([], left) ∧ exponentPart left = (none, left) := by
  cases left with
  | nil => exact ⟨rfl, rfl⟩
  | cons c rest => rcases ends c rfl with rfl | rfl | rfl <;> exact ⟨rfl, rfl⟩

theorem ofDigits_toDigits (value : Nat) : ofDigits (Nat.toDigits 10 value) = value :=
  Nat.ofDigitChars_ten_toDigits

theorem isDigit_of_mem_toDigits {value : Nat} {c : Char} (member : c ∈ Nat.toDigits 10 value) :
    isDigit c = true :=
  Nat.isDigit_of_mem_toDigits (by decide) (by decide) member

theorem toDigits_cons (value : Nat) :
    ∃ first rest, Nat.toDigits 10 value = first :: rest ∧ isDigit first = true := by
  obtain ⟨first, rest, digits⟩ := List.exists_cons_of_ne_nil
    (Nat.toDigits_ne_nil : Nat.toDigits 10 value ≠ [])
  exact ⟨first, rest, digits, isDigit_of_mem_toDigits (digits ▸ List.mem_cons_self)⟩

theorem digitChar_ne_zero : ∀ digit < 10, 0 < digit → Nat.digitChar digit ≠ '0' := by decide

theorem toDigits_of_pos {value : Nat} (positive : 0 < value) :
    ∃ first rest, Nat.toDigits 10 value = first :: rest ∧ first ≠ '0' := by
  induction value using Nat.strongRecOn with
  | ind value valueIH =>
      rcases Nat.lt_or_ge value 10 with small | large
      · exact ⟨_, [], Nat.toDigits_of_lt_base small, digitChar_ne_zero value small positive⟩
      · obtain ⟨first, rest, digits, nonzero⟩ := valueIH (value / 10) (by omega) (by omega)
        rw [Nat.toDigits_of_base_le (by decide) large, digits]
        exact ⟨first, _, rfl, nonzero⟩

theorem wholeDigits?_toDigits (value : Nat) (ends : Ends left) :
    wholeDigits? (Nat.toDigits 10 value ++ left) = some (Nat.toDigits 10 value, left) := by
  rcases Nat.eq_zero_or_pos value with rfl | positive
  · rfl
  have every (c : Char) : c ∈ Nat.toDigits 10 value → isDigit c = true := isDigit_of_mem_toDigits
  obtain ⟨first, rest, digits, nonzero⟩ := toDigits_of_pos positive
  rw [digits] at every ⊢
  have digit : isDigit first = true := every first List.mem_cons_self
  have later : ∀ c ∈ rest, isDigit c = true :=
    fun c member => every c (List.mem_cons_of_mem _ member)
  have run : (rest ++ left).takeWhile isDigit = rest := by
    rw [List.takeWhile_append_of_pos later, ends.no_digits.1, List.append_nil]
  have dropped : (rest ++ left).dropWhile isDigit = left := by
    rw [List.dropWhile_append_of_pos later, ends.no_digits.2]
  rw [List.cons_append, wholeDigits?]
  · rw [if_pos digit, run, dropped]
  · exact nonzero

theorem unsignedNumber?_toDigits (negative : Bool) (value : Nat) (ends : Ends left) :
    unsignedNumber? negative (Nat.toDigits 10 value ++ left) =
      some (.int (if negative then -(value : Int) else value), left) := by
  simp [unsignedNumber?, wholeDigits?_toDigits value ends, ends.no_fraction, ofDigits_toDigits]

/-- A text that starts with a digit has no sign and is none of the three names. -/
theorem number?_digit {c : Char} (digit : isDigit c = true) (text : List Char) :
    number? (c :: text) = unsignedNumber? false (c :: text) := by
  rw [number?] <;>
  · intros
    rename_i start
    obtain ⟨rfl, -⟩ := List.cons.inj start
    exact absurd digit (by decide)

theorem number?_minus_digit {c : Char} (digit : isDigit c = true) (text : List Char) :
    number? ('-' :: c :: text) = unsignedNumber? true (c :: text) := by
  rw [number?]
  rintro rest start
  obtain ⟨rfl, -⟩ := List.cons.inj start
  exact absurd digit (by decide)

theorem jsonText_natural (value : Nat) :
    (Number.int value).jsonText.toList = Nat.toDigits 10 value := Nat.toList_repr

theorem jsonText_negative (value : Nat) :
    (Number.int (Int.negSucc value)).jsonText.toList = '-' :: Nat.toDigits 10 (value + 1) := by
  change ("-" ++ Nat.repr (value + 1)).toList = _
  rw [String.toList_append, Nat.toList_repr]
  rfl

theorem number?_integer (value : Int) (ends : Ends left) :
    number? ((Number.int value).jsonText.toList ++ left) = some (.int value, left) := by
  cases value with
  | ofNat value =>
      have known := unsignedNumber?_toDigits false value ends
      obtain ⟨first, rest, digits, digit⟩ := toDigits_cons value
      rw [Int.ofNat_eq_natCast, jsonText_natural]
      rw [digits, List.cons_append] at known ⊢
      rw [number?_digit digit]
      exact known
  | negSucc value =>
      have known := unsignedNumber?_toDigits true (value + 1) ends
      obtain ⟨first, rest, digits, digit⟩ := toDigits_cons (value + 1)
      rw [jsonText_negative]
      rw [digits, List.cons_append] at known ⊢
      rw [List.cons_append, number?_minus_digit digit]
      exact known

theorem codeUnit?_hexDigit : ∀ high < 2, ∀ low < 16,
    codeUnit? '0' '0' (hexDigit high) (hexDigit low) = some (high * 16 + low) := by decide

theorem escape_control (opening : Nat) {c : Char} (control : c.toNat < 32) {text : List Char}
    (more : text ≠ []) :
    escape opening ('u' :: '0' :: '0' :: hexDigit (c.toNat / 16) :: hexDigit (c.toNat % 16) ::
      text) = .ok (some c, text) := by
  have unit := codeUnit?_hexDigit (c.toNat / 16) (by omega) (c.toNat % 16) (by omega)
  rw [show c.toNat / 16 * 16 + c.toNat % 16 = c.toNat by omega] at unit
  have alone : isHighSurrogate c.toNat = false ∧ isLowSurrogate c.toNat = false := by
    simp only [isHighSurrogate, isLowSurrogate, Bool.and_eq_false_iff, decide_eq_false_iff_not]
    omega
  obtain ⟨next, rest, rfl⟩ := List.exists_cons_of_ne_nil more
  simp [escape, codeEscape, unit, alone, Char.ofNat_toNat]

variable {opening : Nat} {text value : List Char}

theorem stringBody_escape {c : Char} {more : List Char}
    (found : escape opening text = .ok (some c, more))
    (later : Reads (stringBody opening) more value left) :
    Reads (stringBody opening) ('\\' :: text) (c :: value) left := by
  obtain ⟨_, later⟩ := later
  refine .of_found ?_
  rw [stringBody, if_neg (by decide), if_pos rfl]
  split
  · rename_i failed
    rw [found] at failed
    cases failed
  · rename_i known
    rw [found] at known
    cases known
    rw [later]
    rfl

theorem stringBody_plain {c : Char} (quote : c ≠ '"') (backslash : c ≠ '\\')
    (printable : ¬ c.toNat < 32) (later : Reads (stringBody opening) text value left) :
    Reads (stringBody opening) (c :: text) (c :: value) left := by
  obtain ⟨shorter, later⟩ := later
  refine ⟨Nat.lt_succ_of_lt shorter, ?_⟩
  rw [stringBody, if_neg quote, if_neg backslash, if_neg printable, later]
  rfl

theorem Reads.ne_nil (reads : Reads (stringBody opening) text value left) : text ≠ [] := by
  rintro rfl
  obtain ⟨shorter, -⟩ := reads
  cases shorter

theorem stringBody_escaped (c : Char) (later : Reads (stringBody opening) text value left) :
    Reads (stringBody opening) (escaped c ++ text) (c :: value) left := by
  unfold escaped
  split_ifs with quote backslash newline carriageReturn tab backspace formFeed control
  · exact stringBody_escape (by rw [quote]; rfl) later
  · exact stringBody_escape (by rw [backslash]; rfl) later
  · exact stringBody_escape (by rw [newline]; rfl) later
  · exact stringBody_escape (by rw [carriageReturn]; rfl) later
  · exact stringBody_escape (by rw [tab]; rfl) later
  · exact stringBody_escape (by rw [backspace]; rfl) later
  · exact stringBody_escape (by rw [formFeed]; rfl) later
  · exact stringBody_escape (escape_control opening control later.ne_nil) later
  · exact stringBody_plain quote backslash control later

theorem stringBody_flatMap_escaped (opening : Nat) (value left : List Char) :
    Reads (stringBody opening) (value.flatMap escaped ++ '"' :: left) value left := by
  induction value with
  | nil =>
      change Reads (stringBody opening) ('"' :: left) [] left
      refine ⟨Nat.lt_succ_self _, ?_⟩
      rw [stringBody, if_pos rfl]
  | cons c rest restIH =>
      rw [List.flatMap_cons, List.append_assoc]
      exact stringBody_escaped c restIH

/-- A string is read back, whatever its characters are. -/
theorem readString_quoted (text : String) (left : List Char) :
    Reads readString (quoted text ++ left) text left := by
  have shape : quoted text ++ left = '"' :: (text.toList.flatMap escaped ++ '"' :: left) := by
    simp [quoted]
  rw [shape]
  obtain ⟨shorter, body⟩ := stringBody_flatMap_escaped
    ((text.toList.flatMap escaped ++ '"' :: left).length + 1) text.toList left
  refine ⟨Nat.lt_succ_of_lt shorter, ?_⟩
  simp only [readString, body, Option.map_eq_map, Option.map_some, String.ofList_toList]

end RuleChart.Json
