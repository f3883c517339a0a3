namespace RuleChart.Text

/-- The lines of a text: what stands between its line feeds. -/
def lines (text : String) : List String := (text.split '\n').toList.map (·.copy)

theorem lines_intercalate {entries : List String} (nonempty : entries ≠ [])
    (unbroken : ∀ entry ∈ entries, '\n' ∉ entry.toList) :
    lines ("\n".intercalate entries) = entries := by
  have split := String.toList_split_intercalate unbroken
  rw [if_neg nonempty] at split
  exact split

theorem lines_eq_splitOn (text : String) :
    lines text = (text.toList.splitOn '\n').map String.ofList :=
  String.toList_split_char

theorem lines_unbroken {text : String} (unbroken : '\n' ∉ text.toList) : lines text = [text] := by
  rw [lines_eq_splitOn, List.splitOn_eq_singleton unbroken, List.map_singleton,
    String.ofList_toList]

theorem lines_append_newline (front back : String) :
    lines (front ++ "\n" ++ back) = lines front ++ lines back := by
  have joined : (front ++ "\n" ++ back).toList = front.toList ++ '\n' :: back.toList := by simp
  rw [lines_eq_splitOn, joined, List.splitOn_append_cons_self, List.map_append, ← lines_eq_splitOn,
    ← lines_eq_splitOn]

/-- The lines of entries that may be broken themselves. -/
theorem lines_intercalate_newline {entries : List String} (nonempty : entries ≠ []) :
    lines ("\n".intercalate entries) = entries.flatMap lines := by
  induction entries with
  | nil => exact absurd rfl nonempty
  | cons entry rest restIH =>
      cases rest with
      | nil => simp
      | cons next rest =>
          rw [String.intercalate_cons_cons, lines_append_newline,
            restIH (List.cons_ne_nil _ _), List.flatMap_cons (x := entry)]

/-- Every line feed begins one more line. -/
theorem length_lines (text : String) : (lines text).length = text.toList.count '\n' + 1 := by
  rw [lines_eq_splitOn, List.length_map]
  induction text.toList with
  | nil => rfl
  | cons c rest restIH =>
      rw [List.splitOn_cons_eq_if_modifyHead, List.count_cons]
      split <;> simp [restIH]

theorem not_mem_digits {c : Char} (other : c.isDigit = false) (number : Nat) :
    c ∉ Nat.toDigits 10 number := by
  intro member
  have digit := Nat.isDigit_of_mem_toDigits (by decide) (by decide) member
  simp [other] at digit

theorem newline_not_mem_digits (number : Nat) : '\n' ∉ Nat.toDigits 10 number :=
  not_mem_digits (by decide) number

theorem digits_injective {one other : Nat} (same : Nat.toDigits 10 one = Nat.toDigits 10 other) :
    one = other := by
  have numbers := congrArg (fun digits => Nat.ofDigitChars 10 digits 0) same
  simpa using numbers

/-- A number at the end of a text begins behind the last of the separators. -/
theorem digits_behind_separator {separator : Char} (noDigit : separator.isDigit = false)
    (before otherBefore : List Char) {one other : Nat}
    (same : before ++ separator :: Nat.toDigits 10 one =
      otherBefore ++ separator :: Nat.toDigits 10 other) : one = other := by
  have behind (chars : List Char) (number : Nat) :
      (chars ++ separator :: Nat.toDigits 10 number).reverse.takeWhile (· != separator) =
        (Nat.toDigits 10 number).reverse := by
    have digits : ∀ c ∈ (Nat.toDigits 10 number).reverse, (c != separator) = true := by
      intro c member
      have absent := not_mem_digits noDigit number
      simp only [bne_iff_ne]
      rintro rfl
      exact absent (List.mem_reverse.mp member)
    simp [List.takeWhile_append_of_pos digits]
  have ends := congrArg (fun chars => chars.reverse.takeWhile (· != separator)) same
  simp only [behind, List.reverse_inj] at ends
  exact digits_injective ends

end RuleChart.Text
