import RuleChart.Flowchart.Escape

namespace RuleChart.Flowchart

def codes : List (List Char) := [['#', '3', '5', ';'], ['#', 'l', 't', ';'], ['#', 'g', 't', ';']]

theorem codes_cases {code : List Char} (known : code ∈ codes) :
    code = ['#', '3', '5', ';'] ∨ code = ['#', 'l', 't', ';'] ∨ code = ['#', 'g', 't', ';'] := by
  simpa [codes] using known

/-- A label without quotes, delimiters and control characters, where every `#` begins one of
the codes. -/
structure Safe (label : List Char) : Prop where
  unquoted : ∀ c ∈ label, c ∉ ['"', '\x7b', '\x7d', '|', '<', '>']
  printable : ∀ c ∈ label, 32 ≤ c.toNat ∧ c.toNat ≠ 127
  coded : ∀ rest, '#' :: rest <:+ label → ∃ code ∈ codes, code <+: '#' :: rest

namespace Safe

theorem nil : Safe [] where
  unquoted := by simp
  printable := by simp
  coded := by simp

/-- No code is cut where two safe labels meet. -/
theorem append {front back : List Char} (frontSafe : Safe front) (backSafe : Safe back) :
    Safe (front ++ back) where
  unquoted c member := (List.mem_append.mp member).elim (frontSafe.unquoted c) (backSafe.unquoted c)
  printable c member :=
    (List.mem_append.mp member).elim (frontSafe.printable c) (backSafe.printable c)
  coded := by
    intro rest suffix
    obtain ⟨before, same⟩ := suffix
    rcases List.append_eq_append_iff.mp same with ⟨between, rfl, meets⟩ | ⟨between, -, inBack⟩
    · cases between with
      | nil => exact backSafe.coded rest (meets ▸ List.suffix_refl _)
      | cons c more =>
          obtain ⟨rfl, rfl⟩ := List.cons.inj meets
          obtain ⟨code, known, start⟩ := frontSafe.coded more (List.suffix_append _ _)
          exact ⟨code, known, start.trans (List.prefix_append ('#' :: more) back)⟩
    · exact backSafe.coded rest (inBack ▸ List.suffix_append _ _)

theorem single {c : Char} (unquoted : c ∉ ['"', '\x7b', '\x7d', '|', '<', '>', '#'])
    (printable : isControl c = false) : Safe [c] where
  unquoted := by
    intro other member
    obtain rfl : other = c := by simpa using member
    intro inside
    exact unquoted (List.mem_append_left ['#'] inside)
  printable := by
    intro other member
    obtain rfl : other = c := by simpa using member
    simpa [isControl] using printable
  coded := by
    intro rest suffix
    have same : '#' = c := by
      have member := suffix.mem List.mem_cons_self
      simpa using member
    simp [← same] at unquoted

theorem of_code {code : List Char} (known : code ∈ codes) : Safe code where
  unquoted := by
    rcases codes_cases known with rfl | rfl | rfl <;> simp
  printable := by
    rcases codes_cases known with rfl | rfl | rfl <;> simp
  coded := by
    -- The only `#` of a code is its first character.
    have once : code.head? = some '#' ∧ '#' ∉ code.tail := by
      rcases codes_cases known with rfl | rfl | rfl <;> decide
    intro rest suffix
    obtain ⟨first, others⟩ := once
    cases code with
    | nil => cases first
    | cons c tail =>
        rcases List.suffix_cons_iff.mp suffix with whole | inTail
        · exact ⟨_, known, whole ▸ List.prefix_refl _⟩
        · exact absurd (inTail.mem List.mem_cons_self) others

end Safe

theorem escapedChar_safe (c : Char) : Safe (escapedChar c) := by
  unfold escapedChar
  cases control : isControl c with
  | true => exact .single (by decide) (by decide)
  | false =>
      rw [if_neg (by decide)]
      split
      · exact .single (by decide) (by decide)
      split
      · exact .of_code (by decide)
      split
      · exact .of_code (by decide)
      split
      · exact .of_code (by decide)
      split
      · exact .nil
      split
      · exact .single (by decide) (by decide)
      · exact .single (by simp_all) control

theorem flatMap_safe (text : List Char) : Safe (text.flatMap escapedChar) := by
  induction text with
  | nil => exact .nil
  | cons c rest restIH => exact (escapedChar_safe c).append restIH

theorem escapeLabel_safe (limit : Int) (text : String) : Safe (escapeLabel limit text).toList := by
  rw [escapeLabel, String.toList_ofList]
  exact flatMap_safe _

theorem Safe.newline_not_mem {label : List Char} (safe : Safe label) : '\n' ∉ label := by
  intro member
  have printable := safe.printable '\n' member
  exact absurd printable.1 (by decide)

end RuleChart.Flowchart
