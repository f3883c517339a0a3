import RuleChart.Proofs.Json.Scalar

namespace RuleChart.Json

/-! Reading back text without blanks.

No value starts with a blank or with a closing mark, and what follows a value inside of a container
ends it.  So each reader stops where the printer of its value stopped.
-/

/-- Values whose numbers are integers of no more digits than are read, and whose objects have no
name twice. -/
inductive Plain (digits : Option Nat) : Json → Prop where
  | null : Plain digits .null
  | bool (value : Bool) : Plain digits (.bool value)
  | integer (value : Int) (short : overlong digits (.int value) = false) :
      Plain digits (.number (.int value))
  | string (value : String) : Plain digits (.string value)
  | array {items : List Json} (each : ∀ item ∈ items, Plain digits item) :
      Plain digits (.array items)
  | object {fields : List (String × Json)} (distinct : (fields.map Prod.fst).Nodup)
      (each : ∀ field ∈ fields, Plain digits field.2) : Plain digits (.object fields)

variable {digits : Option Nat}

/-- No value starts with one of these. -/
def neverFirst : List Char := [' ', '\t', '\n', '\r', ']', '\x7d', '\ufeff']

def Opens (text : List Char) : Prop := ∃ c rest, text = c :: rest ∧ c ∉ neverFirst

theorem Opens.append {text : List Char} (opens : Opens text) (more : List Char) :
    Opens (text ++ more) := by
  obtain ⟨c, rest, rfl, first⟩ := opens
  exact ⟨c, rest ++ more, rfl, first⟩

theorem Opens.skipBlanks {text : List Char} (opens : Opens text) : skipBlanks text = text := by
  obtain ⟨c, rest, rfl, first⟩ := opens
  have blanks : ∀ blank ∉ neverFirst, ¬ isBlank blank = true := by
    intro blank absent
    simp only [neverFirst, List.mem_cons, not_or] at absent
    simp [isBlank, absent]
  exact List.dropWhile_cons_of_neg (blanks c first)

theorem Opens.skipBlanks_ne {text : List Char} (opens : Opens text) {mark : Char}
    (never : mark ∈ neverFirst) (rest : List Char) : Json.skipBlanks text ≠ mark :: rest := by
  rw [opens.skipBlanks]
  obtain ⟨c, others, rfl, first⟩ := opens
  rintro same
  cases same
  exact first never

theorem opens_of_isDigit {c : Char} (digit : isDigit c = true) (rest : List Char) :
    Opens (c :: rest) := by
  have others : neverFirst.all (fun other => !isDigit other) = true := by decide
  refine ⟨c, rest, rfl, fun member => ?_⟩
  simpa [digit] using List.all_eq_true.mp others c member

theorem Plain.opens {value : Json} (plain : Plain digits value) : Opens value.compactChars := by
  cases plain with
  | null => exact ⟨'n', _, rfl, by decide⟩
  | bool value => cases value with
    | true => exact ⟨'t', _, rfl, by decide⟩
    | false => exact ⟨'f', _, rfl, by decide⟩
  | integer value short => cases value with
    | ofNat value =>
        obtain ⟨first, rest, digits, digit⟩ := toDigits_cons value
        rw [compactChars, Int.ofNat_eq_natCast, jsonText_natural, digits]
        exact opens_of_isDigit digit rest
    | negSucc value =>
        rw [compactChars, jsonText_negative]
        exact ⟨'-', _, rfl, by decide⟩
  | string value => exact ⟨'"', _, rfl, by decide⟩
  | @array items each => cases items with
    | nil | cons => exact ⟨'[', _, rfl, by decide⟩
  | @object fields distinct each => cases fields with
    | nil | cons => exact ⟨'\x7b', _, rfl, by decide⟩

variable {text rest left : List Char} {value : Json}

theorem readAtom_null (left : List Char) :
    Reads (readAtom digits) (Json.null.compactChars ++ left) .null left := .of_found rfl

theorem readAtom_bool (value : Bool) (left : List Char) :
    Reads (readAtom digits) ((Json.bool value).compactChars ++ left) (.bool value) left := by
  cases value with
  | true => exact .of_found rfl
  | false => exact .of_found rfl

theorem readAtom_string {found : String} (read : Reads readString ('"' :: rest) found left) :
    Reads (readAtom digits) ('"' :: rest) (.string found) left := by
  obtain ⟨shorter, read⟩ := read
  refine ⟨shorter, ?_⟩
  rw [readAtom, read]
  rfl

theorem readAtom_number {number : Number} (found : number? text = some (number, left))
    (short : overlong digits number = false) :
    Reads (readAtom digits) text (.number number) left := by
  refine ⟨number?_shorter found, ?_⟩
  unfold readAtom
  split
  · cases found
  · cases found
  · cases found
  · cases found
  · split
    · rename_i known
      rw [found] at known
      cases known
      rw [short]
      rfl
    · rename_i failed
      rw [found] at failed
      cases failed

theorem readValue_atom {room : Nat} (atom : Reads (readAtom digits) text value left) :
    Reads (readValue digits room) text value left := by
  obtain ⟨shorter, atom⟩ := atom
  refine ⟨shorter, ?_⟩
  rw [readValue]
  · exact atom
  · rintro rest rfl
    cases atom
  · rintro rest rfl
    cases atom

variable {readItem : JsonReader Json} {item : Json} {after : List Char}

theorem readItems_last (first : Reads readItem text item after)
    (closed : skipBlanks after = ']' :: left) :
    Reads (readItems readItem) text [item] left := by
  obtain ⟨_, first⟩ := first
  refine .of_found ?_
  rw [readItems, first]
  dsimp only
  -- The blanks end at a bracket, at a comma or at anything else.
  split
  · rename_i found
    cases closed.symm.trans found
    rfl
  · rename_i found
    cases closed.symm.trans found
  · rename_i found _
    exact absurd closed (found _)

theorem readItems_more {items : List Json} (first : Reads readItem text item after)
    (comma : skipBlanks after = ',' :: rest)
    (later : Reads (readItems readItem) (skipBlanks rest) items left) :
    Reads (readItems readItem) text (item :: items) left := by
  obtain ⟨_, first⟩ := first
  obtain ⟨_, later⟩ := later
  refine .of_found ?_
  rw [readItems, first]
  dsimp only
  split
  · rename_i found
    cases comma.symm.trans found
  · rename_i found
    cases comma.symm.trans found
    rw [later]
    rfl
  · rename_i found
    exact absurd comma (found _)

theorem readValue_emptyArray (inner : Nat) (left : List Char) :
    Reads (readValue digits (inner + 1)) ('[' :: ']' :: left) (.array []) left := by
  refine .of_found ?_
  rw [readValue]
  rfl

theorem readValue_array {inner : Nat} {items : List Json} (opens : Opens text)
    (read : Reads (readItems (readValue digits inner)) text items left) :
    Reads (readValue digits (inner + 1)) ('[' :: text) (.array items) left := by
  have unclosed := opens.skipBlanks_ne (show ']' ∈ neverFirst by decide)
  rw [← opens.skipBlanks] at read
  obtain ⟨_, read⟩ := read
  refine .of_found ?_
  rw [readValue]
  split
  · rename_i found
    exact absurd found (unclosed _)
  · rw [read]
    rfl

variable {name : String} {afterName valueText : List Char}

theorem readFields_last (named : Reads readString text name afterName)
    (colon : skipBlanks afterName = ':' :: valueText)
    (first : Reads readItem (skipBlanks valueText) item after)
    (closed : skipBlanks after = '\x7d' :: left) :
    Reads (readFields readItem) text [(name, item)] left := by
  obtain ⟨_, named⟩ := named
  obtain ⟨_, first⟩ := first
  refine .of_found ?_
  rw [readFields, named]
  dsimp only
  split
  · rename_i found
    cases colon.symm.trans found
    rw [first]
    dsimp only
    split
    · rename_i found
      cases closed.symm.trans found
      rfl
    · rename_i found
      cases closed.symm.trans found
    · rename_i found _
      exact absurd closed (found _)
  · rename_i found
    exact absurd colon (found _)

theorem readFields_more {fields : List (String × Json)}
    (named : Reads readString text name afterName)
    (colon : skipBlanks afterName = ':' :: valueText)
    (first : Reads readItem (skipBlanks valueText) item after)
    (comma : skipBlanks after = ',' :: rest)
    (later : Reads (readFields readItem) (skipBlanks rest) fields left) :
    Reads (readFields readItem) text ((name, item) :: fields) left := by
  obtain ⟨_, named⟩ := named
  obtain ⟨_, first⟩ := first
  obtain ⟨_, later⟩ := later
  refine .of_found ?_
  rw [readFields, named]
  dsimp only
  split
  · rename_i found
    cases colon.symm.trans found
    rw [first]
    dsimp only
    split
    · rename_i found
      cases comma.symm.trans found
    · rename_i found
      cases comma.symm.trans found
      rw [later]
      rfl
    · rename_i found
      exact absurd comma (found _)
  · rename_i found
    exact absurd colon (found _)

theorem readValue_emptyObject (inner : Nat) (left : List Char) :
    Reads (readValue digits (inner + 1)) ('\x7b' :: '\x7d' :: left) (.object []) left := by
  refine .of_found ?_
  rw [readValue]
  rfl

theorem readValue_object {inner : Nat} {fields : List (String × Json)} (opens : Opens text)
    (read : Reads (readFields (readValue digits inner)) text fields left) :
    Reads (readValue digits (inner + 1)) ('\x7b' :: text) (ofFields fields) left := by
  have unclosed := opens.skipBlanks_ne (show '\x7d' ∈ neverFirst by decide)
  rw [← opens.skipBlanks] at read
  obtain ⟨_, read⟩ := read
  refine .of_found ?_
  rw [readValue]
  split
  · rename_i found
    exact absurd found (unclosed _)
  · rw [read]
    rfl

theorem putField_of_not_mem {fields : List (String × Json)}
    (absent : name ∉ fields.map Prod.fst) (value : Json) :
    putField fields name value = fields ++ [(name, value)] := by
  induction fields with
  | nil => rfl
  | cons field rest restIH =>
      simp only [List.map_cons, List.mem_cons, not_or] at absent
      rw [putField, if_neg (Ne.symm absent.1), restIH absent.2, List.cons_append]

theorem foldl_putField {kept fields : List (String × Json)}
    (distinct : ((kept ++ fields).map Prod.fst).Nodup) :
    fields.foldl (fun kept field => putField kept field.1 field.2) kept = kept ++ fields := by
  induction fields generalizing kept with
  | nil => exact (List.append_nil kept).symm
  | cons field rest restIH =>
      have absent : field.1 ∉ kept.map Prod.fst := by
        rw [List.map_append, List.map_cons, List.nodup_append] at distinct
        exact fun member => distinct.2.2 _ member _ List.mem_cons_self rfl
      rw [List.append_cons] at distinct ⊢
      rw [List.foldl_cons, putField_of_not_mem absent, restIH distinct]

theorem ofFields_of_nodup {fields : List (String × Json)}
    (distinct : (fields.map Prod.fst).Nodup) : ofFields fields = .object fields := by
  rw [ofFields, foldl_putField (by simpa using distinct), List.nil_append]

/-- Wherever its text stands, the reader finds the value in it. -/
structure ReadBack (reader : JsonReader Json) (value : Json) : Prop where
  opens : Opens value.compactChars
  reads : ∀ left, Ends left → Reads reader (value.compactChars ++ left) value left

theorem ends_compactItems (items : List Json) (left : List Char) :
    Ends (compactItems items ++ left) := by
  cases items with
  | nil => simp [Ends, compactItems]
  | cons item rest => simp [Ends, compactItems]

theorem ends_compactFields (fields : List (String × Json)) (left : List Char) :
    Ends (compactFields fields ++ left) := by
  cases fields with
  | nil => simp [Ends, compactFields]
  | cons field rest => simp [Ends, compactFields]

theorem readItems_compact {first : Json} {items : List Json}
    (each : ∀ item ∈ first :: items, ReadBack readItem item) (left : List Char) :
    Reads (readItems readItem) (first.compactChars ++ compactItems items ++ left)
      (first :: items) left := by
  have own := each first List.mem_cons_self
  induction items generalizing first with
  | nil =>
      rw [List.append_assoc]
      exact readItems_last (own.reads _ (ends_compactItems [] left)) rfl
  | cons second rest restIH =>
      have next := each second (by simp)
      have later := restIH (fun item member => each item (List.mem_cons_of_mem _ member)) next
      rw [← ((next.opens.append _).append left).skipBlanks] at later
      rw [List.append_assoc]
      exact readItems_more (own.reads _ (ends_compactItems (second :: rest) left)) rfl later

theorem opens_quoted (name : String) : Opens (quoted name) := ⟨'"', _, rfl, by decide⟩

theorem readFields_compact {name : String} {first : Json} {fields : List (String × Json)}
    (each : ∀ field ∈ (name, first) :: fields, ReadBack readItem field.2) (left : List Char) :
    Reads (readFields readItem)
      (quoted name ++ ':' :: first.compactChars ++ compactFields fields ++ left)
      ((name, first) :: fields) left := by
  have own : ReadBack readItem first := each (name, first) List.mem_cons_self
  have value := own.reads _ (ends_compactFields fields left)
  rw [← (own.opens.append _).skipBlanks] at value
  simp only [List.append_assoc, List.cons_append]
  induction fields generalizing name first with
  | nil => exact readFields_last (readString_quoted name _) rfl value rfl
  | cons second rest restIH =>
      obtain ⟨nextName, next⟩ := second
      have following : ReadBack readItem next := each (nextName, next) (by simp)
      have nextValue := following.reads _ (ends_compactFields rest left)
      rw [← (following.opens.append _).skipBlanks] at nextValue
      have later := restIH (fun field member => each field (List.mem_cons_of_mem _ member))
        following nextValue
      rw [← ((opens_quoted nextName).append _).skipBlanks] at later
      refine readFields_more (readString_quoted name _) rfl value ?_ later
      simp [compactFields, skipBlanks, isBlank]

theorem nesting_le_itemsNesting {items : List Json} (member : item ∈ items) :
    item.nesting ≤ itemsNesting items := by
  induction items with
  | nil => cases member
  | cons first rest restIH =>
      rw [itemsNesting]
      rcases List.mem_cons.mp member with rfl | later
      · exact Nat.le_max_left _ _
      · exact Nat.le_trans (restIH later) (Nat.le_max_right _ _)

theorem nesting_le_fieldsNesting {fields : List (String × Json)} {field : String × Json}
    (member : field ∈ fields) : field.2.nesting ≤ fieldsNesting fields := by
  induction fields with
  | nil => cases member
  | cons first rest restIH =>
      rw [fieldsNesting]
      rcases List.mem_cons.mp member with rfl | later
      · exact Nat.le_max_left _ _
      · exact Nat.le_trans (restIH later) (Nat.le_max_right _ _)

theorem Plain.reads_compact (plain : Plain digits value) {room : Nat}
    (shallow : value.nesting ≤ room) (ends : Ends left) :
    Reads (readValue digits room) (value.compactChars ++ left) value left := by
  induction plain generalizing room left with
  | null => exact readValue_atom (readAtom_null left)
  | bool value => exact readValue_atom (readAtom_bool value left)
  | integer value short =>
      exact readValue_atom (readAtom_number (number?_integer value ends) short)
  | string value => exact readValue_atom (readAtom_string (readString_quoted value left))
  | @array items each eachIH =>
      cases room with
      | zero => exact absurd shallow (Nat.not_succ_le_zero _)
      | succ inner =>
          -- The container takes up the room for one.
          have readBack : ∀ item ∈ items, ReadBack (readValue digits inner) item :=
            fun item member => ⟨(each item member).opens, fun left =>
              eachIH item member (Nat.le_trans (nesting_le_itemsNesting member)
                (Nat.le_of_succ_le_succ shallow))⟩
          cases items with
          | nil => exact readValue_emptyArray inner left
          | cons first rest =>
              have opens := (readBack first List.mem_cons_self).opens
              exact readValue_array ((opens.append _).append left)
                (readItems_compact readBack left)
  | @object fields distinct each eachIH =>
      cases room with
      | zero => exact absurd shallow (Nat.not_succ_le_zero _)
      | succ inner =>
          have readBack : ∀ field ∈ fields, ReadBack (readValue digits inner) field.2 :=
            fun field member => ⟨(each field member).opens, fun left =>
              eachIH field member (Nat.le_trans (nesting_le_fieldsNesting member)
                (Nat.le_of_succ_le_succ shallow))⟩
          cases fields with
          | nil => exact readValue_emptyObject inner left
          | cons first rest =>
              have opens := ((opens_quoted first.1).append (':' :: first.2.compactChars)).append
                (compactFields rest)
              have read := readValue_object (opens.append left) (readFields_compact readBack left)
              rw [ofFields_of_nodup distinct] at read
              exact read

/-- A plain value is decoded from its text without blanks, as long as it does not nest deeper than
the decoder follows. -/
theorem Plain.readWithin_compact {limits : JsonLimits} (plain : Plain limits.digits value)
    (shallow : value.nesting ≤ limits.nesting) :
    readWithin limits value.compact.toList = .ok value := by
  have ends : Ends [] := by
    intro c member
    cases member
  have read := plain.reads_compact shallow ends
  rw [List.append_nil, ← plain.opens.skipBlanks] at read
  obtain ⟨shorter, read⟩ := read
  have unmarked := plain.opens.skipBlanks_ne (show '\ufeff' ∈ neverFirst by decide)
  rw [plain.opens.skipBlanks] at unmarked
  rw [compact, String.toList_ofList, readWithin, read]
  · rfl
  · exact unmarked

theorem Plain.readChars_compact (plain : Plain none value) {room : Nat}
    (shallow : value.nesting ≤ room) : readChars room value.compact.toList = .ok value :=
  readWithin_compact plain shallow

end RuleChart.Json
