import RuleChart.Proofs.Rule.Limit
import RuleChart.Proofs.Rule.Worklist
import RuleChart.Rule.Remarks

namespace RuleChart

namespace Json

mutual

/-- The objects that a rule is read from, in preorder.  They are reached through the items of lists
and the values of first keys. -/
def objects : Json → List (List (String × Json))
  | .array items => objectsAll items
  | .object [] => [[]]
  | .object ((name, value) :: others) => ((name, value) :: others) :: value.objects
  | _ => []

def objectsAll : List Json → List (List (String × Json))
  | [] => []
  | item :: rest => item.objects ++ objectsAll rest

end

theorem objectsAll_eq_flatMap (items : List Json) : objectsAll items = items.flatMap objects := by
  induction items with
  | nil => rfl
  | cons item rest restIH => rw [objectsAll, restIH, List.flatMap_cons]

end Json

namespace Rule

/-- The remark on the keys of an object behind its first one. -/
def surplusKeys : List (String × Json) → List Remark
  | (operator, _) :: next :: others => [.ignoredKeys operator ((next :: others).map Prod.fst)]
  | _ => []

theorem keyRemark_names (operator : String) (value : Json) (others : List (String × Json)) :
    keyRemark operator (others.map Prod.fst) = surplusKeys ((operator, value) :: others) := by
  cases others <;> rfl

theorem read_single (operator : String) {value : Json}
    (single : ∀ operands, value ≠ .array operands) (others : List (String × Json)) :
    read (.object ((operator, value) :: others)) =
      .applyOne operator (read value) (others.map Prod.fst) := by
  rw [read]
  exact single

theorem surplusKeys_of_single {fields : List (String × Json)} (single : fields.length ≤ 1) :
    surplusKeys fields = [] := by
  match fields with
  | [] | [_] => rfl
  | _ :: _ :: _ => simp at single

mutual

theorem keyRemarks_read (value : Json) :
    (read value).keyRemarks = value.objects.flatMap surplusKeys := by
  match value with
  | .null | .bool _ | .number _ | .string _ | .object [] => rfl
  | .array items => exact keyRemarksAll_readAll items
  | .object ((operator, .array operands) :: others) =>
      rw [read, keyRemarks, keyRemark_names operator (.array operands),
        keyRemarksAll_readAll operands]
      rfl
  | .object ((operator, .null) :: others) | .object ((operator, .bool _) :: others)
  | .object ((operator, .number _) :: others) | .object ((operator, .string _) :: others) =>
      rw [read_single, keyRemarks, keyRemark_names operator]
      · rfl
      · nofun
  | .object ((operator, .object fields) :: others) =>
      rw [read_single, keyRemarks, keyRemark_names operator (.object fields),
        keyRemarks_read (.object fields)]
      · rfl
      · nofun

theorem keyRemarksAll_readAll (items : List Json) :
    keyRemarksAll (readAll items) = (Json.objectsAll items).flatMap surplusKeys := by
  match items with
  | [] => rfl
  | item :: rest =>
      rw [readAll, keyRemarksAll, keyRemarks_read item, keyRemarksAll_readAll rest,
        Json.objectsAll, List.flatMap_append]

end

/-- What the loop that reads a rule tells when it comes to a value. -/
def tellKeys : Json → List Remark
  | .object fields => surplusKeys fields
  | _ => []

theorem reading_account :
    reading.Account tellKeys (fun value => value.objects.flatMap surplusKeys) where
  done := by
    intro value result revealed
    simp only [reading] at revealed
    unfold reveal at revealed
    split at revealed <;> cases revealed <;> rfl
  pending := by
    intro value frame parts revealed
    simp only [reading] at revealed
    unfold reveal at revealed
    split at revealed <;> cases revealed
    · simp [Json.objects, tellKeys, Json.objectsAll_eq_flatMap, List.flatMap_assoc]
    · simp [Json.objects, tellKeys, Json.objectsAll_eq_flatMap, List.flatMap_assoc]
    · simp [Json.objects, tellKeys]

/-- The loop that reads a rule tells of the keys that it ignores, object by object. -/
theorem keyRemarks_ofJson (value : Json) :
    (ofJson value).keyRemarks = value.objects.flatMap surplusKeys ∧
      ∃ turns, reading.after (.initial value) turns = ⟨[], [ofJson value]⟩ ∧
        reading.told tellKeys (.initial value) turns = (ofJson value).keyRemarks := by
  have told : (ofJson value).keyRemarks = value.objects.flatMap surplusKeys := by
    rw [ofJson_eq_read, keyRemarks_read]
  obtain ⟨turns, -, ended, -⟩ := (reading.finishes_meaning value).ends
  rw [← Traversal.apply_eq_meaning] at ended
  refine ⟨told, turns, ended, ?_⟩
  rw [told]
  exact reading_account.told_eq (by rw [ended])

/-- Some list or operation lies `maxDepth` levels or more below the root. -/
def Deep (rule : Rule) : Prop :=
  ∃ address part, rule.part? address = some part ∧ part.isPrimitive = false ∧
    maxDepth ≤ address.length

theorem deep_iff {rule : Rule} : rule.Deep ↔ rule.fits maxDepth = false := by
  rw [← Bool.not_eq_true, fits_iff_parts]
  constructor
  · rintro ⟨address, part, found, container, deep⟩ primitives
    rw [primitives address part found deep] at container
    cases container
  · intro containers
    refine Classical.byContradiction fun shallow => containers fun address part found deep => ?_
    cases primitive : part.isPrimitive with
    | true => rfl
    | false => exact absurd ⟨address, part, found, primitive, deep⟩ shallow

/-- A cut is told of once, if there is one. -/
theorem depthRemarks_cases (rule : Rule) :
    (rule.Deep ∧ rule.depthRemarks = [.depthCut maxDepth]) ∨
      (¬ rule.Deep ∧ rule.depthRemarks = []) := by
  rw [deep_iff, depthRemarks]
  cases rule.fits maxDepth <;> simp

end Rule

end RuleChart
