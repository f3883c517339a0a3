import RuleChart.Command.Run
import RuleChart.Proofs.Json.Compact
import RuleChart.Proofs.Rule.Remarks
import RuleChart.Proofs.Tree.Remarks

namespace RuleChart.Command

/-- A verbose run that draws the tree of a JSON value tells first of each object whose later keys
are ignored, in the order in which the loop comes to them, then of the cut if there is anything to
cut, then of the nodes of the tree that stand for what could not be drawn, in preorder, and then
that it is done.  Each is told of once, and nothing else is. -/
theorem respond_tells {arguments : Arguments} (verbose : arguments.verbose = true)
    {depth : Option Int} (drawing : arguments.drawing = .tree depth) {bytes : List UInt8}
    {chars : List Char} (decoded : Text.decodeUtf8 bytes = .ok chars) {value : Json}
    (parsed : Json.readWithin limits (Text.normalLineEnds chars) = .ok value) :
    let rule := Rule.ofJson value
    let tree := NodeTree.ofRule rule
    (∃ turns, Rule.reading.after (.initial value) turns = ⟨[], [rule]⟩ ∧
      Rule.reading.told Rule.tellKeys (.initial value) turns =
        value.objects.flatMap Rule.surplusKeys) ∧
    (∃ cut, (respond arguments (.ok bytes)).errors =
        joinLines ((value.objects.flatMap Rule.surplusKeys ++ cut ++ tree.told).map Remark.line ++
          [doneLine arguments]) ∧
      (rule.Deep ∧ cut = [.depthCut Rule.maxDepth] ∨ ¬ rule.Deep ∧ cut = [])) ∧
    ((∀ fields ∈ value.objects, fields.length ≤ 1) → ¬ rule.Deep →
      (∀ node ∈ tree.preorder, node.label ≠ Sketch.malformedLabel) →
      (∀ pair ∈ tree.pairs, ¬ pair.1.EndsChain pair.2) →
      (respond arguments (.ok bytes)).errors = joinLines [doneLine arguments]) := by
  intro rule tree
  obtain ⟨keys, loop⟩ := Rule.keyRemarks_ofJson value
  rw [keys] at loop
  have errors : (respond arguments (.ok bytes)).errors =
      joinLines ((value.objects.flatMap Rule.surplusKeys ++ rule.depthRemarks ++ tree.told).map
        Remark.line ++ [doneLine arguments]) := by
    have read : readRule bytes = .ok rule := by simp only [readRule, decoded, parsed, rule]
    have bound : Except.bind (.ok bytes) readRule = .ok rule := read
    have told : (NodeTree.withRemarks rule).2 =
        value.objects.flatMap Rule.surplusKeys ++ rule.depthRemarks ++ tree.told := by
      rw [NodeTree.withRemarks_eq, NodeTree.told_ofRule, keys]
    simp only [respond, bound, verbose, if_true, draw, drawing, told]
  refine ⟨loop, ⟨rule.depthRemarks, errors, rule.depthRemarks_cases⟩, ?_⟩
  intro single shallow labelled uncut
  have noKeys : value.objects.flatMap Rule.surplusKeys = [] :=
    List.flatMap_eq_nil_iff.mpr fun fields member =>
      Rule.surplusKeys_of_single (single fields member)
  have noCut : rule.depthRemarks = [] := by
    rcases rule.depthRemarks_cases with ⟨deep, -⟩ | ⟨-, none⟩
    · exact absurd deep shallow
    · exact none
  rw [errors, noKeys, noCut, NodeTree.told_of_plain labelled uncut]
  rfl

/-- An object with two keys, the first of them for a conditional without operands. -/
theorem respond_tells_of_malformed :
    let arguments : Arguments := { verbose := true, drawing := .tree none, file := none }
    -- The bytes are those of the JSON object with an empty list behind `if` and a zero behind `b`.
    let bytes : List UInt8 :=
      [123, 34, 105, 102, 34, 58, 91, 93, 44, 34, 98, 34, 58, 48, 125]
    (respond arguments (.ok bytes)).errors =
      joinLines ["rulegraph.rules: Operator 'if': ignoring additional keys b",
        "rulegraph.tree.builder: Malformed 'if' at <root>: 0 operand(s)",
        "rulegraph.cli: Rendered tree for <stdin>"] := by
  intro arguments bytes
  let value : Json := .object [("if", .array []), ("b", .number (.int 0))]
  have decoded : Text.decodeUtf8 bytes = .ok value.compactChars := by decide +kernel
  have plain : value.Plain limits.digits := .object (by decide) (by
    simp only [List.forall_mem_cons]
    exact ⟨.array (List.forall_mem_nil _), .integer 0 (by decide +kernel),
      List.forall_mem_nil _⟩)
  have unbroken : Text.normalLineEnds value.compactChars = value.compact.toList := by
    decide +kernel
  have parsed : Json.readWithin limits (Text.normalLineEnds value.compactChars) = .ok value := by
    rw [unbroken]
    exact plain.readWithin_compact (by decide)
  have verbose : arguments.verbose = true := rfl
  have drawing : arguments.drawing = .tree none := rfl
  obtain ⟨-, ⟨cut, told, ⟨deep, -⟩ | ⟨-, rfl⟩⟩, -⟩ := respond_tells verbose drawing decoded parsed
  · exact absurd (Rule.deep_iff.mp deep) (by decide +kernel)
  · rw [told]
    decide +kernel

end RuleChart.Command
