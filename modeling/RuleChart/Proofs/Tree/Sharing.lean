import RuleChart.Proofs.Label.Cache
import RuleChart.Proofs.Rule.Numbers
import RuleChart.Proofs.Tree.Paths
import RuleChart.Proofs.Tree.Walk

namespace RuleChart

namespace Caption

/-- The calls that a caption makes to a cache. -/
def calls : Caption → List (Rule × Bool)
  | .fixed _ => []
  | .labelled rule => [(rule, false)]
  | .reference path => [(path, true)]

/-- The text of a caption with the label of its rule. -/
def plainText : Caption → String
  | .fixed text => text
  | .labelled rule => rule.label false
  | .reference path => Sketch.referenceText (path.label true)

open LabelCache (IsLabel Agree)

theorem text_isLabel {calls : List (Rule × Bool)}
    (agree : ∀ first ∈ calls, ∀ second ∈ calls, Agree first second) {caption : Caption}
    (asked : caption.calls ⊆ calls) {cache : LabelCache} (holds : cache.Holds (IsLabel calls)) :
    (caption.text cache).1 = caption.plainText ∧ (caption.text cache).2.Holds (IsLabel calls) := by
  cases caption with
  | fixed text => exact ⟨rfl, holds⟩
  | labelled rule =>
      have member : (rule, false) ∈ calls := asked List.mem_cons_self
      exact LabelCache.format_isLabel agree member holds
  | reference path =>
      have member : (path, true) ∈ calls := asked List.mem_cons_self
      obtain ⟨answer, kept⟩ := LabelCache.format_isLabel agree member holds
      exact ⟨congrArg Sketch.referenceText answer, kept⟩

end Caption

namespace Sketch

/-- A sketch with the plain text of its caption. -/
def labelled (sketch : Sketch Caption) : Sketch String :=
  { sketch with caption := sketch.caption.plainText }

/-- All calls that the labels of a rule's tree make to a cache. -/
def calls (rule : Rule) : List (Rule × Bool) :=
  (ofRule rule).preorder.flatMap (fun sketch => sketch.caption.calls)

theorem variableCaption_calls {operands : List Rule} {call : Rule × Bool}
    (asked : call ∈ (variableCaption operands).calls) : call.1 ∈ operands := by
  cases operands with
  | nil => cases asked
  | cons path rest =>
      rw [variableCaption] at asked
      split at asked
      · cases asked
      · obtain rfl := List.mem_singleton.mp asked
        exact List.mem_cons_self

theorem leafOutcome?_calls {value : Rule} {leafKind : NodeKind} {caption : Caption}
    (found : leafOutcome? value = some (leafKind, caption)) {call : Rule × Bool}
    (asked : call ∈ caption.calls) : call.1.numbers ⊆ value.numbers := by
  unfold leafOutcome? at found
  split at found
  · cases found
    cases asked
  · split at found
    · cases found
      exact Rule.numbers_of_child (variableCaption_calls asked)
    · cases found
  · split at found
    · cases found
      exact Rule.numbers_of_child (variableCaption_calls asked)
    · cases found
  · cases found
    obtain rfl := List.mem_singleton.mp asked
    exact List.Subset.refl _

/-- Labels are asked for the rule of a node or for a part of it. -/
theorem Drawn.numbers_of_calls {level : Nat} {sketch : Sketch Caption}
    {children : List (Tree (Sketch Caption))} (drawn : Drawn level sketch children)
    {call : Rule × Bool} (asked : call ∈ sketch.caption.calls) :
    call.1.numbers ⊆ sketch.raw.numbers := by
  cases drawn with
  | primitive | operation | operationOne | cutLeaf =>
      obtain rfl := List.mem_singleton.mp asked
      exact List.Subset.refl _
  | array | defaultLeaf | malformed | malformedOne => cases asked
  | reference | referenceOr => exact Rule.numbers_of_child (variableCaption_calls asked)
  | decision =>
      obtain rfl := List.mem_singleton.mp asked
      exact Rule.numbers_of_child List.mem_cons_self
  | branchLeaf side found => exact leafOutcome?_calls found asked

theorem Drawn.numbers_of_children {level : Nat} {sketch : Sketch Caption}
    {children : List (Tree (Sketch Caption))} (drawn : Drawn level sketch children)
    {child : Tree (Sketch Caption)} (member : child ∈ children) :
    child.value.raw.numbers ⊆ sketch.raw.numbers := by
  rcases drawn.addressed.parts _ (List.mem_map_of_mem member) with entered | ⟨cut, -, -⟩
  · rw [Tree.value_map] at entered
    exact Rule.numbers_of_step entered
  · have raw := congrArg (fun tree => tree.value.2) cut
    rw [Tree.value_map] at raw
    change child.value.raw = Rule.truncated at raw
    rw [raw]
    exact List.nil_subset _

theorem numbers_of_calls {rule : Rule} {call : Rule × Bool} (asked : call ∈ calls rule) :
    call.1.numbers ⊆ rule.numbers := by
  obtain ⟨sketch, member, asked⟩ := List.mem_flatMap.mp asked
  have root : (ofRule rule).value.raw.numbers ⊆ rule.numbers := by
    rw [ofRule_raw]
    exact Rule.numbers_limitDepth _ rule
  -- From the root down, the rule of a node has no numbers but those of the rule above it.
  have passes (level : Nat) (sketch : Sketch Caption) (children : List (Tree (Sketch Caption)))
      (drawn : Drawn level sketch children) (inside : sketch.raw.numbers ⊆ rule.numbers) :
      ∀ child ∈ children, child.value.raw.numbers ⊆ rule.numbers :=
    fun child below => List.Subset.trans (drawn.numbers_of_children below) inside
  obtain ⟨inside, level, children, drawn⟩ :=
    (ofRule_drawn rule).inherit passes root sketch member
  exact List.Subset.trans (drawn.numbers_of_calls asked) inside

theorem calls_agree {left right : Rule} (apart : ¬ left.Clash right) {first second : Rule × Bool}
    (firstCalled : first ∈ calls left) (secondCalled : second ∈ calls right) :
    LabelCache.Agree first second :=
  LabelCache.agree_of_no_clash fun clash =>
    apart (clash.mono (numbers_of_calls firstCalled) (numbers_of_calls secondCalled))

end Sketch

namespace NodeTree

/-- The tree of a rule with plain labels. -/
def labelled (place : Place) (rule : Rule) : NodeTree :=
  settle place.ids 0 place.parentId place.depth place.path
    ((Sketch.ofRule rule).map Sketch.labelled)

/-- The trees of several rules, built one after the other with one cache. -/
def buildAll (builds : List (Place × Rule)) : StateM LabelCache (List NodeTree) :=
  builds.mapM (fun built => build built.1 built.2)

theorem buildAll_cons (place : Place) (rule : Rule) (rest : List (Place × Rule))
    (cache : LabelCache) :
    (buildAll ((place, rule) :: rest) cache).1 = (build place rule cache).1 ::
      (buildAll rest (build place rule cache).2).1 := by
  simp only [buildAll, List.mapM_cons]
  rfl

open LabelCache (IsLabel Agree)

variable {calls : List (Rule × Bool)}

theorem build_labelled (agree : ∀ first ∈ calls, ∀ second ∈ calls, Agree first second)
    {rule : Rule} (asked : Sketch.calls rule ⊆ calls) (place : Place) {cache : LabelCache}
    (holds : cache.Holds (IsLabel calls)) :
    (build place rule cache).1 = labelled place rule ∧
      (build place rule cache).2.Holds (IsLabel calls) := by
  have step (sketch : Sketch Caption) (state : LabelCache)
      (allowed : sketch.caption.calls ⊆ calls) (kept : state.Holds (IsLabel calls)) :
      id (sketch.captioned state).1 = sketch.labelled ∧
        (sketch.captioned state).2.Holds (IsLabel calls) := by
    obtain ⟨text, keptText⟩ := Caption.text_isLabel agree allowed kept
    refine ⟨?_, keptText⟩
    change { sketch with caption := (sketch.caption.text state).1 } = _
    rw [text]
    rfl
  have every : ∀ sketch ∈ (Sketch.ofRule rule).preorder,
      sketch.caption.calls ⊆ calls :=
    fun sketch member call inside => asked (List.mem_flatMap.mpr ⟨sketch, member, inside⟩)
  obtain ⟨tree, kept⟩ := Tree.map_traverse_of_kept step _ every holds
  rw [Tree.map_id] at tree
  rw [build_eq]
  exact ⟨congrArg (settle place.ids 0 place.parentId place.depth place.path) tree, kept⟩

theorem buildAll_labelled (agree : ∀ first ∈ calls, ∀ second ∈ calls, Agree first second)
    {builds : List (Place × Rule)} (asked : ∀ built ∈ builds, Sketch.calls built.2 ⊆ calls)
    {cache : LabelCache} (holds : cache.Holds (IsLabel calls)) :
    (buildAll builds cache).1 = builds.map (fun built => labelled built.1 built.2) := by
  induction builds generalizing cache with
  | nil => rfl
  | cons built rest restIH =>
      obtain ⟨tree, kept⟩ := build_labelled agree (asked built (by simp)) built.1 holds
      have later := restIH (fun other member => asked other (by simp [member])) kept
      rw [buildAll_cons, tree, later, List.map_cons]

theorem buildFresh_eq_labelled {rule : Rule} (apart : ¬ rule.Clash rule) (place : Place) :
    buildFresh place rule = labelled place rule := by
  have agree : ∀ first ∈ Sketch.calls rule, ∀ second ∈ Sketch.calls rule, Agree first second :=
    fun _ firstCalled _ secondCalled => Sketch.calls_agree apart firstCalled secondCalled
  exact (build_labelled agree (List.Subset.refl _) place (Recency.empty_holds _ _)).1

/-- As long as no two of the rules clash, it is of no account what was built before. -/
theorem buildAll_of_no_clash {builds : List (Place × Rule)}
    (apart : ∀ first ∈ builds, ∀ second ∈ builds, ¬ first.2.Clash second.2) (capacity : Int) :
    (buildAll builds (LabelCache.new capacity)).1 =
      builds.map (fun built => buildFresh built.1 built.2) := by
  let calls := builds.flatMap (fun built => Sketch.calls built.2)
  have agree : ∀ first ∈ calls, ∀ second ∈ calls, Agree first second := by
    intro first firstCalled second secondCalled
    obtain ⟨firstBuilt, firstMember, firstCalled⟩ := List.mem_flatMap.mp firstCalled
    obtain ⟨secondBuilt, secondMember, secondCalled⟩ := List.mem_flatMap.mp secondCalled
    exact Sketch.calls_agree (apart firstBuilt firstMember secondBuilt secondMember)
      firstCalled secondCalled
  have asked : ∀ built ∈ builds, Sketch.calls built.2 ⊆ calls :=
    fun built member call called => List.mem_flatMap.mpr ⟨built, member, called⟩
  refine (buildAll_labelled agree asked (Recency.empty_holds _ capacity)).trans ?_
  refine List.map_congr_left fun built member => ?_
  exact (buildFresh_eq_labelled (apart built member built member) built.1).symm

/-- Trees of rules with ordinary numbers, built one after the other with one cache of any
capacity, are the trees that are built with a cache each. -/
theorem buildAll_eq_fresh (capacity : Int) (builds : List (Place × Rule))
    (ordinary : ∀ built ∈ builds, ∀ number ∈ built.2.numbers, number.Ordinary) :
    (buildAll builds (LabelCache.new capacity)).1 =
      builds.map (fun built => buildFresh built.1 built.2) := by
  refine buildAll_of_no_clash ?_ capacity
  rintro first firstMember second secondMember ⟨left, inFirst, right, inSecond, clash⟩
  exact Number.Ordinary.not_clash (ordinary first firstMember left inFirst)
    (ordinary second secondMember right inSecond) clash

/-- The lists `[1, 0.0]` and `[1.0, -0.0]` are one key, and share the only entry. -/
theorem buildAll_eq_fresh_of_equal_keys :
    let first : Rule := .apply "+" [.number (.int 1), .number (.float 0.0)] []
    let second : Rule := .apply "+" [.number (.float 1.0), .number (.float (-0.0))] []
    let builds := [(Place.root, first), ({ Place.root with depth := 2, path := ["x"] }, second)]
    LabelCache.key first false = LabelCache.key second false ∧
      (buildAll builds (LabelCache.new 1)).1 = builds.map (fun b => buildFresh b.1 b.2) := by
  exact ⟨by decide +kernel, buildAll_eq_fresh 1 _ (by decide +kernel)⟩

end NodeTree

end RuleChart
