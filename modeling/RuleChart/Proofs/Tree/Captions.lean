import RuleChart.Proofs.Label.Cache
import RuleChart.Proofs.Tree.Walk

namespace RuleChart

/-! What the texts in a tree can be.

A text is written out in the sketch of its node, or it was made by the cache, for the rule that was
asked for or for one with the same key.  So a property that the labels of all these rules have is
one of every label that a build gets from a cache which holds such labels only.
-/

namespace Caption

/-- The labels that the caption asks for are good. -/
def Labels (good : String → Prop) : Caption → Prop
  | .fixed _ => True
  | .labelled rule => good (rule.label false)
  | .reference path => good (path.label true)

/-- The text of the caption is this one, if the cache answers with good labels. -/
def Shows (good : String → Prop) : Caption → String → Prop
  | .fixed known, text => text = known
  | .labelled _, text => good text
  | .reference _, text => ∃ label, good label ∧ text = Sketch.referenceText label

theorem text_shows {good : String → Prop} {caption : Caption} (labels : caption.Labels good)
    {cache : LabelCache} (holds : cache.Holds (fun _ => good)) :
    caption.Shows good (caption.text cache).1 ∧
      (caption.text cache).2.Holds (fun _ => good) := by
  cases caption with
  | fixed text => exact ⟨rfl, holds⟩
  | labelled rule => exact Recency.fetch_holds holds labels
  | reference path =>
      obtain ⟨answer, kept⟩ : good (LabelCache.format path true cache).1 ∧
          (LabelCache.format path true cache).2.Holds (fun _ => good) :=
        Recency.fetch_holds holds labels
      exact ⟨⟨_, answer, rfl⟩, kept⟩

end Caption

namespace NodeTree

variable {γ : Type} {good : String → Prop} {seen : Sketch String → γ}
  {known : Sketch Caption → γ}

/-- What is the same for all good labels can be told from the sketch. -/
theorem build_seen (place : Place) {rule : Rule} {cache : LabelCache}
    (holds : cache.Holds (fun _ => good))
    (labels : ∀ sketch ∈ (Sketch.ofRule rule).preorder,
      sketch.caption.Labels good)
    (shows : ∀ sketch ∈ (Sketch.ofRule rule).preorder, ∀ text,
      sketch.caption.Shows good text → seen { sketch with caption := text } = known sketch) :
    ∃ sketched : Tree (Sketch String),
      (build place rule cache).1 =
          settle place.ids 0 place.parentId place.depth place.path sketched ∧
        sketched.map seen = (Sketch.ofRule rule).map known := by
  have step (sketch : Sketch Caption) (state : LabelCache)
      (allowed : sketch ∈ (Sketch.ofRule rule).preorder)
      (kept : state.Holds (fun _ => good)) :
      seen (sketch.captioned state).1 = known sketch ∧
        (sketch.captioned state).2.Holds (fun _ => good) := by
    obtain ⟨shown, keptText⟩ := Caption.text_shows (labels sketch allowed) kept
    exact ⟨shows sketch allowed _ shown, keptText⟩
  exact ⟨_, congrArg Prod.fst (build_eq place rule cache),
    (Tree.map_traverse_of_kept step _ (fun _ member => member) holds).1⟩

end NodeTree

end RuleChart
