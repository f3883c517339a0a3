import RuleChart.Layout.Config
import RuleChart.Proofs.Double.Arithmetic

namespace RuleChart

/-! What the checks on sizes are worth.

A size is refused for what it is compared to, and nothing compares to `NaN`: every check but the
last lets it pass.  Nor is there a width for a text of `NaN`, which can also come from no characters
of infinite width.  With these apart, accepted sizes are in their bounds, and so is the width of
every node; and a longer label never makes a node less wide.
-/

open Double

namespace Sizes

/-- What is accepted is refused by none of the checks. -/
theorem fault?_eq_none_iff_checks {K : Type} [LT K] [LE K] [DecidableLT K] [DecidableLE K]
    [NatCast K] {sizes : Sizes K} :
    sizes.fault? = none ↔
      ¬ sizes.nodeHeight ≤ ((0 : Nat) : K) ∧
      ¬ (sizes.horizontalSpacing < ((0 : Nat) : K) ∨ sizes.verticalSpacing < ((0 : Nat) : K)) ∧
      ¬ (sizes.charWidth < ((0 : Nat) : K) ∨ sizes.nodePadding < ((0 : Nat) : K)) ∧
      ((0 : Nat) : K) < sizes.minNodeWidth ∧ sizes.minNodeWidth ≤ sizes.maxNodeWidth := by
  simp only [fault?]
  split_ifs <;> simp_all

variable {sizes : Sizes Float} {label : String}

/-- The width of the text of a node, with the space beside it. -/
def textWidth (sizes : Sizes Float) (label : String) : Float :=
  (label.length : Float) * sizes.charWidth + sizes.nodePadding

theorem nodeWidth_eq :
    sizes.nodeWidth label =
      Scalar.lesser (Scalar.greater (sizes.textWidth label) sizes.minNodeWidth)
        sizes.maxNodeWidth := rfl

/-- Where there is no telling how wide a text is: a size of it is `NaN`, or there is nothing of
infinite width, or no end of what has no width. -/
def Unclear (sizes : Sizes Float) (label : String) : Prop :=
  sizes.charWidth.isNaN ∨ sizes.nodePadding.isNaN ∨
    label.length = 0 ∧ sizes.charWidth.isInf ∨
      (label.length : Float).isInf ∧ sizes.charWidth ≤ 0

instance : Decidable (sizes.Unclear label) := inferInstanceAs (Decidable (_ ∨ _ ∨ _ ∨ _))

/-- How wide a text of some length is, in the least positive doubles. -/
def textAmount (charWidth padding : ℕ∞) (length : Nat) : ℕ∞ :=
  closest 0 (closest 1074 (closest 0 (length * unit : Nat) * charWidth) + padding)

theorem textAmount_mono (charWidth padding : ℕ∞) : Monotone (textAmount charWidth padding) := by
  intro shorter longer ordered
  have lengths : ((shorter * unit : Nat) : ℕ∞) ≤ (longer * unit : Nat) := by
    exact_mod_cast Nat.mul_le_mul_right unit ordered
  exact closest_mono 0 (add_le_add_left
    (closest_mono 1074 (mul_le_mul_left (closest_mono 0 lengths) charWidth)) padding)

theorem unclear_iff {charWidth : ℕ∞} (holds : Holds sizes.charWidth charWidth) :
    sizes.Unclear label ↔
      sizes.nodePadding.isNaN ∨
        closest 0 (label.length * unit : Nat) = 0 ∧ charWidth = ⊤ ∨
          closest 0 (label.length * unit : Nat) = ⊤ ∧ charWidth = 0 := by
  rw [Unclear, holds.isInf_iff, holds.le_zero_iff, (holds_natCast label.length).isInf_iff,
    ← closest_mul_unit_eq_zero_iff, holds.isNaN]
  exact or_iff_right Bool.false_ne_true

theorem holds_textWidth {charWidth padding : ℕ∞} (holdsChar : Holds sizes.charWidth charWidth)
    (holdsPadding : Holds sizes.nodePadding padding) (clear : ¬ sizes.Unclear label) :
    Holds (sizes.textWidth label) (textAmount charWidth padding label.length) := by
  rw [unclear_iff holdsChar] at clear
  have product := (holds_natCast label.length).mul holdsChar
    (fun none endless => clear (.inr (.inl ⟨none, endless⟩)))
    (fun endless none => clear (.inr (.inr ⟨endless, none⟩)))
  exact product.add holdsPadding

theorem isNaN_textWidth (accepted : sizes.fault? = none) (unclear : sizes.Unclear label) :
    (sizes.textWidth label).isNaN = true := by
  obtain ⟨-, -, texts, -, -⟩ := fault?_eq_none_iff_checks.mp accepted
  cases defined : sizes.charWidth.isNaN with
  | true => exact isNaN_add (.inl (isNaN_mul (.inr defined)))
  | false =>
      obtain ⟨charWidth, holdsChar⟩ := exists_holds defined (not_or.mp texts).1
      rcases (unclear_iff holdsChar).mp unclear with padding | product
      · exact isNaN_add (.inr padding)
      · exact isNaN_add (.inl (((holds_natCast label.length).isNaN_mul_iff holdsChar).mpr product))

theorem nodeWidth_of_isNaN (undefined : (sizes.textWidth label).isNaN = true) :
    sizes.nodeWidth label = sizes.textWidth label := by
  rw [nodeWidth_eq, Scalar.greater, if_neg (not_lt_of_isNaN (.inl undefined)).1, Scalar.lesser,
    if_neg (not_lt_of_isNaN (.inr undefined)).1]

theorem exists_textAmount (accepted : sizes.fault? = none) :
    ∃ amount : Nat → ℕ∞, Monotone amount ∧
      ∀ label, ¬ sizes.Unclear label → Holds (sizes.textWidth label) (amount label.length) := by
  obtain ⟨-, -, texts, -, -⟩ := fault?_eq_none_iff_checks.mp accepted
  obtain ⟨notChar, notPadding⟩ := not_or.mp texts
  by_cases defined : sizes.charWidth.isNaN = false ∧ sizes.nodePadding.isNaN = false
  · obtain ⟨charWidth, holdsChar⟩ := exists_holds defined.1 notChar
    obtain ⟨padding, holdsPadding⟩ := exists_holds defined.2 notPadding
    exact ⟨textAmount charWidth padding, textAmount_mono charWidth padding,
      fun label clear => holds_textWidth holdsChar holdsPadding clear⟩
  · refine ⟨fun _ => 0, monotone_const, fun label clear => absurd ?_ clear⟩
    rcases not_and_or.mp defined with charWidth | padding
    · exact .inl (Bool.not_eq_false _ ▸ charWidth)
    · exact .inr (.inl (Bool.not_eq_false _ ▸ padding))

/-- The bounds of the width are numbers: only the last check asks for what is so, and not for what
is not. -/
theorem exists_bounds (accepted : sizes.fault? = none) :
    ∃ least greatest, Holds sizes.minNodeWidth least ∧ Holds sizes.maxNodeWidth greatest ∧
      least ≤ greatest := by
  obtain ⟨-, -, -, positive, ordered⟩ := fault?_eq_none_iff_checks.mp accepted
  obtain ⟨least, holdsLeast⟩ := holds_zero.of_le (le_of_lt positive)
  obtain ⟨greatest, holdsGreatest⟩ := holdsLeast.of_le ordered
  exact ⟨least, greatest, holdsLeast, holdsGreatest,
    (holdsLeast.le_iff holdsGreatest).mp ordered⟩

theorem isNaN_nodeWidth (accepted : sizes.fault? = none) (unclear : sizes.Unclear label) :
    (sizes.nodeWidth label).isNaN = true := by
  have undefined := isNaN_textWidth accepted unclear
  rw [nodeWidth_of_isNaN undefined, undefined]

/-- Where the widths of texts are clear, the width of a node has an amount between the bounds, and a
greater one for a longer label. -/
theorem exists_widthAmount (accepted : sizes.fault? = none) {least greatest : ℕ∞}
    (holdsLeast : Holds sizes.minNodeWidth least)
    (holdsGreatest : Holds sizes.maxNodeWidth greatest) (ordered : least ≤ greatest) :
    ∃ width : Nat → ℕ∞, Monotone width ∧
      (∀ length, least ≤ width length ∧ width length ≤ greatest) ∧
      ∀ label, ¬ sizes.Unclear label → Holds (sizes.nodeWidth label) (width label.length) := by
  obtain ⟨amount, monotone, holds⟩ := exists_textAmount accepted
  refine ⟨fun length => min (max (amount length) least) greatest, ?mono, ?bounds, ?widths⟩
  case mono =>
    exact fun shorter longer ordered =>
      min_le_min_right greatest (max_le_max_right least (monotone ordered))
  case bounds => exact fun length => ⟨le_min (le_max_right _ _) ordered, min_le_right _ _⟩
  case widths =>
    exact fun label clear => ((holds label clear).greater holdsLeast).lesser holdsGreatest

end Sizes

namespace LayoutConfig

theorem make_of_accepted {sizes : Sizes Float} (accepted : sizes.fault? = none)
    (orientation : Orientation) :
    make sizes orientation.name = .ok { sizes, orientation } := by
  unfold make
  rw [accepted]
  cases orientation <;> rfl

theorem of_make {sizes : Sizes Float} {orientation : String} {config : LayoutConfig Float}
    (made : make sizes orientation = .ok config) :
    config.sizes = sizes ∧ sizes.fault? = none := by
  unfold make at made
  split at made
  · cases made
  · split at made
    · cases made
      exact ⟨rfl, ‹_›⟩
    · cases made

/-- Sizes that a configuration has are within their bounds or `NaN`.  So is the width of a node, and
it is `NaN` only where there is no telling how wide its text is. -/
theorem make_bounds {sizes : Sizes Float} {orientation : String} {config : LayoutConfig Float}
    (made : make sizes orientation = .ok config) :
    config.sizes = sizes ∧
    (sizes.nodeHeight.isNaN ∨ 0 < sizes.nodeHeight) ∧
    (∀ size ∈ [sizes.horizontalSpacing, sizes.verticalSpacing, sizes.charWidth, sizes.nodePadding],
      size.isNaN ∨ 0 ≤ size) ∧
    0 < sizes.minNodeWidth ∧ sizes.minNodeWidth ≤ sizes.maxNodeWidth ∧
    (∀ label, sizes.Unclear label → (sizes.nodeWidth label).isNaN) ∧
    (∀ label, ¬ sizes.Unclear label → sizes.minNodeWidth ≤ sizes.nodeWidth label ∧
      sizes.nodeWidth label ≤ sizes.maxNodeWidth) ∧
    ∀ shorter longer, ¬ sizes.Unclear shorter → ¬ sizes.Unclear longer →
      shorter.length ≤ longer.length → sizes.nodeWidth shorter ≤ sizes.nodeWidth longer := by
  obtain ⟨same, accepted⟩ := of_make made
  obtain ⟨height, spacings, texts, positive, bounds⟩ := Sizes.fault?_eq_none_iff_checks.mp accepted
  obtain ⟨least, greatest, holdsLeast, holdsGreatest, ordered⟩ := Sizes.exists_bounds accepted
  obtain ⟨width, monotone, between, holds⟩ :=
    Sizes.exists_widthAmount accepted holdsLeast holdsGreatest ordered
  refine ⟨same, isNaN_or_pos height, ?sizes, positive, bounds, ?unclear, ?clear, ?longer⟩
  case sizes =>
    obtain ⟨horizontal, vertical⟩ := not_or.mp spacings
    obtain ⟨charWidth, padding⟩ := not_or.mp texts
    simp only [List.forall_mem_cons]
    exact ⟨isNaN_or_nonneg horizontal, isNaN_or_nonneg vertical, isNaN_or_nonneg charWidth,
      isNaN_or_nonneg padding, List.forall_mem_nil _⟩
  case unclear => exact fun label unclear => Sizes.isNaN_nodeWidth accepted unclear
  case clear =>
    exact fun label clear =>
      ⟨(holdsLeast.le_iff (holds label clear)).mpr (between _).1,
        ((holds label clear).le_iff holdsGreatest).mpr (between _).2⟩
  case longer =>
    exact fun shorter longer clearShorter clearLonger lengths =>
      ((holds shorter clearShorter).le_iff (holds longer clearLonger)).mpr (monotone lengths)

/-- Of characters of infinite width, none have no width, and one makes no node too wide. -/
theorem make_bounds_of_infinite :
    ∃ config,
      make { Sizes.standard with charWidth := Float.ofBits 0x7FF0000000000000 } "vertical" =
        .ok config ∧
      (config.sizes.nodeWidth "").isNaN ∧
        config.sizes.nodeWidth "x" ≤ config.sizes.maxNodeWidth := by
  have accepted : Sizes.fault?
      { Sizes.standard with charWidth := Float.ofBits 0x7FF0000000000000 } = none :=
    Option.isNone_iff_eq_none.mp (by decide +kernel)
  have made := make_of_accepted accepted .vertical
  obtain ⟨-, -, -, -, -, unclear, clear, -⟩ := make_bounds made
  exact ⟨_, made, unclear "" (by decide +kernel), (clear "x" (by decide +kernel)).2⟩

/-- A height of `NaN` is not refused, and is not positive either. -/
theorem make_of_nan_height :
    ∃ config,
      make { Sizes.standard with nodeHeight := Float.ofBits 0x7FF8000000000000 } "vertical" =
        .ok config ∧
      ¬ 0 < config.sizes.nodeHeight := by
  have accepted : Sizes.fault?
      { Sizes.standard with nodeHeight := Float.ofBits 0x7FF8000000000000 } = none :=
    Option.isNone_iff_eq_none.mp (by decide +kernel)
  exact ⟨_, make_of_accepted accepted .vertical, by decide +kernel⟩

end LayoutConfig

end RuleChart
