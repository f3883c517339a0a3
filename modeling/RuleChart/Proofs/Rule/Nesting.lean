import RuleChart.Rule.Depth

namespace RuleChart.Rule

variable {room : Nat} {rule child other : Rule}

/-- No part of a rule is more than `room` levels inside of it. -/
inductive Within : Nat → Rule → Prop where
  | childless {room : Nat} {rule : Rule} (none : rule.children = []) : Within room rule
  | around {room : Nat} {rule : Rule} (inside : ∀ child ∈ rule.children, Within room child) :
      Within (room + 1) rule

theorem Within.of_child (within : rule.Within room) (member : child ∈ rule.children) :
    ∃ less, room = less + 1 ∧ child.Within less := by
  cases within with
  | childless none =>
      rw [none] at member
      cases member
  | around inside => exact ⟨_, rfl, inside child member⟩

theorem Within.of_subset (within : rule.Within room) (fewer : other.children ⊆ rule.children) :
    other.Within room := by
  cases within with
  | childless none =>
      rw [none] at fewer
      exact .childless (List.subset_nil.mp fewer)
  | around inside => exact .around (fun child member => inside child (fewer member))

mutual

theorem within_cut (room : Nat) (rule : Rule) : (rule.cut room).Within room := by
  cases rule with
  | null | bool | number | string | emptyObject => exact .childless rfl
  | list items | apply operator items keys =>
      rw [cut]
      cases room with
      | zero => exact .childless rfl
      | succ room => exact .around (within_cutAll room items)
  | applyOne operator operand keys =>
      rw [cut]
      cases room with
      | zero => exact .childless rfl
      | succ room =>
          refine .around fun child member => ?_
          obtain rfl := List.mem_singleton.mp member
          exact within_cut room operand

theorem within_cutAll (room : Nat) (rules : List Rule) :
    ∀ child ∈ cutAll room rules, child.Within room := by
  intro child member
  cases rules with
  | nil => cases member
  | cons rule rest =>
      rcases List.mem_cons.mp member with rfl | later
      · exact within_cut room rule
      · exact within_cutAll room rest child later

end

mutual

theorem cut_of_fits {room : Nat} (rule : Rule) (fits : rule.fits room = true) :
    rule.cut room = rule := by
  cases rule with
  | null | bool | number | string | emptyObject => rfl
  | list items | apply operator items keys =>
      simp only [Rule.fits, Bool.and_eq_true, bne_iff_ne] at fits
      rw [cut, if_neg fits.1, cutAll_of_fits items fits.2]
  | applyOne operator operand keys =>
      simp only [Rule.fits, Bool.and_eq_true, bne_iff_ne] at fits
      rw [cut, if_neg fits.1, cut_of_fits operand fits.2]

theorem cutAll_of_fits {room : Nat} (rules : List Rule) (fits : fitsAll room rules = true) :
    cutAll room rules = rules := by
  cases rules with
  | nil => rfl
  | cons rule rest =>
      simp only [fitsAll, Bool.and_eq_true] at fits
      rw [cutAll, cut_of_fits rule fits.1, cutAll_of_fits rest fits.2]

end

theorem limitDepth_eq_cut (limit : Int) (rule : Rule) :
    rule.limitDepth limit = rule.cut limit.toNat := by
  rw [limitDepth]
  split
  · rename_i fits
    exact (cut_of_fits rule fits).symm
  · exact cutting_apply _ rule

theorem within_limitDepth (limit : Nat) (rule : Rule) : (rule.limitDepth limit).Within limit := by
  rw [limitDepth_eq_cut]
  exact within_cut limit rule

end RuleChart.Rule
