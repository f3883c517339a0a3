import RuleChart.Proofs.Rule.Decision
import RuleChart.Proofs.Rule.Nesting

namespace RuleChart.Rule

/-! What a limit of nesting leaves of a rule, place by place.

The address of a part of a rule says, from the rule on, which child comes next, so the length of an
address is the depth of the part.  `IsCut` says what is at every address of a rule that is cut:
above the depth all is as it was but for what hangs below, and at the depth nothing is left but
primitives and the mark of the cut.  There is one such rule only.
-/

/-- The part at an address. -/
def part? : List Nat → Rule → Option Rule
  | [], rule => some rule
  | index :: rest, rule => rule.children[index]?.bind (part? rest)

/-- A rule with nothing in the places of its children: its variant with what it holds beside them,
and how many of them there are. -/
def head : Rule → Rule
  | .list items => .list (items.map fun _ => .null)
  | .apply operator operands keys => .apply operator (operands.map fun _ => .null) keys
  | .applyOne operator _ keys => .applyOne operator .null keys
  | rule => rule

/-- A primitive stays, and anything else becomes the mark of a cut. -/
def clipped (rule : Rule) : Rule := if rule.isPrimitive then rule else truncated

/-- `result` is `rule` with all that is at `depth` clipped. -/
structure IsCut (depth : Nat) (rule result : Rule) : Prop where
  above : ∀ address, address.length < depth →
    (result.part? address).map head = (rule.part? address).map head
  border : ∀ address, address.length = depth →
    result.part? address = (rule.part? address).map clipped

variable {rule child result left right : Rule} {depth index : Nat}

theorem part?_cons (address : List Nat) :
    rule.part? (index :: address) = rule.children[index]?.bind (part? address) := rfl

theorem part?_of_child (found : rule.children[index]? = some child) (address : List Nat) :
    rule.part? (index :: address) = child.part? address := by
  rw [part?_cons, found, Option.bind_some]

theorem children_of_isPrimitive (primitive : rule.isPrimitive = true) : rule.children = [] := by
  cases rule with
  | null | bool | number | string | emptyObject => rfl
  | list | apply | applyOne => cases primitive

theorem children_clipped (rule : Rule) : rule.clipped.children = [] := by
  unfold clipped
  split
  · rename_i primitive
    exact children_of_isPrimitive primitive
  · rfl

theorem clipped_cases (rule : Rule) :
    rule.clipped.isPrimitive = true ∨ rule.clipped = truncated := by
  unfold clipped
  split
  · rename_i primitive
    exact .inl primitive
  · exact .inr rfl

theorem length_children_head (rule : Rule) :
    rule.head.children.length = rule.children.length := by
  cases rule <;> simp [head, children]

/-- A rule is what it holds itself, together with its children. -/
theorem eq_of_head (same : left.head = right.head) (below : left.children = right.children) :
    left = right := by
  cases left <;> cases right <;> simp_all [head, children]

/-! Cutting, one level at a time. -/

theorem cut_zero (rule : Rule) : rule.cut 0 = rule.clipped := by
  cases rule <;> rfl

theorem head_cut (room : Nat) (rule : Rule) : (rule.cut (room + 1)).head = rule.head := by
  cases rule <;> simp [cut, head, cutAll_eq_map, Function.comp_def]

theorem children_cut (room : Nat) (rule : Rule) :
    (rule.cut (room + 1)).children = rule.children.map (cut room) := by
  cases rule <;> simp [cut, children, cutAll_eq_map]

theorem part?_cut (room : Nat) (rule : Rule) (address : List Nat) :
    (rule.cut room).part? address =
      if address.length ≤ room then (rule.part? address).map (cut (room - address.length))
      else none := by
  induction address generalizing room rule with
  | nil => rfl
  | cons index address addressIH =>
      cases room with
      | zero => simp [part?_cons, cut_zero, children_clipped]
      | succ room =>
          rw [part?_cons, part?_cons, children_cut, List.getElem?_map]
          cases rule.children[index]? with
          | none => simp
          | some child => simpa using addressIH room child

theorem isCut_cut (depth : Nat) (rule : Rule) : rule.IsCut depth (rule.cut depth) := by
  constructor
  · intro address shallow
    obtain ⟨more, same⟩ : ∃ more, depth - address.length = more + 1 :=
      ⟨depth - address.length - 1, by omega⟩
    rw [part?_cut, if_pos (Nat.le_of_lt shallow), same, Option.map_map]
    exact Option.map_congr fun part _ => head_cut more part
  · intro address rfl
    rw [part?_cut, if_pos (Nat.le_refl _), Nat.sub_self]
    exact Option.map_congr fun part _ => cut_zero part

theorem IsCut.of_child {resultChild : Rule} (isCut : rule.IsCut (depth + 1) result)
    (found : rule.children[index]? = some child)
    (foundResult : result.children[index]? = some resultChild) :
    child.IsCut depth resultChild := by
  constructor
  · intro address shallow
    have same := isCut.above (index :: address) (by simpa using shallow)
    rwa [part?_of_child found, part?_of_child foundResult] at same
  · intro address level
    have same := isCut.border (index :: address) (by simpa using level)
    rwa [part?_of_child found, part?_of_child foundResult] at same

theorem IsCut.eq_cut (isCut : rule.IsCut depth result) : result = rule.cut depth := by
  induction depth generalizing rule result with
  | zero =>
      have root := isCut.border [] rfl
      rw [cut_zero]
      exact Option.some.inj root
  | succ depth depthIH =>
      have root : result.head = rule.head := Option.some.inj (isCut.above [] (by simp))
      have counts : result.children.length = rule.children.length := by
        rw [← length_children_head result, root, length_children_head]
      refine eq_of_head (root.trans (head_cut depth rule).symm) ?_
      rw [children_cut]
      refine List.ext_getElem (by simpa using counts) fun index inResult inRule => ?_
      rw [List.length_map] at inRule
      rw [List.getElem_map]
      exact depthIH (isCut.of_child (List.getElem?_eq_getElem inRule)
        (List.getElem?_eq_getElem inResult))

mutual

theorem cut_cut (first second : Nat) (rule : Rule) :
    (rule.cut first).cut second = rule.cut (min first second) := by
  cases rule with
  | null | bool | number | string | emptyObject => rfl
  | list items | apply operator items keys =>
      match first, second with
      | 0, _ | _ + 1, 0 => simp [cut, truncated, cutAll]
      | first + 1, second + 1 =>
          have inside := cutAll_cutAll first second items
          simpa [cut] using inside
  | applyOne operator operand keys =>
      match first, second with
      | 0, _ | _ + 1, 0 => simp [cut, truncated, cutAll]
      | first + 1, second + 1 =>
          have inside := cut_cut first second operand
          simpa [cut] using inside

theorem cutAll_cutAll (first second : Nat) (rules : List Rule) :
    cutAll second (cutAll first rules) = cutAll (min first second) rules := by
  cases rules with
  | nil => rfl
  | cons rule rest =>
      rw [cutAll, cutAll, cutAll, cut_cut first second rule, cutAll_cutAll first second rest]

end

/-- Nothing is left at the depth of a cut but primitives and the mark of the cut, and nothing below
it. -/
theorem part?_cut_deep {room : Nat} {address : List Nat} {part : Rule}
    (found : (rule.cut room).part? address = some part) (deep : room ≤ address.length) :
    part.isPrimitive = true ∨ part = truncated := by
  rw [part?_cut] at found
  split at found
  · rename_i shallow
    have level : room - address.length = 0 := by omega
    rw [level] at found
    obtain ⟨original, -, rfl⟩ := Option.map_eq_some_iff.mp found
    rw [cut_zero]
    exact clipped_cases original
  · cases found

/-! The search for something to cut. -/

theorem fitsAll_eq_all (room : Nat) (rules : List Rule) :
    fitsAll room rules = rules.all (fits room) := by
  induction rules with
  | nil => rfl
  | cons rule rest restIH => rw [fitsAll, restIH, List.all_cons]

theorem fits_iff_children {room : Nat} :
    rule.fits room = true ↔
      rule.isPrimitive = true ∨
        0 < room ∧ ∀ child ∈ rule.children, child.fits (room - 1) = true := by
  cases rule <;>
    simp [Rule.fits, isPrimitive, children, fitsAll_eq_all, Nat.pos_iff_ne_zero]

/-- The search finds nothing exactly if all that is at the depth or below it is primitive. -/
theorem fits_iff_parts (room : Nat) (rule : Rule) :
    rule.fits room = true ↔
      ∀ address part, rule.part? address = some part → room ≤ address.length →
        part.isPrimitive = true := by
  constructor
  · intro fits address part found deep
    induction address generalizing room rule with
    | nil =>
        obtain rfl : rule = part := Option.some.inj found
        rcases fits_iff_children.mp fits with primitive | ⟨someRoom, -⟩
        · exact primitive
        · exact absurd someRoom (Nat.not_lt.mpr deep)
    | cons index address addressIH =>
        rw [part?_cons] at found
        obtain ⟨child, listed, found⟩ := Option.bind_eq_some_iff.mp found
        have member := List.mem_of_getElem? listed
        rcases fits_iff_children.mp fits with primitive | ⟨-, inside⟩
        · rw [children_of_isPrimitive primitive] at member
          cases member
        · rw [List.length_cons] at deep
          exact addressIH (room - 1) child (inside child member) found (by omega)
  · intro primitives
    induction rule using children_induction generalizing room with
    | step rule childIH =>
        by_cases primitive : rule.isPrimitive = true
        · exact fits_iff_children.mpr (.inl primitive)
        · refine fits_iff_children.mpr (.inr ⟨?_, fun child member => ?_⟩)
          · refine Nat.pos_of_ne_zero fun none => primitive ?_
            exact primitives [] rule rfl (Nat.le_of_eq none)
          · obtain ⟨index, listed⟩ := List.mem_iff_getElem?.mp member
            refine childIH child member (room - 1) fun address part found deep => ?_
            refine primitives (index :: address) part ?_ (Nat.le_add_of_sub_le deep)
            rw [part?_of_child listed, found]

theorem weights_append (left right : List Rule) :
    weights (left ++ right) = weights left + weights right := by
  induction left with
  | nil => rw [List.nil_append, weights, Nat.zero_add]
  | cons rule rest restIH => simp [weights, restIH, Nat.add_assoc]

theorem weights_reverse (rules : List Rule) : weights rules.reverse = weights rules := by
  induction rules with
  | nil => rfl
  | cons rule rest restIH => simp [weights_append, weights, restIH, Nat.add_comm]

theorem weights_children (rule : Rule) : weights rule.children < rule.weight := by
  cases rule <;> simp [children, weights, weight]

/-- The search with a stack: the rules that are still to be searched, with their depths, the next
one first.  It gives up at the first list or operation at the limit or below it. -/
def search (limit : Int) : List (Rule × Int) → Bool
  | [] => true
  | (rule, depth) :: waiting =>
      if rule.isPrimitive = false ∧ limit ≤ depth then false
      else search limit ((rule.children.map (·, depth + 1)).reverse ++ waiting)
termination_by stack => weights (stack.map Prod.fst)
decreasing_by
  have lighter := weights_children rule
  simp [weights_append, weights_reverse, weights, Function.comp_def]
  omega

/-- There is nothing to cut in a rule if its own turn finds nothing, and the turns of its children do
not either. -/
theorem fits_turn (limit depth : Int) (rule : Rule) :
    rule.fits (limit - depth).toNat = true ↔
      ¬ (rule.isPrimitive = false ∧ limit ≤ depth) ∧
        ∀ child ∈ rule.children, child.fits (limit - (depth + 1)).toNat = true := by
  have next : (limit - depth).toNat - 1 = (limit - (depth + 1)).toNat := by omega
  have room : 0 < (limit - depth).toNat ↔ ¬ limit ≤ depth := by omega
  rw [fits_iff_children, next, room]
  cases primitive : rule.isPrimitive with
  | true => simp [children_of_isPrimitive primitive]
  | false => simp

/-- The search comes to the end of its stack if it finds nothing in any of the rules there. -/
theorem search_iff (limit : Int) (stack : List (Rule × Int)) :
    search limit stack = true ↔
      ∀ entry ∈ stack, entry.1.fits (limit - entry.2).toNat = true := by
  fun_induction search limit stack with
  | case1 => simp
  | case2 rule depth waiting deep =>
      rw [List.forall_mem_cons, fits_turn]
      simp [deep]
  | case3 rule depth waiting shallow onwardIH =>
      rw [onwardIH, List.forall_mem_append, List.forall_mem_cons, fits_turn]
      simp [shallow]

/-- A limit clips all that is at its depth and changes nothing else, and there is one rule only of
which this is true.  At the limit and below it nothing is left but primitives and marks of cuts.  A
rule in which the search finds nothing there, with a stack or without one, is what cutting makes of
it too.  Of two limits one after the other, the lesser one counts. -/
theorem limitDepth_clips (rule : Rule) (limit : Int) :
    (∀ result, result = rule.limitDepth limit ↔ rule.IsCut (max limit 0).toNat result) ∧
      (∀ address part, (rule.limitDepth limit).part? address = some part →
        limit ≤ address.length → part.isPrimitive = true ∨ part = truncated) ∧
      (rule.fits limit.toNat = true ↔
        ∀ address part, rule.part? address = some part → limit ≤ address.length →
          part.isPrimitive = true) ∧
      search limit [(rule, 0)] = rule.fits limit.toNat ∧
      cutting.apply ⟨limit.toNat, rule⟩ = rule.limitDepth limit ∧
      ∀ other : Int,
        (rule.limitDepth limit).limitDepth other = rule.limitDepth (min limit other) := by
  have depth : (max limit 0).toNat = limit.toNat := by omega
  have lower : ∀ other : Int, (min limit other).toNat = min limit.toNat other.toNat := by omega
  simp only [limitDepth_eq_cut, depth]
  refine ⟨fun result => ⟨?_, IsCut.eq_cut⟩, ?_, ?_, ?_, cutting_apply _ rule, fun other => ?_⟩
  · rintro rfl
    exact isCut_cut _ rule
  · exact fun address part found deep => part?_cut_deep found (by omega)
  · rw [fits_iff_parts]
    simp only [Int.toNat_le]
  · rw [Bool.eq_iff_iff, search_iff, List.forall_mem_singleton, Int.sub_zero]
  · rw [cut_cut, lower]

end RuleChart.Rule
