import RuleChart.Proofs.Label.History

namespace RuleChart.Recency

variable {κ ν : Type}

/-- Every entry has the property. -/
def Holds (property : κ → ν → Prop) (memory : Recency κ ν) : Prop :=
  ∀ entry ∈ memory.entries, property entry.1 entry.2

theorem empty_holds (property : κ → ν → Prop) (capacity : Int) :
    (empty capacity).Holds property := by
  intro entry member
  cases member

variable [DecidableEq κ] {memory : Recency κ ν} {key : κ} {make : Unit → ν} {value : ν}

theorem fetch_hit (found : memory.find? key = some value) :
    memory.fetch key make =
      (value, { memory with
        entries := (key, value) :: memory.entries.filter (fun entry => entry.1 ≠ key) }) := by
  simp only [fetch, found]

theorem fetch_miss (absent : memory.find? key = none) :
    memory.fetch key make =
      (make (), { memory with
        entries := ((key, make ()) :: memory.entries).take memory.capacity.toNat }) := by
  simp only [fetch, absent]

theorem find?_eq_none_iff : memory.find? key = none ↔ key ∉ memory.entries.map Prod.fst := by
  simp only [find?, Option.map_eq_none_iff, List.find?_eq_none, decide_eq_true_eq, List.mem_map,
    not_exists, not_and]

/-- What is used longest ago is forgotten first. -/
theorem leastRecent_entries :
    Memory.LeastRecent (Recency.entries : Recency κ ν → List (κ × ν)) where
  entries_new _ := rfl
  capacity_new _ := rfl
  capacity_fetch memory key make := by
    change (memory.fetch key make).2.capacity = memory.capacity
    cases found : memory.find? key with
    | some value => rw [fetch_hit found]
    | none => rw [fetch_miss found]
  size_eq _ := rfl
  hit {memory key value} make held := by
    have found : memory.find? key = some value := by rw [find?, held, Option.map_some]
    change (memory.fetch key make).1 = value ∧ (memory.fetch key make).2.entries = _
    rw [fetch_hit found]
    exact ⟨rfl, rfl⟩
  miss {memory key} make absent := by
    change (memory.fetch key make).1 = make ()
    rw [fetch_miss (find?_eq_none_iff.mpr absent)]
  insert {memory key} make absent room := by
    have room : memory.entries.length < memory.capacity.toNat := Int.lt_toNat.mpr room
    change (memory.fetch key make).2.entries = _
    rw [fetch_miss (find?_eq_none_iff.mpr absent)]
    exact List.take_of_length_le room
  evict {memory key} make absent roomy full := by
    have roomy : 0 < memory.capacity := roomy
    have full : (memory.entries.length : Int) = memory.capacity := full
    obtain ⟨count, next⟩ : ∃ count, memory.capacity.toNat = count + 1 :=
      Nat.exists_eq_succ_of_ne_zero (by omega)
    have length : memory.entries.length = count + 1 := by omega
    change (memory.fetch key make).2.entries = _
    rw [fetch_miss (find?_eq_none_iff.mpr absent), List.dropLast_eq_take, length, next]
    rfl
  store_nothing {memory key} make empty roomless := by
    have none : memory.capacity.toNat = 0 := Int.toNat_of_nonpos roomless
    have absent : key ∉ memory.entries.map Prod.fst := by simp [empty]
    change (memory.fetch key make).2.entries = []
    rw [fetch_miss (find?_eq_none_iff.mpr absent), none]
    rfl

theorem mem_of_find? (found : memory.find? key = some value) : (key, value) ∈ memory.entries := by
  obtain ⟨entry, first, rfl⟩ := Option.map_eq_some_iff.mp found
  have same : entry.1 = key := by simpa using List.find?_some first
  rw [← same]
  exact List.mem_of_find?_eq_some first

theorem fetch_holds {property : κ → ν → Prop} (holds : memory.Holds property)
    (made : property key (make ())) :
    property key (memory.fetch key make).1 ∧ (memory.fetch key make).2.Holds property := by
  cases found : memory.find? key with
  | some value =>
      have known : property key value := holds _ (mem_of_find? found)
      rw [fetch_hit found]
      refine ⟨known, ?_⟩
      intro entry member
      rcases List.mem_cons.mp member with rfl | other
      · exact known
      · exact holds entry (List.mem_filter.mp other).1
  | none =>
      rw [fetch_miss found]
      refine ⟨made, ?_⟩
      intro entry member
      rcases List.mem_cons.mp (List.mem_of_mem_take member) with rfl | other
      · exact made
      · exact holds entry other

@[simp] theorem capacity_fetch : (memory.fetch key make).2.capacity = memory.capacity := by
  cases found : memory.find? key with
  | some value => rw [fetch_hit found]
  | none => rw [fetch_miss found]

theorem size_fetch_le : (memory.fetch key make).2.size ≤ memory.size + 1 := by
  cases found : memory.find? key with
  | some value =>
      rw [fetch_hit found]
      exact Nat.succ_le_succ (List.length_filter_le _ _)
  | none =>
      rw [fetch_miss found]
      exact List.length_take_le' _ _

/-- An entry that is fetched stands first, if there is room for it. -/
theorem entries_fetch (key : κ) (make : Unit → ν) (room : memory.size < memory.capacity.toNat) :
    ∃ others, (memory.fetch key make).2.entries = (key, (memory.fetch key make).1) :: others ∧
      ∀ other, other ≠ key → others.find? (fun entry => entry.1 = other) =
        memory.entries.find? (fun entry => entry.1 = other) := by
  cases found : memory.find? key with
  | some value =>
      rw [fetch_hit found]
      refine ⟨_, rfl, ?_⟩
      intro other different
      rw [List.find?_filter]
      congr 1
      funext entry
      by_cases same : entry.1 = other
      · simp [same, different]
      · simp [same]
  | none =>
      rw [fetch_miss found]
      exact ⟨memory.entries, List.take_of_length_le room, fun _ _ => rfl⟩

theorem find?_fetch_self (room : memory.size < memory.capacity.toNat) :
    (memory.fetch key make).2.find? key = some (memory.fetch key make).1 := by
  obtain ⟨others, entries, -⟩ := entries_fetch key make room
  simp [find?, entries]

/-- A value stays the same until its entry is forgotten. -/
theorem find?_fetch (room : memory.size < memory.capacity.toNat) {other : κ}
    (found : memory.find? other = some value) :
    (memory.fetch key make).2.find? other = some value := by
  by_cases same : other = key
  · subst same
    rw [find?_fetch_self room, fetch_hit found]
  · obtain ⟨others, entries, kept⟩ := entries_fetch key make room
    have behind : ¬ key = other := fun equal => same equal.symm
    rw [find?, entries, List.find?_cons_of_neg (by simpa using behind), kept other same]
    exact found

end RuleChart.Recency
