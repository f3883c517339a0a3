import RuleChart.Label.Cache

namespace RuleChart.Memory

/-! What a bounded memory holds, by the requests that were made of it.

A history lists requests, the latest first.  Without the repetitions its keys stand in the order
in which they were used last, and a memory that forgets what was used longest ago holds as many of
them as it has room for.
-/

theorem eraseDups_filter {α : Type} [DecidableEq α] (keep : α → Bool) (items : List α) :
    (items.filter keep).eraseDups = items.eraseDups.filter keep := by
  match items with
  | [] => simp
  | item :: rest =>
      have shorter := Nat.lt_succ_of_le (List.length_filter_le (fun other => !other == item) rest)
      have swapped := eraseDups_filter keep (rest.filter fun other => !other == item)
      rw [List.filter_filter] at swapped
      by_cases kept : keep item = true
      · rw [List.filter_cons_of_pos kept, List.eraseDups_cons, List.eraseDups_cons,
          List.filter_cons_of_pos kept, ← swapped, List.filter_filter]
        simp only [Bool.and_comm]
      · have others : ∀ other, (keep other && !other == item) = keep other := by
          intro other
          by_cases same : other = item
          · simp [same, kept]
          · simp [same]
        rw [List.filter_cons_of_neg kept, List.eraseDups_cons, List.filter_cons_of_neg kept,
          ← swapped]
        simp only [others]
termination_by items.length

theorem eraseDups_cons_filter {α : Type} [DecidableEq α] (item : α) (rest : List α) :
    (item :: rest).eraseDups = item :: rest.eraseDups.filter (· ≠ item) := by
  rw [List.eraseDups_cons, eraseDups_filter]
  congr 2
  funext other
  by_cases same : other = item <;> simp [same]

theorem nodup_eraseDups {α : Type} [DecidableEq α] (items : List α) : items.eraseDups.Nodup := by
  induction items with
  | nil => simp
  | cons item rest restIH =>
      rw [eraseDups_cons_filter, List.nodup_cons]
      exact ⟨by simp, restIH.filter _⟩

theorem filter_ne_of_not_mem {α : Type} [DecidableEq α] {item : α} {items : List α}
    (absent : item ∉ items) : items.filter (· ≠ item) = items :=
  List.filter_eq_self.mpr fun _ member => decide_eq_true fun same => absent (same ▸ member)

/-- Of distinct items one is dropped, so the first `count` that are left stand among the first
`count + 1`. -/
theorem take_filter_take {α : Type} [DecidableEq α] (item : α) (count : Nat) {items : List α}
    (distinct : items.Nodup) :
    ((items.take (count + 1)).filter (· ≠ item)).take count =
      (items.filter (· ≠ item)).take count := by
  induction items generalizing count with
  | nil => rfl
  | cons first rest restIH =>
      obtain ⟨absent, restDistinct⟩ := List.nodup_cons.mp distinct
      by_cases same : first = item
      · subst same
        have untaken : first ∉ rest.take count := fun member =>
          absent (List.mem_of_mem_take member)
        rw [List.take_succ_cons, List.filter_cons_of_neg (by simp),
          List.filter_cons_of_neg (by simp), filter_ne_of_not_mem absent,
          filter_ne_of_not_mem untaken, List.take_take, Nat.min_self]
      · cases count with
        | zero => simp
        | succ count => simpa [same] using restIH count restDistinct

variable {μ κ ν ρ : Type} [Memory μ κ ν] [DecidableEq κ]

/-- A memory that forgets the entry used longest ago.  `entries` lists what it holds, the entry used
last first. -/
structure LeastRecent (entries : μ → List (κ × ν)) : Prop where
  entries_new (bound : Int) : entries (new bound) = []
  capacity_new (bound : Int) : capacity (new bound : μ) = bound
  capacity_fetch (memory : μ) (key : κ) (make : Unit → ν) :
    capacity (fetch key make memory).2 = capacity memory
  size_eq (memory : μ) : size memory = (entries memory).length
  /-- What is held is given back, and is then the entry used last. -/
  hit {memory : μ} {key : κ} {value : ν} (make : Unit → ν)
    (held : (entries memory).find? (·.1 = key) = some (key, value)) :
    (fetch key make memory).1 = value ∧
      entries (fetch key make memory).2 = (key, value) :: (entries memory).filter (·.1 ≠ key)
  miss {memory : μ} {key : κ} (make : Unit → ν) (absent : key ∉ (entries memory).map Prod.fst) :
    (fetch key make memory).1 = make ()
  insert {memory : μ} {key : κ} (make : Unit → ν) (absent : key ∉ (entries memory).map Prod.fst)
    (room : ((entries memory).length : Int) < capacity memory) :
    entries (fetch key make memory).2 = (key, make ()) :: entries memory
  /-- In a full memory the entry used longest ago makes room for the new one. -/
  evict {memory : μ} {key : κ} (make : Unit → ν) (absent : key ∉ (entries memory).map Prod.fst)
    (roomy : 0 < capacity memory) (full : ((entries memory).length : Int) = capacity memory) :
    entries (fetch key make memory).2 = (key, make ()) :: (entries memory).dropLast
  /-- A memory without room stays empty. -/
  store_nothing {memory : μ} {key : κ} (make : Unit → ν) (empty : entries memory = [])
    (roomless : capacity memory ≤ 0) : entries (fetch key make memory).2 = []

def keys (entries : μ → List (κ × ν)) (memory : μ) : List κ := (entries memory).map Prod.fst

theorem exists_held {held : List (κ × ν)} {key : κ} (known : key ∈ held.map Prod.fst) :
    ∃ value, held.find? (·.1 = key) = some (key, value) := by
  obtain ⟨entry, member, same⟩ := List.mem_map.mp known
  cases found : held.find? (·.1 = key) with
  | none => exact absurd same (by simpa using List.find?_eq_none.mp found entry member)
  | some first =>
      have same : first.1 = key := by simpa using List.find?_some found
      exact ⟨first.2, by rw [← same]⟩

namespace LeastRecent

variable {entries : μ → List (κ × ν)} (lawful : LeastRecent entries) {memory : μ}
  (fits : (entries memory).length ≤ (capacity memory).toNat) (key : κ) (make : Unit → ν)

include lawful fits

/-- With a key that is absent, a memory is left with as many entries as it has room for. -/
theorem entries_fetch_of_absent (absent : key ∉ keys entries memory) :
    entries (fetch key make memory).2 =
      ((key, make ()) :: entries memory).take (capacity memory).toNat := by
  rcases Int.lt_trichotomy (capacity memory) 0 with roomless | roomless | roomy
  · have none : (capacity memory).toNat = 0 := by omega
    have empty : entries memory = [] := List.eq_nil_of_length_eq_zero (by omega)
    rw [lawful.store_nothing make empty (by omega), none, List.take_zero]
  · have none : (capacity memory).toNat = 0 := by omega
    have empty : entries memory = [] := List.eq_nil_of_length_eq_zero (by omega)
    rw [lawful.store_nothing make empty (by omega), none, List.take_zero]
  · rcases Nat.lt_or_eq_of_le fits with room | full
    · rw [lawful.insert make absent (by omega), List.take_of_length_le room]
    · obtain ⟨count, next⟩ : ∃ count, (capacity memory).toNat = count + 1 :=
        Nat.exists_eq_succ_of_ne_zero (by omega)
      rw [lawful.evict make absent roomy (by omega), List.dropLast_eq_take, full, next,
        List.take_succ_cons, Nat.add_sub_cancel]

/-- A request puts its key first, and leaves the others in their order. -/
theorem keys_fetch : keys entries (fetch key make memory).2 =
    (key :: (keys entries memory).filter (· ≠ key)).take (capacity memory).toNat := by
  by_cases known : key ∈ keys entries memory
  · obtain ⟨value, held⟩ := exists_held known
    have room : ((keys entries memory).filter (· ≠ key)).length < (capacity memory).toNat := by
      have fewer : ((keys entries memory).filter (· ≠ key)).length < (keys entries memory).length :=
        List.length_filter_lt_length_iff_exists.mpr ⟨key, known, by simp⟩
      have sizes : (keys entries memory).length = (entries memory).length := List.length_map _
      omega
    rw [List.take_of_length_le room, keys, (lawful.hit make held).2, List.map_cons, keys,
      List.filter_map]
    rfl
  · rw [filter_ne_of_not_mem known, keys, lawful.entries_fetch_of_absent fits key make known,
      List.map_take, List.map_cons, ← keys]

/-- Behind a request an entry is the one of its key, or it was there before. -/
theorem of_mem_fetch {entry : κ × ν} (member : entry ∈ entries (fetch key make memory).2) :
    entry = (key, (fetch key make memory).1) ∨ entry ∈ entries memory ∧ entry.1 ≠ key := by
  by_cases known : key ∈ keys entries memory
  · obtain ⟨value, held⟩ := exists_held known
    obtain ⟨answer, left⟩ := lawful.hit make held
    rw [left] at member
    rcases List.mem_cons.mp member with rfl | other
    · exact .inl (by rw [answer])
    · obtain ⟨other, different⟩ := List.mem_filter.mp other
      exact .inr ⟨other, of_decide_eq_true different⟩
  · rw [lawful.entries_fetch_of_absent fits key make known] at member
    rcases List.mem_cons.mp (List.mem_of_mem_take member) with rfl | other
    · exact .inl (by rw [lawful.miss make known])
    · exact .inr ⟨other, fun same => known (List.mem_map.mpr ⟨entry, other, same⟩)⟩

omit fits

theorem mem_of_known (known : key ∈ keys entries memory) :
    (key, (fetch key make memory).1) ∈ entries memory := by
  obtain ⟨value, held⟩ := exists_held known
  rw [(lawful.hit make held).1]
  exact List.mem_of_find?_eq_some held

end LeastRecent

section History

variable (key : ρ → κ) (make : ρ → ν) (bound : Int)

/-- The keys of a history, each at its last use. -/
def used (past : List ρ) : List κ := (past.map key).eraseDups

/-- The keys of a history for which there is room. -/
def held (past : List ρ) : List κ := (used key past).take bound.toNat

/-- A new memory after the requests of a history. -/
def after : List ρ → μ
  | [] => new bound
  | request :: past => (fetch (key request) (fun _ => make request) (after past)).2

/-- The last request whose key was `wanted` and not among those held. -/
def inserter? (wanted : κ) : List ρ → Option ρ
  | [] => none
  | request :: past =>
      if key request = wanted ∧ wanted ∉ held key bound past then some request
      else inserter? wanted past

variable {key make bound}

theorem inserter?_of_ne {request : ρ} {wanted : κ} (other : key request ≠ wanted)
    (past : List ρ) :
    inserter? key bound wanted (request :: past) = inserter? key bound wanted past := by
  rw [inserter?, if_neg fun same => other same.1]

namespace LeastRecent

variable {entries : μ → List (κ × ν)} (lawful : LeastRecent entries) (past : List ρ)

include lawful

theorem capacity_after : capacity (after key make bound past : μ) = bound := by
  induction past with
  | nil => exact lawful.capacity_new bound
  | cons request past pastIH => rw [after, lawful.capacity_fetch, pastIH]

theorem fits_of_keys (same : keys entries (after key make bound past) = held key bound past) :
    (entries (after key make bound past)).length ≤
      (capacity (after key make bound past : μ)).toNat := by
  rw [lawful.capacity_after, ← List.length_map Prod.fst, ← keys, same]
  exact List.length_take_le _ _

/-- A memory holds the keys of its history that were used last. -/
theorem keys_after : keys entries (after key make bound past) = held key bound past := by
  induction past with
  | nil => simp [after, keys, lawful.entries_new, held, used]
  | cons request past pastIH =>
      have fits := lawful.fits_of_keys past pastIH
      rw [after, lawful.keys_fetch fits, lawful.capacity_after, pastIH, held, held, used, used,
        List.map_cons, eraseDups_cons_filter]
      cases bound.toNat with
      | zero => rfl
      | succ count =>
          rw [List.take_succ_cons, List.take_succ_cons,
            take_filter_take _ _ (nodup_eraseDups _)]

theorem fits_after : (entries (after key make bound past)).length ≤
    (capacity (after key make bound past : μ)).toNat :=
  lawful.fits_of_keys past (lawful.keys_after past)

theorem size_after :
    size (after key make bound past : μ) = min bound.toNat (used key past).length := by
  rw [lawful.size_eq, ← List.length_map Prod.fst, ← keys, lawful.keys_after, held,
    List.length_take]

/-- Every value was made by the last request that found its key absent. -/
theorem of_mem_after {entry : κ × ν} (member : entry ∈ entries (after key make bound past)) :
    (inserter? key bound entry.1 past).map make = some entry.2 := by
  induction past generalizing entry with
  | nil =>
      rw [after, lawful.entries_new] at member
      cases member
  | cons request past pastIH =>
      rw [after] at member
      rcases lawful.of_mem_fetch (lawful.fits_after past) _ _ member with rfl | ⟨member, different⟩
      · have same : keys entries (after key make bound past) = held key bound past :=
          lawful.keys_after past
        by_cases known : key request ∈ held key bound past
        · rw [inserter?, if_neg fun missed => missed.2 known]
          exact pastIH (lawful.mem_of_known _ _ (same ▸ known))
        · have absent : key request ∉ keys entries (after key make bound past) := same ▸ known
          rw [inserter?, if_pos ⟨rfl, known⟩, Option.map_some, lawful.miss _ absent]
      · rw [inserter?_of_ne different.symm]
        exact pastIH member

/-- A request is answered with what the last request made that found its key absent. -/
theorem fetch_after_of_mem {wanted : κ} (again : Unit → ν)
    (known : wanted ∈ keys entries (after key make bound past)) :
    ∃ source, inserter? key bound wanted past = some source ∧
      (fetch wanted again (after key make bound past : μ)).1 = make source := by
  obtain ⟨source, inserted, made⟩ := Option.map_eq_some_iff.mp
    (lawful.of_mem_after past (lawful.mem_of_known _ again known))
  exact ⟨source, inserted, made.symm⟩

end LeastRecent

end History

end RuleChart.Memory
