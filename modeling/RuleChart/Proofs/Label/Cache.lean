import Mathlib.Data.List.Pairwise
import RuleChart.Proofs.Label.Congruence
import RuleChart.Proofs.Label.Recency

namespace RuleChart.LabelCache

/-- The labels that a cache gives to calls, one after the other. -/
def formatAll {μ : Type} [Memory μ (Rule × Bool) String] (calls : List (Rule × Bool)) :
    StateM μ (List String) :=
  calls.mapM (fun call => format call.1 call.2)

/-- The labels that a new cache gives. -/
def answers (capacity : Int) (calls : List (Rule × Bool)) : List String :=
  (formatAll calls (new capacity)).1

theorem formatAll_cons (call : Rule × Bool) (rest : List (Rule × Bool)) (cache : LabelCache) :
    (formatAll (call :: rest) cache).1 = (format call.1 call.2 cache).1 ::
      (formatAll rest (format call.1 call.2 cache).2).1 := by
  simp only [formatAll, List.mapM_cons]
  rfl

/-- If two calls have one key, they have one label. -/
def Agree (first second : Rule × Bool) : Prop :=
  key first.1 first.2 = key second.1 second.2 →
    first.1.label first.2 = second.1.label second.2

instance agreeSymm : Std.Symm Agree := ⟨fun _ _ agree same => (agree same.symm).symm⟩

theorem agree_of_no_clash {first second : Rule × Bool} (apart : ¬ first.1.Clash second.1) :
    Agree first second := by
  intro same
  obtain ⟨rules, compact⟩ := Prod.mk.inj same
  rw [Rule.label, Rule.label, compact, Rule.labelAt_congr second.2 0 first.1 second.1 rules apart]

/-- A text that is the label of all calls with a key. -/
def IsLabel (calls : List (Rule × Bool)) (entryKey : Rule × Bool) (text : String) : Prop :=
  ∀ call ∈ calls, key call.1 call.2 = entryKey → call.1.label call.2 = text

/-- One call of a cache that holds labels only. -/
theorem format_isLabel {calls : List (Rule × Bool)}
    (agree : ∀ first ∈ calls, ∀ second ∈ calls, Agree first second)
    {call : Rule × Bool} (member : call ∈ calls) {cache : LabelCache}
    (holds : cache.Holds (IsLabel calls)) :
    (format call.1 call.2 cache).1 = call.1.label call.2 ∧
      (format call.1 call.2 cache).2.Holds (IsLabel calls) := by
  have made : IsLabel calls (key call.1 call.2) (call.1.label call.2) :=
    fun other inside same => agree other inside call member same
  obtain ⟨answer, kept⟩ : IsLabel calls (key call.1 call.2) (format call.1 call.2 cache).1 ∧
      (format call.1 call.2 cache).2.Holds (IsLabel calls) := Recency.fetch_holds holds made
  exact ⟨(answer call member rfl).symm, kept⟩

theorem formatAll_labels {calls : List (Rule × Bool)}
    (agree : ∀ first ∈ calls, ∀ second ∈ calls, Agree first second)
    {rest : List (Rule × Bool)} (inside : ∀ call ∈ rest, call ∈ calls) {cache : LabelCache}
    (holds : cache.Holds (IsLabel calls)) :
    (formatAll rest cache).1 = rest.map (fun call => call.1.label call.2) := by
  induction rest generalizing cache with
  | nil => rfl
  | cons call rest restIH =>
      obtain ⟨answer, kept⟩ := format_isLabel agree (inside call (by simp)) holds
      have later := restIH (fun other member => inside other (by simp [member])) kept
      simp only [formatAll_cons, List.map_cons, answer, later]

/-- While there is room, an entry answers all calls with its key. -/
theorem formatAll_remembered {rest : List (Rule × Bool)} {cache : LabelCache}
    (room : cache.size + rest.length ≤ cache.capacity.toNat) {entryKey : Rule × Bool}
    {text : String} (found : cache.find? entryKey = some text) {index : Nat}
    {call : Rule × Bool} (called : rest[index]? = some call)
    (same : key call.1 call.2 = entryKey) : (formatAll rest cache).1[index]? = some text := by
  induction rest generalizing cache index with
  | nil => cases called
  | cons first rest restIH =>
      simp only [List.length_cons] at room
      simp only [formatAll_cons]
      cases index with
      | zero =>
          obtain rfl : first = call := by simpa using called
          have hit : (format first.1 first.2 cache).1 = text := by
            change (cache.fetch (key first.1 first.2) _).1 = text
            rw [same, Recency.fetch_hit found]
          simp [hit]
      | succ index =>
          have next : (format first.1 first.2 cache).2.find? entryKey = some text :=
            Recency.find?_fetch (by omega) found
          have grown : (format first.1 first.2 cache).2.size ≤ cache.size + 1 :=
            Recency.size_fetch_le
          have capacity : (format first.1 first.2 cache).2.capacity = cache.capacity :=
            Recency.capacity_fetch
          have called : rest[index]? = some call := by simpa using called
          simpa using restIH (by rw [capacity]; omega) next called

/-- With room for all calls, right answers mean that calls with one key have one label. -/
theorem labels_agree {calls : List (Rule × Bool)} (cache : LabelCache)
    (room : cache.size + calls.length ≤ cache.capacity.toNat)
    (right : (formatAll calls cache).1 = calls.map (fun call => call.1.label call.2)) :
    calls.Pairwise Agree := by
  induction calls generalizing cache with
  | nil => exact .nil
  | cons call rest restIH =>
      simp only [List.length_cons] at room
      simp only [formatAll_cons, List.map_cons, List.cons.injEq] at right
      obtain ⟨answer, later⟩ := right
      have grown : (format call.1 call.2 cache).2.size ≤ cache.size + 1 := Recency.size_fetch_le
      have capacity : (format call.1 call.2 cache).2.capacity = cache.capacity :=
        Recency.capacity_fetch
      have roomLeft : (format call.1 call.2 cache).2.size + rest.length ≤
          (format call.1 call.2 cache).2.capacity.toNat := by
        rw [capacity]
        omega
      have kept : (format call.1 call.2 cache).2.find? (key call.1 call.2) =
          some (call.1.label call.2) := by
        rw [← answer]
        exact Recency.find?_fetch_self (by omega)
      refine .cons ?_ (restIH _ roomLeft later)
      intro other member same
      obtain ⟨index, called⟩ := List.mem_iff_getElem?.mp member
      have remembered := formatAll_remembered roomLeft kept called same.symm
      rw [later] at remembered
      simpa [called] using remembered.symm

/-- A cache answers every call with the label of its rule, whatever its capacity, just when calls
with one key have one label; and they do, unless one of the rules has an integer where the
other has a double that keeps its exponent. -/
theorem answers_eq_labels_iff (calls : List (Rule × Bool)) :
    (∀ capacity, answers capacity calls = calls.map (fun call => call.1.label call.2)) ↔
      ∀ first ∈ calls, ∀ second ∈ calls, first.1.Clash second.1 → Agree first second := by
  constructor
  · intro right first firstMember second secondMember _
    have pairs := labels_agree (new calls.length)
      (by simp [new, Recency.empty, Recency.size]) (right calls.length)
    exact pairs.forall_of_forall (fun _ _ _ => rfl) firstMember secondMember
  · intro agree capacity
    have agreed : ∀ first ∈ calls, ∀ second ∈ calls, Agree first second := by
      intro first firstMember second secondMember
      by_cases clash : first.1.Clash second.1
      · exact agree first firstMember second secondMember clash
      · exact agree_of_no_clash clash
    exact formatAll_labels agreed (fun _ member => member) (Recency.empty_holds _ capacity)

/-- The integer `10 ^ 21` is answered with the label of the double that was asked before. -/
theorem answers_clash :
    let calls : List (Rule × Bool) :=
      [(.number (.float 1e21), false), (.number (.int 1000000000000000000000), false)]
    answers defaultCapacity calls = ["1e+21", "1e+21"] ∧
      calls.map (fun call => call.1.label call.2) = ["1e+21", "1000000000000000000000"] := by
  decide +kernel

end RuleChart.LabelCache
