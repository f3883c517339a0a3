import Mathlib.Data.List.Induction
import RuleChart.Proofs.Label.Cache
import RuleChart.Proofs.Label.History
import RuleChart.Proofs.Rule.Equality

namespace RuleChart.LabelCache

def keyOf (call : Rule × Bool) : Rule × Bool := key call.1 call.2

def labelOf (call : Rule × Bool) : String := call.1.label call.2

theorem keyOf_eq_iff {first second : Rule × Bool} (defined : first.1.Defined) :
    keyOf first = keyOf second ↔ first.1.Equal second.1 ∧ first.2 = second.2 := by
  rw [keyOf, keyOf, key, key, Prod.mk.injEq, Rule.canonical_eq_iff _ _ defined]

section

variable {μ : Type} [Memory μ (Rule × Bool) String]

theorem formatAll_concat (calls : List (Rule × Bool)) (call : Rule × Bool) (cache : μ) :
    (formatAll (calls ++ [call]) cache).2 =
      (format call.1 call.2 (formatAll calls cache).2).2 := by
  simp only [formatAll, List.mapM_append, List.mapM_cons, List.mapM_nil]
  rfl

theorem formatAll_eq_after (capacity : Int) (calls : List (Rule × Bool)) :
    (formatAll calls (Memory.new capacity : μ)).2 =
      Memory.after keyOf labelOf capacity calls.reverse := by
  induction calls using List.reverseRecOn with
  | nil => rfl
  | append_singleton calls call callsIH =>
      rw [formatAll_concat, callsIH, List.reverse_append]
      rfl

/-- After any calls a cache that forgets the entry used longest ago holds the keys used last, and it
answers the next call with the label of the call that inserted its key, or with its own label if the
key is absent. -/
theorem holds_last_used {entries : μ → List ((Rule × Bool) × String)}
    (lawful : Memory.LeastRecent entries) (capacity : Int) (calls : List (Rule × Bool))
    (call : Rule × Bool) (defined : ∀ made ∈ call :: calls, made.1.Defined) :
    let cache : μ := (formatAll calls (Memory.new capacity)).2
    let used := Memory.used keyOf calls.reverse
    (∀ first ∈ call :: calls, ∀ second ∈ call :: calls,
      (keyOf first = keyOf second ↔ first.1.Equal second.1 ∧ first.2 = second.2)) ∧
    Memory.keys entries cache = used.take (max capacity 0).toNat ∧
    Memory.size cache = min (max capacity 0).toNat used.length ∧
    (keyOf call ∉ Memory.keys entries cache →
      (format call.1 call.2 cache).1 = labelOf call) ∧
    (keyOf call ∈ Memory.keys entries cache →
      ∃ source, Memory.inserter? keyOf capacity (keyOf call) calls.reverse = some source ∧
        (format call.1 call.2 cache).1 = labelOf source) := by
  have room : (max capacity 0).toNat = capacity.toNat := by omega
  intro cache used
  have history : cache = Memory.after keyOf labelOf capacity calls.reverse :=
    formatAll_eq_after capacity calls
  rw [room, history]
  refine ⟨?keys, ?held, ?size, ?missed, ?found⟩
  case keys => exact fun first member _ _ => keyOf_eq_iff (defined first member)
  case held => exact lawful.keys_after _
  case size => exact lawful.size_after _
  case missed => exact lawful.miss _
  case found => exact lawful.fetch_after_of_mem _ _

end

/-- With room for one key, the double `1e21` replaces the text and answers for the integer. -/
theorem holds_last_used_of_equal :
    let calls : List (Rule × Bool) := [(.string "a", false), (.number (.float 1e21), false)]
    let whole : Rule := .number (.int 1000000000000000000000)
    let cache : LabelCache := (formatAll calls (new 1)).2
    Memory.LeastRecent (Recency.entries : LabelCache → List ((Rule × Bool) × String)) ∧
      (∀ made ∈ (whole, false) :: calls, made.1.Defined) ∧
      Memory.keys Recency.entries cache = [(whole, false)] ∧
      (format whole false cache).1 = "1e+21" := by
  intro calls whole cache
  have lawful : Memory.LeastRecent (Recency.entries : LabelCache → List ((Rule × Bool) × String)) :=
    Recency.leastRecent_entries
  have defined : ∀ made ∈ (whole, false) :: calls, made.1.Defined := by decide +kernel
  obtain ⟨-, held, -, -, found⟩ := holds_last_used lawful 1 calls (whole, false) defined
  have keys : Memory.keys Recency.entries cache = [(whole, false)] :=
    held.trans (by decide +kernel)
  have known : keyOf (whole, false) ∈ Memory.keys Recency.entries cache := by
    rw [keys]
    decide +kernel
  obtain ⟨source, inserted, answer⟩ := found known
  have double : source = (.number (.float 1e21), false) :=
    Option.some.inj (inserted.symm.trans (by decide +kernel))
  exact ⟨lawful, defined, keys, answer.trans (by rw [double]; decide +kernel)⟩

end RuleChart.LabelCache
