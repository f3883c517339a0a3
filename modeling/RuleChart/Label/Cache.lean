import RuleChart.Label.Basic

namespace RuleChart

/-- A memory of values by key, made for a capacity.  How it holds them and which of them it forgets
is a matter of its own. -/
class Memory (μ : Type) (κ ν : outParam Type) where
  new : Int → μ
  capacity : μ → Int
  size : μ → Nat
  /-- The value remembered for a key, or the one that is made now. -/
  fetch : κ → (Unit → ν) → StateM μ ν

/-- The entry used last stands first; when there are more entries than `capacity`, the last ones
are forgotten. -/
structure Recency (κ ν : Type) where
  capacity : Int
  entries : List (κ × ν)

namespace Recency

variable {κ ν : Type} [DecidableEq κ]

def empty (capacity : Int) : Recency κ ν := ⟨capacity, []⟩

def size (memory : Recency κ ν) : Nat := memory.entries.length

def find? (memory : Recency κ ν) (key : κ) : Option ν :=
  (memory.entries.find? (fun entry => entry.1 = key)).map Prod.snd

def fetch (memory : Recency κ ν) (key : κ) (make : Unit → ν) : ν × Recency κ ν :=
  match memory.find? key with
  | some value =>
      let others := memory.entries.filter (fun entry => entry.1 ≠ key)
      (value, { memory with entries := (key, value) :: others })
  | none =>
      let value := make ()
      (value,
        { memory with entries := ((key, value) :: memory.entries).take memory.capacity.toNat })

instance memory : Memory (Recency κ ν) κ ν where
  new := empty
  capacity := capacity
  size := size
  fetch := fun key make memory => memory.fetch key make

end Recency

/-- Labels by rule and compactness. -/
abbrev LabelCache := Recency (Rule × Bool) String

namespace LabelCache

def defaultCapacity : Int := 1024

def new (capacity : Int) : LabelCache := Recency.empty capacity

/-- Two rules are the same key when they differ in nothing but how numbers of one value are
written. -/
def key (rule : Rule) (compact : Bool) : Rule × Bool := (rule.canonical, compact)

def format {μ : Type} [Memory μ (Rule × Bool) String] (rule : Rule) (compact : Bool) :
    StateM μ String :=
  Memory.fetch (key rule compact) (fun _ => rule.label compact)

end LabelCache

end RuleChart
