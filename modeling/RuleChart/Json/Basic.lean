import RuleChart.Number

namespace RuleChart

/-- A JSON value.  The fields of an object stand in their written order. -/
inductive Json where
  | null
  | bool (value : Bool)
  | number (value : Number)
  | string (value : String)
  | array (items : List Json)
  | object (fields : List (String × Json))

namespace Json

instance : Inhabited Json := ⟨.null⟩

/-- Sets a field: a new name goes to the end, a repeated name keeps its first position
and takes the later value. -/
def putField (fields : List (String × Json)) (name : String) (value : Json) :
    List (String × Json) :=
  match fields with
  | [] => [(name, value)]
  | (known, old) :: rest =>
      if known = name then (known, value) :: rest
      else (known, old) :: putField rest name value

def ofFields (fields : List (String × Json)) : Json :=
  .object (fields.foldl (fun kept field => putField kept field.1 field.2) [])

def field? (value : Json) (name : String) : Option Json :=
  match value with
  | .object fields => (fields.find? (fun field => field.1 = name)).map Prod.snd
  | _ => none

mutual

/-- How many containers lie inside one another. -/
def nesting : Json → Nat
  | .array items => itemsNesting items + 1
  | .object fields => fieldsNesting fields + 1
  | _ => 0

def itemsNesting : List Json → Nat
  | [] => 0
  | item :: rest => max item.nesting (itemsNesting rest)

def fieldsNesting : List (String × Json) → Nat
  | [] => 0
  | (_, value) :: rest => max value.nesting (fieldsNesting rest)

end

end Json

end RuleChart
