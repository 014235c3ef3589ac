import TextTemplate.Render.State

/-!
# Rounds of a loop

A loop runs over several sources in step: lists, whose items are taken in order, and counts, which
give the numbers below them. It goes on as long as one of its sources has an item left; a source
that has run out gives the empty string. Each round has a scope of its own.

## Main definitions

* `LoopSource` — what a variable of a loop runs over.
* `LoopSource.item`, `LoopSource.rounds`, `LoopSource.scope` — the items, how many rounds there are,
  and the scope of a round.
-/

namespace TextTemplate

/-- What a variable of a loop runs over. -/
inductive LoopSource where
  | items (values : Array Value)
  | count (n : Nat)

namespace LoopSource

/-- The source that a value stands for; a number below zero stands for no items. -/
def ofValue : Value → Except RenderFault LoopSource
  | .list values => .ok (items values.toArray)
  | .int n => .ok (count n.toInt.toNat)
  | value => .error (.unsupportedIterable value.typeName)

/-- How many items a source has. -/
def size : LoopSource → Nat
  | items values => values.size
  | count n => n

/-- The item of a round, counted from zero. -/
def item (round : Nat) : LoopSource → Value
  | items values => values[round]?.getD (.string "")
  | count n => if round < n then .int (Int64.ofInt round) else .string ""

/-- How many rounds a loop over these sources has. -/
def rounds (sources : List (String × LoopSource)) : Nat :=
  sources.foldl (fun most (_, source) => max most source.size) 0

/-- The scope of a round. Of two variables with one name the later counts. -/
def scope (sources : List (String × LoopSource)) (round : Nat) : Scope :=
  Bindings.ofPairs (sources.map fun (name, source) => (name, source.item round))

end LoopSource

end TextTemplate
