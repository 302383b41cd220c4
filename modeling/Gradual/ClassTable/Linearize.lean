import Gradual.Ty.Basic

/-!
The order in which attributes are looked up along the bases of a class: the merge of the orders of
the bases and of the list of bases itself that keeps each of them. Where no order keeps them all,
the orders of the bases follow one another and only the first occurrence of a class counts.
-/

namespace Gradual.Linearize

/-- A class may come next if it stands nowhere behind the head of an order. -/
def eligible (orders : List (List ClassId)) (c : ClassId) : Bool :=
  orders.all fun order => !order.tail.contains c

/-- The first head, in the order of the orders, that may come next. -/
def next? (orders : List (List ClassId)) : Option ClassId :=
  (orders.filterMap List.head?).find? (eligible orders)

/-- Takes a class off the front of the orders that it heads. -/
def advance (c : ClassId) (orders : List (List ClassId)) : List (List ClassId) :=
  orders.map fun order => if order.head? = some c then order.tail else order

/-- At most `steps` classes in an order that keeps every given order, if there is one. -/
def merge : (steps : Nat) → List (List ClassId) → Option (List ClassId)
  | 0, orders => if orders.all List.isEmpty then some [] else none
  | steps + 1, orders =>
    if orders.all List.isEmpty then some []
    else do
      let c ← next? orders
      let rest ← merge steps (advance c orders)
      return c :: rest

/-- Every step of a merge takes at least one class off an order. -/
def stepsFor (orders : List (List ClassId)) : Nat := orders.flatten.length

/-- The members of a list, each where it first occurs. -/
def firstOccurrences : List ClassId → List ClassId
  | [] => []
  | c :: cs => c :: (firstOccurrences cs).filter (· ≠ c)

/-- The ancestors of a class, in order, from its bases and the orders of the bases. -/
def ancestors (baseOrders : List (List ClassId)) (bases : List ClassId) : List ClassId :=
  let orders := baseOrders ++ [bases]
  (merge (stepsFor orders) orders).getD (firstOccurrences baseOrders.flatten)

end Gradual.Linearize
