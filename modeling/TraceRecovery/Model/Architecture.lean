import TraceRecovery.Error
import TraceRecovery.Model.Item

/-!
# The architecture of a run

A list of items without repeated ids. `Architecture.ofItems` refuses a list in which an id comes
twice; the order of the items is the order in which candidates and links are listed.
-/

namespace TraceRecovery

/-- The first element of a list whose key an earlier element has. -/
def firstRepeated {α : Type} (key : α → String) : List String → List α → Option α
  | _, [] => none
  | seen, x :: xs => if key x ∈ seen then some x else firstRepeated key (key x :: seen) xs

/-- The items of an architecture, no two with the same id. -/
structure Architecture where
  items : List Item
  distinct : (items.map Item.id).Nodup

namespace Architecture

/-- The architecture without items. -/
def empty : Architecture := ⟨[], List.nodup_nil⟩

/-- The architecture with the given items. -/
def ofItems (items : List Item) : Except TraceError Architecture :=
  if h : (items.map Item.id).Nodup then .ok ⟨items, h⟩
  else .error (.invalidArgument (.duplicateItem
    (((firstRepeated Item.id [] items).map Item.id).getD "")))

/-- The item with an id, if there is one. -/
def item? (a : Architecture) (id : String) : Option Item := a.items.find? fun i => i.id == id

/-- The item with an id. -/
def item (a : Architecture) (id : String) : Except TraceError Item :=
  match a.item? id with
  | some i => .ok i
  | none => .error (.unresolved (.item id))

def size (a : Architecture) : Nat := a.items.length

end Architecture

end TraceRecovery
