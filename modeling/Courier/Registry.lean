import Courier.Address.Index
import Courier.Binding

/-!
# The Registry of Bindings

The registry finds bindings by name and by address. Each name belongs to one binding, and
bindings are numbered in the order of their registration.

## Main definitions

* `Registry`: the bindings.
* `Registry.add?`, `Registry.remove?`: registering a binding and withdrawing it.
* `Registry.bindings`, `Registry.bindingsFor`: all bindings and those for an address, in order
  of registration.
-/

namespace Courier

/-- The bindings of a broker. -/
structure Registry where
  /-- The bindings by pattern. -/
  index : AddressIndex Binding
  /-- The bindings by name. -/
  byName : Dictionary String Binding := .empty
  /-- The number of the next binding. -/
  nextId : BindingId := ⟨1⟩

namespace Registry

/-- The registry without bindings. -/
def empty (w : Wildcards) : Registry :=
  { index := { wildcards := w } }

/-- How patterns and addresses are written. -/
def wildcards (r : Registry) : Wildcards :=
  r.index.wildcards

/-- The binding of a name. -/
def get? (r : Registry) (name : String) : Option Binding :=
  r.byName.get? name

/-- Registers a binding, unless the name is taken. -/
def add? (r : Registry) (name : String) (address : Address) (filter : Option Selector)
    (kind : BindingKind) : Option (Binding × Registry) :=
  if r.byName.contains name then none
  else
    let b : Binding := { id := r.nextId, name, address, filter, kind }
    some (b,
      { index := r.index.insert address.text b
        byName := r.byName.insert name b
        nextId := ⟨r.nextId.number + 1⟩ })

/-- Withdraws the binding of a name. -/
def remove? (r : Registry) (name : String) : Option (Binding × Registry) :=
  (r.get? name).map fun b =>
    (b,
      { r with
        index := (r.index.removeFirst b.address.text (·.id = b.id)).2
        byName := r.byName.erase name })

/-- A binding put before the first one that is not earlier. -/
def insertInOrder (b : Binding) : List Binding → List Binding
  | [] => [b]
  | c :: rest =>
    if b.id.number ≤ c.id.number then b :: c :: rest else c :: insertInOrder b rest

/-- Bindings in order of registration. -/
def inOrder (bindings : List Binding) : List Binding :=
  bindings.foldr insertInOrder []

/-- All bindings in order of registration. -/
def bindings (r : Registry) : List Binding :=
  inOrder r.byName.values

/-- The bindings whose patterns match an address, in order of registration. -/
def bindingsFor (r : Registry) (address : String) : List Binding :=
  inOrder (r.index.lookup address)

/-- The number of bindings. -/
def size (r : Registry) : Nat :=
  r.byName.size

end Registry

end Courier
