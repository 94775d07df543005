import Courier.Queue
import Courier.Selector

/-!
# Bindings

A binding attaches a queue or a divert to an address pattern, with a selector that narrows down
the messages it is for. A divert sends copies of messages on to another address; the copy says
where it comes from.

## Main definitions

* `Divert`, `Divert.transform`: diverts and the copies they make.
* `Binding`: a queue or a divert at a pattern.
-/

namespace Courier

/-- A rule that sends copies of messages to another address. -/
structure Divert where
  /-- The name. -/
  name : String
  /-- The pattern of the addresses that messages are taken from. -/
  address : Address
  /-- The address that copies are sent to. -/
  forwardingAddress : Address
  /-- Whether a message that is diverted goes nowhere else. -/
  exclusive : Bool := false
  deriving DecidableEq, Repr

/-- The copy of a message under a new identifier that tells the message's address and
identifier. -/
def Message.forwarded (m : Message) (id : MessageId) (target : Address) : Message :=
  { (m.copy id).withHeader .sourceAddress (.string m.address.text) |>.withHeader
      .sourceMessage (.string m.id.text) with
    address := target }

/-- The copy of a message that a divert sends on. -/
def Divert.transform (d : Divert) (m : Message) (id : MessageId) : Message :=
  m.forwarded id d.forwardingAddress

/-- The number of a binding. -/
structure BindingId where
  /-- The number. -/
  number : Nat
  deriving DecidableEq, Repr

namespace BindingId

instance : Ord BindingId := ⟨fun a b => compare a.number b.number⟩

theorem compare_eq (a b : BindingId) : compare a b = compare a.number b.number := rfl

instance : Std.TransOrd BindingId where
  eq_swap {a b} := by
    simp only [compare_eq]
    exact Std.OrientedCmp.eq_swap
  isLE_trans {a b c} hab hbc := by
    simp only [compare_eq] at *
    exact Std.TransCmp.isLE_trans hab hbc

instance : Std.LawfulEqOrd BindingId where
  compare_self {a} := by
    simp only [compare_eq]
    exact Std.ReflCmp.compare_self
  eq_of_compare {a b} h := by
    cases a; cases b
    exact congrArg _ (Std.LawfulEqCmp.eq_of_compare (compare_eq .. ▸ h))

/-- The written form of a binding's number. -/
def text (id : BindingId) : String :=
  "binding-" ++ toString id.number

end BindingId

/-- What is attached to a pattern. -/
inductive BindingKind where
  /-- A queue. -/
  | queue (queue : QueueInfo)
  /-- A divert. -/
  | divert (divert : Divert)
  deriving DecidableEq, Repr

/-- A queue or a divert at an address pattern. -/
structure Binding where
  /-- The number. -/
  id : BindingId
  /-- The name. -/
  name : String
  /-- The pattern. -/
  address : Address
  /-- The selector of the messages that the binding is for. -/
  filter : Option Selector := none
  /-- What is attached. -/
  kind : BindingKind
  deriving DecidableEq, Repr

namespace Binding

/-- Whether the binding takes messages away from all others at its address. -/
def isExclusive (b : Binding) : Bool :=
  match b.kind with
  | .divert d => d.exclusive
  | .queue _ => false

/-- Whether a queue is attached. -/
def isQueue (b : Binding) : Bool :=
  match b.kind with
  | .queue _ => true
  | .divert _ => false

/-- Whether the binding is for a message at its address. -/
def accepts (b : Binding) (m : Message) : Bool :=
  Selector.acceptsAll b.filter m

end Binding

end Courier
