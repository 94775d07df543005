import Courier.Message
import Courier.Selector.Grammar
import Courier.Selector.Truth

/-!
# Selectors

A selector is the text of an expression together with the expression itself. It picks the
messages for which the expression is true; unknown is not enough. Names stand for properties,
and six of them for the headers of a message.

## Main definitions

* `Selector`, `Selector.parse`, `Selector.parseOptional`: selectors and how they are read.
* `Message.context`: what names stand for in a message.
* `Selector.accepts`: whether a selector picks a message.
-/

namespace Courier

/-- A condition on messages. -/
structure Selector where
  /-- The text without the blanks around it. -/
  text : String
  /-- The condition. -/
  expr : Expr
  deriving DecidableEq, Repr

namespace Selector

/-- The selector with the given text. -/
def parse (text : String) : Except SelectorError Selector :=
  (Expr.parse text).map fun expr => ⟨Text.trim text, expr⟩

/-- The selector with the given text. No text, or one of blanks, means no selector. -/
def parseOptional : Option String → Except SelectorError (Option Selector)
  | none => .ok none
  | some text =>
    let text := Text.trim text
    if text.isEmpty then .ok none else (parse text).map some

end Selector

/-- What a property is worth in a selector. Null and byte arrays have no value there. -/
def PropertyValue.toSelector? : PropertyValue → Option SelectorValue
  | null | bytes _ => none
  | boolean b => some (.bool b)
  | byte n => some (.int n.toInt64)
  | short n => some (.int n.toInt64)
  | int n => some (.int n.toInt64)
  | long n => some (.int n)
  | float bits => some (.float (Float.ofBits (UInt64.ofNat (BinaryFormat.widen bits.toNat))))
  | double bits => some (.float (Float.ofBits bits))
  | char unit => some (.string (Utf16.unitText unit))
  | string s => some (.string s)

namespace Message

/-- What names stand for in a message. -/
def context (m : Message) : Context
  | "AMQPriority" => some (.int (Int64.ofNat m.priority.toNat))
  | "AMQTimestamp" => some (.int (Int64.ofInt m.timestamp.millis))
  | "AMQExpiration" => some (.int (Int64.ofInt ((m.expiration.map (·.millis)).getD 0)))
  | "AMQDurable" => some (.string (if m.durable then "DURABLE" else "NON_DURABLE"))
  | "AMQAddress" => some (.string m.address.text)
  | "AMQUserID" => m.userId.map .string
  | name => (m.properties.get? name).bind PropertyValue.toSelector?

end Message

/-- Whether a selector picks a message. -/
def Selector.accepts (s : Selector) (m : Message) : Bool :=
  s.expr.truth m.context = some true

/-- Whether an optional selector picks a message; none picks all. -/
def Selector.acceptsAll (s : Option Selector) (m : Message) : Bool :=
  s.all (·.accepts m)

end Courier
