import Courier.Proofs.Property.Accounting
import Courier.Selector

/-!
# What More Information Changes

A value that an expression has does not depend on the names that have none, unless the expression
asks whether there is a value at all. A connective that is decided by one operand stays decided
whatever the other one comes to, and every other operator needs the values of all its operands. So
an expression without tests for missing values keeps its value when more names have one. What was
unknown of a message may become true or false when it is given further properties, but what was
true or false stays so.

## Main definitions

* `Retains`: what has a value has it still.
* `Context.Extends`: a context that knows more.
* `Expr.hasNullTest`: whether an expression tests for missing values.
* `Message.adding`: a message with further properties.

## Main results

* `kleeneAnd_eq_some_iff`, `kleeneOr_eq_some_iff`: which operands decide a connective.
* `Expr.retains_eval`: a value stays when more is known.
* `Message.extends_adding`: a message knows more with properties that it did not have.
* `Expr.eval_of_extends`: the values of expressions, and their truth for messages.
-/

namespace Courier

/-! ### What decides a connective -/

theorem kleeneAnd_eq_some_iff {a b : Option Bool} {v : Bool} :
    kleeneAnd a b = some v ↔
      v = false ∧ (a = some false ∨ b = some false) ∨ v = true ∧ a = some true ∧ b = some true := by
  rcases a with _ | _ | _ <;> rcases b with _ | _ | _ <;> cases v <;> decide

theorem kleeneOr_eq_some_iff {a b : Option Bool} {v : Bool} :
    kleeneOr a b = some v ↔
      v = true ∧ (a = some true ∨ b = some true) ∨ v = false ∧ a = some false ∧ b = some false := by
  rcases a with _ | _ | _ <;> rcases b with _ | _ | _ <;> cases v <;> decide

/-! ### Values that stay -/

variable {α β : Type}

/-- A value, if there is one, is still the same. -/
def Retains (before after : Option α) : Prop :=
  ∀ v, before = some v → after = some v

namespace Retains

theorem refl (a : Option α) : Retains a a := fun _ h => h

theorem bind {a a' : Option α} {f f' : α → Option β} (h : Retains a a')
    (hf : ∀ v, Retains (f v) (f' v)) : Retains (a.bind f) (a'.bind f') := by
  intro w hw
  obtain ⟨v, hv, hfv⟩ := Option.bind_eq_some_iff.mp hw
  exact Option.bind_eq_some_iff.mpr ⟨v, h v hv, hf v w hfv⟩

theorem map {a a' : Option α} (h : Retains a a') (f : α → β) :
    Retains (a.map f) (a'.map f) := by
  intro w hw
  obtain ⟨v, hv, rfl⟩ := Option.map_eq_some_iff.mp hw
  exact Option.map_eq_some_iff.mpr ⟨v, h v hv, rfl⟩

variable {a a' b b' : Option Bool}

/-- A conjunction that is false by one operand stays false whatever the other one comes to. -/
theorem kleeneAnd (ha : Retains a a') (hb : Retains b b') :
    Retains (kleeneAnd a b) (kleeneAnd a' b') := by
  intro v hv
  rcases kleeneAnd_eq_some_iff.mp hv with ⟨rfl, h⟩ | ⟨rfl, hat, hbt⟩
  · exact kleeneAnd_eq_some_iff.mpr (.inl ⟨rfl, h.imp (ha false) (hb false)⟩)
  · exact kleeneAnd_eq_some_iff.mpr (.inr ⟨rfl, ha true hat, hb true hbt⟩)

/-- A disjunction that is true by one operand stays true whatever the other one comes to. -/
theorem kleeneOr (ha : Retains a a') (hb : Retains b b') :
    Retains (kleeneOr a b) (kleeneOr a' b') := by
  intro v hv
  rcases kleeneOr_eq_some_iff.mp hv with ⟨rfl, h⟩ | ⟨rfl, haf, hbf⟩
  · exact kleeneOr_eq_some_iff.mpr (.inl ⟨rfl, h.imp (ha true) (hb true)⟩)
  · exact kleeneOr_eq_some_iff.mpr (.inr ⟨rfl, ha false haf, hb false hbf⟩)

end Retains

/-! ### Contexts that know more -/

/-- A context in which names that stand for something stand for the same. -/
def Context.Extends (more context : Context) : Prop :=
  ∀ name, Retains (context name) (more name)

namespace Expr

/-- Whether an expression tests for missing values. -/
def hasNullTest : Expr → Bool
  | literal _ | name _ => false
  | isNull _ _ => true
  | not e | negate e | oneOf e _ _ | like e _ _ _ => e.hasNullTest
  | and l r | or l r | compare _ l r | arith _ l r => l.hasNullTest || r.hasNullTest
  | between e low high _ => e.hasNullTest || low.hasNullTest || high.hasNullTest

variable {context more : Context}

/-- **A value stays when more is known**, unless missing values are tested for. -/
theorem retains_eval (hmore : more.Extends context) {e : Expr} (he : e.hasNullTest = false) :
    Retains (e.eval context) (e.eval more) := by
  induction e with
  | literal l => exact .refl _
  | name n => exact hmore n
  | not e ih => exact ((ih he).bind fun _ => .refl _).map _
  | and l r ihl ihr =>
      obtain ⟨hl, hr⟩ := Bool.or_eq_false_iff.mp he
      exact (((ihl hl).bind fun _ => .refl _).kleeneAnd ((ihr hr).bind fun _ => .refl _)).map _
  | or l r ihl ihr =>
      obtain ⟨hl, hr⟩ := Bool.or_eq_false_iff.mp he
      exact (((ihl hl).bind fun _ => .refl _).kleeneOr ((ihr hr).bind fun _ => .refl _)).map _
  | compare op l r ihl ihr =>
      obtain ⟨hl, hr⟩ := Bool.or_eq_false_iff.mp he
      exact (ihl hl).bind fun _ => (ihr hr).bind fun _ => .refl _
  | arith op l r ihl ihr =>
      obtain ⟨hl, hr⟩ := Bool.or_eq_false_iff.mp he
      exact (ihl hl).bind fun _ => (ihr hr).bind fun _ => .refl _
  | negate e ih => exact (ih he).bind fun _ => .refl _
  | isNull e negated => cases he
  | oneOf e list negated ih => exact (ih he).bind fun _ => .refl _
  | like e pattern escape negated ih => exact (ih he).bind fun _ => .refl _
  | between e low high negated ih ihl ihh =>
      obtain ⟨he, hh⟩ := Bool.or_eq_false_iff.mp he
      obtain ⟨he, hl⟩ := Bool.or_eq_false_iff.mp he
      exact (ih he).bind fun _ => (ihl hl).bind fun _ => (ihh hh).bind fun _ => .refl _

theorem retains_truth (hmore : more.Extends context) {e : Expr} (he : e.hasNullTest = false) :
    Retains (e.truth context) (e.truth more) :=
  (retains_eval hmore he).bind fun _ => .refl _

end Expr

/-! ### Messages with further properties -/

namespace Message

/-- The names that stand for headers, whatever the properties are. -/
def headerNames : List String :=
  ["AMQPriority", "AMQTimestamp", "AMQExpiration", "AMQDurable", "AMQAddress", "AMQUserID"]

/-- What a name stands for as a property. -/
def propertyContext (m : Message) : Context := fun name =>
  (m.properties.get? name).bind PropertyValue.toSelector?

theorem context_of_not_mem (m : Message) {name : String} (h : name ∉ headerNames) :
    m.context name = m.propertyContext name := by
  rw [context.eq_def]
  split
  all_goals first | rfl | exact absurd (by decide) h

/-- A message with the given properties set one after another. -/
def adding (m : Message) (added : List (String × PropertyValue)) : Message :=
  { m with properties := added.foldl (fun p e => p.put e.1 e.2) m.properties }

theorem context_adding_of_mem (m : Message) (added : List (String × PropertyValue)) {name : String}
    (h : name ∈ headerNames) : (m.adding added).context name = m.context name := by
  simp only [headerNames, List.mem_cons, List.not_mem_nil, or_false] at h
  rcases h with rfl | rfl | rfl | rfl | rfl | rfl <;> rfl

theorem propertyContext_adding_of_not_mem (m : Message) {added : List (String × PropertyValue)}
    {name : String} (h : ∀ e ∈ added, e.1 ≠ name) :
    (m.adding added).propertyContext name = m.propertyContext name := by
  induction added generalizing m with
  | nil => rfl
  | cons e rest ih =>
      obtain ⟨he, hrest⟩ := List.forall_mem_cons.mp h
      have hput : (m.properties.put e.1 e.2).get? name = m.properties.get? name := by
        rw [Properties.get?_put, if_neg he.symm]
      calc (m.adding (e :: rest)).propertyContext name
          = (m.adding [e]).propertyContext name := ih (m.adding [e]) hrest
        _ = m.propertyContext name := congrArg (·.bind PropertyValue.toSelector?) hput

/-- **A message knows more with properties that it did not have.** -/
theorem extends_adding (m : Message) {added : List (String × PropertyValue)}
    (hadded : ∀ e ∈ added, m.propertyContext e.1 = none) :
    (m.adding added).context.Extends m.context := by
  intro name v hv
  by_cases hname : name ∈ headerNames
  · rw [context_adding_of_mem m added hname, hv]
  · rw [context_of_not_mem _ hname] at hv ⊢
    rw [propertyContext_adding_of_not_mem m, hv]
    rintro e he rfl
    rw [hadded e he] at hv
    cases hv

/-- A name that stands for nothing yet gets the truth value that it is given. -/
theorem context_adding_boolean (m : Message) {name : String} (h : name ∉ headerNames) (b : Bool) :
    (m.adding [(name, .boolean b)]).context name = some (.bool b) := by
  have hput : (m.properties.put name (.boolean b)).get? name = some (.boolean b) := by
    rw [Properties.get?_put, if_pos rfl]
    rfl
  rw [context_of_not_mem _ h]
  exact congrArg (·.bind PropertyValue.toSelector?) hput

end Message

namespace Expr

/-- **Decisions are monotone in information.** Let an expression test for no missing values. What
it is worth where some names have values it is worth wherever these names have the same values,
whatever the other names stand for. For a message that is given further properties it is as true
or false as it was; and there are expressions that become true, or false, that way. -/
theorem eval_of_extends :
    (∀ e : Expr, e.hasNullTest = false →
      (∀ context more : Context, more.Extends context →
        ∀ v, e.eval context = some v → e.eval more = some v) ∧
      ∀ (m : Message) (added : List (String × PropertyValue)),
        (∀ p ∈ added, m.propertyContext p.1 = none) →
        ∀ b, e.truth m.context = some b → e.truth (m.adding added).context = some b) ∧
    ∀ (m : Message) (n : String), n ∉ Message.headerNames → m.propertyContext n = none →
      ∀ b, (name n).truth m.context = none ∧
        (name n).truth (m.adding [(n, .boolean b)]).context = some b := by
  refine ⟨fun e he => ⟨fun context more hmore => retains_eval hmore he, fun m added hadded =>
    retains_truth (m.extends_adding hadded) he⟩, fun m n hn hnone b => ⟨?_, ?_⟩⟩
  · rw [truth, eval, m.context_of_not_mem hn, hnone]
    rfl
  · rw [truth, eval, m.context_adding_boolean hn b]
    rfl

/-- A message without properties. -/
def request : Message where
  id := ⟨1⟩
  address := ⟨"requests", by decide⟩
  timestamp := .epoch

/-- Not both of the highest priority and of a weight between one and a limit. -/
def unhurried : Expr :=
  not (and (compare .eq (name "AMQPriority") (literal (.int 9)))
    (between (name "weight") (literal (.int 1)) (name "limit") false))

/-- What the names stand for when only the priority is known. -/
def priorityOnly : Context := fun n =>
  if n = "AMQPriority" then some (.int 4) else none

/-- The same when every other name stands for a text. -/
def wordy : Context := fun n =>
  if n = "AMQPriority" then some (.int 4) else some (.string n)

/-- The priority alone decides; a weight makes no difference, and a limit that is no number, which
leaves the second condition unknown, makes none either. A flag that was not set becomes true. -/
theorem eval_of_extends_unhurried :
    unhurried.hasNullTest = false ∧
      wordy.Extends priorityOnly ∧
      unhurried.eval priorityOnly = some (.bool true) ∧
      unhurried.eval wordy = some (.bool true) ∧
      unhurried.truth request.context = some true ∧
      unhurried.truth (request.adding [("weight", .int 5), ("limit", .string "ten")]).context =
        some true ∧
      (name "fragile").truth request.context = none ∧
      (name "fragile").truth (request.adding [("fragile", .boolean true)]).context = some true := by
  have hnull : unhurried.hasNullTest = false := rfl
  have hmore : wordy.Extends priorityOnly := by
    intro n v h
    by_cases hn : n = "AMQPriority"
    · rw [priorityOnly, if_pos hn] at h
      rw [wordy, if_pos hn, h]
    · rw [priorityOnly, if_neg hn] at h
      cases h
  have heval : unhurried.eval priorityOnly = some (.bool true) := rfl
  have htruth : unhurried.truth request.context = some true := rfl
  obtain ⟨hdecided, hundecided⟩ := eval_of_extends
  obtain ⟨hall, hmessages⟩ := hdecided unhurried hnull
  refine ⟨hnull, hmore, heval, hall priorityOnly wordy hmore _ heval, htruth,
    hmessages request [("weight", .int 5), ("limit", .string "ten")] ?_ true htruth,
    hundecided request "fragile" (by decide) rfl true⟩
  intro p hp
  rcases List.mem_cons.mp hp with rfl | hp
  · rfl
  · obtain rfl := List.mem_singleton.mp hp
    rfl

end Expr

end Courier
