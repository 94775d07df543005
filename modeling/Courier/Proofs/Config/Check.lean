import Courier.Config.Check

/-!
# What the Check of a Configuration Accepts

The check of a configuration goes through its rules in turn and reports the first that is broken.
So a configuration passes if and only if it obeys all of them, and an entry of the address
settings does if its fields are in order, its pattern is an address, and messages that are given
up or expire go to addresses without wildcards or nowhere.

## Main definitions

* `Wildcards.Receives`: a text names an address without wildcards.
* `SettingsEntry.Sound`: the rules for an entry of the address settings.

## Main results

* `SettingsEntry.check_eq_ok_iff`: what the check asks of an entry.
* `Config.check_eq_ok_iff`: what it asks of a configuration.
-/

namespace Courier

variable {ε α β : Type}

/-! ### One rule after another -/

theorem bind_eq_ok_iff {x : Except ε α} {f : α → Except ε β} {b : β} :
    (x >>= f) = .ok b ↔ ∃ a, x = .ok a ∧ f a = .ok b := by
  cases x <;> simp [bind, Except.bind]

theorem andThen_eq_ok_iff {x : Except ε Unit} {y : Except ε β} {b : β} :
    (x >>= fun _ => y) = .ok b ↔ x = .ok () ∧ y = .ok b := by
  rw [bind_eq_ok_iff]
  exact ⟨fun ⟨_, hx, hy⟩ => ⟨hx, hy⟩, fun ⟨hx, hy⟩ => ⟨_, hx, hy⟩⟩

/-- What goes on unless an error is reported. -/
theorem ite_error_eq_ok_iff {p : Prop} [Decidable p] {e : ε} {f : α → Except ε β}
    {rest : Except ε β} {b : β} :
    (if p then .error e >>= f else rest) = .ok b ↔ ¬p ∧ rest = .ok b := by
  split <;> simp_all [bind, Except.bind]

theorem forM_eq_ok_iff {check : α → Except ε Unit} {items : List α} :
    items.forM check = .ok () ↔ ∀ a ∈ items, check a = .ok () := by
  induction items with
  | nil => exact ⟨fun _ _ h => (List.not_mem_nil h).elim, fun _ => rfl⟩
  | cons a items ih =>
      rw [List.forall_mem_cons, ← ih]
      exact andThen_eq_ok_iff

theorem FieldFault.report_eq_ok_iff {faults : List FieldFault} :
    report faults = .ok () ↔ faults = [] := by
  cases faults <;> simp [report]

/-! ### Address settings -/

/-- A text names an address without wildcards. -/
def Wildcards.Receives (w : Wildcards) (text : String) : Prop :=
  ∃ address, Address.ofString text = .ok address ∧ w.isWildcard address.text = false

namespace SettingsEntry

variable {e : SettingsEntry} {w : Wildcards}

/-- The rules for an entry of the address settings. -/
structure Sound (w : Wildcards) (e : SettingsEntry) : Prop where
  fieldFaults_eq : e.fieldFaults = []
  pattern : ∃ address, Address.ofString e.pattern = .ok address
  deadLetter : ∀ target ∈ e.settings.deadLetterAddress, w.Receives target
  expiry : ∀ target ∈ e.settings.expiryAddress, w.Receives target

theorem checkTarget_eq_ok_iff {role : TargetRole} {target : Option String} :
    e.checkTarget w role target = .ok () ↔ ∀ text ∈ target, w.Receives text := by
  cases target with
  | none => simp [checkTarget]
  | some text =>
      rw [checkTarget]
      simp only [Option.mem_some_iff, forall_eq']
      cases haddress : Address.ofString text <;> simp [Wildcards.Receives, haddress]

/-- **An entry passes the check** if and only if it obeys its rules. -/
theorem check_eq_ok_iff : e.check w = .ok () ↔ e.Sound w := by
  have htargets : (e.checkTarget w .deadLetter e.settings.deadLetterAddress >>= fun _ =>
      e.checkTarget w .expiry e.settings.expiryAddress) = .ok () ↔
        (∀ target ∈ e.settings.deadLetterAddress, w.Receives target) ∧
          ∀ target ∈ e.settings.expiryAddress, w.Receives target := by
    rw [andThen_eq_ok_iff, checkTarget_eq_ok_iff, checkTarget_eq_ok_iff]
  rw [check, andThen_eq_ok_iff, FieldFault.report_eq_ok_iff]
  constructor
  · rintro ⟨hfields, hrest⟩
    cases haddress : Address.ofString e.pattern with
    | error error =>
        rw [haddress] at hrest
        cases hrest
    | ok address =>
        rw [haddress] at hrest
        obtain ⟨hdeadLetter, hexpiry⟩ := htargets.mp hrest
        exact ⟨hfields, ⟨address, haddress⟩, hdeadLetter, hexpiry⟩
  · rintro ⟨hfields, ⟨address, haddress⟩, hdeadLetter, hexpiry⟩
    rw [haddress]
    exact ⟨hfields, htargets.mpr ⟨hdeadLetter, hexpiry⟩⟩

end SettingsEntry

theorem Wildcards.check_eq_ok_iff {w : Wildcards} : w.check = .ok () ↔ w.areDistinct := by
  rw [check]
  split <;> simp_all

theorem LoggingConfig.check_eq_ok_iff {levels : String → Bool} {c : LoggingConfig} :
    c.check levels = .ok () ↔ levels c.level := by
  rw [check]
  split <;> simp_all

/-- **A configuration passes the check** if and only if it obeys all rules. -/
theorem Config.check_eq_ok_iff {levels : String → Bool} {c : Config} :
    c.check levels = .ok () ↔
      c.fieldFaults = [] ∧ c.wildcards.areDistinct ∧ levels c.logging.level ∧
        (∀ e ∈ c.addressSettings, e.Sound c.wildcards) ∧ c.checkBindings = .ok () := by
  rw [check, andThen_eq_ok_iff, andThen_eq_ok_iff, andThen_eq_ok_iff, andThen_eq_ok_iff,
    FieldFault.report_eq_ok_iff, Wildcards.check_eq_ok_iff, LoggingConfig.check_eq_ok_iff,
    forM_eq_ok_iff]
  simp only [SettingsEntry.check_eq_ok_iff]

end Courier
