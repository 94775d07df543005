import Courier.Config.LogLevel
import Courier.Proofs.Config.Check
import Courier.Proofs.Settings

/-!
# Where Messages Are Forwarded To

Messages that are given up or expire go to an address that the settings name, or else the delivery
defaults. An entry of the settings may not name an address with wildcards, whether it stands in
the configuration or is added later. The defaults are not checked for wildcards. So the target of
an address has a wildcard only if no entry sets it and the default has one.

## Main definitions

* `TargetRole.field`, `TargetRole.default`, `TargetRole.resolved`: the targets in entries, in the
  delivery defaults, and in the settings of a queue.
* `Wildcards.IsPlain`: a target has no wildcards.
* `SettingsRepository.Checked`: all entries obey their rules.

## Main results

* `SettingsRepository.Checked.serveAll`: entries obey their rules after any additions and removals.
* `SettingsRepository.Checked.isPlain_resolved_iff`: when a target has no wildcards.
* `SettingsRepository.isPlain_resolved_iff_default`: **no target ever has wildcards** if and only
  if the defaults have none.
-/

namespace Courier

namespace TargetRole

/-- The field of settings that names the target. -/
def field : TargetRole → SettingsField String
  | deadLetter => .deadLetterAddress
  | expiry => .expiryAddress

/-- The target where no entry names one. -/
def default : TargetRole → DeliveryConfig → Option String
  | deadLetter, c => c.deadLetterAddress
  | expiry, c => c.expiryAddress

/-- The target of a queue. -/
def resolved : TargetRole → QueueSettings → Option Address
  | deadLetter, s => s.deadLetterAddress
  | expiry, s => s.expiryAddress

end TargetRole

/-- There is no target, or it is an address without wildcards. -/
def Wildcards.IsPlain (w : Wildcards) (target : Option Address) : Prop :=
  ∀ address ∈ target, w.isWildcard address.text = false

instance (w : Wildcards) (target : Option Address) : Decidable (w.IsPlain target) :=
  inferInstanceAs (Decidable (∀ address ∈ target, w.isWildcard address.text = false))

theorem SettingsEntry.Sound.receives {w : Wildcards} {e : SettingsEntry} (h : e.Sound w)
    (role : TargetRole) {target : String} (htarget : role.field.of e.settings = some target) :
    w.Receives target := by
  cases role with
  | deadLetter => exact h.deadLetter target htarget
  | expiry => exact h.expiry target htarget

namespace SettingsRepository

variable {r : SettingsRepository} {levels : String → Bool} {c : Config} {address : String}

theorem resolved_resolve (r : SettingsRepository) (address : String) (role : TargetRole) :
    role.resolved (r.resolve address) =
      target? (role.field.of (r.lookup address) <|> role.default r.defaults) := by
  cases role <;> rfl

/-! ### Entries that obey their rules -/

/-- All entries obey their rules. -/
def Checked (r : SettingsRepository) : Prop :=
  ∀ e ∈ r.entries, e.Sound r.wildcards

theorem checked_ofConfig (h : c.check levels = .ok ()) : (ofConfig c).Checked :=
  (Config.check_eq_ok_iff.mp h).2.2.2.1

namespace Checked

/-- **A request leaves entries that obey their rules**: others are refused. -/
theorem serve (h : r.Checked) (request : Request) : (r.serve request).Checked := by
  cases request with
  | add entry =>
      rw [serve_add]
      cases hcheck : entry.check r.wildcards with
      | error error => exact h
      | ok _ =>
          intro e he
          rcases List.mem_append.mp he with he | he
          · exact h e (List.mem_filter.mp he).1
          · obtain rfl := List.mem_singleton.mp he
            exact SettingsEntry.check_eq_ok_iff.mp hcheck
  | remove pattern => exact fun e he => h e (List.mem_filter.mp he).1

theorem serveAll (h : r.Checked) (requests : List Request) : (r.serveAll requests).Checked := by
  induction requests generalizing r with
  | nil => exact h
  | cons request requests ih => exact ih (h.serve request)

/-- What entries name is an address without wildcards. -/
theorem receives_of_lookup (h : r.Checked) (role : TargetRole) {target : String}
    (htarget : role.field.of (r.lookup address) = some target) : r.wildcards.Receives target := by
  obtain ⟨e, he, hvalue, -⟩ := exists_of_lookup_eq_some htarget
  exact (h e (List.mem_filter.mp he).1).receives role hvalue

/-- **A target has no wildcards** if some entry sets it or the default has none. -/
theorem isPlain_resolved_iff (h : r.Checked) (address : String) (role : TargetRole) :
    r.wildcards.IsPlain (role.resolved (r.resolve address)) ↔
      (role.field.of (r.lookup address)).isSome ∨
        r.wildcards.IsPlain (target? (role.default r.defaults)) := by
  rw [resolved_resolve]
  cases htarget : role.field.of (r.lookup address) with
  | none => simp
  | some target =>
      obtain ⟨other, haddress, hplain⟩ := h.receives_of_lookup role htarget
      have hother : target? (some target) = some other := by
        rw [target?, Option.bind_some, haddress]
        rfl
      refine ⟨fun _ => .inl rfl, fun _ => ?_⟩
      change r.wildcards.IsPlain (target? (some target))
      rw [hother]
      rintro _ ⟨⟩
      exact hplain

end Checked

/-! ### A broker's repository -/

theorem defaults_serveAll (r : SettingsRepository) (requests : List Request) :
    (r.serveAll requests).defaults = r.defaults := by
  obtain ⟨entries, h⟩ := exists_serveAll_eq r requests
  rw [h, withEntries]

theorem mem_entries_serveAll_remove {patterns : List String} {e : SettingsEntry} :
    e ∈ (r.serveAll (patterns.map .remove)).entries ↔ e ∈ r.entries ∧ e.pattern ∉ patterns := by
  induction patterns generalizing r with
  | nil => simp [SettingsRepository.serveAll]
  | cons pattern patterns ih =>
      change e ∈ ((r.remove pattern).serveAll (patterns.map .remove)).entries ↔ _
      rw [ih, remove, List.mem_filter, decide_eq_true_iff, List.mem_cons, not_or, and_assoc]

/-- A repository can be emptied, so that only the defaults count. -/
theorem exists_lookup_eq_empty (r : SettingsRepository) (address : String) :
    ∃ requests, ∀ {α : Type} (field : SettingsField α),
      field.of ((r.serveAll requests).lookup address) = none := by
  refine ⟨(r.entries.map (·.pattern)).map .remove, fun field => ?_⟩
  refine of_lookup_eq_none_iff.mpr fun e h => ?_
  obtain ⟨hmem, hkept⟩ := mem_entries_serveAll_remove.mp (List.mem_of_getElem? h.getElem?_eq)
  exact hkept (List.mem_map_of_mem hmem)

/-- **No target ever has wildcards if and only if the defaults have none.** In a repository that
begins with the settings of a sound configuration, the target of an address has no wildcards,
after any additions and removals, exactly if some entry sets it or the default has none. -/
theorem isPlain_resolved_iff_default (h : c.check levels = .ok ()) :
    (∀ (requests : List Request) (address : String) (role : TargetRole),
      c.wildcards.IsPlain
          (role.resolved (((ofConfig c).serveAll requests).resolve address)) ↔
        (role.field.of (((ofConfig c).serveAll requests).lookup address)).isSome ∨
          c.wildcards.IsPlain (target? (role.default c.delivery))) ∧
    ((∀ (requests : List Request) (address : String) (role : TargetRole),
      c.wildcards.IsPlain
        (role.resolved (((ofConfig c).serveAll requests).resolve address))) ↔
      ∀ role : TargetRole, c.wildcards.IsPlain (target? (role.default c.delivery))) := by
  have hiff : ∀ (requests : List Request) (address : String) (role : TargetRole),
      c.wildcards.IsPlain
          (role.resolved (((ofConfig c).serveAll requests).resolve address)) ↔
        (role.field.of (((ofConfig c).serveAll requests).lookup address)).isSome ∨
          c.wildcards.IsPlain (target? (role.default c.delivery)) := by
    intro requests address role
    have hrun := ((checked_ofConfig h).serveAll requests).isPlain_resolved_iff address role
    rwa [wildcards_serveAll, defaults_serveAll] at hrun
  refine ⟨hiff, fun hall role => ?_, fun hdefault requests address role => ?_⟩
  · obtain ⟨requests, hempty⟩ := exists_lookup_eq_empty (ofConfig c) ""
    refine ((hiff requests "" role).mp (hall requests "" role)).resolve_left ?_
    rw [hempty, Option.isSome_none]
    exact Bool.false_ne_true
  · exact (hiff requests address role).mpr (.inr (hdefault role))

/-! ### Dead letters of all kinds -/

/-- Settings for orders, and a target for what cannot be delivered elsewhere. -/
def lastResort (target : String) : Config where
  delivery := { deadLetterAddress := some target }
  addressSettings :=
    [{ pattern := "orders.#", settings := { deadLetterAddress := some "orders.dead" } },
     { pattern := "orders.*", settings := { expiryAddress := some "orders.late" } }]

/-- With an address as the last resort, no target ever has wildcards. -/
theorem isPlain_resolved_iff_default_lastResort :
    (lastResort "dead").check LogLevel.isSound = .ok () ∧
    ∀ (requests : List Request) (address : String) (role : TargetRole),
      (lastResort "dead").wildcards.IsPlain
        (role.resolved (((ofConfig (lastResort "dead")).serveAll requests).resolve address)) := by
  have hcheck : (lastResort "dead").check LogLevel.isSound = .ok () := by decide +kernel
  refine ⟨hcheck, (isPlain_resolved_iff_default hcheck).2.mpr fun role => ?_⟩
  cases role <;> decide +kernel

/-- **A target may have wildcards**: the last resort is not checked. -/
theorem not_isPlain_resolved_lastResort :
    ¬∀ (c : Config) (requests : List Request) (address : String) (role : TargetRole),
      c.check LogLevel.isSound = .ok () →
      c.wildcards.IsPlain
        (role.resolved (((ofConfig c).serveAll requests).resolve address)) := by
  intro hall
  have hplain := hall (lastResort "dead.#") [] "parcels" .deadLetter (by decide +kernel)
  revert hplain
  decide +kernel

end SettingsRepository

end Courier
