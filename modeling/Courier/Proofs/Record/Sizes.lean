import Courier.Proofs.Property.Spelling
import Courier.Proofs.Record

/-!
# What is Read is Not Larger Than its Bytes

A message that is read from some bytes is not larger than they are: written again, its record has
at most as many bytes. It may have fewer, since a key that comes twice among the properties is kept
once. This holds of the format as a whole because it holds of each field, and because readers one
after another use the bytes of both.

## Main definitions

* `Reader.Uses`: a reader uses as many bytes as the size of what it gives, or more.

## Main results

* `Reader.Uses.bind`: readers one after another.
* `Properties.uses_decode`, `Record.uses_getBody`: containers and bodies of records.
* `Record.recordSize_le_of_read`: messages.
-/

namespace Courier

variable {α β : Type}

namespace Reader

/-- A reader that gives a value uses as many bytes as the size of the value, or more. -/
def Uses (read : Reader α) (size : α → Nat) : Prop :=
  ∀ ⦃bytes a rest⦄, read bytes = (.ok a, rest) → size a + rest.length ≤ bytes.length

theorem Uses.pure {size : α → Nat} {a : α} (h : size a = 0) : Uses (Pure.pure a) size := by
  rintro bytes _ _ ⟨rfl, rfl⟩
  omega

theorem Uses.fail (e : WireError) (size : α → Nat) : Uses (Reader.fail e) size := nofun

/-- Two readers one after another use the bytes of both. -/
theorem Uses.bind {read : Reader α} {next : α → Reader β} {size : α → Nat} {size' : β → Nat}
    (h : Uses read size) (hnext : ∀ a, Uses (next a) fun b => size' b - size a) :
    Uses (read >>= next) size' := by
  intro bytes b rest hread
  obtain ⟨a, between, hfirst, hsecond⟩ := eq_ok_of_bind hread
  have hused := h hfirst
  have hused' := hnext a hsecond
  dsimp only at hused'
  omega

/-- A reader that only converts what another one read. -/
theorem Uses.map {read : Reader α} {size : α → Nat} {size' : β → Nat} (h : Uses read size)
    (f : α → β) (hle : ∀ a, size' (f a) ≤ size a) :
    Uses (read >>= fun a => Pure.pure (f a)) size' :=
  h.bind fun a => .pure (Nat.sub_eq_zero_of_le (hle a))

/-- A reader uses the bytes in which it found its value. -/
theorem Finds.uses {read : Reader α} {spelled : α → List UInt8 → Prop} {size : α → Nat}
    (h : read.Finds spelled) (hsize : ∀ a xs, spelled a xs → size a ≤ xs.length) :
    Uses read size := by
  intro bytes a rest hread
  obtain ⟨xs, rfl, ha⟩ := h hread
  rw [List.length_append]
  exact Nat.add_le_add_right (hsize a xs ha) _

theorem uses_take (count : Nat) : Uses (take count) fun _ => count :=
  (finds_take count).uses fun _ _ h => Nat.le_of_eq (h.1 ▸ h.2.symm)

end Reader

namespace Wire

open Reader

theorem uses_getUInt8 : Uses getUInt8 fun _ => 1 :=
  finds_getUInt8.uses fun _ _ h => Nat.le_of_eq (h ▸ rfl)

theorem uses_getInt64 : Uses getInt64 fun _ => 8 :=
  finds_getInt64.uses fun _ _ h => Nat.le_of_eq (h ▸ rfl)

theorem uses_getBytes : Uses getBytes fun data => 4 + data.length :=
  finds_getBytes.uses fun data _ h => Nat.le_of_eq (h.1 ▸ (length_putBytes data).symm)

theorem uses_getText : Uses getText textSize :=
  finds_getText.uses fun s _ h => Nat.le_of_eq (h.1 ▸ (length_putText s).symm)

end Wire

theorem Properties.uses_decode : Reader.Uses decode encodeSize :=
  finds_decode.uses fun _ _ ⟨s, _, hbytes, hcontainer⟩ =>
    hbytes ▸ hcontainer ▸ s.accounts.encodeSize_le

/-! ### Messages -/

namespace Record

open Reader

theorem uses_getTimestamp (outOfRange : Int64 → WireError) :
    Uses (getTimestamp outOfRange) fun _ => 8 := by
  refine Wire.uses_getInt64.bind fun millis => ?_
  split
  · exact .pure rfl
  · exact .fail ..

theorem uses_getAddress : Uses getAddress fun a => Wire.textSize a.text := by
  refine Wire.uses_getText.bind fun text => ?_
  split
  · next a ha =>
      refine .pure ?_
      rw [Address.text_of_ofString ha, Nat.sub_self]
  · exact .fail ..

theorem uses_getPriority : Uses getPriority fun _ => 1 := by
  refine Wire.uses_getUInt8.bind fun priority => ?_
  split
  · exact .fail ..
  · exact .pure rfl

theorem uses_getOptional {read : Reader α} {size : α → Nat} (h : Uses read size)
    (flag flags : UInt8) :
    Uses (getOptional flag flags read) fun found => (found.map size).getD 0 := by
  rw [getOptional]
  split
  · exact h.map _ fun _ => Nat.le_refl _
  · exact .pure rfl

/-- **A message that is read from the body of a record is not larger than that body.** -/
theorem uses_getBody (flags : UInt8) : Uses (getBody flags) Message.recordBodySize := by
  rw [getBody]
  split
  · exact .fail ..
  · refine (uses_take 16).bind fun id => uses_getAddress.bind fun address =>
      uses_getPriority.bind fun priority => (uses_getTimestamp _).bind fun timestamp =>
      (uses_getOptional (uses_getTimestamp _) _ _).bind fun expiration =>
      (uses_getOptional Wire.uses_getText _ _).bind fun userId =>
      Properties.uses_decode.bind fun properties => Wire.uses_getBytes.map _ fun body => ?_
    simp only [Message.recordBodySize]
    cases expiration <;> cases userId <;> simp <;> omega

/-- The properties of a message that is read are counted right. -/
theorem sized_of_getBody {flags : UInt8} {bytes rest : List UInt8} {m : Message}
    (h : getBody flags bytes = (.ok m, rest)) : m.properties.Sized := by
  obtain ⟨-, -, _, _, hproperties⟩ := Message.fields_of_getBody h
  exact Properties.sized_of_decode hproperties

/-- A message that is read is not larger than the body that it is read from. -/
theorem recordBodySize_le_of_body {bytes : List UInt8} {header : RecordHeader} {m : Message}
    (h : getBody header.flags (bodyAt bytes header) = (.ok m, [])) :
    m.recordBodySize ≤ header.bodyLength.toNat := by
  have hused := uses_getBody header.flags h
  rw [bodyAt, List.length_take, List.length_nil] at hused
  omega

/-- **A message that is read is not larger than its record.** -/
theorem recordSize_le_of_read {bytes : List UInt8} {m : Message} (h : read bytes = .ok m) :
    headerSize + m.recordBodySize ≤ bytes.length ∧ m.properties.Sized := by
  obtain ⟨header, hsealed, hbody⟩ := sealed_of_read h
  have hsize := recordBodySize_le_of_body hbody
  have hcomplete := hsealed.complete
  rw [RecordHeader.recordSize] at hcomplete
  exact ⟨by omega, sized_of_getBody hbody⟩

end Record

end Courier
