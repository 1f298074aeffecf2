import ExpiringCache.Codec
import ExpiringCache.Proofs.Json.RoundTrip

/-!
# Keys and values read back

Keys are read back from their bytes whatever they are. Whether a value is depends on the value
(`Json.Faithful`): those that can be stored are.
-/

namespace ExpiringCache

/-- The value is read back from its text as it was. -/
def Json.Faithful (v : Json) : Prop := Codec.decodeValue v.printed = .ok (some v)

namespace Codec

/-- The bytes stand for no value, or for an absent one. -/
def Unreadable (bytes : Bytes) : Prop := ∀ value, decodeValue bytes ≠ .ok (some value)

/-- Bytes stand for a value or not. -/
theorem readable_or_unreadable (bytes : Bytes) :
    (∃ v, decodeValue bytes = .ok (some v)) ∨ Unreadable bytes := by
  by_cases h : ∃ v, decodeValue bytes = .ok (some v)
  · exact .inl h
  · exact .inr fun v hv => h ⟨v, hv⟩

@[simp] theorem encodeValue_json (v : Json) : json.encodeValue v = .ok v.printed := rfl

/-- The text of a value is never the text that stands for no value. -/
theorem printed_ne_nil {v : Json} (h : v.Storable) : v.printed ≠ [] := by
  obtain ⟨b, bs, htext, -⟩ := Json.printed_begins h.isExact
  rw [htext]
  exact List.cons_ne_nil b bs

theorem decodeValue_printed {v : Json} (h : v.Storable) :
    decodeValue v.printed = .ok (some v) := by
  have hne : v.printed.isEmpty = false := List.isEmpty_eq_false_iff.2 (printed_ne_nil h)
  simp [decodeValue, hne, Json.parse_printed h]

@[simp] theorem decodeKey_encodeKey (key : String) : decodeKey (encodeKey key) = .ok key := by
  simp [decodeKey, encodeKey, Utf8.decode_encode]

/-- What is nested too deep stands for nothing once it is written. -/
theorem unreadable_nested {n : Nat} (h : Json.maxDepth < n) (v : Json) :
    Unreadable (Json.nested n v).printed := by
  intro value hvalue
  obtain ⟨e, he⟩ := Json.parse_nested h v
  unfold decodeValue at hvalue
  rw [he] at hvalue
  split at hvalue
  · cases hvalue
  · cases hvalue

theorem encodeKey_inj {a b : String} : encodeKey a = encodeKey b ↔ a = b :=
  ⟨fun h => Utf8.encode_injective h, fun h => by rw [h]⟩

theorem encodeKey_mem_map {text : String} {texts : List String} :
    encodeKey text ∈ texts.map encodeKey ↔ text ∈ texts := by
  simp only [List.mem_map, encodeKey_inj, exists_eq_right]

@[simp] theorem repair_encodeKey (key : String) : Utf8.repair (encodeKey key) = key :=
  Utf8.repair_encode key

end Codec

/-- What can be stored is read back. -/
theorem Json.Storable.faithful {v : Json} (h : v.Storable) : v.Faithful :=
  Codec.decodeValue_printed h

end ExpiringCache
