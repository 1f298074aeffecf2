import ExpiringCache.Cache
import ExpiringCache.Proofs.Codec
import ExpiringCache.Proofs.Json.Depth
import Mathlib.Algebra.Group.Int.Defs

/-!
# Values and their texts

Every value built without floating-point numbers (`Json.Plain`) that is nested no deeper than values
are read is stored as a text from which it is read back, so values and the texts stored for them
determine each other (`Codec.json_lossless`). A change of TTL relies on that: it records an entry
with the text that it gives the value it has read, which is the text that the entry holds.
-/

namespace ExpiringCache

open Codec (json decodeValue)

/-! ### Values built without floating-point numbers -/

namespace Json

/-- Values built of anything but floating-point numbers. The members of an object are given in any
order, no name twice. -/
inductive Plain : Json → Prop
  | null : Plain .null
  | bool (b : Bool) : Plain (.bool b)
  | int (n : Int) (hlow : -2 ^ 63 ≤ n) (hhigh : n < 2 ^ 64) : Plain (.int n)
  | str (text : String) : Plain (.str text)
  | arr (items : List Json) (hitems : ∀ v ∈ items, Plain v) : Plain (.arr items)
  | object (members : List (String × Json)) (hnames : (members.map (·.1)).Nodup)
      (hvalues : ∀ m ∈ members, Plain m.2) : Plain (object members)

theorem isIntegral_of_bounds {n : Int} (hlow : -2 ^ 63 ≤ n) (hhigh : n < 2 ^ 64) :
    isIntegral n = true := by
  simp only [isIntegral, UInt64.size, Bool.and_eq_true, decide_eq_true_eq]
  omega

theorem areExact_of_forall {items : List Json} (h : ∀ v ∈ items, v.isExact = true) :
    areExact items = true := by
  induction items with
  | nil => rfl
  | cons item rest ih =>
    obtain ⟨hitem, hrest⟩ := List.forall_mem_cons.1 h
    rw [areExact, hitem, ih hrest, Bool.and_self]

theorem areExactMembers_of_forall {members : List (String × Json)}
    (h : ∀ m ∈ members, m.2.isExact = true) : areExactMembers members = true := by
  induction members with
  | nil => rfl
  | cons member rest ih =>
    obtain ⟨hmember, hrest⟩ := List.forall_mem_cons.1 h
    rw [areExactMembers, hmember, ih hrest, Bool.and_self]

theorem Plain.isExact {v : Json} (h : v.Plain) : v.isExact = true := by
  induction h with
  | null | bool | str => rfl
  | int n hlow hhigh => exact isIntegral_of_bounds hlow hhigh
  | arr items hitems ih => exact areExact_of_forall ih
  | object members hnames hvalues ih =>
    rw [Json.object, Json.isExact, Bool.and_eq_true]
    exact ⟨decide_eq_true (pairwise_object members),
      areExactMembers_of_forall fun m hm => ih m (mem_object hm)⟩

/-- The members of an object are kept, and so written, in the order of the bytes of their names. -/
theorem pairwise_object_bytes (members : List (String × Json)) :
    (members.foldr addMember []).Pairwise fun a b => Utf8.encode a.1 < Utf8.encode b.1 :=
  (pairwise_object members).imp Utf8.encode_lt_iff.2

theorem Plain.storable {v : Json} (h : v.Plain) (hdepth : v.depth ≤ 127) : v.Storable :=
  ⟨h.isExact, hdepth⟩

end Json

/-! ### What is recorded of a value that was read -/

/-- What a change of TTL records of an entry whose value can be read: a worthy entry with the text of
that value. -/
theorem Cache.durationChange?_of_decoded {c : Cache} (hcodec : c.changeCodec = json) {e : Entry}
    {v : Json} (hvalue : decodeValue e.value = .ok (some v)) (kind : ChangeKind) (call : Invocation)
    (key : String) :
    c.durationChange? kind call key (Command.viewAnswer (some e)) =
      if c.config.isWorthy (some e.ttl) then
        some
          { kind := kind
            keys := [Codec.encodeKey key]
            value := some v.printed
            ttl := some e.ttl }
      else some call.erasure := by
  have hview : Command.viewAnswer (some e) = .ok (.view (some ⟨v, e.writtenTtl, e.ttl⟩)) := by
    simp only [Command.viewAnswer, hvalue]
    rfl
  simp only [hview, durationChange?, hcodec, Codec.encodeValue_json]

namespace Codec

/-- **A value built without floating-point numbers, nested at most 127 deep, is read back from the
bytes that are stored for it.** So no other such value is stored as the same bytes, a value read
from stored bytes is stored as these bytes again, and a change of TTL records just the bytes that
the entry holds. -/
theorem json_lossless {v : Json} (hplain : v.Plain) (hdepth : v.depth ≤ 127) :
    (∃ bytes, json.encodeValue v = .ok bytes ∧ bytes ≠ [] ∧ decodeValue bytes = .ok (some v)) ∧
    (∀ w : Json, w.Plain → w.depth ≤ 127 → json.encodeValue w = json.encodeValue v → w = v) ∧
    (∀ bytes w, json.encodeValue v = .ok bytes → decodeValue bytes = .ok (some w) →
      json.encodeValue w = .ok bytes) ∧
    ∀ (c : Cache) (kind : ChangeKind) (call : Invocation) (key : String) (e : Entry),
      c.changeCodec = json → json.encodeValue v = .ok e.value →
      c.config.isWorthy (some e.ttl) = true →
      c.durationChange? kind call key (Command.viewAnswer (some e)) = some
        { kind := kind
          keys := [encodeKey key]
          value := some e.value
          ttl := some e.ttl } := by
  have hstorable := hplain.storable hdepth
  have hback : decodeValue v.printed = .ok (some v) := decodeValue_printed hstorable
  refine ⟨⟨v.printed, rfl, printed_ne_nil hstorable, hback⟩, fun w hw hdeep heq => ?_,
    fun bytes w hbytes hread => ?_, fun c kind call key e hcodec hbytes hworthy => ?_⟩
  · have htext : w.printed = v.printed := Except.ok.inj heq
    have hback' := decodeValue_printed (hw.storable hdeep)
    rw [htext, hback] at hback'
    cases hback'
    rfl
  · cases hbytes
    cases hback.symm.trans hread
    rfl
  · have htext : v.printed = e.value := Except.ok.inj hbytes
    rw [htext] at hback
    rw [Cache.durationChange?_of_decoded hcodec hback, if_pos hworthy, htext]

/-- An object given with its members in another order than they are stored in, with both ends of the
integers, an empty array and a text with characters that are escaped. -/
theorem json_lossless_object :
    let v := Json.object [("z", .arr [.int (2 ^ 64 - 1), .int (-2 ^ 63), .arr []]), ("", .null),
      ("é", .str "\"\\\n\u0001𝄞")]
    ∃ bytes, json.encodeValue v = .ok bytes ∧ bytes ≠ [] ∧ decodeValue bytes = .ok (some v) := by
  intro v
  have hempty : Json.Plain (.arr []) := .arr [] nofun
  have hitems : ∀ item ∈ [.int (2 ^ 64 - 1), .int (-2 ^ 63), .arr []], Json.Plain item :=
    List.forall_mem_cons.2 ⟨.int _ (by decide) (by decide),
      List.forall_mem_cons.2 ⟨.int _ (by decide) (by decide),
        List.forall_mem_cons.2 ⟨hempty, nofun⟩⟩⟩
  have hplain : v.Plain := .object _ (by decide) <| List.forall_mem_cons.2 ⟨.arr _ hitems,
    List.forall_mem_cons.2 ⟨.null, List.forall_mem_cons.2 ⟨.str _, nofun⟩⟩⟩
  exact (json_lossless hplain (by decide)).1

end Codec

end ExpiringCache
