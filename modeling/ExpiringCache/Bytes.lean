/-!
# Byte strings

Keys and values are held as byte strings: two of them are the same exactly when their contents
are. They are ordered by contents, byte by byte, a proper beginning first, which is the order of
`List` and the order in which `ByteMap` keeps its keys.

* `Bytes.compare` is the order as one three-way comparison, and `Bytes.compare_eq_eq` and
  `Bytes.compare_eq_lt` tie it to `=` and `<`.
* `Bytes.startsWith` says that a byte string begins with another.
-/

namespace ExpiringCache

/-- A byte string: the form in which keys and values are stored. -/
abbrev Bytes := List UInt8

namespace Bytes

/-- The order of byte strings as a three-way comparison. -/
def compare : Bytes → Bytes → Ordering
  | [], [] => .eq
  | [], _ :: _ => .lt
  | _ :: _, [] => .gt
  | a :: as, b :: bs => if a < b then .lt else if b < a then .gt else compare as bs

/-- Comparison answers `eq` on equal byte strings and on no others. -/
theorem compare_eq_eq {a b : Bytes} : compare a b = .eq ↔ a = b := by
  induction a generalizing b with
  | nil => cases b <;> simp [compare]
  | cons x xs ih =>
    cases b with
    | nil => simp [compare]
    | cons y ys =>
      simp only [compare, List.cons.injEq]
      split
      · next h => simp [UInt8.ne_of_lt h]
      · split
        · next h => simp [(UInt8.ne_of_lt h).symm]
        · next h h' =>
          rw [ih, UInt8.le_antisymm (UInt8.not_lt.1 h') (UInt8.not_lt.1 h)]
          simp

/-- Comparison answers `lt` exactly where the first string precedes the second. -/
theorem compare_eq_lt {a b : Bytes} : compare a b = .lt ↔ a < b := by
  induction a generalizing b with
  | nil => cases b <;> simp [compare]
  | cons x xs ih =>
    cases b with
    | nil => simp [compare]
    | cons y ys =>
      simp only [compare, List.cons_lt_cons_iff]
      split
      · next h => simp [h]
      · split
        · next h h' => simp [h, (UInt8.ne_of_lt h').symm]
        · next h h' =>
          rw [ih]
          simp [UInt8.le_antisymm (UInt8.not_lt.1 h') (UInt8.not_lt.1 h)]

/-- Whether `bytes` begins with `start`. Every byte string begins with the empty one. -/
def startsWith (bytes start : Bytes) : Bool := start.isPrefixOf bytes

theorem startsWith_iff {bytes start : Bytes} :
    startsWith bytes start = true ↔ ∃ rest, bytes = start ++ rest := by
  simp only [startsWith, List.isPrefixOf_iff_prefix, List.IsPrefix]
  exact ⟨fun ⟨r, h⟩ => ⟨r, h.symm⟩, fun ⟨r, h⟩ => ⟨r, h.symm⟩⟩

@[simp] theorem startsWith_nil (bytes : Bytes) : startsWith bytes [] = true := by
  simp [startsWith]

end Bytes

end ExpiringCache
