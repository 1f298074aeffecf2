import ExpiringCache.Text.Utf8
import Mathlib.Tactic.Common

/-!
# What is written as UTF-8 reads back

`Utf8.encode` writes a character as one to four bytes, and the reader takes these bytes back to the
character wherever it stands between characters (`Utf8.Spells`). Both readers follow the same
transitions, so both undo the writer: `decode_encode` for the one that finds faults, and
`repair_encode` for the one that replaces them.
-/

namespace ExpiringCache.Utf8

/-! ### The bytes of one character -/

/-- The bytes take a begun character to the whole character `c`. -/
inductive Completes : Partial → Bytes → Char → Prop where
  | last {p : Partial} {b : UInt8} {c : Char} : p.next b = .whole c → Completes p [b] c
  | more {p q : Partial} {b : UInt8} {rest : Bytes} {c : Char} :
      p.next b = .more q → Completes q rest c → Completes p (b :: rest) c

/-- The bytes take the reader from between characters to the whole character `c`. -/
inductive Spells : Bytes → Char → Prop where
  | whole {b : UInt8} {c : Char} : lead b = .whole c → Spells [b] c
  | start {b : UInt8} {p : Partial} {rest : Bytes} {c : Char} :
      lead b = .start p → Completes p rest c → Spells (b :: rest) c

/-- A continuation byte inside its bounds leads on with its six bits. -/
theorem next_eq {p : Partial} {n : Nat} (hn : n < 64) (hlow : p.low.toNat ≤ n + 0x80)
    (hhigh : n + 0x80 ≤ p.high.toNat) :
    p.next (UInt8.ofNat (n + 0x80)) =
      if p.owed ≤ 1 then .whole (Char.ofNat (p.bits * 64 + n))
      else .more ⟨p.owed - 1, 0x80, 0xBF, p.bits * 64 + n, p.seen + 1⟩ := by
  have hb : (UInt8.ofNat (n + 0x80)).toNat = n + 0x80 := by
    rw [UInt8.toNat_ofNat']; omega
  have hin : p.low ≤ UInt8.ofNat (n + 0x80) ∧ UInt8.ofNat (n + 0x80) ≤ p.high := by
    simp only [UInt8.le_iff_toNat_le, hb]
    exact ⟨hlow, hhigh⟩
  simp only [Partial.next, hin, and_self, if_true, hb, Nat.add_sub_cancel]

/-- The last byte of a character. -/
theorem completes_one {p : Partial} {n : Nat} {c : Char} (howed : p.owed = 1) (hn : n < 64)
    (hlow : p.low.toNat ≤ n + 0x80) (hhigh : n + 0x80 ≤ p.high.toNat)
    (hc : c.toNat = p.bits * 64 + n) : Completes p [UInt8.ofNat (n + 0x80)] c := by
  refine .last ?_
  rw [next_eq hn hlow hhigh, if_pos (by omega), ← hc, Char.ofNat_toNat]

/-- A byte of a character before the last. -/
theorem completes_cons {p : Partial} {n : Nat} {rest : Bytes} {c : Char} (howed : 1 < p.owed)
    (hn : n < 64) (hlow : p.low.toNat ≤ n + 0x80) (hhigh : n + 0x80 ≤ p.high.toNat)
    (hrest : Completes ⟨p.owed - 1, 0x80, 0xBF, p.bits * 64 + n, p.seen + 1⟩ rest c) :
    Completes p (UInt8.ofNat (n + 0x80) :: rest) c := by
  refine .more ?_ hrest
  rw [next_eq hn hlow hhigh, if_neg (by omega)]

/-! ### The byte that begins a character

`v` is the code point. Each lemma gives what the first byte leaves to be read, together with the
bounds that the second byte, known from `v`, has to meet. -/

/-- The first byte of a character, by its number. -/
theorem lead_ofNat {n : Nat} (hn : n < 256) :
    lead (UInt8.ofNat n) =
      if n < 0x80 then .whole (Char.ofNat n)
      else if n < 0xC2 then .none
      else if n < 0xE0 then .start ⟨1, 0x80, 0xBF, n - 0xC0, 1⟩
      else if n = 0xE0 then .start ⟨2, 0xA0, 0xBF, 0, 1⟩
      else if n = 0xED then .start ⟨2, 0x80, 0x9F, 0xD, 1⟩
      else if n < 0xF0 then .start ⟨2, 0x80, 0xBF, n - 0xE0, 1⟩
      else if n = 0xF0 then .start ⟨3, 0x90, 0xBF, 0, 1⟩
      else if n < 0xF4 then .start ⟨3, 0x80, 0xBF, n - 0xF0, 1⟩
      else if n = 0xF4 then .start ⟨3, 0x80, 0x8F, 4, 1⟩
      else .none := by
  have hb : (UInt8.ofNat n).toNat = n := by rw [UInt8.toNat_ofNat']; omega
  simp only [lead, UInt8.lt_iff_toNat_lt, ← UInt8.toNat_inj, hb]
  rfl

theorem lead_two {v : Nat} (hlow : 0x80 ≤ v) (hhigh : v < 0x800) :
    lead (UInt8.ofNat (v / 64 + 0xC0)) = .start ⟨1, 0x80, 0xBF, v / 64, 1⟩ := by
  rw [lead_ofNat (by omega), if_neg (by omega), if_neg (by omega), if_pos (by omega),
    Nat.add_sub_cancel]

/-- Surrogates are no code points of characters, so the second byte after `0xED` stays low. -/
theorem lead_three {v : Nat} (hlow : 0x800 ≤ v) (hhigh : v < 0x10000)
    (hscalar : v < 0xD800 ∨ 0xDFFF < v) :
    ∃ p, lead (UInt8.ofNat (v / 4096 + 0xE0)) = .start p ∧ p.owed = 2 ∧ p.bits = v / 4096 ∧
      p.low.toNat ≤ v / 64 % 64 + 0x80 ∧ v / 64 % 64 + 0x80 ≤ p.high.toNat := by
  rw [lead_ofNat (by omega), if_neg (by omega), if_neg (by omega), if_neg (by omega)]
  by_cases he0 : v / 4096 + 0xE0 = 0xE0
  · rw [if_pos he0]
    refine ⟨_, rfl, rfl, ?_, ?_, ?_⟩ <;> simp only [UInt8.reduceToNat] <;> omega
  · by_cases hed : v / 4096 + 0xE0 = 0xED
    · rw [if_neg he0, if_pos hed]
      refine ⟨_, rfl, rfl, ?_, ?_, ?_⟩ <;> simp only [UInt8.reduceToNat] <;> omega
    · rw [if_neg he0, if_neg hed, if_pos (by omega)]
      refine ⟨_, rfl, rfl, ?_, ?_, ?_⟩ <;> simp only [UInt8.reduceToNat] <;> omega

theorem lead_four {v : Nat} (hlow : 0x10000 ≤ v) (hhigh : v < 0x110000) :
    ∃ p, lead (UInt8.ofNat (v / 262144 + 0xF0)) = .start p ∧ p.owed = 3 ∧ p.bits = v / 262144 ∧
      p.low.toNat ≤ v / 4096 % 64 + 0x80 ∧ v / 4096 % 64 + 0x80 ≤ p.high.toNat := by
  rw [lead_ofNat (by omega), if_neg (by omega), if_neg (by omega), if_neg (by omega),
    if_neg (by omega), if_neg (by omega), if_neg (by omega)]
  by_cases hf0 : v / 262144 + 0xF0 = 0xF0
  · rw [if_pos hf0]
    refine ⟨_, rfl, rfl, ?_, ?_, ?_⟩ <;> simp only [UInt8.reduceToNat] <;> omega
  · by_cases hf4 : v / 262144 + 0xF0 < 0xF4
    · rw [if_neg hf0, if_pos hf4]
      refine ⟨_, rfl, rfl, ?_, ?_, ?_⟩ <;> simp only [UInt8.reduceToNat] <;> omega
    · rw [if_neg hf0, if_neg hf4, if_pos (by omega)]
      refine ⟨_, rfl, rfl, ?_, ?_, ?_⟩ <;> simp only [UInt8.reduceToNat] <;> omega

/-- The bytes of a character take the reader to that character. -/
theorem spells_utf8EncodeChar (c : Char) : Spells (String.utf8EncodeChar c) c := by
  have hvalid : c.toNat < 0xD800 ∨ 0xDFFF < c.toNat ∧ c.toNat < 0x110000 := c.valid
  have hc : c.val.toNat = c.toNat := rfl
  unfold String.utf8EncodeChar
  simp only [hc]
  -- One case for each length. In the longer ones the first byte bounds the second, so as to leave
  -- out surrogates, overlong forms and what lies beyond the last character.
  by_cases h1 : c.toNat ≤ 0x7f
  · rw [if_pos h1]
    refine .whole ?_
    rw [lead_ofNat (by omega), if_pos (by omega), Char.ofNat_toNat]
  rw [if_neg h1]
  by_cases h2 : c.toNat ≤ 0x7ff
  · rw [if_pos h2, Nat.mod_eq_of_lt (show c.toNat / 64 < 0x20 by omega)]
    refine .start (lead_two (by omega) (by omega)) (completes_one rfl (by omega) ?_ ?_ ?_)
    · simp
    · simp; omega
    · simp; omega
  rw [if_neg h2]
  by_cases h3 : c.toNat ≤ 0xffff
  · rw [if_pos h3, Nat.mod_eq_of_lt (show c.toNat / 4096 < 0x10 by omega)]
    obtain ⟨p, hp, howed, hbits, hlow, hhigh⟩ :=
      lead_three (v := c.toNat) (by omega) (by omega) (by omega)
    refine .start hp (completes_cons (by omega) (by omega) hlow hhigh
      (completes_one (by simp; omega) (by omega) ?_ ?_ ?_))
    · simp
    · simp; omega
    · simp only [hbits]; omega
  · rw [if_neg h3, Nat.mod_eq_of_lt (show c.toNat / 262144 < 0x08 by omega)]
    obtain ⟨p, hp, howed, hbits, hlow, hhigh⟩ := lead_four (v := c.toNat) (by omega) (by omega)
    refine .start hp (completes_cons (by omega) (by omega) hlow hhigh
      (completes_cons (by simp; omega) (by omega) ?_ ?_
        (completes_one (by simp; omega) (by omega) ?_ ?_ ?_)))
    · simp
    · simp; omega
    · simp
    · simp; omega
    · simp only [hbits]; omega

/-! ### Whole texts -/

@[simp] theorem encode_append (s t : String) : encode (s ++ t) = encode s ++ encode t := by
  simp [encode]

/-- The reader that finds faults, from inside a character. -/
theorem decodeFrom_completes {p : Partial} {bytes : Bytes} {c : Char} (h : Completes p bytes c) :
    ∀ (pos : Nat) (read : List Char) (rest : Bytes), ∃ pos',
      decodeFrom pos read (some p) (bytes ++ rest) = decodeFrom pos' (c :: read) none rest := by
  induction h with
  | last hb => intro pos read rest; exact ⟨pos + 1, by simp [decodeFrom, hb]⟩
  | more hb _ ih =>
    intro pos read rest
    obtain ⟨pos', h⟩ := ih (pos + 1) read rest
    exact ⟨pos', by simp [decodeFrom, hb, h]⟩

theorem decodeFrom_spells {bytes : Bytes} {c : Char} (h : Spells bytes c) (pos : Nat)
    (read : List Char) (rest : Bytes) : ∃ pos',
      decodeFrom pos read none (bytes ++ rest) = decodeFrom pos' (c :: read) none rest := by
  cases h with
  | whole hb => exact ⟨pos + 1, by simp [decodeFrom, hb]⟩
  | start hb hrest =>
    obtain ⟨pos', h⟩ := decodeFrom_completes hrest (pos + 1) read rest
    exact ⟨pos', by simp [decodeFrom, hb, h]⟩

theorem decodeFrom_flatMap (cs : List Char) : ∀ (pos : Nat) (read : List Char),
    decodeFrom pos read none (cs.flatMap String.utf8EncodeChar) = .ok (read.reverse ++ cs) := by
  induction cs with
  | nil => intro pos read; simp [decodeFrom]
  | cons c cs ih =>
    intro pos read
    obtain ⟨pos', h⟩ := decodeFrom_spells (spells_utf8EncodeChar c) pos read
      (cs.flatMap String.utf8EncodeChar)
    rw [List.flatMap_cons, h, ih]
    simp

/-- What is written as UTF-8 is read back without a fault. -/
@[simp] theorem decode_encode (text : String) : decode (encode text) = .ok text := by
  rw [decode, encode, decodeFrom_flatMap]
  simp [Except.map]

@[simp] theorem decode?_encode (text : String) : decode? (encode text) = some text := by
  simp [decode?]

/-- Different texts have different bytes. -/
theorem encode_injective {s t : String} (h : encode s = encode t) : s = t := by
  have hread := decode?_encode s
  rw [h, decode?_encode] at hread
  exact (Option.some.inj hread).symm

/-- The reader that replaces faults, from inside a character. -/
theorem repairFrom_completes {p : Partial} {bytes : Bytes} {c : Char} (h : Completes p bytes c)
    (read : List Char) (rest : Bytes) :
    repairFrom read (some p) (bytes ++ rest) = repairFrom (c :: read) none rest := by
  induction h with
  | last hb => simp [repairFrom, hb]
  | more hb _ ih => simp [repairFrom, hb, ih]

theorem repairFrom_spells {bytes : Bytes} {c : Char} (h : Spells bytes c) (read : List Char)
    (rest : Bytes) : repairFrom read none (bytes ++ rest) = repairFrom (c :: read) none rest := by
  cases h with
  | whole hb => simp [repairFrom, hb]
  | start hb hrest => simp [repairFrom, hb, repairFrom_completes hrest]

theorem repairFrom_flatMap (cs read : List Char) :
    repairFrom read none (cs.flatMap String.utf8EncodeChar) = read.reverse ++ cs := by
  induction cs generalizing read with
  | nil => simp [repairFrom]
  | cons c cs ih =>
    rw [List.flatMap_cons, repairFrom_spells (spells_utf8EncodeChar c), ih]
    simp

/-- Nothing has to be replaced in what is written as UTF-8. -/
@[simp] theorem repair_encode (text : String) : repair (encode text) = text := by
  rw [repair, encode, repairFrom_flatMap]
  simp

/-! ### Order -/

/-- Two characters are in the order of their bytes, whatever follows each of them. -/
theorem utf8EncodeChar_lt {c d : Char} (h : c < d) (r s : Bytes) :
    String.utf8EncodeChar c ++ r < String.utf8EncodeChar d ++ s := by
  have hlt : c.toNat < d.toNat := h
  have hvalid : d.toNat < 0xD800 ∨ 0xDFFF < d.toNat ∧ d.toNat < 0x110000 := d.valid
  have hc : c.val.toNat = c.toNat := rfl
  have hd : d.val.toNat = d.toNat := rfl
  unfold String.utf8EncodeChar
  simp only [hc, hd]
  generalize c.toNat = m at hlt
  generalize d.toNat = n at hlt hvalid
  -- One case for each two lengths. Of equal lengths, the bytes are the digits of the code points.
  split_ifs <;>
    simp only [List.cons_append, List.nil_append, List.cons_lt_cons_iff, UInt8.lt_iff_toNat_lt,
      ← UInt8.toNat_inj, UInt8.toNat_ofNat'] <;>
    simp (disch := omega) only [Nat.mod_eq_of_lt] <;>
    omega

theorem flatMap_utf8EncodeChar_lt {a b : List Char} (h : a < b) :
    a.flatMap String.utf8EncodeChar < b.flatMap String.utf8EncodeChar := by
  induction a generalizing b with
  | nil =>
    cases b with
    | nil => exact absurd h (List.lt_irrefl [])
    | cons d ds =>
      have hspells := spells_utf8EncodeChar d
      rw [List.flatMap_cons]
      cases hd : String.utf8EncodeChar d with
      | nil => rw [hd] at hspells; cases hspells
      | cons x xs => exact List.nil_lt_cons _ _
  | cons c cs ih =>
    cases b with
    | nil => exact absurd h (List.not_lt_nil _)
    | cons d ds =>
      rw [List.flatMap_cons, List.flatMap_cons]
      rcases List.cons_lt_cons_iff.1 h with hlt | ⟨rfl, hlt⟩
      · exact utf8EncodeChar_lt hlt _ _
      · exact List.append_left_lt (ih hlt)

/-- Texts are in the order of their bytes. -/
theorem encode_lt_iff {s t : String} : encode s < encode t ↔ s < t := by
  have hmono : ∀ {s t : String}, s < t → encode s < encode t := fun h =>
    flatMap_utf8EncodeChar_lt (String.lt_iff.1 h)
  refine ⟨fun h => String.not_le.1 fun hle => ?_, hmono⟩
  by_cases heq : t = s
  · subst heq
    exact List.lt_irrefl _ h
  · have hlt : t < s := String.not_le.1 fun hle' => heq (String.le_antisymm hle hle')
    exact List.lt_asymm h (hmono hlt)

end ExpiringCache.Utf8
