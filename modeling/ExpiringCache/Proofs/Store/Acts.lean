import ExpiringCache.Command.Basic
import Mathlib.Tactic.Common

/-!
# What operations of the store do

An operation looks at some keys. Each of them holds afterwards what its *live* entry decides, and
is reported if it was expired; the other keys stay as they are (`Store.Acts`). There is one such
statement for each operation, and one for its answer, and they are all that is needed of the
operations elsewhere.
-/

namespace ExpiringCache

namespace Store

variable {α β : Type} {s s' : Store} {now : Millis} {key : Bytes}

/-! ### Expired entries -/

theorem live?_eq_none_of_due {entry : Bytes × Bytes} (h : entry ∈ s.due now key) :
    s.live? now key = none := by
  unfold due at h
  unfold live?
  cases hfind : s.entries.find? key with
  | none => rfl
  | some e =>
    rw [hfind] at h
    by_cases hexp : e.isExpiredAt now = true
    · simp [hexp]
    · simp [hexp] at h

/-- What is reported of a key carries that key. -/
theorem fst_of_mem_due {entry : Bytes × Bytes} (h : entry ∈ s.due now key) : entry.1 = key := by
  unfold due at h
  cases hfind : s.entries.find? key with
  | none => simp [hfind] at h
  | some e =>
    by_cases hexp : e.isExpiredAt now = true
    · simp only [hfind, hexp, if_true, List.mem_singleton] at h
      rw [h]
    · simp [hfind, hexp] at h

/-- A key that is not live is reported if it holds an entry. -/
theorem due_eq_nil_iff : s.due now key = [] ↔ s.entries.find? key = s.live? now key := by
  unfold due live?
  cases hfind : s.entries.find? key with
  | none => simp
  | some e => by_cases hexp : e.isExpiredAt now = true <;> simp [Option.filter, hexp]

theorem live?_of_find? {e : Entry} (h : s.entries.find? key = some e) :
    s.live? now key = if e.isExpiredAt now then none else some e := by
  rw [live?, h]
  cases hexp : e.isExpiredAt now <;> simp [hexp]

theorem due_eq_nil_iff_of_find? {e : Entry} (h : s.entries.find? key = some e) :
    s.due now key = [] ↔ e.isExpiredAt now = false := by
  rw [due_eq_nil_iff, h, live?_of_find? h]
  cases e.isExpiredAt now <;> simp

theorem due_congr {t : Store} (h : t.entries.find? key = s.entries.find? key) :
    t.due now key = s.due now key := by
  rw [due, due, h]

theorem lt_expiresAt {e : Entry} (h : e.isExpiredAt now = false) : now < e.expiresAt := by
  rw [← Nat.not_le, ← Entry.isExpiredAt_iff, h]
  exact Bool.false_ne_true

/-- Expired entries do not come back to life as time goes on. -/
theorem live?_later {later : Millis} (hle : now ≤ later) :
    s.live? later key = (s.live? now key).filter fun e => !e.isExpiredAt later := by
  unfold live?
  cases s.entries.find? key with
  | none => rfl
  | some e =>
    by_cases hexp : e.isExpiredAt now = true
    · have hlater : e.isExpiredAt later = true :=
        Entry.isExpiredAt_iff.2 (Nat.le_trans (Entry.isExpiredAt_iff.1 hexp) hle)
      simp [Option.filter, hexp, hlater]
    · simp [Option.filter, hexp]

/-! ### What an operation does to each key -/

/-- The operation looks at the keys in `on` and at no others; what such a key holds afterwards is
`next` of its live entry. -/
structure Acts (s : Store) (now : Millis) (on : Bytes → Prop)
    (next : Bytes → Option Entry → Option Entry) (t : Turn α) : Prop where
  policy : t.store.policy = s.policy
  inside : ∀ key, on key → t.store.entries.find? key = next key (s.live? now key)
  outside : ∀ key, ¬ on key → t.store.entries.find? key = s.entries.find? key
  expired : ∀ entry, entry ∈ t.expired ↔ on entry.1 ∧ entry ∈ s.due now entry.1

variable {on : Bytes → Prop} {next : Bytes → Option Entry → Option Entry} {t : Turn α}

theorem Acts.map (h : s.Acts now on next t) (f : α → β) : s.Acts now on next (t.map f) :=
  ⟨h.policy, h.inside, h.outside, h.expired⟩

theorem Acts.toRun {t : Turn (Except Refusal α)} (h : s.Acts now on next t) (f : α → Answer) :
    s.Acts now on next (t.toRun f) := h.map _

theorem Acts.answering (h : s.Acts now on next t) (f : α → Answer) :
    s.Acts now on next (t.answering f) := h.map _

/-- The keys that are reported are those that were looked at and expired. -/
theorem Acts.mem_expired (h : s.Acts now on next t) (key : Bytes) :
    key ∈ t.expired.map (·.1) ↔ on key ∧ s.due now key ≠ [] := by
  rw [List.mem_map]
  constructor
  · rintro ⟨entry, hentry, rfl⟩
    obtain ⟨hon, hdue⟩ := (h.expired entry).1 hentry
    exact ⟨hon, List.ne_nil_of_mem hdue⟩
  · rintro ⟨hon, hdue⟩
    obtain ⟨entry, hentry⟩ := List.exists_mem_of_ne_nil _ hdue
    have hfst := fst_of_mem_due hentry
    exact ⟨entry, (h.expired entry).2 (by rw [hfst]; exact ⟨hon, hentry⟩), hfst⟩

/-- An operation that did not look at the entries. -/
theorem acts_idle (next : Bytes → Option Entry → Option Entry) (answer : α) :
    s.Acts now (fun _ => False) next (s.idle answer) where
  policy := rfl
  inside _ h := h.elim
  outside _ _ := rfl
  expired _ := by simp [idle]

/-- An operation on one key that settles its report and gives the key its next entry. -/
theorem acts_settle {expired : List (Bytes × Bytes)} {entries : ByteMap Entry} (stats : Stats)
    (answer : α) (hexpired : expired = s.due now key)
    (hkey : entries.find? key = next key (s.live? now key))
    (hother : ∀ k, k ≠ key → entries.find? k = s.entries.find? k) :
    s.Acts now (· = key) next (s.settle expired entries stats answer) where
  policy := rfl
  inside k h := by rw [h]; exact hkey
  outside k h := hother k h
  expired entry := by
    rw [settle_expired, hexpired]
    constructor
    · intro hmem
      have hfst := fst_of_mem_due hmem
      exact ⟨hfst, by rw [hfst]; exact hmem⟩
    · rintro ⟨hfst, hmem⟩
      rwa [hfst] at hmem

/-- An operation that came upon a key and leaves nothing there. -/
theorem acts_settleWithout (answer : α) (hnext : next key (s.live? now key) = none) :
    s.Acts now (· = key) next (s.settleWithout now key answer) :=
  acts_settle s.stats answer rfl (by rw [ByteMap.find?_erase, if_pos rfl, hnext]) fun k hk => by
    rw [ByteMap.find?_erase, if_neg hk]

/-- An operation that found a live key and leaves it as it is. -/
theorem acts_keep {e : Entry} (h : s.live? now key = some e) (stats : Stats) (answer : α)
    (hnext : next key (some e) = some e) :
    s.Acts now (· = key) next (s.settle [] s.entries stats answer) :=
  acts_settle stats answer (due_eq_nil_of_live h).symm
    (by rw [h, hnext]; exact (live?_eq_some_iff.1 h).1) fun _ _ => rfl

/-- An operation that found a live key and puts an entry in place of its own. -/
theorem acts_swap {e f : Entry} (h : s.live? now key = some e) (stats : Stats) (answer : α)
    (hnext : next key (some e) = some f) :
    s.Acts now (· = key) next (s.settle [] (s.entries.insert key f) stats answer) :=
  acts_settle stats answer (due_eq_nil_of_live h).symm
    (by rw [ByteMap.find?_insert, if_pos rfl, h, hnext]) fun k hk => by
    rw [ByteMap.find?_insert, if_neg hk]

/-- An operation that looks at every key. -/
theorem acts_settle_all {keep : Bytes → Entry → Bool} (stats : Stats) (answer : α)
    (hnext : ∀ key, (s.entries.find? key).filter (keep key) = next key (s.live? now key)) :
    s.Acts now (fun _ => True) next (s.settle (s.allDue now) (s.entries.filter keep) stats answer)
    where
  policy := rfl
  inside k _ := by rw [settle_entries, ByteMap.find?_filter, hnext k]
  outside k h := absurd trivial h
  expired entry := by
    obtain ⟨k, value⟩ := entry
    rw [settle_expired, mem_allDue_iff]
    exact ⟨fun hdue => ⟨trivial, hdue⟩, And.right⟩

/-! ### The operations -/

theorem put_refused {value : Bytes} {refusal : Refusal} (h : refusal? key value = some refusal)
    (ttl : Duration) : s.put now key value ttl = s.idle (.error refusal) := by
  simp only [put, h]

theorem put_acts {value : Bytes} (h : refusal? key value = none) (ttl : Duration) :
    s.Acts now (· = key) (fun _ _ => some (Entry.fresh now value ttl s.policy))
      (s.put now key value ttl) := by
  simp only [put, h]
  exact acts_settle _ _ rfl (by rw [ByteMap.find?_insert, if_pos rfl]) fun k hk => by
    rw [ByteMap.find?_insert, if_neg hk]

theorem insertAbsent_refused {entry : Entry} {refusal : Refusal}
    (h : refusal? key entry.value = some refusal) :
    s.insertAbsent now key entry = s.idle (.error refusal) := by
  simp only [insertAbsent, h]

theorem insertAbsent_answer {entry : Entry} (h : refusal? key entry.value = none) :
    (s.insertAbsent now key entry).answer = .ok (s.live? now key).isNone := by
  simp only [insertAbsent, h]
  cases s.live? now key <;> rfl

theorem insertAbsent_acts {entry : Entry} (h : refusal? key entry.value = none) :
    s.Acts now (· = key) (fun _ live => some (live.getD entry)) (s.insertAbsent now key entry) := by
  simp only [insertAbsent, h]
  cases hlive : s.live? now key with
  | some e => exact acts_keep hlive _ _ rfl
  | none =>
    exact acts_settle _ _ rfl (by rw [ByteMap.find?_insert, if_pos rfl, hlive]; rfl) fun k hk => by
      rw [ByteMap.find?_insert, if_neg hk]

theorem replace_refused {value : Bytes} {refusal : Refusal}
    (h : refusal? key value = some refusal) :
    s.replace now key value = s.idle (.error refusal) := by
  simp only [replace, h]

theorem replace_answer {value : Bytes} (h : refusal? key value = none) :
    (s.replace now key value).answer = .ok ((s.live? now key).map (·.value)) := by
  simp only [replace, h]
  cases s.live? now key <;> rfl

theorem replace_acts {value : Bytes} (h : refusal? key value = none) :
    s.Acts now (· = key) (fun _ live => live.map (·.replaceValue value))
      (s.replace now key value) := by
  simp only [replace, h]
  cases hlive : s.live? now key with
  | some e => exact acts_swap hlive _ _ rfl
  | none => exact acts_settleWithout _ (by rw [hlive]; rfl)

theorem get_answer : (s.get now key).answer = (s.live? now key).map (·.value) := by
  unfold get
  cases s.live? now key <;> rfl

theorem get_acts :
    s.Acts now (· = key) (fun _ live => live.map (·.touch now)) (s.get now key) := by
  unfold get
  cases hlive : s.live? now key with
  | some e => exact acts_swap hlive _ _ rfl
  | none =>
    exact acts_settle _ _ rfl (by rw [ByteMap.find?_erase, if_pos rfl, hlive]; rfl) fun k hk => by
      rw [ByteMap.find?_erase, if_neg hk]

theorem peek_answer : (s.peek now key).answer = s.live? now key := by
  unfold peek
  cases s.live? now key <;> rfl

theorem peek_acts : s.Acts now (· = key) (fun _ live => live) (s.peek now key) := by
  unfold peek
  cases hlive : s.live? now key with
  | some e => exact acts_keep hlive _ _ rfl
  | none => exact acts_settleWithout _ hlive

theorem contains_answer : (s.contains now key).answer = (s.live? now key).isSome := by
  unfold contains
  cases s.live? now key <;> rfl

theorem contains_acts : s.Acts now (· = key) (fun _ live => live) (s.contains now key) := by
  unfold contains
  cases hlive : s.live? now key with
  | some e => exact acts_keep hlive _ _ rfl
  | none => exact acts_settleWithout _ hlive

theorem ttl_answer : (s.ttl now key).answer = (s.live? now key).map (·.remaining now) := by
  unfold ttl
  cases s.live? now key <;> rfl

theorem ttl_acts : s.Acts now (· = key) (fun _ live => live) (s.ttl now key) := by
  unfold ttl
  cases hlive : s.live? now key with
  | some e => exact acts_keep hlive _ _ rfl
  | none => exact acts_settleWithout _ hlive

theorem change_answer (f : Entry → Entry) :
    (s.change now key f).answer = (s.live? now key).isSome := by
  unfold change
  cases s.live? now key <;> rfl

theorem change_acts (f : Entry → Entry) :
    s.Acts now (· = key) (fun _ live => live.map f) (s.change now key f) := by
  unfold change
  cases hlive : s.live? now key with
  | some e => exact acts_swap hlive _ _ rfl
  | none => exact acts_settleWithout _ (by rw [hlive]; rfl)

theorem remove_answer : (s.remove now key).answer = (s.live? now key).map (·.value) := rfl

theorem remove_acts : s.Acts now (· = key) (fun _ _ => none) (s.remove now key) :=
  acts_settleWithout _ rfl

theorem removeWhere_acts (test : Bytes → Bool) :
    s.Acts now (fun _ => True) (fun key live => live.filter fun _ => !test key)
      (s.removeWhere now test) :=
  acts_settle_all _ _ fun key => by
    unfold live?
    cases s.entries.find? key with
    | none => rfl
    | some e => by_cases hexp : e.isExpiredAt now = true <;> simp [Option.filter, hexp]

theorem clear_acts : s.Acts now (fun _ => True) (fun _ _ => none) (s.clear now) where
  policy := rfl
  inside _ _ := rfl
  outside k h := absurd trivial h
  expired entry := by
    obtain ⟨k, value⟩ := entry
    rw [clear, settle_expired, mem_allDue_iff]
    exact ⟨fun hdue => ⟨trivial, hdue⟩, And.right⟩

theorem sweep_acts : s.Acts now (fun _ => True) (fun _ live => live) (s.sweep now) :=
  acts_settle_all _ _ fun _ => rfl

/-! ### What bulk operations answer -/

/-- The entries that are live. -/
def living (s : Store) (now : Millis) : ByteMap Entry :=
  s.entries.filter fun _ e => !e.isExpiredAt now

theorem find?_living (s : Store) (now : Millis) (key : Bytes) :
    (s.living now).find? key = s.live? now key :=
  ByteMap.find?_filter s.entries _ key

theorem removeWhere_answer (test : Bytes → Bool) :
    (s.removeWhere now test).answer =
      ((s.living now).entries.filter fun entry => test entry.1).map fun entry =>
        (entry.1, entry.2.value) := by
  simp only [removeWhere, settle_answer, living, ByteMap.filter, List.filter_filter, Bool.and_comm]

/-- What is answered are the live entries that were to be removed. -/
theorem mem_removeWhere_answer {test : Bytes → Bool} {entry : Bytes × Bytes} :
    entry ∈ (s.removeWhere now test).answer ↔
      ∃ e, s.live? now entry.1 = some e ∧ test entry.1 = true ∧ e.value = entry.2 := by
  rw [removeWhere_answer, List.mem_map]
  constructor
  · rintro ⟨⟨k, e⟩, hmem, rfl⟩
    obtain ⟨hmem, htest⟩ := List.mem_filter.1 hmem
    exact ⟨e, (find?_living s now k).symm.trans (ByteMap.mem_entries_iff.1 hmem), htest, rfl⟩
  · rintro ⟨e, hlive, htest, hvalue⟩
    refine ⟨(entry.1, e), List.mem_filter.2 ⟨?_, htest⟩, by rw [hvalue]⟩
    exact ByteMap.mem_entries_iff.2 ((find?_living s now entry.1).trans hlive)

theorem clear_answer : (s.clear now).answer = (s.living now).size := rfl

/-- There was something to remove if some key was live. -/
theorem clear_answer_pos :
    0 < (s.clear now).answer ↔ ∃ key, (s.live? now key).isSome = true := by
  simp only [← find?_living, ← ByteMap.mem_keys_iff, ← List.length_pos_iff_exists_mem, clear_answer,
    ByteMap.keys, List.length_map, ByteMap.size]

end Store

end ExpiringCache
