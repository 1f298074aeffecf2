import ExpiringCache.Bytes

/-!
# Maps keyed by byte strings

A finite map from byte strings to values, held as its list of entries in strictly ascending order
of keys. The order is part of the type, so a map is determined by what its keys hold
(`ByteMap.ext_find?`), and listing a map needs no sorting.

Each operation has one equation through `ByteMap.find?`: `find?_insert`, `find?_erase`,
`find?_modify`, `find?_filter`, `find?_ofList`. Everything else about a map is read off these.
-/

namespace ExpiringCache

/-- Entries in strictly ascending order of their keys. -/
def Ascending {α : Type} (entries : List (Bytes × α)) : Prop :=
  entries.Pairwise (fun a b => a.1 < b.1)

/-- Whether entries are in order is a matter of their keys. -/
theorem Ascending.map {α β : Type} {entries : List (Bytes × α)} (h : Ascending entries)
    (f : Bytes → α → β) : Ascending (entries.map fun e => (e.1, f e.1 e.2)) :=
  List.pairwise_map.2 h

/-- A finite map from byte strings, as its entries in ascending order of keys. -/
structure ByteMap (α : Type) where
  /-- The entries, each key once, in ascending order. -/
  entries : List (Bytes × α)
  ascending : Ascending entries := by exact List.Pairwise.nil

namespace ByteMap

variable {α : Type}

@[ext] theorem ext {m n : ByteMap α} (h : m.entries = n.entries) : m = n := by
  cases m; cases n; simp_all

instance [DecidableEq α] : DecidableEq (ByteMap α) := fun m n =>
  decidable_of_iff (m.entries = n.entries) ⟨ext, fun h => by rw [h]⟩

/-! ## Operations on entry lists -/

/-- Puts a value under a key, in place of any value already there. -/
def put (key : Bytes) (value : α) : List (Bytes × α) → List (Bytes × α)
  | [] => [(key, value)]
  | entry :: rest =>
    if key < entry.1 then (key, value) :: entry :: rest
    else if key = entry.1 then (key, value) :: rest
    else entry :: put key value rest

theorem mem_put {key : Bytes} {value : α} {entry : Bytes × α} {entries : List (Bytes × α)}
    (h : entry ∈ put key value entries) : entry = (key, value) ∨ entry ∈ entries := by
  induction entries with
  | nil => simpa [put] using h
  | cons first rest ih =>
    simp only [put] at h
    split at h
    · simpa using h
    · split at h
      · rcases List.mem_cons.1 h with h | h
        · exact .inl h
        · exact .inr (List.mem_cons_of_mem _ h)
      · rcases List.mem_cons.1 h with h | h
        · exact .inr (h ▸ List.mem_cons_self)
        · exact (ih h).imp id (List.mem_cons_of_mem _)

/-- Of two different byte strings, the one that does not precede comes after. -/
theorem lt_of_not_lt {a b : Bytes} (h : ¬ a < b) (hne : a ≠ b) : b < a := by
  rcases Decidable.em (b < a) with hba | hba
  · exact hba
  · exact absurd (List.le_antisymm (List.not_lt.1 hba) (List.not_lt.1 h)) hne

theorem ascending_put {key : Bytes} {value : α} {entries : List (Bytes × α)}
    (h : Ascending entries) : Ascending (put key value entries) := by
  induction entries with
  | nil => exact List.pairwise_singleton _ _
  | cons first rest ih =>
    have hrest : ∀ e ∈ rest, first.1 < e.1 := (List.pairwise_cons.1 h).1
    simp only [put]
    split
    · next hlt =>
      refine List.pairwise_cons.2 ⟨fun e he => ?_, h⟩
      rcases List.mem_cons.1 he with rfl | he
      · exact hlt
      · exact List.lt_trans hlt (hrest e he)
    · next hlt =>
      split
      · next heq => exact List.pairwise_cons.2 ⟨fun e he => heq ▸ hrest e he, h.of_cons⟩
      · next hne =>
        refine List.pairwise_cons.2 ⟨fun e he => ?_, ih h.of_cons⟩
        rcases mem_put he with rfl | he
        · exact lt_of_not_lt hlt hne
        · exact hrest e he

/-- The value under a key. -/
def seek (key : Bytes) : List (Bytes × α) → Option α
  | [] => none
  | entry :: rest => if key = entry.1 then some entry.2 else seek key rest

/-- Replaces the value under a key, where there is one. -/
def alter (key : Bytes) (f : α → α) (entry : Bytes × α) : Bytes × α :=
  if entry.1 = key then (entry.1, f entry.2) else entry

@[simp] theorem alter_fst (key : Bytes) (f : α → α) (entry : Bytes × α) :
    (alter key f entry).1 = entry.1 := by
  unfold alter; split <;> rfl

/-! ## Operations on maps -/

/-- The map without entries. -/
def empty : ByteMap α := { entries := [] }

instance : EmptyCollection (ByteMap α) := ⟨empty⟩

instance : Inhabited (ByteMap α) := ⟨empty⟩

/-- The value under a key. -/
def find? (m : ByteMap α) (key : Bytes) : Option α := seek key m.entries

/-- Whether a key has a value. -/
def contains (m : ByteMap α) (key : Bytes) : Bool := (m.find? key).isSome

/-- The number of entries. -/
def size (m : ByteMap α) : Nat := m.entries.length

/-- Whether there are no entries. -/
def isEmpty (m : ByteMap α) : Bool := m.entries.isEmpty

/-- The keys in ascending order. -/
def keys (m : ByteMap α) : List Bytes := m.entries.map (·.1)

/-- Sets the value under a key. -/
def insert (m : ByteMap α) (key : Bytes) (value : α) : ByteMap α where
  entries := put key value m.entries
  ascending := ascending_put m.ascending

/-- Keeps the entries that satisfy a test on key and value. -/
def filter (m : ByteMap α) (keep : Bytes → α → Bool) : ByteMap α where
  entries := m.entries.filter (fun entry => keep entry.1 entry.2)
  ascending := m.ascending.filter _

/-- Removes a key. -/
def erase (m : ByteMap α) (key : Bytes) : ByteMap α := m.filter (fun k _ => k != key)

/-- Changes the value under a key; a key without a value stays without one. -/
def modify (m : ByteMap α) (key : Bytes) (f : α → α) : ByteMap α where
  entries := m.entries.map (alter key f)
  ascending := by
    have h := m.ascending
    simp only [Ascending, List.pairwise_map, alter_fst] at h ⊢
    exact h

/-- The map that holds, under each key, the last value a list gives for it. -/
def ofList (entries : List (Bytes × α)) : ByteMap α :=
  entries.foldl (fun m entry => m.insert entry.1 entry.2) empty

/-! ## What the keys hold after each operation -/

@[simp] theorem entries_empty : (∅ : ByteMap α).entries = [] := rfl

@[simp] theorem find?_empty (key : Bytes) : (∅ : ByteMap α).find? key = none := rfl

theorem seek_put (key : Bytes) (value : α) (entries : List (Bytes × α)) (k : Bytes) :
    seek k (put key value entries) = if k = key then some value else seek k entries := by
  induction entries with
  | nil => rfl
  | cons first rest ih =>
    simp only [put]
    split
    · rfl
    · split
      · next heq => by_cases h : k = key <;> simp [seek, ← heq, h]
      · next hne =>
        by_cases h : k = first.1
        · simp [seek, h, Ne.symm hne]
        · simp [seek, h, ih]

/-- An insertion is seen under its own key and under no other. -/
@[simp] theorem find?_insert (m : ByteMap α) (key : Bytes) (value : α) (k : Bytes) :
    (m.insert key value).find? k = if k = key then some value else m.find? k :=
  seek_put key value m.entries k

/-- A key that precedes every key of a list is not in it. -/
theorem seek_eq_none_of_lt {k : Bytes} {entries : List (Bytes × α)}
    (h : ∀ e ∈ entries, k < e.1) : seek k entries = none := by
  induction entries with
  | nil => rfl
  | cons first rest ih =>
    have hne : k ≠ first.1 := fun heq =>
      List.lt_irrefl _ (heq ▸ h first List.mem_cons_self : first.1 < first.1)
    simp only [seek, hne, if_false]
    exact ih fun e he => h e (List.mem_cons_of_mem _ he)

/-- In a list in order no key comes again. -/
theorem seek_rest {first : Bytes × α} {rest : List (Bytes × α)} (h : Ascending (first :: rest)) :
    seek first.1 rest = none :=
  seek_eq_none_of_lt (List.pairwise_cons.1 h).1

theorem seek_filter (keep : Bytes → α → Bool) {entries : List (Bytes × α)}
    (h : Ascending entries) (k : Bytes) :
    seek k (entries.filter (fun e => keep e.1 e.2)) = (seek k entries).filter (keep k) := by
  induction entries with
  | nil => rfl
  | cons first rest ih =>
    have hrest : ∀ e ∈ rest, first.1 < e.1 := (List.pairwise_cons.1 h).1
    have ih := ih h.of_cons
    by_cases hk : k = first.1
    · have hnone : seek first.1 (rest.filter (fun e => keep e.1 e.2)) = none :=
        seek_eq_none_of_lt fun e he => hrest e (List.mem_filter.1 he).1
      by_cases hkeep : keep first.1 first.2 <;> simp [seek, hk, hkeep, Option.filter, hnone]
    · by_cases hkeep : keep first.1 first.2 <;> simp [seek, hk, hkeep, ih]

/-- Filtering keeps a key exactly when its value passes the test. -/
@[simp] theorem find?_filter (m : ByteMap α) (keep : Bytes → α → Bool) (k : Bytes) :
    (m.filter keep).find? k = (m.find? k).filter (keep k) :=
  seek_filter keep m.ascending k

/-- An erased key holds nothing, and every other key what it held. -/
@[simp] theorem find?_erase (m : ByteMap α) (key k : Bytes) :
    (m.erase key).find? k = if k = key then none else m.find? k := by
  rw [erase, find?_filter]
  by_cases h : k = key <;> cases m.find? k <;> simp [h, Option.filter]

/-- What is mapped stays under its key. -/
theorem seek_map {β : Type} (f : Bytes → α → β) (entries : List (Bytes × α)) (k : Bytes) :
    seek k (entries.map fun e => (e.1, f e.1 e.2)) = (seek k entries).map (f k) := by
  induction entries with
  | nil => rfl
  | cons first rest ih =>
    by_cases hk : k = first.1
    · simp [seek, hk]
    · simp [seek, hk, ih]

theorem seek_map_alter (key : Bytes) (f : α → α) (entries : List (Bytes × α)) (k : Bytes) :
    seek k (entries.map (alter key f)) =
      if k = key then (seek k entries).map f else seek k entries := by
  induction entries with
  | nil => simp [seek]
  | cons first rest ih =>
    by_cases hk : k = first.1
    · by_cases hkey : first.1 = key <;> simp [seek, alter, hk, hkey]
    · simp [seek, hk, ih]

/-- A modification is seen under its own key, if that key holds a value, and under no other. -/
@[simp] theorem find?_modify (m : ByteMap α) (key : Bytes) (f : α → α) (k : Bytes) :
    (m.modify key f).find? k = if k = key then (m.find? k).map f else m.find? k :=
  seek_map_alter key f m.entries k

theorem seek_append (entries more : List (Bytes × α)) (k : Bytes) :
    seek k (entries ++ more) = (seek k entries).or (seek k more) := by
  induction entries with
  | nil => rfl
  | cons first rest ih => by_cases hk : k = first.1 <;> simp [seek, hk, ih]

theorem find?_foldl_insert (entries : List (Bytes × α)) (m : ByteMap α) (k : Bytes) :
    (entries.foldl (fun m entry => m.insert entry.1 entry.2) m).find? k =
      (seek k entries.reverse).or (m.find? k) := by
  induction entries generalizing m with
  | nil => rfl
  | cons first rest ih =>
    rw [List.foldl_cons, ih, find?_insert, List.reverse_cons, seek_append, Option.or_assoc]
    by_cases hk : k = first.1 <;> simp [seek, hk]

/-- The map of a list holds for each key the last value given for it. -/
theorem find?_ofList (entries : List (Bytes × α)) (k : Bytes) :
    (ofList entries).find? k = seek k entries.reverse :=
  (find?_foldl_insert entries empty k).trans Option.or_none

/-- An entry of the list is what its key holds. -/
theorem mem_entries_iff {m : ByteMap α} {key : Bytes} {value : α} :
    (key, value) ∈ m.entries ↔ m.find? key = some value := by
  have h := m.ascending
  unfold find?
  generalize m.entries = entries at h
  induction entries with
  | nil => simp [seek]
  | cons first rest ih =>
    have hrest : ∀ e ∈ rest, first.1 < e.1 := (List.pairwise_cons.1 h).1
    have ih := ih h.of_cons
    by_cases hk : key = first.1
    · subst hk
      have hnot : (first.1, value) ∉ rest := fun hmem =>
        List.lt_irrefl _ (hrest (first.1, value) hmem)
      simp only [List.mem_cons, hnot, or_false, seek, if_true, Option.some.injEq]
      exact ⟨fun heq => by rw [← heq], fun heq => by rw [← heq]⟩
    · have hne : (key, value) ≠ first := fun heq => hk (by rw [← heq])
      simp only [List.mem_cons, hne, false_or, seek, hk, if_false, ih]

/-- A map is determined by what its keys hold. -/
theorem ext_find? {m n : ByteMap α} (h : ∀ k, m.find? k = n.find? k) : m = n := by
  have hm := m.ascending
  have hn := n.ascending
  apply ext
  unfold find? at h
  generalize m.entries = xs at *
  generalize n.entries = ys at *
  induction xs generalizing ys with
  | nil =>
    cases ys with
    | nil => rfl
    | cons y ys => simpa [seek] using h y.1
  | cons x xs ih =>
    cases ys with
    | nil => simpa [seek] using h x.1
    | cons y ys =>
      have hx : ∀ e ∈ xs, x.1 < e.1 := (List.pairwise_cons.1 hm).1
      have hy : ∀ e ∈ ys, y.1 < e.1 := (List.pairwise_cons.1 hn).1
      have hkey : x.1 = y.1 := Decidable.byContradiction fun hne => by
        rcases Decidable.em (x.1 < y.1) with hlt | hlt
        · have hnone : seek x.1 ys = none :=
            seek_eq_none_of_lt fun e he => List.lt_trans hlt (hy e he)
          simpa [seek, hne, hnone] using h x.1
        · have hgt := lt_of_not_lt hlt hne
          have hnone : seek y.1 xs = none :=
            seek_eq_none_of_lt fun e he => List.lt_trans hgt (hx e he)
          simpa [seek, Ne.symm hne, hnone] using h y.1
      have hval : x.2 = y.2 := by simpa [seek, hkey] using h x.1
      have htail : xs = ys := ih hm.of_cons ys hn.of_cons fun k => by
        by_cases hk : k = x.1
        · rw [seek_eq_none_of_lt (fun e he => hk ▸ hx e he),
            seek_eq_none_of_lt (fun e he => (hk.trans hkey) ▸ hy e he)]
        · simpa [seek, hk, ← hkey] using h k
      rw [htail, show x = y from Prod.ext hkey hval]

theorem contains_iff {m : ByteMap α} {key : Bytes} :
    m.contains key = true ↔ ∃ value, m.find? key = some value := by
  simp [contains, Option.isSome_iff_exists]

theorem mem_keys_iff {m : ByteMap α} {key : Bytes} :
    key ∈ m.keys ↔ (m.find? key).isSome = true := by
  simp [keys, Option.isSome_iff_exists, mem_entries_iff]

theorem isEmpty_iff {m : ByteMap α} : m.isEmpty = true ↔ m = ∅ := by
  simp only [isEmpty, List.isEmpty_iff]
  exact ⟨fun h => ext h, fun h => by rw [h, entries_empty]⟩

/-- Erasing a key that holds nothing changes nothing. -/
theorem erase_eq_self {m : ByteMap α} {key : Bytes} (h : m.find? key = none) :
    m.erase key = m := by
  refine ext_find? fun k => ?_
  by_cases hk : k = key <;> simp [hk, h]

end ByteMap

end ExpiringCache
