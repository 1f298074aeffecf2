import ExpiringCache.Proofs.Recovery

/-!
# Rows that the store refuses

A durable table can hold rows that the store does not take: without a key, with too long a key, or
with too large a value. Rows are replayed in the order of their keys, and the first that is refused
ends the replay. So whether a row with time left comes back is decided by the rows before it as well
as by itself, and what was restored before the refusal stays but is not counted
(`Cache.relaunch_until_refused`).
-/

namespace ExpiringCache

/-- The store takes the key and the value: there is a key, of at most 256 bytes, and a value of at
most a mebibyte. -/
def Store.Takes (key value : Bytes) : Prop :=
  key ≠ [] ∧ key.length ≤ maxKeyLength ∧ value.length ≤ maxValueSize

instance (key value : Bytes) : Decidable (Store.Takes key value) :=
  inferInstanceAs (Decidable (_ ∧ _))

theorem Store.refusal?_eq_none_iff {key value : Bytes} :
    refusal? key value = none ↔ Takes key value := by
  unfold refusal? Takes
  by_cases hempty : key = []
  · simp [hempty]
  · have hkey : key.isEmpty = false := List.isEmpty_eq_false_iff.2 hempty
    by_cases hlong : maxKeyLength < key.length
    · simp [hkey, hlong, Nat.not_le.2 hlong]
    · by_cases hlarge : maxValueSize < value.length
      · simp [hkey, hlong, hlarge, Nat.not_le.2 hlarge]
      · simp [hkey, hempty, hlong, hlarge, Nat.not_lt.1 hlong, Nat.not_lt.1 hlarge]

/-- Of rows in order, the ones before the first that fails a test are those up to whose keys no row
fails it. -/
theorem Ascending.mem_takeWhile_iff {α : Type} {entries : List (Bytes × α)}
    (h : Ascending entries) (test : Bytes × α → Bool) (entry : Bytes × α) :
    entry ∈ entries.takeWhile test ↔
      entry ∈ entries ∧ ∀ e ∈ entries, e.1 ≤ entry.1 → test e = true := by
  induction entries with
  | nil => simp
  | cons first rest ih =>
    have hlt : ∀ e ∈ rest, first.1 < e.1 := (List.pairwise_cons.1 h).1
    cases hfirst : test first with
    | true =>
      rw [List.takeWhile_cons_of_pos hfirst, List.mem_cons, ih h.of_cons, List.mem_cons]
      constructor
      · rintro (rfl | ⟨hmem, hall⟩)
        · -- The rows behind the first have greater keys.
          refine ⟨.inl rfl, fun e he hle => ?_⟩
          rcases List.mem_cons.1 he with rfl | he
          · exact hfirst
          · exact absurd (hlt e he) (List.not_lt.2 hle)
        · exact ⟨.inr hmem, fun e he hle => (List.mem_cons.1 he).elim (· ▸ hfirst)
            fun he => hall e he hle⟩
      · rintro ⟨rfl | hmem, hall⟩
        · exact .inl rfl
        · exact .inr ⟨hmem, fun e he => hall e (List.mem_cons_of_mem _ he)⟩
    | false =>
      rw [List.takeWhile_cons_of_neg (by simp [hfirst])]
      refine ⟨fun hmem => absurd hmem List.not_mem_nil, fun ⟨hmem, hall⟩ => ?_⟩
      have hle : first.1 ≤ entry.1 := by
        rcases List.mem_cons.1 hmem with rfl | hmem
        · exact List.le_refl _
        · exact List.le_of_lt (hlt entry hmem)
      rw [hall first List.mem_cons_self hle] at hfirst
      cases hfirst

namespace ByteMap

variable {α β : Type}

/-- A map that holds something for each of some entries, and nothing else, has their number. -/
theorem size_of_seek {m : ByteMap β} {entries : List (Bytes × α)} (h : Ascending entries)
    {f : α → β} (hfind : ∀ key, m.find? key = (seek key entries).map f) :
    m.size = entries.length := by
  have heq : m = ⟨entries.map fun e => (e.1, f e.2), h.map fun _ => f⟩ :=
    ext_find? fun key => (hfind key).trans (seek_map (fun _ => f) entries key).symm
  rw [heq, size, List.length_map]

end ByteMap

namespace Cache

/-- A row is restored if it has time left and no row with time left up to its key is refused. -/
theorem mem_restorable_iff (now : Millis) {rows : List (Bytes × Row)} (h : Ascending rows)
    (entry : Bytes × Row) :
    entry ∈ restorable now rows ↔
      entry ∈ left now rows ∧
        ∀ e ∈ left now rows, e.1 ≤ entry.1 → Store.Takes e.1 e.2.value := by
  have hleft : Ascending (left now rows) := h.filter _
  rw [restorable, hleft.mem_takeWhile_iff]
  simp only [Option.isNone_iff_eq_none, Store.refusal?_eq_none_iff]

/-- The rows that can be restored are all with time left if the store takes each of these. -/
theorem restorable_eq_left_iff_takes {now : Millis} {rows : List (Bytes × Row)} :
    restorable now rows = left now rows ↔ ∀ e ∈ left now rows, Store.Takes e.1 e.2.value := by
  rw [restorable_eq_left_iff]
  simp only [Store.refusal?_eq_none_iff]

/-- **A refused row ends recovery.** Whatever rows are durable and whatever the backend does, a
process that starts again gets a report. A row with time left comes back, with its value and the
time it has left, if the store takes every row with time left up to its key; if not, there is no
entry under its key, whatever the row is like itself. Nothing else is stored. The report says how
many entries are stored if the store takes all rows with time left; if not, it says that none was
restored and that recovery failed. -/
theorem relaunch_until_refused (c : Cache) {rows : List (Bytes × Row)} (now : Millis)
    (hpersistent : c.config.persistent = true) (hreplay : c.listeners.recovery = [.replay])
    (hrows : c.backing.rows c.config.backend = .ok rows)
    (hlatest : ∀ e ∈ rows, e.2.expiresAt ≤ Clock.latest) :
    let d := (c.relaunch now).2
    let left := rows.filter fun e => now < e.2.expiresAt
    (∃ report, (c.relaunch now).1 = .ok report ∧ report.enumerated = rows.length ∧
      ((∀ e ∈ left, Store.Takes e.1 e.2.value) →
        report.restored = d.store.entries.size ∧ report.failed = 0) ∧
      ((∃ e ∈ left, ¬ Store.Takes e.1 e.2.value) → report.restored = 0 ∧ report.failed = 1)) ∧
    (∀ key row, (key, row) ∈ left →
      ((∀ e ∈ left, e.1 ≤ key → Store.Takes e.1 e.2.value) →
        ∃ e, d.store.live? now key = some e ∧ e.value = row.value ∧
          e.writtenTtl = .ofMillis row.ttl ∧
          (d.store.ttl now key).answer = some (.ofMillis (row.expiresAt - now))) ∧
      ((∃ e ∈ left, e.1 ≤ key ∧ ¬ Store.Takes e.1 e.2.value) →
        d.store.entries.find? key = none)) ∧
    ∀ key, (∀ row, (key, row) ∉ left) → d.store.entries.find? key = none := by
  intro d rest
  have hascending := Backing.rows_ascending hrows
  obtain ⟨restored, failed, s, hrelaunch, hwhole, hpart, -, hfind⟩ :=
    relaunch_eq now hpersistent hreplay hrows
  obtain ⟨purged, b, hpurged⟩ := purge_frame now rows { c with store := s }
    { enumerated := rows.length, restored := restored, failed := failed }
  dsimp only at hrelaunch
  rw [hpurged] at hrelaunch
  have hd : d.store = s := congrArg (fun r => r.2.store) hrelaunch
  have hrest : rest = left now rows := rfl
  have hmem := mem_restorable_iff now hascending
  -- What is not restorable has no entry.
  have hnone : ∀ key, (∀ row, (key, row) ∉ restorable now rows) →
      d.store.entries.find? key = none := by
    intro key hnot
    rw [hd, hfind key, Option.map_eq_none_iff, Option.eq_none_iff_forall_ne_some]
    intro row hrow
    exact hnot row ((mem_restorable hascending).2 hrow)
  refine ⟨⟨_, congrArg Prod.fst hrelaunch, rfl, fun hall => ?_, fun hsome => ?_⟩,
    fun key row hrow => ⟨fun hall => ?_, fun hsome => ?_⟩, fun key hnot => ?_⟩
  · have heq := restorable_eq_left_iff_takes.2 hall
    obtain ⟨hcount, hfailed⟩ := hwhole heq
    refine ⟨?_, hfailed⟩
    rw [hd, ByteMap.size_of_seek (restorable_ascending hascending now) hfind, heq]
    exact hcount
  · obtain ⟨e, he, hrefused⟩ := hsome
    exact hpart fun heq => hrefused (restorable_eq_left_iff_takes.1 heq e he)
  · obtain ⟨hrow', hlt⟩ := List.mem_filter.1 hrow
    have hback : d.store.entries.find? key = some (row.entry now c.config.policy) := by
      have hseek : ByteMap.seek key (restorable now rows) = some row :=
        (mem_restorable hascending).1 ((hmem (key, row)).2 ⟨hrow, hall⟩)
      rw [hd, hfind key, hseek]
      rfl
    obtain ⟨hlive, httl⟩ := Row.live?_entry hlt (hlatest _ hrow') hback
    exact ⟨_, hlive, rfl, rfl, httl⟩
  · obtain ⟨e, he, hle, hrefused⟩ := hsome
    refine hnone key fun row' hrow' => ?_
    exact hrefused (((hmem (key, row')).1 hrow').2 e he hle)
  · exact hnone key fun row hrow => hnot row ((hmem (key, row)).1 hrow).1

/-- Of three rows the second has a key of 257 bytes. The first comes back without being counted, and
the third does not. -/
theorem relaunch_until_refused_long_key :
    let row : Row := { value := [49], ttl := 60000, expiresAt := 60000 }
    let table := Table.ofList [([97], row), (List.replicate 257 98, row), ([99], row)]
    let c := new { persistent := true } { recovery := [.replay] }
      { registry := { memory := some (.memory table) } }
    ((c.relaunch 20000).2.store.ttl 20000 [97]).answer = some (.ofMillis 40000) ∧
      (c.relaunch 20000).2.store.entries.find? [99] = none ∧
      ∃ report, (c.relaunch 20000).1 = .ok report ∧ report.enumerated = 3 ∧
        report.restored = 0 ∧ report.failed = 1 := by
  intro row table c
  have hthere : ∃ e ∈ table.toList.filter fun e => 20000 < e.2.expiresAt,
      e.1 ≤ [99] ∧ ¬ Store.Takes e.1 e.2.value :=
    ⟨(List.replicate 257 98, row), by decide +kernel⟩
  obtain ⟨e, he, hle, hrefused⟩ := hthere
  have hrows : c.backing.rows c.config.backend = .ok table.toList := rfl
  obtain ⟨⟨report, hreport, hrows, -, hfailed⟩, hkeys, -⟩ := relaunch_until_refused c 20000 rfl rfl
    hrows (by decide +kernel)
  obtain ⟨_, -, -, -, httl⟩ := (hkeys [97] row (by decide +kernel)).1 (by decide +kernel)
  have hleft : row.expiresAt - 20000 = 40000 := by decide +kernel
  rw [hleft] at httl
  exact ⟨httl, (hkeys [99] row (by decide +kernel)).2 ⟨e, he, hle, hrefused⟩, report, hreport,
    hrows.trans (by decide +kernel), hfailed ⟨e, he, hrefused⟩⟩

/-- A row that has time left and that the store takes is lost, because a row before it has no
key. -/
theorem good_row_lost :
    let row : Row := { value := [49], ttl := 60000, expiresAt := 1700000060000 }
    let table := Table.ofList [([], row), ([107], row)]
    let c := new { persistent := true } { recovery := [.replay] }
      { registry := { memory := some (.memory table) } }
    table.find? [107] = some row ∧ 1700000000000 < row.expiresAt ∧ Store.Takes [107] row.value ∧
      (c.relaunch 1700000000000).2.store.live? 1700000000000 [107] = none := by
  refine ⟨rfl, ?_, ?_, ?_⟩ <;> decide +kernel

end Cache

end ExpiringCache
