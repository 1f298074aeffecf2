import ExpiringCache.Durable.Snapshot
import ExpiringCache.Proofs.Durable.Table
import ExpiringCache.Proofs.Json.Depth
import ExpiringCache.Proofs.Json.Form

/-!
# Snapshots read back

A table is read back from its snapshot if the clock can tell the TTLs and the instants in it
(`Snapshot.parse_render`). Those that changes write it can, so this holds of every table that comes
of changes (`Table.Told.apply`); and it can tell those of every table that has been read, whatever
the text was (`Snapshot.told_of_parse`).
-/

namespace ExpiringCache

/-! ### Entries one after another -/

namespace ByteMap

variable {α : Type} {key : Bytes} {value : α} {entries : List (Bytes × α)}

theorem mem_of_seek (h : seek key entries = some value) : (key, value) ∈ entries := by
  induction entries with
  | nil => cases h
  | cons first rest ih =>
    unfold seek at h
    split at h
    · next hkey =>
      cases h
      exact hkey ▸ List.mem_cons_self
    · exact List.mem_cons_of_mem first (ih h)

/-- Where every key stands once it does not matter from which end it is sought. -/
theorem seek_reverse (h : Ascending entries) (key : Bytes) :
    seek key entries.reverse = seek key entries := by
  induction entries with
  | nil => rfl
  | cons first rest ih =>
    rw [List.reverse_cons, seek_append, ih h.of_cons]
    by_cases hkey : key = first.1
    · subst hkey
      simp [seek, seek_rest h]
    · simp [seek, hkey]

end ByteMap

/-! ### What changes write -/

/-- The clock can tell the TTL and the instant of expiry. -/
structure Row.Told (row : Row) : Prop where
  ttl : row.ttl ≤ Clock.latest
  expiresAt : row.expiresAt ≤ Clock.latest

namespace Row.Told

theorem fresh (now : Millis) (value : Bytes) (ttl : Duration) : (Row.fresh now value ttl).Told :=
  ⟨Clock.held_le _, Clock.after_le _ _⟩

theorem restart {row : Row} (h : row.Told) (now : Millis) (ttl : Option Duration) :
    (row.restart now ttl).Told := by
  cases ttl with
  | some ttl => exact ⟨h.ttl, Clock.after_le _ _⟩
  | none => exact ⟨h.ttl, Clock.held_le _⟩

/-- A change makes of what the clock can tell something that it can tell. -/
theorem effect {row? : Option Row} (h : ∀ row, row? = some row → row.Told) (change : Change)
    (now : Millis) (key : Bytes) : ∀ row, change.effect now key row? = some row → row.Told := by
  intro row' hrow'
  unfold Change.effect at hrow'
  cases hkind : change.kind with
  | write =>
    simp only [hkind] at hrow'
    split at hrow'
    · split at hrow'
      · cases hrow'
        exact fresh _ _ _
      · exact h row' hrow'
    · exact h row' hrow'
  | removeKeys | removeBySimilarity =>
    simp only [hkind] at hrow'
    split at hrow'
    · cases hrow'
    · exact h row' hrow'
  | removeAll =>
    simp only [hkind] at hrow'
    cases hrow'
  | replaceDuration | resetDuration =>
    simp only [hkind] at hrow'
    split at hrow'
    · unfold Change.restarted at hrow'
      split at hrow'
      · next row =>
        cases hrow'
        exact (h row rfl).restart _ _
      · split at hrow'
        · cases hrow'
          exact fresh _ _ _
        · cases hrow'
    · exact h row' hrow'
  | replaceValue =>
    simp only [hkind] at hrow'
    split at hrow'
    · split at hrow'
      · obtain ⟨row, hrow, rfl⟩ := Option.map_eq_some_iff.1 hrow'
        exact ⟨(h row hrow).ttl, (h row hrow).expiresAt⟩
      · exact h row' hrow'
    · exact h row' hrow'

end Row.Told

/-- The clock can tell what is in the rows. -/
def Table.Told (t : Table) : Prop := ∀ key row, t.find? key = some row → row.Told

namespace Table

theorem told_empty : empty.Told := fun _ _ h => by cases h

theorem Told.apply {t : Table} (h : t.Told) (change : Change) (now : Millis) :
    (t.apply change now).2.Told := by
  intro key row hrow
  rw [find?_apply] at hrow
  exact Row.Told.effect (h key) change now key row hrow

theorem Told.erase {t : Table} (h : t.Told) (key : Bytes) : (t.erase key).2.Told := by
  intro k row hrow
  rw [find?_erase] at hrow
  split at hrow
  · cases hrow
  · exact h k row hrow

/-- The table of rows holds for each key the last one given for it. -/
theorem find?_ofList (rows : List (Bytes × Row)) (key : Bytes) :
    (ofList rows).find? key = ByteMap.seek key rows.reverse :=
  ByteMap.find?_ofList rows key

/-- A table is the table of its rows. -/
theorem ofList_toList (t : Table) : ofList t.toList = t :=
  ext_find? fun key =>
    (find?_ofList t.toList key).trans (ByteMap.seek_reverse t.rows.ascending key)

/-- The clock can tell what is in a table of rows in which it can. -/
theorem told_ofList {rows : List (Bytes × Row)} (h : ∀ entry ∈ rows, entry.2.Told) :
    (ofList rows).Told := by
  intro key row hrow
  rw [find?_ofList] at hrow
  exact h (key, row) (List.mem_reverse.1 (ByteMap.mem_of_seek hrow))

end Table

/-! ### Reading -/

namespace Snapshot

open Json (ReadsBack Begins)
open Json.Token (byte)

/-- A row is read back with its key. -/
theorem row_printed {entry : Bytes × Row} (h : entry.2.Told) :
    ReadsBack form.read (fun entry => Json.printed (rowJson entry.1 entry.2)) entry := by
  obtain ⟨key, row⟩ := entry
  intro rest _
  have htold : ∀ n, n ≤ Clock.latest → n < UInt64.size := fun n hn => Nat.lt_succ_of_le hn
  have hnatural : ∀ n, n ≤ Clock.latest → ReadsBack (Json.natural UInt64.size)
      (fun n => Json.printed (Json.nat n)) n :=
    fun n hn => Json.natural_printed (htold n hn) (Nat.le_refl _)
  have hfills : form.Fills form.blank
      [("key", bytesJson key), ("value", bytesJson row.value), ("ttl_ms", Json.nat row.ttl),
        ("expires_at_ms", Json.nat row.expiresAt)] ⟨key, row.value, row.ttl, row.expiresAt⟩ :=
    .cons rfl rfl (fun rest hrest => Json.Field.read_make (Json.bytes_printed key rest hrest) _)
    (.cons rfl rfl
      (fun rest hrest => Json.Field.read_make (Json.bytes_printed row.value rest hrest) _)
    (.cons rfl rfl
      (fun rest hrest => Json.Field.read_make (hnatural row.ttl h.ttl rest hrest) _)
    (.cons rfl rfl
      (fun rest hrest => Json.Field.read_make (hnatural row.expiresAt h.expiresAt rest hrest) _)
    (.nil _))))
  exact Json.Form.read_printed hfills rfl rest

theorem row_begins (entry : Bytes × Row) :
    ∃ b bs, Json.printed (rowJson entry.1 entry.2) = b :: bs ∧ Begins b :=
  ⟨byte '\x7b', _, Json.printed_obj _, by unfold Begins; decide⟩

/-- **A table is read back from its snapshot.** -/
theorem parse_render {t : Table} (h : t.Told) : parse (render t) = .ok t := by
  have hrows : ∀ entry ∈ t.toList, entry.2.Told := fun entry hentry =>
    h entry.1 entry.2 (ByteMap.mem_entries_iff.1 hentry)
  have hlist : Json.list form.read (render t ++ []) = .ok (t.toList, []) :=
    Json.list_printed (fun entry hentry => row_printed (hrows entry hentry))
      (fun entry _ => row_begins entry) []
  rw [List.append_nil] at hlist
  have hopen : (render t).isEmpty = false := by
    show (Json.printed (.arr (t.toList.map fun entry => rowJson entry.1 entry.2))).isEmpty = false
    rw [Json.printed_arr]
    rfl
  have hwhole : Json.whole (Json.list form.read (render t)) = .ok t.toList :=
    congrArg Json.whole hlist
  rw [parse, hopen, if_neg Bool.false_ne_true, hwhole]
  exact congrArg Except.ok t.ofList_toList

/-! ### What is read -/

theorem natural_lt {bound n : Nat} {s rest : Bytes} (h : Json.natural bound s = .ok (n, rest)) :
    n < bound := by
  unfold Json.natural at h
  split at h
  · split at h
    · next hbound =>
      cases h
      omega
    · cases h
  · cases h

/-- The milliseconds of a row that is read are natural numbers of 64 bits. -/
theorem told_of_read {entry : Bytes × Row} {s rest : Bytes} (h : form.read s = .ok (entry, rest)) :
    entry.2.Told := by
  let P : Fields → Prop := fun filled =>
    (∀ n, filled.ttl = some n → n ≤ Clock.latest) ∧
      ∀ n, filled.expiresAt = some n → n ≤ Clock.latest
  have hfields : ∀ field ∈ form.fields, field.Preserves P := by
    refine List.forall_mem_cons.2 ⟨?key, List.forall_mem_cons.2 ⟨?value,
      List.forall_mem_cons.2 ⟨?ttl, List.forall_mem_singleton.2 ?expiresAt⟩⟩⟩
    case key | value => exact Json.Field.preserves_make fun _ _ _ _ hfilled _ => hfilled
    case ttl =>
      refine Json.Field.preserves_make fun _ x _ _ hfilled hread => ⟨fun n hn => ?_, hfilled.2⟩
      exact Option.some.inj hn ▸ Nat.le_of_lt_succ (natural_lt hread)
    case expiresAt =>
      refine Json.Field.preserves_make fun _ x _ _ hfilled hread => ⟨hfilled.1, fun n hn => ?_⟩
      exact Option.some.inj hn ▸ Nat.le_of_lt_succ (natural_lt hread)
  have hblank : P form.blank := by
    constructor <;> (intro n hn; cases hn)
  obtain ⟨full, hfull, hbuild⟩ := Json.Form.read_preserves hblank hfields h
  obtain ⟨key, -, hbuild⟩ := Option.bind_eq_some_iff.1 hbuild
  obtain ⟨value, -, hbuild⟩ := Option.bind_eq_some_iff.1 hbuild
  obtain ⟨ttl, httl, hbuild⟩ := Option.bind_eq_some_iff.1 hbuild
  obtain ⟨expiresAt, hexpiresAt, hbuild⟩ := Option.bind_eq_some_iff.1 hbuild
  cases hbuild
  exact ⟨hfull.1 ttl httl, hfull.2 expiresAt hexpiresAt⟩

/-- What is read whole stands at the beginning. -/
theorem read_of_whole {α : Type} {reading : Json.Reading α} {x : α}
    (h : Json.whole reading = .ok x) : ∃ rest, reading = .ok (x, rest) := by
  unfold Json.whole at h
  split at h
  · cases h
  · split at h
    · cases h
      exact ⟨_, rfl⟩
    · cases h

/-- The clock can tell what is in a table that is read, whatever the text. -/
theorem told_of_parse {text : Bytes} {t : Table} (h : parse text = .ok t) : t.Told := by
  unfold parse at h
  split at h
  · cases h
    exact Table.told_empty
  split at h
  · next rows hwhole =>
    cases h
    obtain ⟨rest, hlist⟩ := read_of_whole hwhole
    unfold Json.list at hlist
    split at hlist
    · exact Table.told_ofList (Json.items_forall (fun _ _ _ hread => told_of_read hread) hlist)
    · cases hlist
  · cases h

end Snapshot

end ExpiringCache
