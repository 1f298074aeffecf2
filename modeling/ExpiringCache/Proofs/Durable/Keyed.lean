import ExpiringCache.Persistence.Backing
import ExpiringCache.Proofs.Durable.Snapshot

/-!
# Rows that name their keys

A row that is listed, or read from a snapshot, names its key itself. A table that keeps such rows
under keys has every key twice, and each of its operations has to keep the two the same.
`KeyedTable` is the durable table kept in this way, with rows changed in place; `Table` has every
key once. The invariant is that a keyed table is a table with the keys written into its rows
(`Table.keyed`): what an operation makes of `t.keyed` is `Table.keyed` of what it makes of `t`. It
is shown of each step that a change may take, then of changes (`KeyedTable.apply_keyed`), then of
runs (`KeyedTable.run_keyed`).

Hence the rows stand in the order of the keys they name, each under that key
(`KeyedTable.ordered_under_own_keys`). The order is said there without the comparison that sorts
(`Bytes.Precedes`).
-/

namespace ExpiringCache

/-! ### The order of keys -/

namespace Bytes

/-- The first comes before the second: it is a proper beginning of it, or has the lesser byte where
they first differ. -/
def Precedes (a b : Bytes) : Prop :=
  (∃ next rest, b = a ++ next :: rest) ∨
    ∃ common x y as bs, a = common ++ x :: as ∧ b = common ++ y :: bs ∧ x < y

variable {a b : Bytes} {x y : UInt8}

theorem Precedes.cons (x : UInt8) (h : Precedes a b) : Precedes (x :: a) (x :: b) := by
  rcases h with ⟨next, rest, rfl⟩ | ⟨common, c, d, as, bs, rfl, rfl, hlt⟩
  · exact .inl ⟨next, rest, rfl⟩
  · exact .inr ⟨x :: common, c, d, as, bs, rfl, rfl, hlt⟩

theorem precedes_cons_iff : Precedes (x :: a) (y :: b) ↔ x < y ∨ x = y ∧ Precedes a b := by
  constructor
  · rintro (⟨next, rest, h⟩ | ⟨common, c, d, as, bs, ha, hb, hlt⟩)
    · obtain ⟨rfl, rfl⟩ := List.cons.inj h
      exact .inr ⟨rfl, .inl ⟨next, rest, rfl⟩⟩
    · cases common with
      | nil =>
        obtain ⟨rfl, -⟩ := List.cons.inj ha
        obtain ⟨rfl, -⟩ := List.cons.inj hb
        exact .inl hlt
      | cons e common =>
        obtain ⟨rfl, rfl⟩ := List.cons.inj ha
        obtain ⟨rfl, rfl⟩ := List.cons.inj hb
        exact .inr ⟨rfl, .inr ⟨common, c, d, as, bs, rfl, rfl, hlt⟩⟩
  · rintro (hlt | ⟨rfl, h⟩)
    · exact .inr ⟨[], x, y, a, b, rfl, rfl, hlt⟩
    · exact h.cons x

/-- The order in which a map keeps its keys is that of their bytes, a proper beginning first. -/
theorem lt_iff_precedes : a < b ↔ Precedes a b := by
  induction a generalizing b with
  | nil =>
    cases b with
    | nil => simp [Precedes]
    | cons y ys => exact ⟨fun _ => .inl ⟨y, ys, rfl⟩, fun _ => List.nil_lt_cons y ys⟩
  | cons x xs ih =>
    cases b with
    | nil => simp [Precedes]
    | cons y ys => rw [List.cons_lt_cons_iff, precedes_cons_iff, ih]

end Bytes

/-! ### Entries with one key -/

namespace ByteMap

variable {α : Type} {entries : List (Bytes × α)}

/-- What a key holds is the first that a list has for it. -/
theorem seek_eq_head? (key : Bytes) (entries : List (Bytes × α)) :
    seek key entries = ((entries.filter fun e => e.1 = key).head?).map (·.2) := by
  induction entries with
  | nil => rfl
  | cons first rest ih =>
    by_cases hkey : first.1 = key
    · simp [seek, hkey]
    · simp [seek, hkey, Ne.symm hkey, ih]

/-- A list in strict order has one entry for a key that holds something, and no other. -/
theorem filter_eq_seek (h : Ascending entries) (key : Bytes) :
    (entries.filter fun e => e.1 = key) = ((seek key entries).map fun x => (key, x)).toList := by
  induction entries with
  | nil => rfl
  | cons first rest ih =>
    have ih := ih h.of_cons
    by_cases hkey : first.1 = key
    · subst hkey
      have hrest : (rest.filter fun e => e.1 = first.1) = [] := by
        rw [ih, seek_rest h]
        rfl
      simp [seek, hrest]
    · simp [seek, hkey, Ne.symm hkey, ih]

end ByteMap

/-! ### Rows and tables -/

/-- A row that names its key. -/
structure KeyedRow extends Row where
  key : Bytes
deriving DecidableEq

namespace KeyedRow

/-- The row apart from the key that it names. -/
def entry (row : KeyedRow) : Bytes × Row := (row.key, row.toRow)

/-- The row of an entry, with the key in it. -/
def ofEntry (entry : Bytes × Row) : KeyedRow := ⟨entry.2, entry.1⟩

end KeyedRow

/-- A durable table of rows that name their keys, each of them under a key. -/
structure KeyedTable where
  rows : ByteMap KeyedRow := ∅
deriving DecidableEq

namespace KeyedTable

/-- The table of these rows, each under the key it names; the last row given for a key stays. -/
def ofList (rows : List KeyedRow) : KeyedTable :=
  ⟨ByteMap.ofList (rows.map fun row => (row.key, row))⟩

/-- The rows in the order of the keys they are under. -/
def toList (t : KeyedTable) : List KeyedRow := t.rows.entries.map (·.2)

/-- The row under a key. -/
def find? (t : KeyedTable) (key : Bytes) : Option KeyedRow := t.rows.find? key

/-- Removes the row under a key, and answers whether there was one. -/
def erase (t : KeyedTable) (key : Bytes) : Bool × KeyedTable :=
  (t.rows.contains key, ⟨t.rows.erase key⟩)

/-- Puts a new row under a key, which it names. -/
def write (t : KeyedTable) (now : Millis) (key value : Bytes) (ttl : Duration) : KeyedTable :=
  ⟨t.rows.insert key ⟨Row.fresh now value ttl, key⟩⟩

/-- Does something to each key in turn, and answers whether anything has changed, now or before. -/
def forKeys (act : KeyedTable → Bytes → Bool × KeyedTable) (changed : Bool) (t : KeyedTable) :
    List Bytes → Bool × KeyedTable
  | [] => (changed, t)
  | key :: rest => forKeys act ((act t key).1 || changed) (act t key).2 rest

/-- Restarts the time of the row under a key, in place, or writes a row if there is none and the
change says with what. -/
def restart (change : Change) (now : Millis) (t : KeyedTable) (key : Bytes) : Bool × KeyedTable :=
  if t.rows.contains key then
    (true, ⟨t.rows.modify key fun row => { row with toRow := row.restart now change.ttl }⟩)
  else
    match change.value, change.ttl with
    | some value, some ttl => (true, t.write now key value ttl)
    | _, _ => (false, t)

/-- Gives the row under a key another value, in place. -/
def setValue (value : Bytes) (t : KeyedTable) (key : Bytes) : Bool × KeyedTable :=
  if t.rows.contains key then (true, ⟨t.rows.modify key fun row => { row with value := value }⟩)
  else (false, t)

/-- Applies a change, and answers whether there was anything to change. -/
def apply (t : KeyedTable) (change : Change) (now : Millis) : Bool × KeyedTable :=
  match change.kind with
  | .write =>
    match change.keys, change.value with
    | key :: _, some value => (true, t.write now key value (change.ttl.getD .zero))
    | _, _ => (false, t)
  | .removeKeys | .removeBySimilarity => forKeys erase false t change.keys
  | .removeAll => (!t.rows.isEmpty, {})
  | .replaceDuration | .resetDuration => forKeys (restart change now) false t change.keys
  | .replaceValue =>
    match change.value with
    | some value => forKeys (setValue value) false t change.keys
    | none => (false, t)

end KeyedTable

/-! ### Keys written into the rows -/

namespace Table

/-- The table with the keys written into the rows. -/
def keyed (t : Table) : KeyedTable where
  rows.entries := t.rows.entries.map fun e => (e.1, .ofEntry e)
  rows.ascending := t.rows.ascending.map fun key row => KeyedRow.mk row key

theorem find?_keyed (t : Table) (key : Bytes) :
    t.keyed.find? key = (t.find? key).map fun row => ⟨row, key⟩ :=
  ByteMap.seek_map (fun key row => KeyedRow.mk row key) t.rows.entries key

theorem contains_keyed (t : Table) (key : Bytes) :
    t.keyed.rows.contains key = (t.find? key).isSome :=
  (congrArg Option.isSome (t.find?_keyed key)).trans Option.isSome_map

/-- A table is this one with the keys written into the rows if it has the rows of this one under
their keys. -/
theorem eq_keyed {held : KeyedTable} {t : Table}
    (h : ∀ key, held.find? key = (t.find? key).map fun row => ⟨row, key⟩) : held = t.keyed := by
  have hrows : held.rows = t.keyed.rows :=
    ByteMap.ext_find? fun key => (h key).trans (t.find?_keyed key).symm
  cases held
  exact congrArg KeyedTable.mk hrows

theorem seek_entry (key : Bytes) (rows : List KeyedRow) :
    ByteMap.seek key (rows.map fun row => (row.key, row)) =
      (ByteMap.seek key (rows.map KeyedRow.entry)).map fun row => ⟨row, key⟩ := by
  induction rows with
  | nil => rfl
  | cons row rest ih =>
    by_cases hkey : key = row.key
    · simp [ByteMap.seek, KeyedRow.entry, hkey]
    · simp [ByteMap.seek, KeyedRow.entry, hkey, ih]

/-- The table of some rows is the one of the same rows given with their keys apart. -/
theorem keyed_ofList (rows : List KeyedRow) :
    KeyedTable.ofList rows = (ofList (rows.map KeyedRow.entry)).keyed := by
  refine eq_keyed fun key => ?_
  calc (KeyedTable.ofList rows).find? key
      = ByteMap.seek key (rows.map fun row => (row.key, row)).reverse :=
        ByteMap.find?_ofList _ key
    _ = (ByteMap.seek key (rows.map KeyedRow.entry).reverse).map fun row => ⟨row, key⟩ := by
        rw [← List.map_reverse, seek_entry, List.map_reverse]
    _ = ((ofList (rows.map KeyedRow.entry)).find? key).map fun row => ⟨row, key⟩ := by
        rw [find?_ofList]

/-- Rows are listed with their keys. -/
theorem toList_keyed (t : Table) : t.keyed.toList = t.toList.map KeyedRow.ofEntry :=
  List.map_map

end Table

namespace KeyedTable

/-! ### What operations make of it -/

theorem erase_keyed (t : Table) (key : Bytes) :
    t.keyed.erase key = (t.erase key).map id Table.keyed := by
  refine Prod.ext (t.contains_keyed key) (Table.eq_keyed fun k => ?_)
  calc (t.keyed.erase key).2.find? k
      = if k = key then none else t.keyed.find? k := t.keyed.rows.find?_erase key k
    _ = (if k = key then none else t.find? k).map fun row => ⟨row, k⟩ := by
        rw [Table.find?_keyed]
        split <;> rfl
    _ = ((t.erase key).2.find? k).map fun row => ⟨row, k⟩ := by rw [Table.find?_erase]

theorem write_keyed (t : Table) (now : Millis) (key value : Bytes) (ttl : Duration) :
    t.keyed.write now key value ttl = (t.insert key (Row.fresh now value ttl)).keyed := by
  refine Table.eq_keyed fun k => ?_
  have hwritten : (t.keyed.write now key value ttl).find? k =
      if k = key then some ⟨Row.fresh now value ttl, key⟩ else t.keyed.find? k :=
    t.keyed.rows.find?_insert key _ k
  rw [hwritten, Table.find?_keyed, Table.find?_insert]
  by_cases hk : k = key <;> simp [hk]

/-- A row changed in place, whatever the change, if it keeps the key that the row names. -/
theorem modify_keyed {t : Table} {key : Bytes} {row : Row} (hrow : t.find? key = some row)
    (f : KeyedRow → KeyedRow) {row' : Row} (hf : f ⟨row, key⟩ = ⟨row', key⟩) :
    (⟨t.keyed.rows.modify key f⟩ : KeyedTable) = (t.insert key row').keyed := by
  refine Table.eq_keyed fun k => ?_
  have hmodified : (⟨t.keyed.rows.modify key f⟩ : KeyedTable).find? k =
      if k = key then (t.keyed.find? k).map f else t.keyed.find? k :=
    t.keyed.rows.find?_modify key f k
  rw [hmodified, Table.find?_keyed, Table.find?_insert]
  by_cases hk : k = key
  · subst hk
    simp [hrow, hf]
  · simp [hk]

theorem restart_keyed (change : Change) (now : Millis) (t : Table) (key : Bytes) :
    restart change now t.keyed key = (Table.restart change now t key).map id Table.keyed := by
  unfold restart Table.restart
  rw [t.contains_keyed]
  cases hrow : t.find? key with
  | some row => exact congrArg (Prod.mk true) (modify_keyed hrow _ rfl)
  | none =>
    cases change.value with
    | none => rfl
    | some value =>
      cases change.ttl with
      | none => rfl
      | some ttl => exact congrArg (Prod.mk true) (write_keyed t now key value ttl)

theorem setValue_keyed (value : Bytes) (t : Table) (key : Bytes) :
    setValue value t.keyed key = (Table.setValue value t key).map id Table.keyed := by
  unfold setValue Table.setValue
  rw [t.contains_keyed]
  cases hrow : t.find? key with
  | some row => exact congrArg (Prod.mk true) (modify_keyed hrow _ rfl)
  | none => rfl

/-- A loop over keys, from what one of its steps makes. -/
theorem forKeys_keyed {act : KeyedTable → Bytes → Bool × KeyedTable}
    {act' : Table → Bytes → Bool × Table}
    (hact : ∀ t key, act t.keyed key = (act' t key).map id Table.keyed) (keys : List Bytes) :
    ∀ (changed : Bool) (t : Table), forKeys act changed t.keyed keys =
      (Table.forKeysFrom act' (changed, t) keys).map id Table.keyed := by
  induction keys with
  | nil => exact fun _ _ => rfl
  | cons key rest ih =>
    intro changed t
    rw [forKeys, hact, Table.forKeysFrom_cons]
    exact ih _ _

/-- **A change makes of rows that name their keys what it makes of rows that do not.** -/
theorem apply_keyed (t : Table) (change : Change) (now : Millis) :
    t.keyed.apply change now = (t.apply change now).map id Table.keyed := by
  obtain ⟨kind, keys, value, ttl⟩ := change
  cases kind with
  | write =>
    cases keys with
    | nil => rfl
    | cons key rest =>
      cases value with
      | none => rfl
      | some value => exact congrArg (Prod.mk true) (write_keyed t now key value _)
  | removeKeys | removeBySimilarity => exact forKeys_keyed erase_keyed keys false t
  | removeAll =>
    have hempty : t.keyed.rows.isEmpty = t.rows.isEmpty := List.isEmpty_map
    exact Prod.ext (congrArg (!·) hempty) rfl
  | replaceDuration | resetDuration => exact forKeys_keyed (restart_keyed _ now) keys false t
  | replaceValue =>
    cases value with
    | none => rfl
    | some value => exact forKeys_keyed (setValue_keyed value) keys false t

end KeyedTable

/-! ### Runs -/

/-- Does a job at a reading of the clock, and answers whether there was anything to change. -/
def Table.edit (t : Table) (now : Millis) : Job → Bool × Table
  | .apply change => t.apply change now
  | .erase key => t.erase key

/-- Does jobs one after another, each at a reading of the clock, and gives all answers. -/
def Table.run (t : Table) : List (Millis × Job) → List Bool × Table
  | [] => ([], t)
  | (now, job) :: rest => ((t.edit now job).2.run rest).map ((t.edit now job).1 :: ·) id

namespace KeyedTable

/-- Does a job at a reading of the clock, and answers whether there was anything to change. -/
def edit (t : KeyedTable) (now : Millis) : Job → Bool × KeyedTable
  | .apply change => t.apply change now
  | .erase key => t.erase key

/-- Does jobs one after another, each at a reading of the clock, and gives all answers. -/
def run (t : KeyedTable) : List (Millis × Job) → List Bool × KeyedTable
  | [] => ([], t)
  | (now, job) :: rest => ((t.edit now job).2.run rest).map ((t.edit now job).1 :: ·) id

theorem edit_keyed (t : Table) (now : Millis) (job : Job) :
    t.keyed.edit now job = (t.edit now job).map id Table.keyed := by
  cases job with
  | apply change => exact apply_keyed t change now
  | erase key => exact erase_keyed t key

/-- Jobs, whatever they are, answer the same and make the same table, with the keys in its rows. -/
theorem run_keyed (jobs : List (Millis × Job)) :
    ∀ t : Table, t.keyed.run jobs = (t.run jobs).map id Table.keyed := by
  induction jobs with
  | nil => exact fun _ => rfl
  | cons step rest ih =>
    intro t
    obtain ⟨now, job⟩ := step
    rw [run, edit_keyed, Table.run]
    exact congrArg (Prod.map ((t.edit now job).1 :: ·) id) (ih (t.edit now job).2)

/-! ### How the rows stand -/

theorem entries_keyed (t : Table) :
    t.keyed.rows.entries = t.keyed.toList.map fun row => (row.key, row) := by
  rw [t.toList_keyed, List.map_map]
  rfl

theorem pairwise_keyed (t : Table) :
    t.keyed.toList.Pairwise fun a b => Bytes.Precedes a.key b.key := by
  rw [t.toList_keyed, List.pairwise_map]
  exact t.rows.ascending.imp Bytes.lt_iff_precedes.1

theorem filter_keyed (t : Table) (key : Bytes) :
    (t.keyed.toList.filter fun row => row.key = key) = (t.keyed.find? key).toList := by
  have hnamed : ((fun row : KeyedRow => decide (row.key = key)) ∘ KeyedRow.ofEntry) =
      fun e => decide (e.1 = key) := rfl
  calc (t.keyed.toList.filter fun row => row.key = key)
      = (t.toList.filter fun e => e.1 = key).map KeyedRow.ofEntry := by
        rw [t.toList_keyed, List.filter_map, hnamed]
    _ = (((t.find? key).map fun row => (key, row)).toList).map KeyedRow.ofEntry :=
        congrArg _ (ByteMap.filter_eq_seek t.rows.ascending key)
    _ = (t.keyed.find? key).toList := by
        rw [t.find?_keyed]
        cases t.find? key <;> rfl

theorem ofList_toList_keyed (t : Table) : ofList t.keyed.toList = t.keyed := by
  have hentry : t.keyed.toList.map KeyedRow.entry = t.toList := by
    rw [t.toList_keyed, List.map_map]
    exact List.map_id _
  rw [Table.keyed_ofList, hentry, t.ofList_toList]

/-- The last row given for a key stays. -/
theorem find?_ofList (rows : List KeyedRow) (key : Bytes) :
    (ofList rows).find? key = (rows.filter fun row => row.key = key).getLast? := by
  have hnamed : ((fun e : Bytes × KeyedRow => decide (e.1 = key)) ∘ fun row => (row.key, row)) =
      fun row => decide (row.key = key) := rfl
  calc (ofList rows).find? key
      = ByteMap.seek key (rows.map fun row => (row.key, row)).reverse :=
        ByteMap.find?_ofList _ key
    _ = (((rows.reverse.map fun row => (row.key, row)).filter fun e => e.1 = key).head?).map
          (·.2) := by rw [← List.map_reverse, ByteMap.seek_eq_head?]
    _ = ((rows.reverse.filter fun row => row.key = key).head?.map fun row => (row.key, row)).map
          (·.2) := by rw [List.filter_map, hnamed, List.head?_map]
    _ = (rows.filter fun row => row.key = key).getLast? := by
        rw [List.filter_reverse, List.head?_reverse, Option.map_map]
        exact congrFun Option.map_id _

/-- **How the rows of a durable table stand.** Make a table of any rows, in any order and with keys
repeated, and then apply any changes and erase any keys. It answers and holds what the table that
has each key once answers and holds, with the keys written into the rows. The rows are listed in
strictly ascending order of the keys they name, byte by byte and a proper beginning first. Each
stands under the key that it names. The row found under a key is the only one listed that names
it, and where none is found none is listed. The table of the rows that are listed is the same
again. Of the rows that a table is made of, the last given for each key stays. -/
theorem ordered_under_own_keys (given : List KeyedRow) (jobs : List (Millis × Job)) :
    let held := ((ofList given).run jobs).2
    let table := Table.ofList (given.map KeyedRow.entry)
    ((ofList given).run jobs).1 = (table.run jobs).1 ∧ held = (table.run jobs).2.keyed ∧
      held.toList.Pairwise (fun a b => Bytes.Precedes a.key b.key) ∧
      held.rows.entries = held.toList.map (fun row => (row.key, row)) ∧
      (∀ key, (held.toList.filter fun row => row.key = key) = (held.find? key).toList) ∧
      ofList held.toList = held ∧
      ∀ key, (ofList given).find? key = (given.filter fun row => row.key = key).getLast? := by
  intro held table
  have hrun : (ofList given).run jobs = (table.run jobs).map id Table.keyed := by
    rw [Table.keyed_ofList, run_keyed]
  have hheld : held = (table.run jobs).2.keyed := congrArg Prod.snd hrun
  refine ⟨congrArg Prod.fst hrun, hheld, ?_, ?_, ?_, ?_, find?_ofList given⟩
  · rw [hheld]
    exact pairwise_keyed _
  · rw [hheld]
    exact entries_keyed _
  · rw [hheld]
    exact filter_keyed _
  · rw [hheld]
    exact ofList_toList_keyed _

/-- The row given last for a key stays, and a key stands before one that it begins. To extend the
TTL of two keys, one of them with no row yet, changes one row in place and writes the other. -/
example :
    let t := ofList [⟨⟨[1], 500, 600⟩, [98]⟩, ⟨⟨[2], 70, 90⟩, [98, 0]⟩, ⟨⟨[3], 50, 60⟩, [98]⟩]
    let extension : Change := ⟨.replaceDuration, [[98], [97]], some [4], some (.ofMillis 9)⟩
    t.toList = [⟨⟨[3], 50, 60⟩, [98]⟩, ⟨⟨[2], 70, 90⟩, [98, 0]⟩] ∧
      (t.run [(5, .apply extension), (6, .erase [99])]).1 = [true, false] ∧
      (t.run [(5, .apply extension), (6, .erase [99])]).2.toList =
        [⟨⟨[4], 9, 14⟩, [97]⟩, ⟨⟨[3], 50, 14⟩, [98]⟩, ⟨⟨[2], 70, 90⟩, [98, 0]⟩] := by
  decide

end KeyedTable

end ExpiringCache
