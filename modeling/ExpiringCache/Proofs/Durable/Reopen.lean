import ExpiringCache.Durable.Backend
import ExpiringCache.Proofs.Durable.Snapshot

/-!
# Backends that are opened again

A backend in a file, closed and opened again at any time, does what the backend in memory does
(`Backend.file_refines_memory`). What carries this is that the snapshot is the table of the backend
at all times (`Backend.Mirrors`): a call that skips the writing of the snapshot has not changed the
table.
-/

namespace ExpiringCache

/-- A folder that is not there or has nothing in it. -/
inductive Folder.Unused : Folder → Prop where
  | absent : Unused .absent
  | empty : Unused (.present none false)

namespace Backend

/-- What is done to a backend. -/
inductive Move where
  | apply (change : Change)
  | erase (key : Bytes)
  /-- The backend is closed and opened again, if it is in a file. -/
  | reopen

/-- Opens a backend again. -/
def reopen : Backend → Except DurableError Backend
  | .memory table => .ok (.memory table)
  | .file _ folder => openFolder folder

/-- Carries out a move; only to erase a key has an answer, which is whether there was a row. -/
def move (backend : Backend) (now : Millis) : Move → Except DurableError (Option Bool) × Backend
  | .apply change =>
    let (result, kept) := backend.apply change now
    (result.map fun _ => none, kept)
  | .erase key =>
    let (result, kept) := backend.erase key
    (result.map some, kept)
  | .reopen =>
    match backend.reopen with
    | .ok opened => (.ok none, opened)
    | .error e => (.error e, backend)

/-- The backend after moves, each at a reading of the clock. -/
def after (backend : Backend) : List (Millis × Move) → Backend
  | [] => backend
  | step :: rest => (backend.move step.1 step.2).2.after rest

/-- What is answered to each of the moves, with the rows there are afterwards. -/
def history (backend : Backend) :
    List (Millis × Move) → List (Except DurableError (Option Bool) × List (Bytes × Row))
  | [] => []
  | step :: rest =>
    let (answer, kept) := backend.move step.1 step.2
    (answer, kept.table.toList) :: kept.history rest

/-- What a snapshot file holds, or the lack of one, stands for this table. -/
def Snapshots (snapshot : Option Bytes) (table : Table) : Prop :=
  Snapshot.parse (snapshot.getD []) = .ok table

/-- The backend is in a file in a folder with room, and its snapshot is the table that the other
one has in memory. -/
inductive Mirrors : Backend → Backend → Prop where
  | intro {table : Table} {snapshot : Option Bytes} (told : table.Told)
      (snapshots : Snapshots snapshot table) :
      Mirrors (.file table (.present snapshot false)) (.memory table)

/-- No snapshot is the table without rows. -/
theorem openFolder_unused {folder : Folder} (h : folder.Unused) :
    openFolder folder = .ok (.file .empty (.present none false)) := by
  cases h <;> rfl

theorem mirrors_new : Mirrors (.file .empty (.present none false)) (.memory .empty) :=
  .intro Table.told_empty rfl

/-- A change takes effect with both, and the snapshot of the file is that of the table again,
whether it had to be written or not. -/
theorem Mirrors.apply {file memory : Backend} (h : Mirrors file memory) (change : Change)
    (now : Millis) :
    (file.apply change now).1 = .ok () ∧ (memory.apply change now).1 = .ok () ∧
      Mirrors (file.apply change now).2 (memory.apply change now).2 := by
  obtain @⟨table, snapshot, htold, hsnapshots⟩ := h
  have htold' := htold.apply change now
  cases hchanged : (table.apply change now).1 with
  | true =>
    simp only [Backend.apply, Backend.table, hchanged, if_true, keep, Folder.write, true_and]
    exact .intro htold' (Snapshot.parse_render htold')
  | false =>
    simp only [Backend.apply, Backend.table, hchanged, Bool.false_eq_true, if_false, true_and]
    exact .intro htold hsnapshots

theorem Mirrors.erase {file memory : Backend} (h : Mirrors file memory) (key : Bytes) :
    ∃ erased, (file.erase key).1 = .ok erased ∧ (memory.erase key).1 = .ok erased ∧
      Mirrors (file.erase key).2 (memory.erase key).2 := by
  obtain @⟨table, snapshot, htold, hsnapshots⟩ := h
  have htold' := htold.erase key
  refine ⟨(table.erase key).1, ?_⟩
  cases herased : (table.erase key).1 with
  | true =>
    simp only [Backend.erase, Backend.table, herased, if_true, keep, Folder.write, Except.map,
      true_and]
    exact .intro htold' (Snapshot.parse_render htold')
  | false =>
    simp only [Backend.erase, Backend.table, herased, Bool.false_eq_true, if_false, true_and]
    exact .intro htold hsnapshots

/-- The table that is read when the file is opened again is the one there was. -/
theorem Mirrors.reopen {file memory : Backend} (h : Mirrors file memory) :
    file.reopen = .ok file ∧ memory.reopen = .ok memory := by
  obtain @⟨table, snapshot, htold, hsnapshots⟩ := h
  refine ⟨?_, rfl⟩
  have hparse : Snapshot.parse (snapshot.getD []) = .ok table := hsnapshots
  simp only [Backend.reopen, openFolder, Folder.create, Folder.snapshot?, bind, Except.bind, hparse,
    pure, Except.pure]

/-- **A step of the refinement.** A move succeeds with both, and with the same answer. -/
theorem Mirrors.move {file memory : Backend} (h : Mirrors file memory) (now : Millis)
    (move : Move) :
    ∃ answer, (file.move now move).1 = .ok answer ∧ (memory.move now move).1 = .ok answer ∧
      Mirrors (file.move now move).2 (memory.move now move).2 := by
  cases move with
  | apply change =>
    obtain ⟨hfile, hmemory, hmirrors⟩ := h.apply change now
    refine ⟨none, ?_, ?_, hmirrors⟩
    · simp only [Backend.move, hfile, Except.map]
    · simp only [Backend.move, hmemory, Except.map]
  | erase key =>
    obtain ⟨erased, hfile, hmemory, hmirrors⟩ := h.erase key
    refine ⟨some erased, ?_, ?_, hmirrors⟩
    · simp only [Backend.move, hfile, Except.map]
    · simp only [Backend.move, hmemory, Except.map]
  | reopen =>
    obtain ⟨hfile, hmemory⟩ := h.reopen
    simp only [Backend.move, hfile, hmemory]
    exact ⟨none, rfl, rfl, h⟩

theorem Mirrors.table {file memory : Backend} (h : Mirrors file memory) :
    file.table = memory.table := by
  cases h
  rfl

/-- **A history of the refinement.** -/
theorem Mirrors.history (steps : List (Millis × Move)) :
    ∀ {file memory : Backend}, Mirrors file memory →
      file.history steps = memory.history steps ∧
        (∀ seen ∈ file.history steps, ∃ answer, seen.1 = .ok answer) ∧
        Mirrors (file.after steps) (memory.after steps) := by
  induction steps with
  | nil => exact fun h => ⟨rfl, fun _ hseen => absurd hseen List.not_mem_nil, h⟩
  | cons step rest ih =>
    intro file memory h
    obtain ⟨answer, hfile, hmemory, hmirrors⟩ := h.move step.1 step.2
    obtain ⟨hsame, hok, hafter⟩ := ih hmirrors
    refine ⟨?_, fun seen hseen => ?_, hafter⟩
    · simp only [Backend.history, hfile, hmemory, hsame, hmirrors.table]
    · rcases List.mem_cons.1 hseen with rfl | hseen
      · exact ⟨answer, hfile⟩
      · exact hok seen hseen

/-- **The backend in a file refines the one in memory**, however often it is closed and opened
again. Open a folder that is not there yet, or has nothing in it, and carry out any changes and
removals, at any readings of the clock, opening the folder again at any time; no file operation
fails. Then every move succeeds, answers what it answers with the backend in memory, and leaves the
same rows. The snapshot at the end is read as the rows there are at the end; without one there are
none. -/
theorem file_refines_memory {folder : Folder} (h : folder.Unused) (steps : List (Millis × Move)) :
    ∃ file, openFolder folder = .ok file ∧ file.table.toList = [] ∧
      file.history steps = (Backend.memory .empty).history steps ∧
      (∀ seen ∈ file.history steps, ∃ answer, seen.1 = .ok answer) ∧
      ∃ table snapshot, file.after steps = .file table (.present snapshot false) ∧
        (Backend.memory .empty).after steps = .memory table ∧
        Snapshot.parse (snapshot.getD []) = .ok table := by
  refine ⟨_, openFolder_unused h, rfl, ?_⟩
  obtain ⟨hsame, hok, hafter⟩ := mirrors_new.history steps
  refine ⟨hsame, hok, ?_⟩
  generalize (Backend.file .empty (.present none false)).after steps = file at hafter
  generalize (Backend.memory .empty).after steps = memory at hafter
  obtain @⟨table, snapshot, -, hsnapshots⟩ := hafter
  exact ⟨table, snapshot, rfl, rfl, hsnapshots⟩

/-- Two keys are written and one is removed, which is still so when the folder is opened again; to
remove it a second time changes nothing. -/
theorem file_refines_memory_removal :
    ∃ file, openFolder .absent = .ok file ∧
      file.history [(0, .apply ⟨.write, [[97]], some [0, 159, 255], some (.ofSeconds 300)⟩),
        (1, .apply ⟨.write, [[98]], some [], none⟩), (2, .erase [98]), (3, .reopen),
        (4, .erase [98])] =
      [(.ok none, [([97], ⟨[0, 159, 255], 300000, 300000⟩)]),
        (.ok none, [([97], ⟨[0, 159, 255], 300000, 300000⟩), ([98], ⟨[], 0, 1⟩)]),
        (.ok (some true), [([97], ⟨[0, 159, 255], 300000, 300000⟩)]),
        (.ok none, [([97], ⟨[0, 159, 255], 300000, 300000⟩)]),
        (.ok (some false), [([97], ⟨[0, 159, 255], 300000, 300000⟩)])] := by
  obtain ⟨file, hopen, -, hsame, -⟩ := file_refines_memory .absent
    [(0, .apply ⟨.write, [[97]], some [0, 159, 255], some (.ofSeconds 300)⟩),
      (1, .apply ⟨.write, [[98]], some [], none⟩), (2, .erase [98]), (3, .reopen), (4, .erase [98])]
  exact ⟨file, hopen, hsame.trans rfl⟩

end Backend

end ExpiringCache
