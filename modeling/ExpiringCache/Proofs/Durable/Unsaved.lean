import ExpiringCache.Proofs.Durable.Reopen
import Mathlib.Data.List.Induction

/-!
# Snapshots that cannot be written

A backend in a file first changes its table and then writes the snapshot. If that fails, the call
fails, but the table keeps the change: from then on the snapshot is behind (`Backend.Behind`), until
the next call that has something to change is written, or the backend is opened again. A call that
finds nothing to change does not write, so to erase a key once more, after the first time has
failed, does not erase it from the snapshot, and it is back when the backend is opened again
(`Backend.erased_key_back`).

What holds at all times is that the snapshot stands for a table that the backend has had: the
present one or, if a call has failed since, the one from before it (`Backend.snapshot_or_failure`).
-/

namespace ExpiringCache

/-- The folder while there is room to write in it, or no room. -/
def Folder.withRoom (room : Bool) : Folder → Folder
  | .present snapshot _ => .present snapshot (!room)
  | .absent => .absent
  | .blocked => .blocked

namespace Backend

/-- The backend while there is room to write in its folder, or no room. -/
def withRoom (room : Bool) : Backend → Backend
  | .memory table => .memory table
  | .file table folder => .file table (folder.withRoom room)

/-- A move, when it is made, and whether there is room for a snapshot then. -/
structure Attempt where
  time : Millis
  room : Bool
  move : Move

/-- Makes a move with or without room for a snapshot. -/
def attempt (backend : Backend) (a : Attempt) : Except DurableError (Option Bool) × Backend :=
  (backend.withRoom a.room).move a.time a.move

/-- The backend after attempts. -/
def tried (backend : Backend) (attempts : List Attempt) : Backend :=
  attempts.foldl (fun backend a => (backend.attempt a).2) backend

/-- The table that there is if the backend is opened again. -/
def saved (backend : Backend) : Except DurableError Table := backend.reopen.map Backend.table

@[simp] theorem table_withRoom (backend : Backend) (room : Bool) :
    (backend.withRoom room).table = backend.table := by
  cases backend <;> rfl

theorem tried_append (backend : Backend) (before after : List Attempt) :
    backend.tried (before ++ after) = (backend.tried before).tried after :=
  List.foldl_append

theorem attempt_apply (backend : Backend) (time : Millis) (room : Bool) (change : Change) :
    backend.attempt ⟨time, room, .apply change⟩ =
      (((backend.withRoom room).apply change time).1.map fun _ => none,
        ((backend.withRoom room).apply change time).2) := rfl

theorem attempt_erase (backend : Backend) (time : Millis) (room : Bool) (key : Bytes) :
    backend.attempt ⟨time, room, .erase key⟩ =
      (((backend.withRoom room).erase key).1.map some, ((backend.withRoom room).erase key).2) := rfl

theorem attempt_reopen (backend : Backend) (time : Millis) (room : Bool) :
    backend.attempt ⟨time, room, .reopen⟩ =
      match (backend.withRoom room).reopen with
      | .ok opened => (.ok none, opened)
      | .error e => (.error e, backend.withRoom room) := rfl

variable {saved : Table} {backend : Backend} {change : Change} {key : Bytes} {now : Millis}

/-! ### Calls that have something to change, and calls that have not -/

theorem apply_changed (h : (backend.table.apply change now).1 = true) :
    backend.apply change now = backend.keep (backend.table.apply change now).2 := by
  simp [Backend.apply, h]

theorem apply_unchanged (h : (backend.table.apply change now).1 = false) :
    backend.apply change now = (.ok (), backend) := by
  simp [Backend.apply, h]

theorem erase_changed (h : (backend.table.erase key).1 = true) :
    backend.erase key =
      ((backend.keep (backend.table.erase key).2).1.map fun _ => true,
        (backend.keep (backend.table.erase key).2).2) := by
  simp [Backend.erase, h]

theorem erase_unchanged (h : (backend.table.erase key).1 = false) :
    backend.erase key = (.ok false, backend) := by
  simp [Backend.erase, h]

/-- A table is kept whether or not it could be written. -/
theorem table_keep (backend : Backend) (table : Table) : (backend.keep table).2.table = table := by
  cases backend with
  | memory old => rfl
  | file old folder =>
    unfold keep
    dsimp only
    cases folder.write (Snapshot.render table) <;> rfl

theorem table_apply (backend : Backend) (change : Change) (now : Millis) :
    (backend.apply change now).2.table = (backend.table.apply change now).2 := by
  cases hchanged : (backend.table.apply change now).1 with
  | true => rw [apply_changed hchanged, table_keep]
  | false => rw [apply_unchanged hchanged, Table.apply_same hchanged]

theorem table_erase (backend : Backend) (key : Bytes) :
    (backend.erase key).2.table = (backend.table.erase key).2 := by
  cases herased : (backend.table.erase key).1 with
  | true => rw [erase_changed herased, table_keep]
  | false => rw [erase_unchanged herased, Table.erase_same herased]

/-- An attempt makes of the table what the move makes of a table in memory, whether or not the
snapshot could be written; only to open the backend again does something else. -/
theorem table_attempt (backend : Backend) {a : Attempt} (h : a.move ≠ .reopen) :
    (backend.attempt a).2.table = ((memory backend.table).move a.time a.move).2.table := by
  obtain ⟨time, room, move⟩ := a
  cases move with
  | apply change =>
    calc (backend.attempt ⟨time, room, .apply change⟩).2.table
        = ((backend.withRoom room).table.apply change time).2 := table_apply _ change time
      _ = (backend.table.apply change time).2 := by rw [table_withRoom]
      _ = ((memory backend.table).apply change time).2.table :=
          (table_apply (memory backend.table) change time).symm
  | erase key =>
    calc (backend.attempt ⟨time, room, .erase key⟩).2.table
        = ((backend.withRoom room).table.erase key).2 := table_erase _ key
      _ = (backend.table.erase key).2 := by rw [table_withRoom]
      _ = ((memory backend.table).erase key).2.table :=
          (table_erase (memory backend.table) key).symm
  | reopen => exact absurd rfl h

/-! ### The snapshot -/

/-- The backend is in a file, and its snapshot stands for a table, from which its own may differ. -/
inductive Behind (saved : Table) : Backend → Prop where
  | intro {table : Table} {snapshot : Option Bytes} {full : Bool} (told : table.Told)
      (toldSaved : saved.Told) (snapshots : Snapshots snapshot saved) :
      Behind saved (.file table (.present snapshot full))

theorem Behind.told (h : Behind saved backend) : backend.table.Told := by
  cases h
  assumption

theorem Behind.withRoom (h : Behind saved backend) (room : Bool) :
    Behind saved (backend.withRoom room) := by
  obtain ⟨htold, htoldSaved, hsnapshots⟩ := h
  exact .intro htold htoldSaved hsnapshots

/-- When the backend is opened again, there is the table that the snapshot stands for. -/
theorem Behind.reopen (h : Behind saved backend) :
    ∃ opened, backend.reopen = .ok opened ∧ opened.table = saved ∧ Behind saved opened := by
  obtain @⟨table, snapshot, full, -, htoldSaved, hsnapshots⟩ := h
  have hparse : Snapshot.parse (snapshot.getD []) = .ok saved := hsnapshots
  refine ⟨.file saved (.present snapshot full), ?_, rfl, .intro htoldSaved htoldSaved hsnapshots⟩
  simp only [Backend.reopen, openFolder, Folder.create, Folder.snapshot?, bind, Except.bind, hparse,
    pure, Except.pure]

theorem Behind.saved_eq (h : Behind saved backend) : backend.saved = .ok saved := by
  obtain ⟨opened, hopened, htable, -⟩ := h.reopen
  rw [Backend.saved, hopened, ← htable]
  rfl

/-- A table is kept without room for its snapshot: the snapshot is the one it was. -/
theorem Behind.keep_unwritten (h : Behind saved backend) {table : Table} (htold : table.Told) :
    ((backend.withRoom false).keep table).1 = .error .io ∧
      Behind saved ((backend.withRoom false).keep table).2 := by
  obtain ⟨-, htoldSaved, hsnapshots⟩ := h
  exact ⟨rfl, .intro htold htoldSaved hsnapshots⟩

/-- A table is kept with room for its snapshot, which is written. -/
theorem Behind.keep_written (h : Behind saved backend) {table : Table} (htold : table.Told) :
    ((backend.withRoom true).keep table).1 = .ok () ∧
      Behind table ((backend.withRoom true).keep table).2 := by
  obtain ⟨-, -, -⟩ := h
  exact ⟨rfl, .intro htold htold (Snapshot.parse_render htold)⟩

/-- A folder that can be opened has a snapshot of the table it is opened with. -/
theorem behind_of_openFolder {folder : Folder} (h : openFolder folder = .ok backend) :
    Behind backend.table backend := by
  have hparsed : ∀ (snapshot : Option Bytes) (full : Bool),
      openFolder (.present snapshot full) = .ok backend → Behind backend.table backend := by
    intro snapshot full h
    simp only [openFolder, Folder.create, Folder.snapshot?, bind, Except.bind, pure,
      Except.pure] at h
    split at h
    · cases h
    · next table hparse =>
      cases h
      have htold : table.Told := Snapshot.told_of_parse hparse
      exact .intro htold htold hparse
  cases folder with
  | blocked => cases h
  | absent => exact hparsed none false h
  | present snapshot full => exact hparsed snapshot full h

/-! ### Attempts -/

/-- How an attempt ends. -/
inductive Ending (backend : Backend) (room : Bool) :
    Except DurableError (Option Bool) × Backend → Prop where
  /-- The snapshot could not be written, and is the one it was. -/
  | unwritten {after : Backend} (full : room = false) (snapshot : after.saved = backend.saved) :
      Ending backend room (.error .io, after)
  /-- The snapshot is that of the table there is now. -/
  | written {answer : Option Bool} {after : Backend} (snapshot : after.saved = .ok after.table) :
      Ending backend room (.ok answer, after)
  /-- There was nothing to change. -/
  | same {answer : Option Bool} {after : Backend} (table : after.table = backend.table)
      (snapshot : after.saved = backend.saved) : Ending backend room (.ok answer, after)

/-- An attempt that keeps a table ends as there is room for a snapshot or not. -/
theorem Behind.ending_keep (h : Behind saved backend) {table : Table} (htold : table.Told)
    (room : Bool) (answer : Unit → Option Bool) :
    Ending backend room
      (((backend.withRoom room).keep table).1.map answer, ((backend.withRoom room).keep table).2) ∧
    ∃ saved', Behind saved' ((backend.withRoom room).keep table).2 := by
  cases room with
  | false =>
    obtain ⟨hresult, hbehind⟩ := h.keep_unwritten htold
    rw [hresult]
    exact ⟨.unwritten rfl (hbehind.saved_eq.trans h.saved_eq.symm), saved, hbehind⟩
  | true =>
    obtain ⟨hresult, hbehind⟩ := h.keep_written htold
    rw [hresult]
    exact ⟨.written (by rw [hbehind.saved_eq, table_keep]), table, hbehind⟩

/-- **A step of a backend that may fail to write.** -/
theorem Behind.attempt (h : Behind saved backend) (a : Attempt) :
    Ending backend a.room (backend.attempt a) ∧ ∃ saved', Behind saved' (backend.attempt a).2 := by
  obtain ⟨time, room, move⟩ := a
  have hroom := h.withRoom room
  -- Whether there is room does not matter to what there is, nor to what is read.
  have hsame : ∀ answer, Ending backend room (.ok answer, backend.withRoom room) := fun answer =>
    .same (backend.table_withRoom room) (hroom.saved_eq.trans h.saved_eq.symm)
  cases move with
  | apply change =>
    rw [attempt_apply]
    cases hchanged : ((backend.withRoom room).table.apply change time).1 with
    | false =>
      rw [apply_unchanged hchanged]
      exact ⟨hsame none, saved, hroom⟩
    | true =>
      rw [apply_changed hchanged]
      exact h.ending_keep (hroom.told.apply change time) room fun _ => none
  | erase key =>
    rw [attempt_erase]
    cases herased : ((backend.withRoom room).table.erase key).1 with
    | false =>
      rw [erase_unchanged herased]
      exact ⟨hsame (some false), saved, hroom⟩
    | true =>
      rw [erase_changed herased]
      have hkeep := h.ending_keep (hroom.told.erase key) room fun _ => some true
      cases hresult : ((backend.withRoom room).keep _).1 with
      | error e => rwa [hresult] at hkeep
      | ok done => rwa [hresult] at hkeep
  | reopen =>
    obtain ⟨opened, hopened, htable, hbehind⟩ := hroom.reopen
    rw [attempt_reopen, hopened]
    exact ⟨.written (hbehind.saved_eq.trans (congrArg Except.ok htable.symm)), saved, hbehind⟩

/-- **A run of a backend that may fail to write.** The snapshot stands for the table there is, or
for the one there was before a call that failed. -/
theorem Behind.tried (h : Behind backend.table backend) (attempts : List Attempt) :
    (∃ saved, Behind saved (backend.tried attempts)) ∧
    ((backend.tried attempts).saved = .ok (backend.tried attempts).table ∨
      ∃ before failed since, attempts = before ++ failed :: since ∧
        ((backend.tried before).attempt failed).1 = .error .io ∧
        (backend.tried attempts).saved = .ok (backend.tried before).table) := by
  -- By induction from the back, as the last attempt decides.
  induction attempts using List.reverseRecOn with
  | nil => exact ⟨⟨backend.table, h⟩, .inl h.saved_eq⟩
  | append_singleton attempts last ih =>
    obtain ⟨⟨saved, hbehind⟩, hsaved⟩ := ih
    obtain ⟨hending, hbehind'⟩ := hbehind.attempt last
    have hlast : backend.tried (attempts ++ [last]) = ((backend.tried attempts).attempt last).2 :=
      tried_append backend attempts [last]
    rw [hlast]
    refine ⟨hbehind', ?_⟩
    -- A failure that lies further back stays one while the snapshot is not written.
    have hfurther : ∀ {after : Backend}, after.saved = (backend.tried attempts).saved →
        (∃ before failed since, attempts = before ++ failed :: since ∧
          ((backend.tried before).attempt failed).1 = .error .io ∧
          (backend.tried attempts).saved = .ok (backend.tried before).table) →
        ∃ before failed since, attempts ++ [last] = before ++ failed :: since ∧
          ((backend.tried before).attempt failed).1 = .error .io ∧
          after.saved = .ok (backend.tried before).table := by
      rintro after hsnapshot ⟨before, failed, since, rfl, hfailed, hold⟩
      exact ⟨before, failed, since ++ [last], by simp, hfailed, hsnapshot.trans hold⟩
    generalize hafter : (backend.tried attempts).attempt last = after at hending
    cases hending with
    | unwritten hfull hsnapshot =>
      refine .inr ?_
      rcases hsaved with hsaved | hsaved
      · exact ⟨attempts, last, [], rfl, congrArg Prod.fst hafter, hsnapshot.trans hsaved⟩
      · exact hfurther hsnapshot hsaved
    | written hsnapshot => exact .inl hsnapshot
    | same htable hsnapshot =>
      refine hsaved.imp (fun hsaved => ?_) (hfurther hsnapshot)
      exact (hsnapshot.trans hsaved).trans (congrArg Except.ok htable.symm)

/-! ### Erasing once more -/

/-- To erase a key that has no row answers so, and does not touch the snapshot. -/
theorem Behind.erase_absent (h : Behind saved backend) (hkey : backend.table.find? key = none)
    {a : Attempt} (hmove : a.move = .erase key) :
    (backend.attempt a).1 = .ok (some false) ∧ (backend.attempt a).2.table = backend.table ∧
      Behind saved (backend.attempt a).2 := by
  obtain ⟨time, room, move⟩ := a
  obtain rfl : move = .erase key := hmove
  have herased : ((backend.withRoom room).table.erase key).1 = false := by
    rw [table_withRoom, Table.erase_fst, hkey]
    rfl
  have hattempt : backend.attempt ⟨time, room, .erase key⟩ =
      (.ok (some false), backend.withRoom room) := by
    rw [attempt_erase, erase_unchanged herased]
    rfl
  rw [hattempt]
  exact ⟨rfl, backend.table_withRoom room, h.withRoom room⟩

theorem Behind.erase_absent_tried (retries : List Attempt) :
    ∀ {backend : Backend}, Behind saved backend → backend.table.find? key = none →
      (∀ a ∈ retries, a.move = .erase key) →
        (backend.tried retries).table = backend.table ∧ Behind saved (backend.tried retries) := by
  induction retries with
  | nil => exact fun h _ _ => ⟨rfl, h⟩
  | cons a rest ih =>
    intro backend h hkey hretries
    obtain ⟨-, htable, hbehind⟩ := h.erase_absent hkey (hretries a List.mem_cons_self)
    obtain ⟨hrest, hbehind'⟩ := ih hbehind (htable ▸ hkey)
      fun later hlater => hretries later (List.mem_cons_of_mem a hlater)
    exact ⟨hrest.trans htable, hbehind'⟩

/-- To erase a row without room for a snapshot fails, but the row is gone. -/
theorem Behind.erase_unwritten (h : Behind saved backend) (hkey : backend.table.find? key ≠ none)
    (time : Millis) :
    (backend.attempt ⟨time, false, .erase key⟩).1 = .error .io ∧
      (backend.attempt ⟨time, false, .erase key⟩).2.table.find? key = none ∧
      Behind saved (backend.attempt ⟨time, false, .erase key⟩).2 := by
  have herased : ((backend.withRoom false).table.erase key).1 = true := by
    rw [table_withRoom, Table.erase_fst]
    exact Option.isSome_iff_ne_none.2 hkey
  obtain ⟨hresult, hbehind⟩ := h.keep_unwritten ((h.withRoom false).told.erase key)
  have hattempt : backend.attempt ⟨time, false, .erase key⟩ = (.error .io,
      ((backend.withRoom false).keep ((backend.withRoom false).table.erase key).2).2) := by
    rw [attempt_erase, erase_changed herased, hresult]
    rfl
  rw [hattempt]
  refine ⟨rfl, ?_, hbehind⟩
  rw [table_keep, Table.find?_erase, if_pos rfl]

/-! ### The whole run -/

/-- **The snapshot is behind after a failure and at no other time.** Open a folder, and make any
moves in it, at any readings of the clock, opening the folder again at any time; at any of the moves
there may be no room for a snapshot. Then, after any number of moves:

* If the folder is opened again, there is the table that there is or, if a move has failed, the one
  from before it.
* The next move makes of the table what it makes of a table in memory, also if it fails.
* It fails only if there is no room for a snapshot, and then the snapshot is what it was. If it does
  not fail, the snapshot is that of the new table, or there was nothing to change.
* If it fails to erase a key that has a row, to erase the key again, however often and with or
  without room, answers each time that there is no such row, and the snapshot is what it was. -/
theorem snapshot_or_failure {folder : Folder} {file : Backend} (h : openFolder folder = .ok file)
    (attempts : List Attempt) :
    let here := file.tried attempts
    (here.saved = .ok here.table ∨
      ∃ before failed since, attempts = before ++ failed :: since ∧
        ((file.tried before).attempt failed).1 = .error .io ∧
        here.saved = .ok (file.tried before).table) ∧
    (∀ a : Attempt, Ending here a.room (here.attempt a) ∧
      (a.move ≠ .reopen →
        (here.attempt a).2.table = ((memory here.table).move a.time a.move).2.table)) ∧
    ∀ (key : Bytes) (time : Millis), here.table.find? key ≠ none →
      let failed := here.attempt ⟨time, false, .erase key⟩
      failed.1 = .error .io ∧
        ∀ retries : List Attempt, (∀ a ∈ retries, a.move = .erase key) →
          (failed.2.tried retries).saved = here.saved ∧
            ∀ again : Attempt, again.move = .erase key →
              ((failed.2.tried retries).attempt again).1 = .ok (some false) := by
  intro here
  obtain ⟨⟨saved, hbehind⟩, hsaved⟩ := (behind_of_openFolder h).tried attempts
  refine ⟨hsaved, fun a => ⟨(hbehind.attempt a).1, table_attempt here⟩, fun key time hkey => ?_⟩
  intro failed
  obtain ⟨hfailed, hgone, hbehind'⟩ := hbehind.erase_unwritten hkey time
  refine ⟨hfailed, fun retries hretries => ?_⟩
  obtain ⟨htable, hretried⟩ := hbehind'.erase_absent_tried retries hgone hretries
  exact ⟨hretried.saved_eq.trans hbehind.saved_eq.symm,
    fun again hagain => (hretried.erase_absent (htable ▸ hgone) hagain).1⟩

/-- A key is written, and there is no room when it is erased: the row is gone, and to erase the key
again, with room, does not bring the snapshot in line. -/
theorem snapshot_or_failure_erasure :
    let write : Attempt := ⟨0, true, .apply ⟨.write, [[107]], some [49], some (.ofSeconds 90)⟩⟩
    let erasure : Attempt := ⟨1, false, .erase [107]⟩
    let again : Attempt := ⟨2, true, .erase [107]⟩
    ∃ file, openFolder .absent = .ok file ∧ (file.tried [write]).table.find? [107] ≠ none ∧
      ((file.tried [write]).attempt erasure).1 = .error .io ∧
      (((file.tried [write]).attempt erasure).2.tried [again]).saved =
        (file.tried [write]).saved := by
  intro write erasure again
  obtain ⟨-, -, herase⟩ := snapshot_or_failure (openFolder_unused .absent) [write]
  have hrow :
      ((Backend.file .empty (.present none false)).tried [write]).table.find? [107] ≠ none := by
    decide
  obtain ⟨hfailed, hretries⟩ := herase [107] 1 hrow
  exact ⟨_, openFolder_unused .absent, hrow, hfailed,
    (hretries [again] (List.forall_mem_singleton.2 rfl)).1⟩

/-- A failed call has changed the table, and to erase the key again once there is room does not
erase it from the snapshot: when the folder is opened again, it is back. -/
theorem erased_key_back :
    let row : Row := ⟨[49], 90000, 90000⟩
    ∃ file, openFolder .absent = .ok file ∧
      let written := file.attempt
        ⟨0, true, .apply ⟨.write, [[107]], some [49], some (.ofSeconds 90)⟩⟩
      let failed := written.2.attempt ⟨1, false, .erase [107]⟩
      let again := failed.2.attempt ⟨2, true, .erase [107]⟩
      written.1 = .ok none ∧ written.2.table.find? [107] = some row ∧
        failed.1 = .error .io ∧ failed.2.table.find? [107] = none ∧
        again.1 = .ok (some false) ∧ again.2.saved = .ok written.2.table := by
  intro row
  refine ⟨_, openFolder_unused .absent, ?_⟩
  intro written failed again
  have htold : written.2.table.Told :=
    Table.told_empty.apply ⟨.write, [[107]], some [49], some (.ofSeconds 90)⟩ 0
  have hwritten : Behind written.2.table written.2 :=
    .intro htold htold (Snapshot.parse_render htold)
  have hrow : written.2.table.find? [107] = some row := rfl
  have hthere : written.2.table.find? [107] ≠ none := by decide
  obtain ⟨hfailed, hgone, hbehind⟩ := hwritten.erase_unwritten hthere 1
  obtain ⟨hagain, -, hbehind'⟩ := hbehind.erase_absent hgone (a := ⟨2, true, .erase [107]⟩) rfl
  exact ⟨rfl, hrow, hfailed, hgone, hagain, hbehind'.saved_eq⟩

end Backend

end ExpiringCache
