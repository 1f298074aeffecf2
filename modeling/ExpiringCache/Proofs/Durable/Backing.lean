import ExpiringCache.Persistence.Backing
import ExpiringCache.Proofs.Durable.Table

/-!
# Backends that never fail

As long as no call of a backend fails, a job does to the table of its backend what the change it
carries does, to every row by itself, and touches no other backend (`Backing.row?_perform`). A job
for a kind that has no backend is dropped.

What is done is also noted: `Backing.done` lists the jobs that backends have done, in order.
-/

namespace ExpiringCache

/-! ### Backends -/

namespace Backend

/-- No call of the backend fails: it is in memory, or its folder is there and has room. -/
def Reliable : Backend → Prop
  | .memory _ => True
  | .file _ folder => ∃ snapshot, folder = .present snapshot false

variable {backend : Backend}

theorem keep_reliable (h : backend.Reliable) (table : Table) :
    ∃ kept, backend.keep table = (.ok (), kept) ∧ kept.Reliable ∧ kept.table = table := by
  cases backend with
  | memory old => exact ⟨.memory table, rfl, trivial, rfl⟩
  | file old folder =>
    obtain ⟨snapshot, rfl⟩ := h
    exact ⟨.file table (.present (some (Snapshot.render table)) false), rfl, ⟨_, rfl⟩, rfl⟩

theorem apply_reliable (h : backend.Reliable) (change : Change) (now : Millis) :
    ∃ kept, backend.apply change now = (.ok (), kept) ∧ kept.Reliable ∧
      kept.table = (backend.table.apply change now).2 := by
  unfold apply
  cases hchanged : (backend.table.apply change now).1 with
  | true =>
    obtain ⟨kept, hkeep, hreliable, htable⟩ :=
      keep_reliable h (backend.table.apply change now).2
    exact ⟨kept, by simp [hchanged, hkeep], hreliable, htable⟩
  | false => exact ⟨backend, by simp [hchanged], h, (Table.apply_same hchanged).symm⟩

theorem erase_reliable (h : backend.Reliable) (key : Bytes) :
    ∃ kept, backend.erase key = (.ok (backend.table.erase key).1, kept) ∧ kept.Reliable ∧
      kept.table = (backend.table.erase key).2 := by
  unfold erase
  cases herased : (backend.table.erase key).1 with
  | true =>
    obtain ⟨kept, hkeep, hreliable, htable⟩ := keep_reliable h (backend.table.erase key).2
    exact ⟨kept, by simp [herased, hkeep, Except.map], hreliable, htable⟩
  | false => exact ⟨backend, by simp [herased], h, (Table.erase_same herased).symm⟩

end Backend

/-! ### Jobs -/

namespace Job

/-- The table after a job. -/
def run (now : Millis) (t : Table) : Job → Table
  | .apply change => (t.apply change now).2
  | .erase key => (t.erase key).2

/-- What is answered to a job: whether there was a row to erase. -/
def answer (t : Table) : Job → Bool
  | .apply _ => true
  | .erase key => (t.erase key).1

/-- What a key holds after a job, by what it held before. -/
def effect (job : Job) (now : Millis) (key : Bytes) (row : Option Row) : Option Row :=
  match job with
  | .apply change => change.effect now key row
  | .erase k => if key = k then none else row

/-- What a job makes of the content of a key's row, whenever it is done. -/
def contentEffect (job : Job) (key : Bytes) (content : Option (Bytes × Millis)) :
    Option (Bytes × Millis) :=
  match job with
  | .apply change => change.contentEffect key content
  | .erase k => if key = k then none else content

theorem find?_run (job : Job) (now : Millis) (t : Table) (key : Bytes) :
    (job.run now t).find? key = job.effect now key (t.find? key) := by
  cases job with
  | apply change => exact Table.find?_apply t change now key
  | erase k => exact Table.find?_erase t k key

theorem content_effect (job : Job) (now : Millis) (key : Bytes) (row : Option Row) :
    (job.effect now key row).map Row.content = job.contentEffect key (row.map Row.content) := by
  cases job with
  | apply change => exact change.content_effect now key row
  | erase k =>
    show (if key = k then none else row).map Row.content = if key = k then none else _
    by_cases hk : key = k
    · rw [if_pos hk, if_pos hk]; rfl
    · rw [if_neg hk, if_neg hk]

end Job

/-- The job that an event says a backend has done. -/
def Event.job? : Event → Option (BackendKind × Job)
  | .applied kind change true => some (kind, .apply change)
  | .erased kind key (some _) => some (kind, .erase key)
  | _ => none

namespace Backing

variable {b : Backing} {now : Millis} {kind : BackendKind}

/-- The row of a key in the backend of a kind. -/
def row? (b : Backing) (kind : BackendKind) (key : Bytes) : Option Row :=
  (b.registry.find? kind).bind fun backend => backend.table.find? key

/-- Whether there is a backend of a kind. -/
def has (b : Backing) (kind : BackendKind) : Bool := (b.registry.find? kind).isSome

/-- The jobs that backends have done, in order. -/
def done (b : Backing) : List (BackendKind × Job) := b.journal.filterMap Event.job?

/-! #### Any call of a backend -/

theorem advance_of_nil (h : b.ahead = []) : b.advance = b := by
  rw [advance, h]

/-- Whatever becomes of a job, it changes at most the backend it is for, the journal, and the
outage of the next call. -/
theorem perform_shape (b : Backing) (now : Millis) (kind : BackendKind) (job : Job) :
    ∃ registry journal,
      (registry = b.registry ∨ b.has kind = true ∧ ∃ kept, registry = b.registry.insert kind kept) ∧
      ((b.perform now kind job).2 = { b with registry := registry, journal := journal } ∨
        (b.perform now kind job).2 =
          { b with registry := registry, journal := journal }.advance) := by
  cases hfind : b.registry.find? kind with
  | none =>
    refine ⟨b.registry, b.journal, .inl rfl, .inl ?_⟩
    cases job with
    | apply change => simp only [perform, apply, hfind]
    | erase key => simp only [perform, erase, hfind]
  | some backend =>
    have hhas : b.has kind = true := by rw [has, hfind]; rfl
    cases job with
    | apply change =>
      simp only [perform, apply, hfind]
      -- A crash, an outage, and what the backend answers, with or without success.
      split
      · exact ⟨b.registry, b.journal, .inl rfl, .inr rfl⟩
      · split
        · exact ⟨b.registry, _, .inl rfl, .inr rfl⟩
        · split
          · exact ⟨_, _, .inr ⟨hhas, _, rfl⟩, .inr rfl⟩
          · exact ⟨_, _, .inr ⟨hhas, _, rfl⟩, .inr rfl⟩
    | erase key =>
      simp only [perform, erase, hfind]
      split
      · exact ⟨b.registry, b.journal, .inl rfl, .inr rfl⟩
      · split
        · exact ⟨b.registry, _, .inl rfl, .inr rfl⟩
        · split
          · exact ⟨_, _, .inr ⟨hhas, _, rfl⟩, .inr rfl⟩
          · exact ⟨_, _, .inr ⟨hhas, _, rfl⟩, .inr rfl⟩

@[simp] theorem worker_advance (b : Backing) : b.advance.worker = b.worker := by
  unfold advance; split <;> rfl

@[simp] theorem registry_advance (b : Backing) : b.advance.registry = b.registry := by
  unfold advance; split <;> rfl

/-- Backends know nothing of the worker. -/
theorem worker_perform (b : Backing) (now : Millis) (kind : BackendKind) (job : Job) :
    (b.perform now kind job).2.worker = b.worker := by
  obtain ⟨registry, journal, -, heq | heq⟩ := b.perform_shape now kind job
  · rw [heq]
  · rw [heq, worker_advance]

/-- Backends are neither added nor removed. -/
theorem has_perform (b : Backing) (now : Millis) (kind : BackendKind) (job : Job)
    (k : BackendKind) : (b.perform now kind job).2.has k = b.has k := by
  obtain ⟨registry, journal, hregistry, heq⟩ := b.perform_shape now kind job
  have hafter : (b.perform now kind job).2.registry = registry := by
    rcases heq with heq | heq
    · rw [heq]
    · rw [heq, registry_advance]
  rw [has, hafter]
  rcases hregistry with rfl | ⟨hhas, kept, rfl⟩
  · rfl
  · rw [Registry.find?_insert]
    by_cases hk : k = kind
    · rw [if_pos hk, hk, hhas]
      rfl
    · rw [if_neg hk, has]

/-- A job leaves the backends it is not for as they are. -/
theorem find?_perform_of_ne (b : Backing) (now : Millis) (job : Job) {k : BackendKind}
    (hk : k ≠ kind) :
    (b.perform now kind job).2.registry.find? k = b.registry.find? k := by
  obtain ⟨registry, journal, hregistry, heq⟩ := b.perform_shape now kind job
  have hafter : (b.perform now kind job).2.registry = registry := by
    rcases heq with heq | heq
    · rw [heq]
    · rw [heq, registry_advance]
  rw [hafter]
  rcases hregistry with rfl | ⟨-, kept, rfl⟩
  · rfl
  · rw [Registry.find?_insert, if_neg hk]

/-! #### Calls that never fail -/

/-- No call of the backend of a kind fails, now or later. -/
structure Sound (b : Backing) (kind : BackendKind) : Prop where
  outage : b.outage = {}
  ahead : b.ahead = []
  reliable : ∀ backend, b.registry.find? kind = some backend → backend.Reliable

theorem perform_of_missing (h : b.registry.find? kind = none) (now : Millis) (job : Job) :
    b.perform now kind job = (false, b) := by
  cases job with
  | apply change => simp only [perform, apply, h]
  | erase key => simp only [perform, erase, h]

/-- A job for a backend that never fails replaces the backend by one with the table the job leads
to, and is noted. -/
theorem perform_inv (h : b.Sound kind) {backend : Backend}
    (hfind : b.registry.find? kind = some backend) (now : Millis) (job : Job) :
    ∃ kept event, b.perform now kind job =
        (job.answer backend.table, (b.setBackend kind kept).note event) ∧
      kept.Reliable ∧ kept.table = job.run now backend.table ∧
      event.job? = some (kind, job) := by
  cases job with
  | apply change =>
    obtain ⟨kept, happly, hreliable, htable⟩ :=
      Backend.apply_reliable (h.reliable backend hfind) change now
    refine ⟨kept, .applied kind change true, ?_, hreliable, htable, rfl⟩
    simp only [perform, apply, hfind, h.outage, happly, Bool.false_eq_true, if_false]
    exact congrArg (Prod.mk true) (advance_of_nil h.ahead)
  | erase key =>
    obtain ⟨kept, herase, hreliable, htable⟩ :=
      Backend.erase_reliable (h.reliable backend hfind) key
    refine ⟨kept, .erased kind key (some (backend.table.erase key).1), ?_, hreliable, htable, rfl⟩
    simp only [perform, erase, hfind, h.outage, herase, Bool.false_eq_true, if_false]
    exact congrArg (Prod.mk _) (advance_of_nil h.ahead)

/-- A backend that never fails goes on so, whatever is asked of it and of others. -/
theorem Sound.perform {k : BackendKind} (h : b.Sound k) (now : Millis) (kind : BackendKind)
    (job : Job) : (b.perform now kind job).2.Sound k := by
  obtain ⟨registry, journal, -, heq⟩ := b.perform_shape now kind job
  have hafter : (b.perform now kind job).2 =
      { b with registry := registry, journal := journal } := by
    rcases heq with heq | heq
    · exact heq
    · exact heq.trans (advance_of_nil h.ahead)
  -- The backends that the job is not for are the same as before; its own has been kept reliably.
  refine ⟨by rw [hafter]; exact h.outage, by rw [hafter]; exact h.ahead, fun backend hback => ?_⟩
  by_cases hk : k = kind
  · subst hk
    cases hfind : b.registry.find? k with
    | none =>
      rw [perform_of_missing hfind] at hback
      exact h.reliable backend hback
    | some old =>
      obtain ⟨kept, event, hperform, hreliable, -⟩ := perform_inv h hfind now job
      have hinsert : (b.registry.insert k kept).find? k = some backend := by
        rw [hperform] at hback
        exact hback
      rw [Registry.find?_insert, if_pos rfl] at hinsert
      rwa [← Option.some.inj hinsert]
  · rw [find?_perform_of_ne b now job hk] at hback
    exact h.reliable backend hback

/-- A job does to every row of its backend what it does. -/
theorem row?_perform (h : b.Sound kind) (hhas : b.has kind = true) (now : Millis) (job : Job)
    (key : Bytes) :
    (b.perform now kind job).2.row? kind key = job.effect now key (b.row? kind key) := by
  obtain ⟨backend, hfind⟩ := Option.isSome_iff_exists.1 hhas
  obtain ⟨kept, event, heq, -, htable, -⟩ := perform_inv h hfind now job
  rw [heq]
  show ((b.registry.insert kind kept).find? kind).bind _ = _
  rw [Registry.find?_insert, if_pos rfl, row?, hfind]
  show kept.table.find? key = job.effect now key (backend.table.find? key)
  rw [htable, job.find?_run]

theorem row?_perform_of_ne (b : Backing) (now : Millis) (job : Job) {k : BackendKind}
    (hk : k ≠ kind) (key : Bytes) :
    (b.perform now kind job).2.row? k key = b.row? k key := by
  rw [row?, find?_perform_of_ne b now job hk, row?]

/-- A job that is done is noted as done. -/
theorem done_perform (h : b.Sound kind) (now : Millis) (job : Job) :
    (b.perform now kind job).2.done =
      b.done ++ if b.has kind then [(kind, job)] else [] := by
  cases hfind : b.registry.find? kind with
  | none =>
    rw [perform_of_missing hfind, has, hfind]
    simp
  | some backend =>
    obtain ⟨kept, event, heq, -, -, hevent⟩ := perform_inv h hfind now job
    rw [heq, has, hfind]
    show (b.journal ++ [event]).filterMap Event.job? = _
    rw [List.filterMap_append, List.filterMap_cons, hevent]
    rfl

/-! ### The rows of a backend -/

theorem rows_inv {rows : List (Bytes × Row)} (h : b.rows kind = .ok rows) :
    ∃ backend, b.registry.find? kind = some backend ∧ rows = backend.table.toList := by
  unfold Backing.rows Registry.resolve at h
  cases hfind : b.registry.find? kind with
  | none => rw [hfind] at h; cases h
  | some backend =>
    rw [hfind] at h
    dsimp only at h
    split at h
    · cases h
    · exact ⟨backend, rfl, (Except.ok.inj h).symm⟩

theorem rows_ascending {rows : List (Bytes × Row)} (h : b.rows kind = .ok rows) :
    Ascending rows := by
  obtain ⟨backend, -, rfl⟩ := rows_inv h
  exact backend.table.rows.ascending

theorem has_of_rows {rows : List (Bytes × Row)} (h : b.rows kind = .ok rows) :
    b.has kind = true := by
  obtain ⟨backend, hfind, -⟩ := rows_inv h
  rw [has, hfind]
  rfl

theorem row?_of_rows {rows : List (Bytes × Row)} (h : b.rows kind = .ok rows) (key : Bytes) :
    b.row? kind key = ByteMap.seek key rows := by
  obtain ⟨backend, hfind, rfl⟩ := rows_inv h
  rw [row?, hfind]
  rfl

/-- The rows of a backend are what it finds under their keys. -/
theorem mem_rows_iff {rows : List (Bytes × Row)} (h : b.rows kind = .ok rows) {key : Bytes}
    {row : Row} : (key, row) ∈ rows ↔ b.row? kind key = some row := by
  rw [row?_of_rows h]
  exact ByteMap.mem_entries_iff (m := ⟨rows, rows_ascending h⟩)

/-- A backend that never fails can be listed. -/
theorem rows_of_has (h : b.Sound kind) (hhas : b.has kind = true) :
    ∃ rows, b.rows kind = .ok rows := by
  obtain ⟨backend, hfind⟩ := Option.isSome_iff_exists.1 hhas
  refine ⟨backend.table.toList, ?_⟩
  unfold Backing.rows Registry.resolve
  rw [hfind, h.outage]
  rfl

/-- The rows of a backend are known as soon as the row of each key is. -/
theorem rows_of_row? {rows : List (Bytes × Row)} (h : b.Sound kind) (hhas : b.has kind = true)
    (hascending : Ascending rows) (hrow : ∀ key, b.row? kind key = ByteMap.seek key rows) :
    b.rows kind = .ok rows := by
  obtain ⟨backend, hfind⟩ := Option.isSome_iff_exists.1 hhas
  have hrows : backend.table.rows = ⟨rows, hascending⟩ := ByteMap.ext_find? fun key => by
    have := hrow key
    rwa [row?, hfind] at this
  unfold Backing.rows Registry.resolve
  rw [hfind, h.outage]
  show Except.ok backend.table.rows.entries = _
  rw [hrows]

end Backing

/-! ### The worker -/

/-- Whether the worker takes jobs. -/
def Worker.isRunning : Worker → Bool
  | .running _ => true
  | .absent | .stopped => false

namespace Backing

variable {b : Backing} {now : Millis} {kind : BackendKind}

/-- Without a running worker a job is done at once. -/
theorem deliver_inline (h : b.worker.isRunning = false) (now : Millis) (kind : BackendKind)
    (job : Job) : (b.deliver now kind job).2 = (b.perform now kind job).2 := by
  unfold deliver submit
  cases hworker : b.worker with
  | absent => rfl
  | stopped => rfl
  | running jobs => simp [hworker, Worker.isRunning] at h

/-- A running worker takes a job, and nothing is done yet. -/
theorem deliver_running {jobs : List (BackendKind × Job)} (h : b.worker = .running jobs)
    (now : Millis) (kind : BackendKind) (job : Job) :
    (b.deliver now kind job).2 = { b with worker := .running (jobs ++ [(kind, job)]) } := by
  unfold deliver submit
  rw [h]

end Backing

end ExpiringCache
