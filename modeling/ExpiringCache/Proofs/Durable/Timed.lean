import ExpiringCache.Proofs.Durable.Replay
import Mathlib.Data.List.Induction

/-!
# Jobs and the readings at which they are done

Replay with an eye to the ends of rows. The reading of the clock at which a job is done matters only
to rows that the job times: that it records, or gives a TTL (`Job.times`). So the end of a row is
counted from when the last job that timed it was done (`rowAfter_end`).
-/

namespace ExpiringCache

/-! ### Changes that time rows -/

namespace Change

/-- Whether a change sets the end of a key's row: it records the key, or gives it a TTL. -/
def times (change : Change) (key : Bytes) : Bool :=
  match change.kind with
  | .write =>
    match change.keys with
    | first :: _ => decide (key = first) && change.value.isSome
    | [] => false
  | .replaceDuration | .resetDuration => change.keys.contains key
  | .removeKeys | .removeBySimilarity | .removeAll | .replaceValue => false

/-- How long a row lasts from a change that timed it: the TTL of the change or, where there is none,
the TTL the row was written with. -/
def term (change : Change) (row : Row) : Millis := (change.ttl.map Clock.span).getD row.ttl

variable {change : Change} {now : Millis} {key : Bytes} {row : Option Row} {r : Row}

theorem expiresAt_restarted (h : change.restarted now row = some r) :
    r.expiresAt = Clock.held (now + change.term r) := by
  unfold term
  cases row with
  | some row =>
    have hrow : row.restart now change.ttl = r := Option.some.inj h
    subst hrow
    cases change.ttl <;> rfl
  | none =>
    unfold restarted at h
    cases hvalue : change.value with
    | none => simp [hvalue] at h
    | some value =>
      cases httl : change.ttl with
      | none => simp [hvalue, httl] at h
      | some ttl =>
        simp only [hvalue, httl, Option.some.injEq] at h
        subst h
        rfl

/-- The end of a row that a change times is counted from the reading at which it is applied. -/
theorem expiresAt_of_times (htimes : change.times key = true)
    (h : change.effect now key row = some r) :
    r.expiresAt = Clock.held (now + change.term r) := by
  unfold times at htimes
  unfold effect at h
  cases hkind : change.kind with
  | write =>
    rw [hkind] at htimes h
    dsimp only at htimes h
    cases hkeys : change.keys with
    | nil => simp [hkeys] at htimes
    | cons first rest =>
      cases hvalue : change.value with
      | none => simp [hkeys, hvalue] at htimes
      | some value =>
        simp only [hkeys, hvalue, Option.isSome_some, Bool.and_true, decide_eq_true_eq] at htimes h
        rw [if_pos htimes, Option.some.injEq] at h
        subst h
        unfold term
        cases change.ttl <;> rfl
  | replaceDuration | resetDuration =>
    rw [hkind] at htimes h
    have hmem : key ∈ change.keys := List.contains_iff_mem.1 htimes
    exact expiresAt_restarted ((if_pos hmem).symm.trans h)
  | removeKeys | removeBySimilarity | removeAll | replaceValue => simp [hkind] at htimes

/-- A change leaves a row that it does not time with the end and the TTL it had. -/
theorem row_of_not_times (htimes : change.times key = false)
    (h : change.effect now key row = some r) :
    ∃ r₀, row = some r₀ ∧ r₀.ttl = r.ttl ∧ r₀.expiresAt = r.expiresAt := by
  unfold times at htimes
  unfold effect at h
  cases hkind : change.kind with
  | write =>
    rw [hkind] at htimes h
    dsimp only at htimes h
    cases hkeys : change.keys with
    | nil => exact ⟨r, by simpa [hkeys] using h, rfl, rfl⟩
    | cons first rest =>
      cases hvalue : change.value with
      | none => exact ⟨r, by simpa [hkeys, hvalue] using h, rfl, rfl⟩
      | some value =>
        simp only [hkeys, hvalue, Option.isSome_some, Bool.and_true,
          decide_eq_false_iff_not] at htimes h
        rw [if_neg htimes] at h
        exact ⟨r, h, rfl, rfl⟩
  | replaceDuration | resetDuration =>
    rw [hkind] at htimes h
    have hmem : key ∉ change.keys := fun hmem =>
      Bool.false_ne_true (htimes.symm.trans (List.contains_iff_mem.2 hmem))
    exact ⟨r, (if_neg hmem).symm.trans h, rfl, rfl⟩
  | removeKeys | removeBySimilarity =>
    rw [hkind] at h
    obtain ⟨-, hrow⟩ := Option.ite_none_left_eq_some.1 h
    exact ⟨r, hrow, rfl, rfl⟩
  | removeAll => simp [hkind] at h
  | replaceValue =>
    rw [hkind] at h
    dsimp only at h
    cases hvalue : change.value with
    | none => exact ⟨r, by simpa [hvalue] using h, rfl, rfl⟩
    | some value =>
      rw [hvalue] at h
      dsimp only at h
      by_cases hmem : key ∈ change.keys
      · rw [if_pos hmem] at h
        obtain ⟨r₀, hr₀, rfl⟩ := Option.map_eq_some_iff.1 h
        exact ⟨r₀, hr₀, rfl, rfl⟩
      · rw [if_neg hmem] at h
        exact ⟨r, h, rfl, rfl⟩

end Change

/-! ### Jobs that time rows -/

namespace Job

/-- Whether a job sets the end of a key's row. -/
def times (key : Bytes) : Job → Bool
  | .apply change => change.times key
  | .erase _ => false

/-- How long a row lasts from a job that timed it. -/
def term (row : Row) : Job → Millis
  | .apply change => change.term row
  | .erase _ => row.ttl

variable {job : Job} {now : Millis} {key : Bytes} {row : Option Row} {r : Row}

theorem term_congr {r' : Row} (h : r.ttl = r'.ttl) (job : Job) : job.term r = job.term r' := by
  cases job with
  | apply change =>
    unfold term Change.term
    rw [h]
  | erase k => exact h

theorem expiresAt_of_times (htimes : job.times key = true)
    (h : job.effect now key row = some r) : r.expiresAt = Clock.held (now + job.term r) := by
  cases job with
  | apply change => exact Change.expiresAt_of_times htimes h
  | erase k => cases htimes

theorem row_of_not_times (htimes : job.times key = false) (h : job.effect now key row = some r) :
    ∃ r₀, row = some r₀ ∧ r₀.ttl = r.ttl ∧ r₀.expiresAt = r.expiresAt := by
  cases job with
  | apply change => exact Change.row_of_not_times htimes h
  | erase k =>
    obtain ⟨-, hrow⟩ := Option.ite_none_left_eq_some.1 h
    exact ⟨r, hrow, rfl, rfl⟩

end Job

/-! ### Jobs one after another -/

/-- A job for a kind of backend, with the reading at which it was asked for or done. -/
structure TimedJob where
  time : Millis
  kind : BackendKind
  job : Job

/-- A job for a kind of backend, whenever. -/
def TimedJob.untimed (x : TimedJob) : BackendKind × Job := (x.kind, x.job)

/-- Jobs at one reading. -/
def timedAt (now : Millis) (jobs : List (BackendKind × Job)) : List TimedJob :=
  jobs.map fun job => ⟨now, job.1, job.2⟩

@[simp] theorem map_untimed_timedAt (now : Millis) (jobs : List (BackendKind × Job)) :
    (timedAt now jobs).map TimedJob.untimed = jobs := by
  unfold timedAt
  rw [List.map_map]
  exact List.map_id jobs

/-- What a job done at its reading makes of a row of a backend. -/
def TimedJob.rowStep (kind : BackendKind) (key : Bytes) (row : Option Row) (x : TimedJob) :
    Option Row :=
  if x.kind = kind then x.job.effect x.time key row else row

/-- What jobs make of a row of a backend, each done at its reading. -/
def rowAfter (kind : BackendKind) (key : Bytes) (jobs : List TimedJob) (row : Option Row) :
    Option Row :=
  jobs.foldl (TimedJob.rowStep kind key) row

theorem rowAfter_append (kind : BackendKind) (key : Bytes) (xs ys : List TimedJob)
    (row : Option Row) :
    rowAfter kind key (xs ++ ys) row = rowAfter kind key ys (rowAfter kind key xs row) :=
  List.foldl_append

/-- What a row holds does not depend on the readings. -/
theorem content_rowAfter (kind : BackendKind) (key : Bytes) (jobs : List TimedJob) :
    ∀ {jobs' : List TimedJob} {row row' : Option Row},
      jobs.map TimedJob.untimed = jobs'.map TimedJob.untimed →
      row.map Row.content = row'.map Row.content →
      (rowAfter kind key jobs row).map Row.content =
        (rowAfter kind key jobs' row').map Row.content := by
  induction jobs with
  | nil =>
    intro jobs' row row' hsame hcontent
    obtain rfl : jobs' = [] := List.map_eq_nil_iff.1 hsame.symm
    exact hcontent
  | cons x rest ih =>
    intro jobs' row row' hsame hcontent
    obtain ⟨x', rest', rfl, hx, hrest⟩ := List.map_eq_cons_iff.1 hsame.symm
    have hstep : (x.rowStep kind key row).map Row.content =
        (x'.rowStep kind key row').map Row.content := by
      obtain ⟨hkind, hjob⟩ := Prod.mk.inj hx
      unfold TimedJob.rowStep
      rw [hkind, hjob]
      split
      · rw [Job.content_effect, Job.content_effect, hcontent]
      · exact hcontent
    show (rowAfter kind key rest (x.rowStep kind key row)).map Row.content =
      (rowAfter kind key rest' (x'.rowStep kind key row')).map Row.content
    exact ih hrest.symm hstep

/-- Of the jobs the `i`th is the last that times the row, and its reading is `time`. -/
structure LastTimed (kind : BackendKind) (key : Bytes) (jobs : List TimedJob) (i : Nat)
    (time : Millis) (job : Job) : Prop where
  there : jobs[i]? = some ⟨time, kind, job⟩
  times : job.times key = true
  last : ∀ j later, i < j → jobs[j]? = some later → later.kind = kind →
    later.job.times key = false

namespace LastTimed

variable {kind : BackendKind} {key : Bytes} {jobs : List TimedJob} {i : Nat} {time : Millis}
  {job : Job}

/-- There is only one last. -/
theorem unique (h : LastTimed kind key jobs i time job) {i' : Nat} {time' : Millis} {job' : Job}
    (h' : LastTimed kind key jobs i' time' job') : time = time' ∧ job = job' := by
  have hindex : i = i' := by
    rcases Nat.lt_trichotomy i i' with hlt | heq | hgt
    · have hnot := h.last i' _ hlt h'.there rfl
      rw [h'.times] at hnot
      cases hnot
    · exact heq
    · have hnot := h'.last i _ hgt h.there rfl
      rw [h.times] at hnot
      cases hnot
  have hsame := h.there.symm.trans (hindex ▸ h'.there)
  cases hsame
  exact ⟨rfl, rfl⟩

/-- The same jobs at other readings: the same one is the last that times the row. -/
theorem of_same (h : LastTimed kind key jobs i time job) {jobs' : List TimedJob}
    (hsame : jobs'.map TimedJob.untimed = jobs.map TimedJob.untimed) :
    ∃ time', LastTimed kind key jobs' i time' job := by
  have hget : ∀ j : Nat, jobs'[j]?.map TimedJob.untimed = jobs[j]?.map TimedJob.untimed := by
    intro j
    rw [← List.getElem?_map, hsame, List.getElem?_map]
  have hi := hget i
  rw [h.there, Option.map_some] at hi
  obtain ⟨⟨time', k, job'⟩, hthere, huntimed⟩ := Option.map_eq_some_iff.1 hi
  cases huntimed
  refine ⟨time', hthere, h.times, fun j later hlt hlater hkind => ?_⟩
  have hj := hget j
  rw [hlater, Option.map_some] at hj
  obtain ⟨⟨time₀, k₀, job₀⟩, hlater₀, huntimed⟩ := Option.map_eq_some_iff.1 hj.symm
  obtain ⟨rfl, rfl⟩ := Prod.mk.inj huntimed
  exact h.last j ⟨time₀, later.kind, later.job⟩ hlt hlater₀ hkind

/-- One more job, which does not time the row. -/
theorem append (h : LastTimed kind key jobs i time job) {next : TimedJob}
    (hnext : next.kind = kind → next.job.times key = false) :
    LastTimed kind key (jobs ++ [next]) i time job := by
  have hlt : i < jobs.length := (List.getElem?_eq_some_iff.1 h.there).1
  refine ⟨?_, h.times, fun j later hij hlater hkind => ?_⟩
  · rw [List.getElem?_append_left hlt]
    exact h.there
  · by_cases hj : j < jobs.length
    · rw [List.getElem?_append_left hj] at hlater
      exact h.last j later hij hlater hkind
    · rw [List.getElem?_append_right (Nat.not_lt.1 hj)] at hlater
      obtain rfl : next = later := List.mem_singleton.1 (List.mem_of_getElem? hlater) |>.symm
      exact hnext hkind

/-- One more job, which times the row. -/
theorem append_self (hjob : job.times key = true) (jobs : List TimedJob) :
    LastTimed kind key (jobs ++ [⟨time, kind, job⟩]) jobs.length time job := by
  refine ⟨List.getElem?_concat_length, hjob, fun j later hlt hlater => ?_⟩
  have hj := (List.getElem?_eq_some_iff.1 hlater).1
  rw [List.length_append, List.length_singleton] at hj
  exact absurd hlt (Nat.not_lt.2 (Nat.le_of_lt_succ hj))

end LastTimed

/-- A row that jobs have made ends by the last job that timed it, counted from when it was done. -/
theorem rowAfter_end {kind : BackendKind} {key : Bytes} (jobs : List TimedJob) : ∀ {r : Row},
    rowAfter kind key jobs none = some r →
      ∃ i time job, LastTimed kind key jobs i time job ∧
        r.expiresAt = Clock.held (time + job.term r) := by
  -- By induction from the back: what a job does not time was made by the jobs before it.
  induction jobs using List.reverseRecOn with
  | nil =>
    intro r h
    cases h
  | append_singleton jobs next ih =>
    intro r h
    obtain ⟨now, k, job⟩ := next
    rw [rowAfter_append] at h
    have hstep : TimedJob.rowStep kind key (rowAfter kind key jobs none) ⟨now, k, job⟩ = some r := h
    by_cases hk : k = kind
    · subst hk
      have heffect : job.effect now key (rowAfter k key jobs none) = some r := by
        rwa [TimedJob.rowStep, if_pos rfl] at hstep
      cases htimes : job.times key with
      | true =>
        exact ⟨jobs.length, now, job, .append_self htimes jobs,
          Job.expiresAt_of_times htimes heffect⟩
      | false =>
        obtain ⟨r₀, hr₀, httl, hend⟩ := Job.row_of_not_times htimes heffect
        obtain ⟨i, time, job', hlast, hend'⟩ := ih hr₀
        refine ⟨i, time, job', hlast.append fun _ => htimes, ?_⟩
        rw [← hend, hend', Job.term_congr httl]
    · rw [TimedJob.rowStep, if_neg hk] at hstep
      obtain ⟨i, time, job', hlast, hend⟩ := ih hstep
      exact ⟨i, time, job', hlast.append fun hkind => absurd hkind hk, hend⟩

/-! ### What backends have done -/

namespace Backing

/-- One durable side is what another one is after some jobs, which its backends have done, each at
its reading. -/
structure DidAt (before : Backing) (jobs : List TimedJob) (b : Backing) : Prop where
  sound : ∀ kind, b.Sound kind
  has : ∀ kind, b.has kind = before.has kind
  row : ∀ kind key, b.row? kind key = rowAfter kind key jobs (before.row? kind key)
  done : b.done = before.done ++ jobs.map TimedJob.untimed

namespace DidAt

variable {before b b' : Backing} {jobs later : List TimedJob}

theorem refl (h : ∀ kind, b.Sound kind) : b.DidAt [] b :=
  ⟨h, fun _ => rfl, fun _ _ => rfl, (List.append_nil _).symm⟩

theorem trans (h : before.DidAt jobs b) (h' : b.DidAt later b') :
    before.DidAt (jobs ++ later) b' where
  sound := h'.sound
  has kind := (h'.has kind).trans (h.has kind)
  row kind key := by rw [h'.row, h.row, rowAfter_append]
  done := by rw [h'.done, h.done, List.map_append, List.append_assoc]

/-- The worker and the rest of the journal do not matter. -/
theorem of_same (h : ∀ kind, b.Sound kind) {worker : Worker} {journal : List Event}
    (hjournal : journal.filterMap Event.job? = b.done) :
    b.DidAt [] { b with worker := worker, journal := journal } where
  sound kind := ⟨(h kind).outage, (h kind).ahead, (h kind).reliable⟩
  has _ := rfl
  row _ _ := rfl
  done := hjournal.trans (List.append_nil _).symm

/-- A job is done if there is a backend for it. -/
theorem perform (h : ∀ kind, b.Sound kind) (now : Millis) (kind : BackendKind) (job : Job) :
    b.DidAt (timedAt now (if b.has kind then [(kind, job)] else []))
      (b.perform now kind job).2 where
  sound k := (h k).perform now kind job
  has k := b.has_perform now kind job k
  row k key := by
    cases hhas : b.has kind with
    | true =>
      show _ = TimedJob.rowStep k key (b.row? k key) ⟨now, kind, job⟩
      unfold TimedJob.rowStep
      by_cases hk : kind = k
      · subst hk
        rw [if_pos rfl, row?_perform (h kind) hhas]
      · rw [if_neg hk, row?_perform_of_ne b now job (Ne.symm hk)]
    | false =>
      have hfind : b.registry.find? kind = none := by
        rwa [Backing.has, Option.isSome_eq_false_iff, Option.isNone_iff_eq_none] at hhas
      rw [perform_of_missing hfind]
      rfl
  done := by
    rw [done_perform (h kind), map_untimed_timedAt]

end DidAt

end Backing

end ExpiringCache
