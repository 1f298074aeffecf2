import ExpiringCache.Proofs.Durable.Backing

/-!
# Jobs done one after another

A durable side whose backends never fail, after some jobs: which rows there are, with which value
and which TTL, depends on the jobs and their order alone, and not on the readings of the clock at
which they were done (`Backing.Did`, `Backing.Did.performAll`). The ends of rows do depend on those
readings.
-/

namespace ExpiringCache

namespace Backing

/-- The content of a key's row in the backend of a kind: its value and its TTL. -/
def content (b : Backing) (kind : BackendKind) (key : Bytes) : Option (Bytes × Millis) :=
  (b.row? kind key).map Row.content

/-- What a job makes of the content of a key, if there is a backend to do it. -/
def contentStep (b : Backing) (kind : BackendKind) (key : Bytes)
    (content : Option (Bytes × Millis)) (job : BackendKind × Job) : Option (Bytes × Millis) :=
  if job.1 = kind ∧ b.has kind = true then job.2.contentEffect key content else content

/-- The content of a key after some jobs. -/
def contentAfter (b : Backing) (jobs : List (BackendKind × Job)) (kind : BackendKind)
    (key : Bytes) : Option (Bytes × Millis) :=
  jobs.foldl (b.contentStep kind key) (b.content kind key)

/-- Does jobs at once, one after another, each at a reading of the clock of its own. -/
def performAll (b : Backing) (steps : List (Millis × BackendKind × Job)) : Backing :=
  steps.foldl (fun b step => (b.perform step.1 step.2.1 step.2.2).2) b

/-- One durable side is what another one is after some jobs, up to the ends of rows. -/
structure Did (before : Backing) (jobs : List (BackendKind × Job)) (b : Backing) : Prop where
  sound : ∀ kind, b.Sound kind
  has : ∀ kind, b.has kind = before.has kind
  content : ∀ kind key, b.content kind key = before.contentAfter jobs kind key
  /-- Each job that there is a backend for is noted once, in the order of the jobs. -/
  done : b.done = before.done ++ jobs.filter fun job => before.has job.1

/-! ### One job -/

theorem content_perform {b : Backing} {kind : BackendKind} (h : b.Sound kind) (now : Millis)
    (job : BackendKind × Job) (key : Bytes) :
    (b.perform now job.1 job.2).2.content kind key =
      b.contentStep kind key (b.content kind key) job := by
  obtain ⟨k, job⟩ := job
  show _ = if k = kind ∧ b.has kind = true then _ else _
  by_cases hk : k = kind
  · subst hk
    cases hhas : b.has k with
    | true =>
      rw [if_pos ⟨rfl, rfl⟩]
      unfold content
      rw [row?_perform h hhas, job.content_effect]
    | false =>
      -- A job without a backend is dropped.
      have hfind : b.registry.find? k = none := by
        rwa [Backing.has, Option.isSome_eq_false_iff, Option.isNone_iff_eq_none] at hhas
      rw [if_neg (fun hboth => Bool.false_ne_true hboth.2), perform_of_missing hfind]
  · rw [if_neg fun hboth => hk hboth.1]
    unfold content
    rw [row?_perform_of_ne b now job (Ne.symm hk)]

namespace Did

variable {before b : Backing} {jobs : List (BackendKind × Job)}

theorem nil (h : ∀ kind, before.Sound kind) : Did before [] before :=
  ⟨h, fun _ => rfl, fun _ _ => rfl, (List.append_nil _).symm⟩

/-- Doing one more job. -/
theorem perform (h : Did before jobs b) (now : Millis) (job : BackendKind × Job) :
    Did before (jobs ++ [job]) (b.perform now job.1 job.2).2 where
  sound kind := (h.sound kind).perform now job.1 job.2
  has kind := (b.has_perform now job.1 job.2 kind).trans (h.has kind)
  content kind key := by
    have hstep : b.contentStep kind key = before.contentStep kind key := by
      unfold contentStep
      rw [h.has kind]
    rw [content_perform (h.sound kind), h.content kind key, hstep]
    unfold contentAfter
    rw [List.foldl_append]
    rfl
  done := by
    rw [done_perform (h.sound job.1), h.done, h.has job.1, List.filter_append, List.append_assoc]
    cases hhas : before.has job.1 <;> simp [hhas]

/-- The worker and the rest of the journal do not matter. -/
theorem of_same (h : Did before jobs b) {worker : Worker} {journal : List Event}
    (hjournal : journal.filterMap Event.job? = b.done) :
    Did before jobs { b with worker := worker, journal := journal } :=
  ⟨fun kind => ⟨(h.sound kind).outage, (h.sound kind).ahead, (h.sound kind).reliable⟩,
    h.has, h.content, hjournal.trans h.done⟩

theorem of_worker (h : Did before jobs b) (worker : Worker) :
    Did before jobs { b with worker := worker } :=
  h.of_same rfl

/-! ### Many jobs -/

/-- Doing jobs at any readings. -/
theorem performAll (steps : List (Millis × BackendKind × Job)) :
    ∀ {b : Backing} {jobs : List (BackendKind × Job)}, Did before jobs b →
      Did before (jobs ++ steps.map (·.2)) (b.performAll steps) := by
  induction steps with
  | nil =>
    intro b jobs h
    rw [List.map_nil, List.append_nil]
    exact h
  | cons step rest ih =>
    intro b jobs h
    have hrest := ih (h.perform step.1 step.2)
    rwa [List.append_assoc] at hrest

end Did

end Backing

end ExpiringCache
