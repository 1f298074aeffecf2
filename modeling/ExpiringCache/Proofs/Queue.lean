import ExpiringCache.Proofs.Durable.Replay
import ExpiringCache.Proofs.Session

/-!
# A worker before the backends

With a worker, jobs are done later than the calls that ask for them: between calls, or while a call
is still about to hand over more of them (`Scene.step`). Callers are answered as if everything were
done at once; rows come into being, change and go in the same order; and when the worker has nothing
left to do, they are what they would have been at once, up to their ends, which follow the readings
at which the jobs were done (`Scene.queued_as_inline`).

* The jobs of a run that calls have handed over are the jobs that were done, followed by those the
  worker has (`Backing.Handed`). Every errand and every step of the worker keeps that.
* Whether a job is done by the worker or at once, it is done once.
-/

namespace ExpiringCache

/-- The jobs of a worker, oldest first. -/
def Worker.pending : Worker → List (BackendKind × Job)
  | .running jobs => jobs
  | .absent | .stopped => []

/-! ### Jobs handed over -/

namespace Backing

/-- The worker takes its oldest job and leaves the others. -/
theorem pending_workOne (b : Backing) (now : Millis) :
    (b.workOne now).worker.pending = b.worker.pending.tail := by
  unfold Backing.workOne
  split
  · next kind job rest hworker =>
    rw [worker_perform, hworker]
    rfl
  · next hother =>
    cases hworker : b.worker with
    | absent => rfl
    | stopped => rfl
    | running pending =>
      cases pending with
      | nil => rfl
      | cons job rest => exact absurd hworker (hother job.1 job.2 rest)

/-- Of the jobs handed over, the worker has the last ones, and the others were done. -/
def Handed (before : Backing) (jobs : List (BackendKind × Job)) (b : Backing) : Prop :=
  ∃ done, before.Did done b ∧ jobs = done ++ b.worker.pending

namespace Handed

variable {before b : Backing} {jobs : List (BackendKind × Job)}

/-- A job that is delivered is the last of those handed over. -/
theorem deliver (h : before.Handed jobs b) (now : Millis) (kind : BackendKind) (job : Job) :
    before.Handed (jobs ++ [(kind, job)]) (b.deliver now kind job).2 := by
  obtain ⟨done, hdid, hjobs⟩ := h
  cases hworker : b.worker with
  | running pending =>
    rw [deliver_running hworker]
    refine ⟨done, hdid.of_worker _, ?_⟩
    rw [hjobs, hworker, List.append_assoc]
    rfl
  | absent | stopped =>
    rw [deliver_inline (by rw [hworker]; rfl)]
    refine ⟨done ++ [(kind, job)], hdid.perform now (kind, job), ?_⟩
    rw [worker_perform, hjobs, hworker]
    simp [Worker.pending]

theorem carryOut (h : before.Handed jobs b) (listeners : List ExpirationListener) (now : Millis)
    (errand : Errand) :
    before.Handed (jobs ++ errand.job?.toList) (b.carryOut listeners now errand) := by
  cases errand with
  | tell m =>
    obtain ⟨done, hdid, hjobs⟩ := h
    obtain ⟨journal, heq, hjournal⟩ := b.tell_inv listeners m
    show before.Handed (jobs ++ []) (b.tell listeners m).2
    rw [heq, List.append_nil]
    exact ⟨done, hdid.of_same hjournal, hjobs⟩
  | hand kind job => exact h.deliver now kind job

theorem carryOutAll (listeners : List ExpirationListener) (now : Millis) (errands : List Errand) :
    ∀ {b : Backing} {jobs : List (BackendKind × Job)}, before.Handed jobs b →
      before.Handed (jobs ++ errands.filterMap Errand.job?)
        (b.carryOutAll listeners now errands) := by
  induction errands with
  | nil =>
    intro b jobs h
    rw [List.filterMap_nil, List.append_nil]
    exact h
  | cons errand rest ih =>
    intro b jobs h
    have hrest := ih (h.carryOut listeners now errand)
    have hjobs : (errand :: rest).filterMap Errand.job? =
        errand.job?.toList ++ rest.filterMap Errand.job? := by
      rw [List.filterMap_cons]
      cases errand.job? <;> rfl
    rwa [hjobs, ← List.append_assoc]

/-- A job that the worker does was the next one. -/
theorem workOne (h : before.Handed jobs b) (now : Millis) :
    before.Handed jobs (b.workOne now) := by
  obtain ⟨done, hdid, hjobs⟩ := h
  unfold Backing.workOne
  split
  · next kind job rest hworker =>
    refine ⟨done ++ [(kind, job)], (hdid.of_worker _).perform now (kind, job), ?_⟩
    rw [worker_perform, hjobs, hworker, List.append_assoc]
    rfl
  · exact ⟨done, hdid, hjobs⟩

/-- A worker without jobs can be replaced by another one without jobs. -/
theorem of_worker (h : before.Handed jobs b) {worker : Worker} (hb : b.worker.pending = [])
    (hworker : worker.pending = []) : before.Handed jobs { b with worker := worker } := by
  obtain ⟨done, hdid, hjobs⟩ := h
  refine ⟨done, hdid.of_worker worker, ?_⟩
  rw [hjobs, hb]
  show done ++ [] = done ++ worker.pending
  rw [hworker]

end Handed

/-- Without a running worker there will be none. -/
theorem carryOutAll_idle (listeners : List ExpirationListener) (now : Millis)
    (errands : List Errand) : ∀ {b : Backing}, b.worker.isRunning = false →
      (b.carryOutAll listeners now errands).worker.isRunning = false := by
  induction errands with
  | nil => exact fun h => h
  | cons errand rest ih =>
    intro b h
    refine ih ?_
    cases errand with
    | tell m =>
      obtain ⟨journal, heq, -⟩ := b.tell_inv listeners m
      unfold carryOut
      dsimp only
      rw [heq]
      exact h
    | hand kind job =>
      unfold carryOut
      dsimp only
      rw [deliver_inline h, worker_perform]
      exact h

end Backing

/-! ### Scenes -/

/-- A cache at work. -/
structure Scene where
  cache : Cache
  /-- What the last call is still to ask of the durable side. -/
  agenda : List Errand := []
  replies : List Reply := []

/-- What happens next. -/
inductive Move where
  /-- The last call is over, and the next one is made. -/
  | request (asked : Request)
  /-- The call under way goes on by an errand. -/
  | proceed
  /-- The worker does its oldest job. -/
  | work
  /-- The worker stops, unless it has jobs. -/
  | stop

/-- The requests among moves. -/
def requests (moves : List (Millis × Move)) : List (Millis × Request) :=
  moves.filterMap fun move =>
    match move.2 with
    | .request asked => some (move.1, asked)
    | .proceed | .work | .stop => none

namespace Scene

/-- The cache when the call under way is over. -/
def finish (s : Scene) (now : Millis) : Cache :=
  s.cache.take now ⟨s.cache.store, s.agenda⟩

/-- The scene after a move. -/
def step (s : Scene) (now : Millis) : Move → Scene
  | .request asked =>
    let c := s.finish now
    let course := c.requestCourse now asked
    { cache := { c with store := course.store }
      agenda := course.errands
      replies := s.replies ++ [(c.serve now asked).1] }
  | .proceed =>
    match s.agenda with
    | [] => s
    | errand :: rest =>
      { s with
        cache := s.cache.take now ⟨s.cache.store, [errand]⟩
        agenda := rest }
  | .work => { s with cache := { s.cache with backing := s.cache.backing.workOne now } }
  | .stop =>
    match s.cache.backing.worker with
    | .running [] => { s with cache := { s.cache with backing := s.cache.backing.stop.2 } }
    | _ => s

/-- The scene after moves. -/
def run (s : Scene) (moves : List (Millis × Move)) : Scene :=
  moves.foldl (fun s move => s.step move.1 move.2) s

/-- A call that is not interrupted does what it does. -/
theorem finish_request (c : Cache) (now : Millis) (asked : Request) :
    (Scene.step { cache := c } now (.request asked)).finish now = (c.serve now asked).2 := by
  rw [Cache.serve_eq]
  rfl

end Scene

/-! ### A scene and the same requests without a worker -/

/-- A cache as it would be without a worker. -/
def Cache.inline (c : Cache) : Cache :=
  { c with backing := { c.backing with worker := .absent } }

namespace Scene

/-- A scene beside a durable side that has done all jobs at once, of a cache like that of the scene:
what is handed over in the scene is all but what is still to be asked for. -/
structure Behind (before : Backing) (jobs : List (BackendKind × Job)) (s : Scene) (b : Backing) :
    Prop where
  idle : b.worker.isRunning = false
  all : before.Handed jobs b
  handed : ∃ handed, jobs = handed ++ s.agenda.filterMap Errand.job? ∧
    before.Handed handed s.cache.backing

variable {before b : Backing} {jobs : List (BackendKind × Job)} {s : Scene}

theorem Behind.did (h : Behind before jobs s b) : before.Did jobs b := by
  obtain ⟨done, hdid, hjobs⟩ := h.all
  have hpending : b.worker.pending = [] := by
    have hidle := h.idle
    cases hworker : b.worker with
    | running pending => rw [hworker] at hidle; cases hidle
    | absent => rfl
    | stopped => rfl
  rw [hjobs, hpending, List.append_nil]
  exact hdid

/-- The next call: it is answered as without a worker, and its jobs come next. -/
theorem Behind.request (h : Behind before jobs s b) (now : Millis) (asked : Request) :
    let inline := { s.cache with backing := b }
    let s' := s.step now (.request asked)
    ∃ b', (inline.serve now asked).2 = { s'.cache with backing := b' } ∧
      s'.replies = s.replies ++ [(inline.serve now asked).1] ∧
      Behind before (jobs ++ (inline.requestCourse now asked).jobs) s' b' := by
  intro inline s'
  have hserve := Cache.serve_eq inline now asked
  refine ⟨(inline.serve now asked).2.backing, ?_, ?_, ?_⟩
  · rw [hserve]
    rfl
  · rw [hserve]
    show s.replies ++ [((s.finish now).serve now asked).1] = _
    rw [Cache.serve_eq]
    rfl
  · obtain ⟨handed, hjobs, hhanded⟩ := h.handed
    rw [hserve]
    exact ⟨Backing.carryOutAll_idle _ _ _ h.idle, h.all.carryOutAll _ _ _, jobs, rfl,
      by rw [hjobs]; exact hhanded.carryOutAll _ _ _⟩

/-- Any other move changes neither the requests nor their replies. -/
theorem Behind.step (h : Behind before jobs s b) (now : Millis) (move : Move)
    (hmove : ∀ asked, move ≠ .request asked) :
    { (s.step now move).cache with backing := b } = { s.cache with backing := b } ∧
      (s.step now move).replies = s.replies ∧ Behind before jobs (s.step now move) b := by
  obtain ⟨handed, hjobs, hhanded⟩ := h.handed
  cases move with
  | request asked => exact absurd rfl (hmove asked)
  | proceed =>
    unfold Scene.step
    dsimp only
    split
    · exact ⟨rfl, rfl, h⟩
    · next errand rest hagenda =>
      refine ⟨rfl, rfl, h.idle, h.all, handed ++ errand.job?.toList, ?_, hhanded.carryOut _ _ _⟩
      rw [hjobs, hagenda, List.filterMap_cons]
      cases errand.job? <;> simp
  | work => exact ⟨rfl, rfl, h.idle, h.all, handed, hjobs, hhanded.workOne now⟩
  | stop =>
    unfold Scene.step
    dsimp only
    split
    · next hworker =>
      have hstop : s.cache.backing.stop.2 = { s.cache.backing with worker := .stopped } := by
        unfold Backing.stop
        rw [hworker]
      refine ⟨rfl, rfl, h.idle, h.all, handed, hjobs, ?_⟩
      rw [hstop]
      exact hhanded.of_worker (by rw [hworker]; rfl) rfl
    · exact ⟨rfl, rfl, h⟩

/-- A whole run beside its requests, served without a worker. -/
theorem Behind.run (moves : List (Millis × Move)) :
    ∀ {jobs : List (BackendKind × Job)} {s : Scene} {b : Backing}, Behind before jobs s b →
      let inline := { s.cache with backing := b }
      let served := inline.serveAll (requests moves)
      ∃ b', served.2 = { (s.run moves).cache with backing := b' } ∧
        (s.run moves).replies = s.replies ++ served.1 ∧
        Behind before (jobs ++ inline.jobs (requests moves)) (s.run moves) b' := by
  -- By induction on the moves, for any jobs so far: requests add to them, and other moves do not.
  induction moves with
  | nil =>
    intro jobs s b h
    refine ⟨b, rfl, (List.append_nil _).symm, ?_⟩
    show Behind before (jobs ++ []) s b
    rw [List.append_nil]
    exact h
  | cons move rest ih =>
    intro jobs s b h
    obtain ⟨now, move⟩ := move
    have hstep := h.step now move
    cases move with
    | request asked =>
      obtain ⟨b₁, hcache, hreplies, hbehind⟩ := h.request now asked
      obtain ⟨b₂, hcache', hreplies', hbehind'⟩ := ih hbehind
      rw [← hcache] at hcache' hreplies' hbehind'
      refine ⟨b₂, hcache', ?_, ?_⟩
      · show ((s.step now (.request asked)).run rest).replies = _
        rw [hreplies', hreplies, List.append_assoc]
        rfl
      · rw [List.append_assoc] at hbehind'
        exact hbehind'
    | proceed | work | stop =>
      obtain ⟨hcache, hreplies, hbehind⟩ := hstep (by nofun)
      have hrest := ih hbehind
      rw [hcache, hreplies] at hrest
      exact hrest

/-- **A worker is not seen, and does what would be done at once.** Take a cache whose worker has
nothing to do and whose backends never fail, and any run: calls, steps of the worker in between and
while a call is under way, each at any reading of the clock, and the worker may stop when it has
nothing to do. Then callers are answered as without a worker, and the store is the same. Of the jobs
that the calls hand to backends without a worker, in order, some were done, then come those the
worker has, of which each of its steps takes the first, then those the call under way is still to
hand over; and keys, values and TTLs in every backend are what the jobs that were done make of them
at once, at whatever readings. When all were done, they are what they are without a worker. Each job
was done once, also if it was done at once because the worker had stopped. -/
theorem queued_as_inline (c : Cache) (hworker : c.backing.worker = .running [])
    (hsound : ∀ kind, c.backing.Sound kind) (moves : List (Millis × Move)) :
    let s := Scene.run { cache := c } moves
    let inline := c.inline.serveAll (requests moves)
    let jobs := c.inline.jobs (requests moves)
    s.replies = inline.1 ∧ s.cache.store = inline.2.store ∧
      ∃ done,
        jobs = done ++ s.cache.backing.worker.pending ++ s.agenda.filterMap Errand.job? ∧
        (∀ now, (s.step now .work).cache.backing.worker.pending =
          s.cache.backing.worker.pending.tail) ∧
        (∀ steps : List (Millis × BackendKind × Job), steps.map (·.2) = done → ∀ kind key,
          s.cache.backing.content kind key =
            (c.backing.performAll steps).content kind key) ∧
        (s.cache.backing.worker.pending = [] → s.agenda = [] → ∀ kind key,
          s.cache.backing.content kind key = inline.2.backing.content kind key) ∧
        s.cache.backing.done =
          c.backing.done ++ done.filter (fun job => c.backing.has job.1) ∧
        (s.cache.backing.worker = .stopped → s.agenda = [] →
          s.cache.backing.done =
            c.backing.done ++ jobs.filter fun job => c.backing.has job.1) := by
  intro s inline jobs
  -- At the start nothing was handed over.
  have hnil : c.backing.Did [] c.backing := .nil hsound
  have hstart : Behind c.backing [] { cache := c } c.inline.backing :=
    ⟨rfl, ⟨[], hnil.of_worker .absent, rfl⟩, [], rfl, [], hnil, by rw [hworker]; rfl⟩
  obtain ⟨b, hcache, hreplies, hbehind⟩ := Behind.run moves hstart
  have hinline : inline.2 = { s.cache with backing := b } := hcache
  have hall : c.backing.Did jobs b := hbehind.did
  obtain ⟨handed, hjobs, done, hdid, hpending⟩ := hbehind.handed
  have hjobs' : jobs =
      done ++ s.cache.backing.worker.pending ++ s.agenda.filterMap Errand.job? := by
    rw [← hpending]
    exact hjobs
  refine ⟨hreplies, by rw [hinline], done, hjobs', s.cache.backing.pending_workOne, ?_, ?_,
    hdid.done, ?_⟩
  · intro steps hsteps kind key
    have hsteps' : c.backing.Did done (c.backing.performAll steps) := by
      rw [← hsteps]
      exact Backing.Did.performAll steps hnil
    rw [hdid.content kind key, hsteps'.content kind key]
  · intro hdrained hagenda kind key
    have hdone : jobs = done := by
      rw [hjobs', hdrained, hagenda]
      simp
    rw [hinline, hdid.content kind key, ← hdone, hall.content kind key]
  · intro hstopped hagenda
    have hdone : jobs = done := by
      rw [hjobs', hstopped, hagenda]
      simp [Worker.pending]
    rw [hdid.done, hdone]

/-- Two keys are written, and the worker comes in between the second call and its job. The worker
stops when it has done both, so the key that is deleted then is erased at once. -/
theorem queued_as_inline_stopped :
    let c := Cache.new { persistent := true } {}
      { registry := { memory := some (.memory .empty) }, worker := .running [] }
    let moves : List (Millis × Move) :=
      [(0, .request (.call (.setWithTtl "a" (.str "v") (.ofSeconds 60)))), (0, .proceed),
        (0, .request (.call (.setWithTtl "b" (.int 7) (.ofSeconds 90)))), (500, .work),
        (0, .proceed), (700, .work), (700, .stop),
        (900, .request (.call (.delete ["a"]))), (900, .proceed)]
    let s := Scene.run { cache := c } moves
    let inline := c.inline.serveAll (requests moves)
    s.cache.backing.worker = .stopped ∧ s.replies = inline.1 ∧
      (∀ kind key, s.cache.backing.content kind key = inline.2.backing.content kind key) ∧
      s.cache.backing.done.length = 3 ∧
      s.cache.backing.done = c.backing.done ++
        (c.inline.jobs (requests moves)).filter fun job => c.backing.has job.1 := by
  intro c moves
  have hsound : ∀ kind, c.backing.Sound kind := by
    intro kind
    refine ⟨rfl, rfl, fun backend hbackend => ?_⟩
    cases kind with
    | memory => cases hbackend; trivial
    | file => cases hbackend
  obtain ⟨hreplies, -, done, -, -, -, hcontent, -, hdone⟩ :=
    queued_as_inline c rfl hsound moves
  have hstopped : (Scene.run { cache := c } moves).cache.backing.worker = .stopped := by
    decide +kernel
  have hagenda : (Scene.run { cache := c } moves).agenda = [] :=
    List.isEmpty_iff.1 (by decide +kernel)
  refine ⟨hstopped, hreplies, hcontent ?_ hagenda, by decide +kernel, hdone hstopped hagenda⟩
  rw [hstopped]
  rfl

end Scene

end ExpiringCache
