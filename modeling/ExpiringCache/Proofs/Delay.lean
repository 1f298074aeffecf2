import ExpiringCache.Proofs.Durable.Timed
import ExpiringCache.Proofs.Mirror.Session
import ExpiringCache.Proofs.Queue

/-!
# Jobs done late

A job says how long a row is to last, and not from when: that is up to the reading of the clock at
which the job is done. So with a worker a row ends later than its entry by as much as the worker was
late with the last job that timed the row (`Scene.queued_rows_end_late`).
-/

namespace ExpiringCache

/-! ### What is done at one reading -/

namespace Backing

/-- One durable side comes from another by jobs done at one reading. -/
def Works (now : Millis) (b b' : Backing) : Prop :=
  ∃ jobs, b.DidAt (timedAt now jobs) b'

variable {now : Millis} {b b' b'' : Backing}

theorem Works.refl (h : ∀ kind, b.Sound kind) : b.Works now b := ⟨[], .refl h⟩

theorem Works.sound (h : b.Works now b') (kind : BackendKind) : b'.Sound kind := by
  obtain ⟨jobs, hdid⟩ := h
  exact hdid.sound kind

theorem Works.trans (h : b.Works now b') (h' : b'.Works now b'') : b.Works now b'' := by
  obtain ⟨xs, hxs⟩ := h
  obtain ⟨ys, hys⟩ := h'
  refine ⟨xs ++ ys, ?_⟩
  rw [timedAt, List.map_append]
  exact hxs.trans hys

theorem Works.of_same (h : ∀ kind, b.Sound kind) {worker : Worker} {journal : List Event}
    (hjournal : journal.filterMap Event.job? = b.done) :
    b.Works now { b with worker := worker, journal := journal } :=
  ⟨[], .of_same h hjournal⟩

theorem works_perform (h : ∀ kind, b.Sound kind) (kind : BackendKind) (job : Job) :
    b.Works now (b.perform now kind job).2 :=
  ⟨_, .perform h now kind job⟩

theorem works_deliver (h : ∀ kind, b.Sound kind) (kind : BackendKind) (job : Job) :
    b.Works now (b.deliver now kind job).2 := by
  cases hworker : b.worker with
  | running pending =>
    rw [deliver_running hworker]
    exact .of_same h rfl
  | absent | stopped =>
    rw [deliver_inline (by rw [hworker]; rfl)]
    exact works_perform h kind job

theorem works_carryOut (h : ∀ kind, b.Sound kind) (listeners : List ExpirationListener)
    (errand : Errand) : b.Works now (b.carryOut listeners now errand) := by
  cases errand with
  | tell m =>
    obtain ⟨journal, heq, hjournal⟩ := b.tell_inv listeners m
    show b.Works now (b.tell listeners m).2
    rw [heq]
    exact .of_same h hjournal
  | hand kind job => exact works_deliver h kind job

theorem works_carryOutAll (listeners : List ExpirationListener) (errands : List Errand) :
    ∀ {b : Backing}, (∀ kind, b.Sound kind) →
      b.Works now (b.carryOutAll listeners now errands) := by
  induction errands with
  | nil => exact fun h => .refl h
  | cons errand rest ih =>
    intro b h
    have hfirst : b.Works now (b.carryOut listeners now errand) := works_carryOut h listeners errand
    exact hfirst.trans (ih hfirst.sound)

theorem works_workOne (h : ∀ kind, b.Sound kind) : b.Works now (b.workOne now) := by
  unfold workOne
  split
  · next kind job rest hworker =>
    have htaken : b.Works now { b with worker := .running rest } := .of_same h rfl
    exact htaken.trans (works_perform htaken.sound kind job)
  · exact .refl h

end Backing

namespace Scene

/-- A move has jobs done at its reading and at no other. -/
theorem works_step {s : Scene} (h : ∀ kind, s.cache.backing.Sound kind) (now : Millis)
    (move : Move) : s.cache.backing.Works now (s.step now move).cache.backing := by
  cases move with
  | request asked => exact Backing.works_carryOutAll _ s.agenda h
  | proceed =>
    unfold Scene.step
    dsimp only
    split
    · exact .refl h
    · next errand rest hagenda => exact Backing.works_carryOutAll _ [errand] h
  | work => exact Backing.works_workOne h
  | stop =>
    unfold Scene.step
    dsimp only
    split
    · next hworker =>
      have hstop : s.cache.backing.stop.2 = { s.cache.backing with worker := .stopped } := by
        unfold Backing.stop
        rw [hworker]
      dsimp only
      rw [hstop]
      exact .of_same h rfl
    · exact .refl h

/-- The jobs that backends have done in a move. -/
def doneIn (s : Scene) (now : Millis) (move : Move) : List (BackendKind × Job) :=
  (s.step now move).cache.backing.done.drop s.cache.backing.done.length

/-- The jobs that backends have done in a run, each with its reading. -/
def log (s : Scene) : List (Millis × Move) → List TimedJob
  | [] => []
  | move :: rest => timedAt move.1 (s.doneIn move.1 move.2) ++ (s.step move.1 move.2).log rest

theorem didAt_step {s : Scene} (h : ∀ kind, s.cache.backing.Sound kind) (now : Millis)
    (move : Move) :
    s.cache.backing.DidAt (timedAt now (s.doneIn now move)) (s.step now move).cache.backing := by
  obtain ⟨jobs, hdid⟩ := works_step h now move
  have hjobs : s.doneIn now move = jobs := by
    rw [doneIn, hdid.done, map_untimed_timedAt, List.drop_left]
  rw [hjobs]
  exact hdid

/-- Backends have done in a run what the log says. -/
theorem didAt_log (moves : List (Millis × Move)) : ∀ {s : Scene},
    (∀ kind, s.cache.backing.Sound kind) →
      s.cache.backing.DidAt (s.log moves) (s.run moves).cache.backing := by
  induction moves with
  | nil => exact fun h => .refl h
  | cons move rest ih =>
    intro s h
    have hstep := didAt_step h move.1 move.2
    exact hstep.trans (ih hstep.sound)

theorem log_append (xs ys : List (Millis × Move)) : ∀ s : Scene,
    s.log (xs ++ ys) = s.log xs ++ (s.run xs).log ys := by
  induction xs with
  | nil => exact fun _ => rfl
  | cons move rest ih =>
    intro s
    rw [List.cons_append, log, log, ih, List.append_assoc]
    rfl

end Scene

/-! ### What is asked for -/

namespace Cache

/-- The jobs that requests hand to backends, each with the reading of its request. -/
def asked : Cache → List (Millis × Request) → List TimedJob
  | _, [] => []
  | c, first :: rest =>
    timedAt first.1 (c.requestCourse first.1 first.2).jobs ++
      (c.serve first.1 first.2).2.asked rest

theorem map_untimed_asked (requests : List (Millis × Request)) : ∀ c : Cache,
    (c.asked requests).map TimedJob.untimed = c.jobs requests := by
  induction requests with
  | nil => exact fun _ => rfl
  | cons first rest ih =>
    intro c
    rw [asked, jobs, List.map_append, map_untimed_timedAt, ih]

theorem asked_append (xs ys : List (Millis × Request)) : ∀ c : Cache,
    c.asked (xs ++ ys) = c.asked xs ++ (c.serveAll xs).2.asked ys := by
  induction xs with
  | nil => exact fun _ => rfl
  | cons first rest ih =>
    intro c
    rw [List.cons_append, asked, asked, ih, List.append_assoc]
    rfl

/-- A job is asked for at the reading of a request. -/
theorem time_of_mem_asked (requests : List (Millis × Request)) : ∀ {c : Cache} {x : TimedJob},
    x ∈ c.asked requests → ∃ first ∈ requests, first.1 = x.time := by
  induction requests with
  | nil => exact fun h => absurd h List.not_mem_nil
  | cons first rest ih =>
    intro c x h
    rcases List.mem_append.1 h with hfirst | hrest
    · obtain ⟨job, -, rfl⟩ := List.mem_map.1 hfirst
      exact ⟨first, List.mem_cons_self, rfl⟩
    · obtain ⟨later, hlater, htime⟩ := ih hrest
      exact ⟨later, List.mem_cons_of_mem _ hlater, htime⟩

theorem rowAfter_timedAt (now : Millis) (kind : BackendKind) (key : Bytes) (errands : List Errand) :
    ∀ row, rowAfter kind key (timedAt now (errands.filterMap Errand.job?)) row =
      Errand.effects now kind key errands row := by
  induction errands with
  | nil => exact fun _ => rfl
  | cons errand rest ih =>
    intro row
    cases errand with
    | tell m => exact ih row
    | hand k job => exact ih _

/-- Where jobs are done at once, a row is what they make of it at the readings of the requests. -/
theorem row?_serveAll {kind : BackendKind} (key : Bytes) (requests : List (Millis × Request)) :
    ∀ {c : Cache}, c.backing.Direct kind →
      (c.serveAll requests).2.backing.row? kind key =
        rowAfter kind key (c.asked requests) (c.backing.row? kind key) := by
  induction requests with
  | nil => exact fun _ => rfl
  | cons first rest ih =>
    intro c h
    obtain ⟨hdirect, hrow⟩ := Backing.carryOutAll_direct c.listeners.expiration first.1
      (c.requestCourse first.1 first.2).errands h
    have hserve : (c.serve first.1 first.2).2 = c.take first.1 (c.requestCourse first.1 first.2) :=
      congrArg Prod.snd (serve_eq c first.1 first.2)
    rw [asked, rowAfter_append, Course.jobs, rowAfter_timedAt, ← hrow key]
    show ((c.serve first.1 first.2).2.serveAll rest).2.backing.row? kind key = _
    rw [hserve]
    exact ih hdirect

/-- The jobs that the calls of a run ask for, as far as there are backends for them, each with the
reading of its call. -/
def askedIn (c : Cache) (moves : List (Millis × Move)) : List TimedJob :=
  (c.inline.asked (requests moves)).filter fun x => c.backing.has x.kind

theorem map_untimed_askedIn (c : Cache) (moves : List (Millis × Move)) :
    (c.askedIn moves).map TimedJob.untimed =
      (c.inline.jobs (requests moves)).filter fun job => c.backing.has job.1 := by
  rw [← map_untimed_asked, List.filter_map]
  rfl

/-- More moves ask for more jobs. -/
theorem askedIn_append (c : Cache) (xs ys : List (Millis × Move)) :
    ∃ more, c.askedIn (xs ++ ys) = c.askedIn xs ++ more := by
  unfold askedIn requests
  rw [List.filterMap_append, asked_append, List.filter_append]
  exact ⟨_, rfl⟩

/-- A job is asked for at the reading of a move. -/
theorem time_of_mem_askedIn {c : Cache} {moves : List (Millis × Move)} {x : TimedJob}
    (h : x ∈ c.askedIn moves) : ∃ move ∈ moves, move.1 = x.time := by
  obtain ⟨first, hfirst, htime⟩ := time_of_mem_asked _ (List.mem_filter.1 h).1
  obtain ⟨⟨now, move⟩, hmove, hrequest⟩ := List.mem_filterMap.1 hfirst
  refine ⟨(now, move), hmove, ?_⟩
  cases move with
  | request asked =>
    cases hrequest
    exact htime
  | proceed | work | stop => cases hrequest

/-- Jobs for kinds without a backend leave no trace in a row. -/
theorem rowAfter_filter {kind : BackendKind} (key : Bytes) {has : BackendKind → Bool}
    (hhas : has kind = true) (jobs : List TimedJob) : ∀ row,
      rowAfter kind key (jobs.filter fun x => has x.kind) row = rowAfter kind key jobs row := by
  induction jobs with
  | nil => exact fun _ => rfl
  | cons x rest ih =>
    intro row
    by_cases hx : has x.kind = true
    · rw [List.filter_cons, if_pos hx]
      exact ih _
    · have hstep : x.rowStep kind key row = row := by
        refine if_neg fun hkind => hx ?_
        rw [hkind]
        exact hhas
      rw [List.filter_cons, if_neg hx, ih row]
      show rowAfter kind key rest row = rowAfter kind key rest (x.rowStep kind key row)
      rw [hstep]

end Cache

/-! ### Late jobs -/

namespace Scene

variable {c : Cache}

/-- At the start nothing is handed over. -/
theorem Behind.start (hworker : c.backing.worker = .running [])
    (hsound : ∀ kind, c.backing.Sound kind) :
    Behind c.backing [] { cache := c } c.inline.backing := by
  have hnil : c.backing.Did [] c.backing := .nil hsound
  exact ⟨rfl, ⟨[], hnil.of_worker .absent, rfl⟩, [], rfl, [], hnil, by rw [hworker]; rfl⟩

/-- The jobs that were done are the first of those that were asked for, and all of them once there
is nothing left to do. -/
theorem log_of_asked (hworker : c.backing.worker = .running [])
    (hsound : ∀ kind, c.backing.Sound kind) (moves : List (Millis × Move)) :
    let s : Scene := { cache := c }
    ∃ rest, (c.askedIn moves).map TimedJob.untimed = (s.log moves).map TimedJob.untimed ++ rest ∧
      ((s.run moves).cache.backing.worker.pending = [] → (s.run moves).agenda = [] →
        rest = []) := by
  intro s
  obtain ⟨b, -, -, hbehind⟩ := Behind.run moves (Behind.start hworker hsound)
  obtain ⟨handed, hjobs, done, hdid, rfl⟩ := hbehind.handed
  have hlog : (s.log moves).map TimedJob.untimed = done.filter fun job => c.backing.has job.1 := by
    have hdone := (didAt_log moves (s := s) hsound).done
    exact List.append_cancel_left (hdone.symm.trans hdid.done)
  have hjobs' : c.inline.jobs (requests moves) =
      done ++ ((s.run moves).cache.backing.worker.pending ++
        (s.run moves).agenda.filterMap Errand.job?) := by
    rw [← List.append_assoc]
    exact hjobs
  refine ⟨((s.run moves).cache.backing.worker.pending ++
    (s.run moves).agenda.filterMap Errand.job?).filter fun job => c.backing.has job.1, ?_,
    fun hpending hagenda => ?_⟩
  · rw [Cache.map_untimed_askedIn, hjobs', List.filter_append, hlog]
  · rw [hpending, hagenda]
    rfl

/-- If readings do not go back, no job is done before it is asked for. -/
theorem asked_le_done (hworker : c.backing.worker = .running [])
    (hsound : ∀ kind, c.backing.Sound kind) (moves : List (Millis × Move)) :
    moves.Pairwise (fun a b => a.1 ≤ b.1) → ∀ {i : Nat} {x y : TimedJob},
      (c.askedIn moves)[i]? = some x → (Scene.log { cache := c } moves)[i]? = some y →
        x.time ≤ y.time := by
  -- By induction from the back: what the last move has done was asked for in one of the moves.
  induction moves using List.reverseRecOn with
  | nil => exact fun _ _ _ _ _ hy => by cases hy
  | append_singleton moves last ih =>
    intro hordered i x y hx hy
    obtain ⟨hbefore, -, hlast⟩ := List.pairwise_append.1 hordered
    rw [log_append] at hy
    by_cases hi : i < (Scene.log { cache := c } moves).length
    · obtain ⟨rest, hrest, -⟩ := log_of_asked hworker hsound moves
      obtain ⟨more, hmore⟩ := c.askedIn_append moves [last]
      have hlength := congrArg List.length hrest
      rw [List.length_map, List.length_append, List.length_map] at hlength
      rw [List.getElem?_append_left hi] at hy
      rw [hmore, List.getElem?_append_left (by omega)] at hx
      exact ih hbefore hx hy
    · rw [List.getElem?_append_right (Nat.not_lt.1 hi)] at hy
      have hy' : y ∈ timedAt last.1 _ ++ [] := List.mem_of_getElem? hy
      rw [List.append_nil] at hy'
      obtain ⟨job, -, rfl⟩ := List.mem_map.1 hy'
      obtain ⟨move, hmove, hmoved⟩ := Cache.time_of_mem_askedIn (List.mem_of_getElem? hx)
      rw [← hmoved]
      rcases List.mem_append.1 hmove with hmove | hmove
      · exact hlast move hmove last (List.mem_singleton_self last)
      · rw [List.mem_singleton.1 hmove]

/-- Rows of a backend that starts with none, with the worker and without: what the jobs make of
nothing at the readings at which they are done. -/
theorem rows_of_jobs {kind : BackendKind} (hsound : ∀ kind, c.backing.Sound kind)
    (hhas : c.backing.has kind = true) (hempty : ∀ key, c.backing.row? kind key = none)
    (moves : List (Millis × Move)) (key : Bytes) :
    let s : Scene := { cache := c }
    (s.run moves).cache.backing.row? kind key = rowAfter kind key (s.log moves) none ∧
      (c.inline.serveAll (requests moves)).2.backing.row? kind key =
        rowAfter kind key (c.askedIn moves) none := by
  intro s
  have hdirect : c.inline.backing.Direct kind :=
    ⟨⟨(hsound kind).outage, (hsound kind).ahead, (hsound kind).reliable⟩, rfl, hhas⟩
  refine ⟨?_, ?_⟩
  · rw [(didAt_log moves (s := s) hsound).row kind key, hempty key]
  · rw [Cache.row?_serveAll key (requests moves) hdirect, Cache.askedIn,
      Cache.rowAfter_filter key hhas]
    exact congrArg _ (hempty key)

/-- A cache that has done everything it was asked for, beside the same cache without a worker: its
rows hold the same. -/
structure Beside (c : Cache) (b : Backing) : Prop where
  mirrored : { c with backing := b }.Mirrored False
  sound : c.backing.Sound c.config.backend
  has : c.backing.has c.config.backend = true
  content : ∀ key, c.backing.content c.config.backend key = b.content c.config.backend key

namespace Beside

variable {b : Backing} {key : Bytes} {r : Row}

/-- A row goes with an entry of its value, which ends as the row without the worker does. -/
theorem entry (h : Beside c b) (hr : c.backing.row? c.config.backend key = some r) :
    ∃ e r₀, c.store.entries.find? key = some e ∧ e.value = r.value ∧
      Store.refusal? key r.value = none ∧ b.row? c.config.backend key = some r₀ ∧
      r₀.ttl = r.ttl ∧ (c.config.policy = .sinceCreation → e.expiresAt = r₀.expiresAt) := by
  have hcontent := h.content key
  unfold Backing.content at hcontent
  rw [hr] at hcontent
  obtain ⟨r₀, hr₀, hsame⟩ := Option.map_eq_some_iff.1 hcontent.symm
  obtain ⟨hvalue, httl⟩ := Prod.mk.inj hsame
  have hkey := h.mirrored.keys key
  obtain ⟨e, he, hrecorded, hend⟩ := hkey.recorded r₀ hr₀
  have haccepted := (hkey.kept e he).accepted
  rw [← hrecorded, hvalue] at haccepted
  exact ⟨e, r₀, he, hrecorded.symm.trans hvalue, haccepted, hr₀, httl,
    fun hpolicy => (hend hpolicy).symm⟩

/-- The store takes the rows, so one with time left comes back. -/
theorem live?_relaunch (h : Beside c b) (hr : c.backing.row? c.config.backend key = some r)
    {now : Millis} (hlive : r.isLive now = true) (hlatest : r.expiresAt ≤ Clock.latest) :
    (c.relaunch now).2.store.live? now key = some (r.entry now c.config.policy) ∧
      (r.entry now c.config.policy).expiresAt = r.expiresAt := by
  have hp := h.mirrored.prompt.persisting
  obtain ⟨rows, hrows⟩ := Backing.rows_of_has h.sound h.has
  refine Cache.live?_relaunch (c := c) now hp.persistent hp.recovery h.sound hrows (fun e he => ?_)
    hr hlive hlatest
  have hrow : c.backing.row? c.config.backend e.1 = some e.2 :=
    (Backing.mem_rows_iff hrows).1 he
  obtain ⟨-, -, -, -, haccepted, -⟩ := h.entry hrow
  exact haccepted

end Beside

/-- A run that starts with nothing, of calls with values that are read back as they were given, ends
beside the same calls without the worker. -/
theorem beside_run {config : Config} {listeners : Listeners} {backing : Backing}
    (hpersistent : config.persistent = true) (hreplay : listeners.recovery = [.replay])
    (hworker : backing.worker = .running []) (hsound : ∀ kind, backing.Sound kind)
    (hhas : backing.has config.backend = true)
    (hempty : ∀ key, backing.row? config.backend key = none) {moves : List (Millis × Move)}
    (hfaithful : ∀ step ∈ requests moves, step.2.Faithful) :
    let c := Cache.new config listeners backing
    let start : Scene := { cache := c }
    (c.askedIn moves).map TimedJob.untimed = (start.log moves).map TimedJob.untimed →
      ∃ b, Beside (start.run moves).cache b ∧ (start.run moves).cache.config = config ∧
        ∀ key, b.row? config.backend key = rowAfter config.backend key (c.askedIn moves) none := by
  intro c start hsame
  obtain ⟨b, hserved, -, -⟩ := Behind.run moves (Behind.start (c := c) hworker hsound)
  replace hserved : (c.inline.serveAll (requests moves)).2 =
    { (start.run moves).cache with backing := b } := hserved
  have hdirect : ({ backing with worker := .absent } : Backing).Direct config.backend :=
    ⟨⟨(hsound config.backend).outage, (hsound config.backend).ahead,
      (hsound config.backend).reliable⟩, rfl, hhas⟩
  have hstart : c.inline.Mirrored True := Cache.mirrored_new hpersistent hreplay hdirect hempty
  obtain ⟨hmirrored, hconfig⟩ := hstart.run ((requests moves).map fun r => (r.1, .request r.2))
    fun step hstep => by
      obtain ⟨first, hfirst, rfl⟩ := List.mem_map.1 hstep
      exact hfaithful first hfirst
  rw [← Cache.serveAll_session, hserved] at hmirrored hconfig
  replace hconfig : (start.run moves).cache.config = config := hconfig
  have hdid := didAt_log moves (s := start) hsound
  have hrows := rows_of_jobs (c := c) hsound hhas hempty moves
  refine ⟨b, ⟨hmirrored.weaken False.elim, hdid.sound _, ?_, fun key => ?_⟩, hconfig, fun key => ?_⟩
  · rw [hconfig]
    exact (hdid.has config.backend).trans hhas
  · obtain ⟨hlate, hprompt⟩ := hrows key
    rw [hserved] at hprompt
    have hcontent := content_rowAfter config.backend key (start.log moves) hsame.symm
      (rfl : (none : Option Row).map Row.content = none)
    rw [← hlate, ← hprompt, ← hconfig] at hcontent
    exact hcontent
  · have hprompt := (hrows key).2
    rw [hserved] at hprompt
    exact hprompt

/-- **Jobs done late make rows end late.** Take a cache that starts with nothing and whose worker
has nothing to do, with backends that never fail and expiry counted from the last write, and any run
whose readings do not go back. When nothing is left to do, every row ends by the last job that timed
it: the time that the job gives it, counted from when the job was done. If values are read back as
they were given, the key has an entry with the value of the row that ends by the same job, with the
time counted from when the job was asked for: no later than the row. A restart brings the key back
with the end of the row. -/
theorem queued_rows_end_late (config : Config) (listeners : Listeners) (backing : Backing)
    (hpersistent : config.persistent = true) (hreplay : listeners.recovery = [.replay])
    (hpolicy : config.policy = .sinceCreation) (hworker : backing.worker = .running [])
    (hsound : ∀ kind, backing.Sound kind) (hhas : backing.has config.backend = true)
    (hempty : ∀ key, backing.row? config.backend key = none) (moves : List (Millis × Move))
    (hordered : moves.Pairwise fun a b => a.1 ≤ b.1) :
    let c := Cache.new config listeners backing
    let start : Scene := { cache := c }
    let s := start.run moves
    s.cache.backing.worker.pending = [] → s.agenda = [] →
      ∀ key r, s.cache.backing.row? config.backend key = some r →
        ∃ i asked done job,
          LastTimed config.backend key (c.askedIn moves) i asked job ∧
          LastTimed config.backend key (start.log moves) i done job ∧
          asked ≤ done ∧ r.expiresAt = Clock.held (done + job.term r) ∧
          ((∀ step ∈ requests moves, step.2.Faithful) →
            ∃ e, s.cache.store.entries.find? key = some e ∧ e.value = r.value ∧
              e.expiresAt = Clock.held (asked + job.term r) ∧ e.expiresAt ≤ r.expiresAt ∧
              ∀ now, now < r.expiresAt →
                ∃ e', (s.cache.relaunch now).2.store.live? now key = some e' ∧
                  e'.value = e.value ∧ e'.expiresAt = r.expiresAt) := by
  intro c start s hpending hagenda key r hr
  obtain ⟨rest, hsame, hrest⟩ := log_of_asked (c := c) hworker hsound moves
  rw [hrest hpending hagenda, List.append_nil] at hsame
  have hrows := rows_of_jobs (c := c) hsound hhas hempty moves key
  obtain ⟨i, done, job, hdone, hend⟩ := rowAfter_end _ (hrows.1.symm.trans hr)
  obtain ⟨asked, hasked⟩ := hdone.of_same hsame
  have hle : asked ≤ done :=
    asked_le_done (c := c) hworker hsound moves hordered hasked.there hdone.there
  refine ⟨i, asked, done, job, hasked, hdone, hle, hend, fun hfaithful => ?_⟩
  obtain ⟨b, hbeside, hconfig, hprompt⟩ :=
    beside_run hpersistent hreplay hworker hsound hhas hempty hfaithful hsame
  rw [← hconfig] at hr hpolicy
  obtain ⟨e, r₀, he, hvalue, -, hr₀, httl, hentry⟩ := hbeside.entry hr
  -- Without the worker the same job times the row, when it is asked for.
  have hend₀ : r₀.expiresAt = Clock.held (asked + job.term r) := by
    rw [hconfig] at hr₀
    obtain ⟨i₀, asked₀, job₀, hlast, hend₀⟩ := rowAfter_end _ ((hprompt key).symm.trans hr₀)
    obtain ⟨rfl, rfl⟩ := hlast.unique hasked
    rw [hend₀, Job.term_congr httl]
  have hlatest : r.expiresAt ≤ Clock.latest := by
    rw [hend]
    exact Clock.held_le _
  refine ⟨e, he, hvalue, (hentry hpolicy).trans hend₀, ?_, fun now hnow => ?_⟩
  · rw [hentry hpolicy, hend₀, hend]
    exact Nat.le_min.2 ⟨Clock.held_le _,
      Nat.le_trans (Nat.min_le_right _ _) (Nat.add_le_add_right hle _)⟩
  · obtain ⟨hlive, hback⟩ := hbeside.live?_relaunch hr (decide_eq_true hnow) hlatest
    exact ⟨_, hlive, hvalue.symm, hback⟩

/-- A key is written with a minute and given one and a half when ten seconds are over, and the
worker is five seconds late with the one and two with the other: the row ends two seconds after the entry,
and so does the entry that a restart brings back. -/
theorem queued_rows_end_late_twice :
    let c := Cache.new { persistent := true } { recovery := [.replay] }
      { registry := { memory := some (.memory .empty) }, worker := .running [] }
    let s := Scene.run { cache := c }
      [(0, .request (.call (.setWithTtl "k" (.str "v") (.ofSeconds 60)))), (0, .proceed),
        (5000, .work), (10000, .request (.call (.replaceDuration "k" (.ofSeconds 90)))),
        (10000, .proceed), (12000, .work)]
    ∃ r e, s.cache.backing.row? .memory (Codec.encodeKey "k") = some r ∧ r.expiresAt = 102000 ∧
      s.cache.store.entries.find? (Codec.encodeKey "k") = some e ∧ e.expiresAt = 100000 ∧
      ∃ e', (s.cache.relaunch 50000).2.store.live? 50000 (Codec.encodeKey "k") = some e' ∧
        e'.expiresAt = 102000 := by
  have hlate := queued_rows_end_late { persistent := true } { recovery := [.replay] }
    { registry := { memory := some (.memory .empty) }, worker := .running [] } rfl rfl rfl rfl
    (fun kind => ⟨rfl, rfl, fun backend hback => by
      cases kind with
      | memory => cases hback; trivial
      | file => cases hback⟩) rfl (fun _ => rfl)
    [(0, .request (.call (.setWithTtl "k" (.str "v") (.ofSeconds 60)))), (0, .proceed),
      (5000, .work), (10000, .request (.call (.replaceDuration "k" (.ofSeconds 90)))),
      (10000, .proceed), (12000, .work)] (by decide)
  obtain ⟨-, asked, done, job, -, -, -, -, hentry⟩ := hlate
    (List.isEmpty_iff.1 (by decide +kernel)) (List.isEmpty_iff.1 (by decide +kernel))
    (Codec.encodeKey "k") ⟨Json.printed (.str "v"), 60000, 102000⟩ (by decide +kernel)
  obtain ⟨e, he, -, -, -, hback⟩ := hentry (by
    intro step hstep
    have hmem : step = (0, .call (.setWithTtl "k" (.str "v") (.ofSeconds 60))) ∨
        step = (10000, .call (.replaceDuration "k" (.ofSeconds 90))) := by
      simpa [requests] using hstep
    rcases hmem with rfl | rfl
    · intro v hv; cases hv; exact Json.Storable.faithful (by decide)
    · intro v hv; cases hv)
  obtain ⟨e', hlive, -, hend⟩ := hback 50000 (by decide)
  have hentryend : e.expiresAt = 100000 := by
    have hends := congrArg (Option.map Entry.expiresAt) he
    exact Option.some.inj (hends.symm.trans (by decide +kernel))
  exact ⟨⟨Json.printed (.str "v"), 60000, 102000⟩, e, by decide +kernel, rfl, he, hentryend, e',
    hlive, hend⟩

/-- The worker is five seconds late with the job of a write: the row ends five seconds after the
entry, and a restart brings the key back when its time is over. Where a value cannot be read back, a
row can also end before the entry, however prompt the worker is. -/
theorem late_row_outlives_entry :
    let c := Cache.new { persistent := true } { recovery := [.replay] }
      { registry := { memory := some (.memory .empty) }, worker := .running [] }
    let late := Scene.run { cache := c }
      [(0, .request (.call (.setWithTtl "k" (.str "v") (.ofSeconds 60)))), (0, .proceed),
        (5000, .work)]
    let unread := Scene.run { cache := c }
      [(0, .request (.call (.setWithTtl "k" (.nested 128 .null) (.ofSeconds 60)))), (0, .proceed),
        (0, .work), (0, .request (.call (.replaceDuration "k" (.ofSeconds 90))))]
    (late.cache.backing.worker.pending.length = 0 ∧ late.agenda.length = 0 ∧
        (late.cache.backing.row? .memory (Codec.encodeKey "k")).map Row.expiresAt = some 65000 ∧
        (late.cache.store.entries.find? (Codec.encodeKey "k")).map Entry.expiresAt =
          some 60000 ∧
        late.cache.store.live? 60000 (Codec.encodeKey "k") = none ∧
        ((late.cache.relaunch 60000).2.store.live? 60000 (Codec.encodeKey "k")).map
          Entry.expiresAt = some 65000) ∧
      (unread.cache.backing.worker.pending.length, unread.agenda.length,
        (unread.cache.backing.row? .memory (Codec.encodeKey "k")).map Row.expiresAt,
        (unread.cache.store.entries.find? (Codec.encodeKey "k")).map Entry.expiresAt) =
          (0, 0, some 60000, some 90000) := by
  refine ⟨⟨?_, ?_, ?_, ?_, ?_, ?_⟩, ?_⟩ <;> decide +kernel

end Scene

end ExpiringCache
