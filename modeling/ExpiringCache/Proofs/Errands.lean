import ExpiringCache.Cache
import ExpiringCache.Proofs.Durable.Backing

/-!
# What a call asks of the durable side

The durable side never decides what a call does. A call leaves a store and asks for *errands*, to
tell listeners about expired entries and to have jobs done, and both follow from the store it was
made on (`Cache.course`). Only then the errands are carried out, one after another, and nothing
that becomes of them is looked at (`Cache.perform_eq`).
-/

namespace ExpiringCache

/-- Something asked of the durable side. -/
inductive Errand where
  /-- To tell the listeners about an expired entry. -/
  | tell (m : Message)
  /-- To have a job done by the backend of a kind. -/
  | hand (kind : BackendKind) (job : Job)

/-- What an errand does to a row of a backend. -/
def Errand.effect (now : Millis) (kind : BackendKind) (key : Bytes) (row : Option Row) :
    Errand → Option Row
  | .tell _ => row
  | .hand k job => if k = kind then job.effect now key row else row

/-- The job of an errand, and the kind of backend it is for. -/
def Errand.job? : Errand → Option (BackendKind × Job)
  | .tell _ => none
  | .hand kind job => some (kind, job)

namespace Backing

/-- Carries out an errand. -/
def carryOut (listeners : List ExpirationListener) (now : Millis) (b : Backing) : Errand → Backing
  | .tell m => (b.tell listeners m).2
  | .hand kind job => (b.deliver now kind job).2

/-- Carries out errands in order. -/
def carryOutAll (listeners : List ExpirationListener) (now : Millis) (b : Backing)
    (errands : List Errand) : Backing :=
  errands.foldl (carryOut listeners now) b

theorem carryOutAll_append (listeners : List ExpirationListener) (now : Millis) (b : Backing)
    (xs ys : List Errand) :
    b.carryOutAll listeners now (xs ++ ys) =
      (b.carryOutAll listeners now xs).carryOutAll listeners now ys :=
  List.foldl_append

end Backing

/-! ### Telling listeners -/

namespace Backing

theorem foldl_tellNext (m : Message) (listeners : List ExpirationListener) :
    ∀ (notified failed : Nat) (b : Backing),
      listeners.foldl (tellNext m) ((notified, failed), b) =
        ((notified + listeners.countP (·.conduct = .succeeds),
            failed + listeners.countP (·.conduct ≠ .succeeds)),
          { b with journal := b.journal ++ listeners.map (.notified · m) }) := by
  induction listeners with
  | nil => simp
  | cons l rest ih =>
    intro notified failed b
    rw [List.foldl_cons, tellNext]
    cases hconduct : l.conduct <;> simp [ih, hconduct, note, Nat.add_assoc, Nat.add_comm 1]

/-- Every listener is told once, in order, whatever the ones before it did. -/
theorem tell_eq (b : Backing) (listeners : List ExpirationListener) (m : Message) :
    b.tell listeners m =
      ((listeners.countP (·.conduct = .succeeds), listeners.countP (·.conduct ≠ .succeeds)),
        { b with journal := b.journal ++ listeners.map (.notified · m) }) := by
  rw [tell, foldl_tellNext, Nat.zero_add, Nat.zero_add]

/-- Telling listeners leaves no trace but in the journal, and none there of a job. -/
theorem tell_inv (b : Backing) (listeners : List ExpirationListener) (m : Message) :
    ∃ journal, (b.tell listeners m).2 = { b with journal := journal } ∧
      journal.filterMap Event.job? = b.done := by
  have hnone : (listeners.map (Event.notified · m)).filterMap Event.job? = [] := by
    rw [List.filterMap_map]
    exact List.filterMap_eq_nil_iff.2 fun _ _ => rfl
  rw [tell_eq]
  refine ⟨_, rfl, ?_⟩
  rw [List.filterMap_append, hnone, List.append_nil]
  rfl

end Backing

/-! ### Errands about expired entries -/

/-- What is asked when an entry has expired. -/
def Config.expiryErrands (config : Config) (entry : Bytes × Bytes) : List Errand :=
  (match Message.ofBytes entry.1 entry.2 with
    | .ok m => [.tell m]
    | .error _ => []) ++
  if config.persistent then [.hand config.backend (.erase entry.1)] else []

namespace Backing

theorem eraseExpired_eq (b : Backing) (config : Config) (now : Millis) (key : Bytes)
    (report : ExpirationReport) :
    (b.eraseExpired config now key report).2 =
      if config.persistent then (b.deliver now config.backend (.erase key)).2 else b := by
  unfold eraseExpired
  split
  · split <;> simp [*]
  · rfl

theorem expire_eq (b : Backing) (config : Config) (listeners : List ExpirationListener)
    (now : Millis) (entry : Bytes × Bytes) :
    (b.expire config listeners now entry.1 entry.2).2 =
      b.carryOutAll listeners now (config.expiryErrands entry) := by
  unfold expire Config.expiryErrands
  cases Message.ofBytes entry.1 entry.2 with
  | ok m =>
    dsimp only
    rw [eraseExpired_eq]
    split <;> rfl
  | error e =>
    dsimp only
    rw [eraseExpired_eq]
    split <;> rfl

theorem expireAll_eq (config : Config) (listeners : List ExpirationListener) (now : Millis)
    (expired : List (Bytes × Bytes)) : ∀ (b : Backing),
    b.expireAll config listeners now expired =
      b.carryOutAll listeners now (expired.flatMap config.expiryErrands) := by
  induction expired with
  | nil => exact fun _ => rfl
  | cons entry rest ih =>
    intro b
    rw [List.flatMap_cons, carryOutAll_append, ← expire_eq, ← ih]
    rfl

end Backing

/-! ### Errands of calls -/

/-- What a call leads to: a store, and what is asked of the durable side. -/
structure Course where
  store : Store
  errands : List Errand

/-- The jobs that a call hands to backends. -/
def Course.jobs (course : Course) : List (BackendKind × Job) :=
  course.errands.filterMap Errand.job?

/-- The course of a turn. -/
def Turn.course {α : Type} (t : Turn α) (config : Config) : Course :=
  ⟨t.store, t.expired.flatMap config.expiryErrands⟩

/-- The errand of a change, if there is one. -/
def changeErrands (kind : BackendKind) (change : Option Change) : List Errand :=
  change.toList.map fun change => .hand kind (.apply change)

theorem toOption_eq_some_iff {ε α : Type} {result : Except ε α} {a : α} :
    result.toOption = some a ↔ result = .ok a := by
  cases result <;> simp [Except.toOption]

namespace Cache

/-- What recording a change of TTL leads to. -/
def recordDurationCourse (c : Cache) (now : Millis) (rule : Rule) (call : Invocation) : Course :=
  match call.keys with
  | [] => ⟨c.store, []⟩
  | key :: _ =>
    let t := Command.run c.config c.codec now c.store (.peek key)
    ⟨t.store, (t.course c.config).errands ++
      changeErrands rule.backend (c.durationChange? rule.kind call key t.answer)⟩

/-- What recording a change leads to, by its rule. -/
def recordChangeCourse (c : Cache) (now : Millis) (rule : Rule) (call : Invocation)
    (outcome : Outcome) : Course :=
  match rule.kind with
  | .replaceDuration | .resetDuration => c.recordDurationCourse now rule call
  | kind => ⟨c.store, changeErrands rule.backend (c.callChange? kind call outcome)⟩

/-- What recording a change leads to, if it is to be recorded. -/
def recordCourse (c : Cache) (now : Millis) (call : Invocation) (outcome : Outcome) : Course :=
  match if c.config.persistent then c.methods.rule? call.method else none with
  | some rule =>
    if rule.expectation.isMet outcome then c.recordChangeCourse now rule call outcome
    else ⟨c.store, []⟩
  | none => ⟨c.store, []⟩

/-- What a command leads to. -/
def course (c : Cache) (now : Millis) (command : Command) : Course :=
  let t := command.run c.config c.codec now c.store
  match command.invocation?, t.answer with
  | some call, .ok answer =>
    let recorded := { c with store := t.store }.recordCourse now call answer.outcome
    ⟨recorded.store, (t.course c.config).errands ++ recorded.errands⟩
  | _, _ => t.course c.config

/-- Takes a course: takes over its store, and has its errands carried out. -/
def take (c : Cache) (now : Millis) (course : Course) : Cache :=
  { c with
    store := course.store
    backing := c.backing.carryOutAll c.listeners.expiration now course.errands }

theorem settle_eq {α : Type} (c : Cache) (now : Millis) (t : Turn α) :
    c.settle now t = c.take now (t.course c.config) := by
  rw [settle, Backing.expireAll_eq]
  rfl

theorem submit_eq (c : Cache) (now : Millis) (kind : BackendKind) (change : Option Change) :
    c.submit now kind change = c.take now ⟨c.store, changeErrands kind change⟩ := by
  cases change <;> rfl

/-- Errands after errands are carried out as one list. -/
theorem take_take (c : Cache) (now : Millis) (first second : Course) :
    (c.take now first).take now second =
      c.take now ⟨second.store, first.errands ++ second.errands⟩ := by
  unfold take
  rw [Backing.carryOutAll_append]

theorem recordDuration_eq (c : Cache) (now : Millis) (rule : Rule) (call : Invocation) :
    c.recordDuration now rule call = c.take now (c.recordDurationCourse now rule call) := by
  unfold recordDuration recordDurationCourse
  cases call.keys with
  | nil => rfl
  | cons key rest =>
    dsimp only
    rw [submit_eq, settle_eq, take_take]
    rfl

theorem recordChange_eq (c : Cache) (now : Millis) (rule : Rule) (call : Invocation)
    (outcome : Outcome) :
    c.recordChange now rule call outcome =
      c.take now (c.recordChangeCourse now rule call outcome) := by
  obtain ⟨kind, expectation, backend⟩ := rule
  cases kind with
  | replaceDuration => exact recordDuration_eq ..
  | resetDuration => exact recordDuration_eq ..
  | write => exact submit_eq c now backend (c.callChange? .write call outcome)
  | removeKeys => exact submit_eq c now backend (c.callChange? .removeKeys call outcome)
  | removeBySimilarity => exact submit_eq c now backend (c.callChange? .removeBySimilarity call outcome)
  | removeAll => exact submit_eq c now backend (c.callChange? .removeAll call outcome)
  | replaceValue => exact submit_eq c now backend (c.callChange? .replaceValue call outcome)

theorem record_eq (c : Cache) (now : Millis) (call : Invocation) (outcome : Outcome) :
    c.record now call outcome = c.take now (c.recordCourse now call outcome) := by
  unfold record recordCourse
  cases c.config.persistent with
  | false => rfl
  | true =>
    simp only [if_true]
    cases c.methods.rule? call.method with
    | none => rfl
    | some rule =>
      dsimp only
      split
      · exact recordChange_eq ..
      · rfl

/-- A command answers what it answers on the store; what it leads to is its course. -/
theorem perform_eq (c : Cache) (now : Millis) (command : Command) :
    c.perform now command =
      ((command.run c.config c.codec now c.store).answer, c.take now (c.course now command)) := by
  unfold perform course
  cases command.invocation? with
  | none =>
    dsimp only
    rw [performPlain, settle_eq]
  | some call =>
    unfold intercept
    dsimp only
    cases (command.run c.config c.codec now c.store).answer with
    | error e =>
      dsimp only
      rw [settle_eq]
    | ok answer =>
      dsimp only
      rw [record_eq, settle_eq, take_take]
      rfl

/-- The rule by which a command with this result is recorded, with its call and outcome; none if it
is not recorded. -/
def recording? (c : Cache) (command : Command) (result : Except CacheError Answer) :
    Option (Rule × Invocation × Outcome) :=
  command.invocation?.bind fun call =>
    ((c.methods.rule? call.method).filter fun _ => c.config.persistent).bind fun rule =>
      (result.toOption.filter fun answer => rule.expectation.isMet answer.outcome).map fun answer =>
        (rule, call, answer.outcome)

theorem recording?_eq_some_iff {c : Cache} {command : Command}
    {result : Except CacheError Answer} {rule : Rule} {call : Invocation} {outcome : Outcome} :
    c.recording? command result = some (rule, call, outcome) ↔
      c.config.persistent = true ∧ command.invocation? = some call ∧
        c.methods.rule? call.method = some rule ∧
        ∃ answer, result = .ok answer ∧ answer.outcome = outcome ∧
          rule.expectation.isMet outcome = true := by
  simp only [recording?, Option.bind_eq_some_iff, Option.filter_eq_some_iff,
    Option.map_eq_some_iff, Prod.mk.injEq, toOption_eq_some_iff]
  constructor
  · rintro ⟨_, hcall, _, ⟨hrule, hpersistent⟩, answer, ⟨hanswer, hmet⟩, rfl, rfl, rfl⟩
    exact ⟨hpersistent, hcall, hrule, answer, hanswer, rfl, hmet⟩
  · rintro ⟨hpersistent, hcall, hrule, answer, hanswer, rfl, hmet⟩
    exact ⟨call, hcall, rule, ⟨hrule, hpersistent⟩, answer, ⟨hanswer, hmet⟩, rfl, rfl, rfl⟩

/-- A command that is not recorded asks for what has expired, and nothing else. -/
theorem course_of_unrecorded {c : Cache} {now : Millis} {command : Command} {t : Run}
    (ht : command.run c.config c.codec now c.store = t)
    (h : c.recording? command t.answer = none) : c.course now command = t.course c.config := by
  unfold course
  rw [ht]
  dsimp only
  split
  · next call answer hcall hanswer =>
    unfold recordCourse
    split
    · next rule hrule =>
      split
      · next hmet =>
        have hsome : c.recording? command t.answer = some (rule, call, answer.outcome) := by
          obtain ⟨hpersistent, hrule⟩ := Option.ite_none_right_eq_some.1 hrule
          exact recording?_eq_some_iff.2 ⟨hpersistent, hcall, hrule, answer, hanswer, rfl, hmet⟩
        rw [h] at hsome
        cases hsome
      · exact congrArg (Course.mk t.store) (List.append_nil _)
    · exact congrArg (Course.mk t.store) (List.append_nil _)
  · rfl

/-- A command that is recorded asks for that as well. -/
theorem course_of_recorded {c : Cache} {now : Millis} {command : Command} {t : Run}
    (ht : command.run c.config c.codec now c.store = t) {rule : Rule} {call : Invocation}
    {outcome : Outcome} (h : c.recording? command t.answer = some (rule, call, outcome)) :
    let recorded := { c with store := t.store }.recordChangeCourse now rule call outcome
    c.course now command = ⟨recorded.store, (t.course c.config).errands ++ recorded.errands⟩ := by
  intro recorded
  obtain ⟨hpersistent, hcall, hrule, answer, hanswer, rfl, hmet⟩ := recording?_eq_some_iff.1 h
  unfold course
  rw [ht]
  dsimp only
  rw [hcall, hanswer]
  simp only [recordCourse, if_pos hpersistent, hrule, if_pos hmet]
  rfl

/-- A sweep is a turn of the store. -/
theorem sweep_eq (c : Cache) (now : Millis) :
    c.sweep now =
      ((c.store.sweep now).answer, c.take now ((c.store.sweep now).course c.config)) := by
  rw [← settle_eq]
  rfl

end Cache

/-! ### Errands done at once -/

/-- What errands do to a row of a backend, one after another. -/
def Errand.effects (now : Millis) (kind : BackendKind) (key : Bytes) (errands : List Errand)
    (row : Option Row) : Option Row :=
  errands.foldl (effect now kind key) row

theorem Errand.effects_append (now : Millis) (kind : BackendKind) (key : Bytes)
    (xs ys : List Errand) (row : Option Row) :
    effects now kind key (xs ++ ys) row = effects now kind key ys (effects now kind key xs row) :=
  List.foldl_append

namespace Backing

variable {b : Backing} {kind : BackendKind}

/-- Errands are done at once, by a backend of this kind that never fails. -/
structure Direct (b : Backing) (kind : BackendKind) : Prop where
  sound : b.Sound kind
  idle : b.worker.isRunning = false
  has : b.has kind = true

theorem carryOut_direct (h : b.Direct kind) (listeners : List ExpirationListener) (now : Millis)
    (errand : Errand) :
    (b.carryOut listeners now errand).Direct kind ∧ ∀ key,
      (b.carryOut listeners now errand).row? kind key =
        errand.effect now kind key (b.row? kind key) := by
  cases errand with
  | tell m =>
    obtain ⟨journal, heq, -⟩ := b.tell_inv listeners m
    unfold carryOut
    dsimp only
    rw [heq]
    exact ⟨⟨⟨h.sound.outage, h.sound.ahead, h.sound.reliable⟩, h.idle, h.has⟩, fun _ => rfl⟩
  | hand k job =>
    unfold carryOut
    dsimp only
    rw [deliver_inline h.idle]
    refine ⟨⟨h.sound.perform now k job, ?_, ?_⟩, fun key => ?_⟩
    · rw [worker_perform, h.idle]
    · rw [has_perform, h.has]
    · show _ = if k = kind then job.effect now key (b.row? kind key) else b.row? kind key
      by_cases hk : k = kind
      · subst hk
        rw [row?_perform h.sound h.has, if_pos rfl]
      · rw [row?_perform_of_ne b now job (Ne.symm hk), if_neg hk]

theorem carryOutAll_direct (listeners : List ExpirationListener) (now : Millis)
    (errands : List Errand) : ∀ {b : Backing}, b.Direct kind →
      (b.carryOutAll listeners now errands).Direct kind ∧ ∀ key,
        (b.carryOutAll listeners now errands).row? kind key =
          Errand.effects now kind key errands (b.row? kind key) := by
  induction errands with
  | nil => exact fun h => ⟨h, fun _ => rfl⟩
  | cons errand rest ih =>
    intro b h
    obtain ⟨hdirect, hrow⟩ := carryOut_direct h listeners now errand
    obtain ⟨hrest, hrows⟩ := ih hdirect
    refine ⟨hrest, fun key => (hrows key).trans ?_⟩
    rw [hrow key]
    rfl

end Backing

/-- The errands about expired entries erase the rows of their keys in the configured backend, if
there is persistence, and nothing else. -/
theorem effects_expiry (config : Config) (now : Millis) (kind : BackendKind) (key : Bytes)
    (expired : List (Bytes × Bytes)) : ∀ row,
      Errand.effects now kind key (expired.flatMap config.expiryErrands) row =
        if config.persistent = true ∧ config.backend = kind ∧ key ∈ expired.map (·.1) then none
        else row := by
  have hone : ∀ (entry : Bytes × Bytes) (row : Option Row),
      Errand.effects now kind key (config.expiryErrands entry) row =
        if config.persistent = true ∧ config.backend = kind ∧ key = entry.1 then none else row := by
    intro entry row
    unfold Config.expiryErrands
    rw [Errand.effects_append]
    -- Whether listeners can be told makes no difference to the row.
    cases Message.ofBytes entry.1 entry.2 <;> cases config.persistent <;>
      by_cases hkind : config.backend = kind <;>
      simp [Errand.effects, Errand.effect, Job.effect, hkind]
  induction expired with
  | nil => intro row; simp [Errand.effects]
  | cons entry rest ih =>
    intro row
    rw [List.flatMap_cons, Errand.effects_append, hone, ih]
    by_cases hplace : config.persistent = true ∧ config.backend = kind
    · by_cases hkey : key = entry.1 <;> by_cases hrest : key ∈ rest.map (·.1) <;>
        simp [hplace, hkey, hrest]
    · simp only [← and_assoc, hplace, false_and, if_false]

theorem effects_course {α : Type} {config : Config} (hpersistent : config.persistent = true)
    (now : Millis) (key : Bytes) (t : Turn α) (row : Option Row) :
    Errand.effects now config.backend key (t.course config).errands row =
      if key ∈ t.expired.map (·.1) then none else row := by
  rw [Turn.course, effects_expiry]
  exact if_congr (by simp [hpersistent]) rfl rfl

/-- What a key holds after a change, if there is one, by what it held before. -/
def afterChange (now : Millis) (key : Bytes) (row : Option Row) : Option Change → Option Row
  | some change => change.effect now key row
  | none => row

theorem effects_change (now : Millis) (kind : BackendKind) (key : Bytes) (change : Option Change)
    (row : Option Row) :
    Errand.effects now kind key (changeErrands kind change) row = afterChange now key row change := by
  cases change with
  | none => rfl
  | some change => simp [changeErrands, Errand.effects, Errand.effect, Job.effect, afterChange]

end ExpiringCache
