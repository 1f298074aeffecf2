import ExpiringCache.Proofs.Effect
import ExpiringCache.Proofs.Queue

/-!
# Changes are recorded of calls that had an effect

A change is recorded of a call if persistence is on, its method has a rule, and the call has
answered what calls of the rule's kind answer when they had an effect (`Cache.Passes`). Where jobs
are done at once by backends that never fail, `Cache.recorded_if_passed` says that no change is
recorded of any other call: the durable table loses the rows of keys that the call has found
expired, and nothing else. Of a call that has passed one change is recorded, and never two, by the
standard rules just one; but none of a change of TTL whose entry cannot be read back. By these rules
the calls that pass are those that report an effect, of the methods that have a rule
(`Cache.passes_iff_effective`).
-/

namespace ExpiringCache

/-! ### What is recorded -/

/-- The change that a job records. -/
def recordOf? : BackendKind × Job → Option (BackendKind × Change)
  | (kind, .apply change) => some (kind, change)
  | (_, .erase _) => none

/-- The changes that backends have applied, in order. -/
def Backing.records (b : Backing) : List (BackendKind × Change) := b.done.filterMap recordOf?

/-- The changes that a call hands to backends. -/
def Course.records (course : Course) : List (BackendKind × Change) :=
  course.jobs.filterMap recordOf?

theorem filterMap_recordOf?_filter (has : BackendKind → Bool) (jobs : List (BackendKind × Job)) :
    (jobs.filter fun job => has job.1).filterMap recordOf? =
      (jobs.filterMap recordOf?).filter fun record => has record.1 := by
  induction jobs with
  | nil => rfl
  | cons job rest ih =>
    obtain ⟨kind, job⟩ := job
    cases job <;> cases hhas : has kind <;> simp [List.filterMap_cons, recordOf?, hhas, ih]

namespace Backing

variable {b : Backing}

/-- Without a worker, backends that never fail have done errands as soon as these are carried
out. -/
theorem did_carryOutAll (hinline : b.worker.isRunning = false) (hsound : ∀ kind, b.Sound kind)
    (listeners : List ExpirationListener) (now : Millis) (errands : List Errand) :
    b.Did (errands.filterMap Errand.job?) (b.carryOutAll listeners now errands) := by
  have hpending : ∀ worker : Worker, worker.isRunning = false → worker.pending = [] := by
    intro worker h
    cases worker with
    | absent | stopped => rfl
    | running jobs => cases h
  have hstart : b.Handed [] b := ⟨[], .nil hsound, by rw [hpending _ hinline]; rfl⟩
  obtain ⟨done, hdid, hjobs⟩ := hstart.carryOutAll listeners now errands
  rw [hpending _ (carryOutAll_idle listeners now errands hinline), List.append_nil,
    List.nil_append] at hjobs
  rw [hjobs]
  exact hdid

theorem records_carryOutAll (hinline : b.worker.isRunning = false) (hsound : ∀ kind, b.Sound kind)
    (listeners : List ExpirationListener) (now : Millis) (course : Course) :
    (b.carryOutAll listeners now course.errands).records =
      b.records ++ course.records.filter fun record => b.has record.1 := by
  have hdid := did_carryOutAll hinline hsound listeners now course.errands
  rw [records, hdid.done, List.filterMap_append, filterMap_recordOf?_filter]
  rfl

theorem row?_of_missing {kind : BackendKind} (h : b.has kind = false) (key : Bytes) :
    b.row? kind key = none := by
  rw [has, Option.isSome_eq_false_iff, Option.isNone_iff_eq_none] at h
  rw [row?, h]
  rfl

/-- What errands do to a row is what becomes of it when they are carried out. -/
theorem row?_carryOutAll (hinline : b.worker.isRunning = false) (hsound : ∀ kind, b.Sound kind)
    (listeners : List ExpirationListener) (now : Millis) (errands : List Errand)
    (kind : BackendKind) (key : Bytes) :
    (b.carryOutAll listeners now errands).row? kind key =
      if b.has kind then Errand.effects now kind key errands (b.row? kind key) else none := by
  cases hhas : b.has kind with
  | true => exact (carryOutAll_direct listeners now errands ⟨hsound kind, hinline, hhas⟩).2 key
  | false =>
    exact row?_of_missing
      (((did_carryOutAll hinline hsound listeners now errands).has kind).trans hhas) key

end Backing

/-! ### What a call records -/

/-- What has expired asks for no change. -/
theorem recordOf?_expiry (config : Config) (expired : List (Bytes × Bytes)) :
    ((expired.flatMap config.expiryErrands).filterMap Errand.job?).filterMap recordOf? = [] := by
  induction expired with
  | nil => rfl
  | cons entry rest ih =>
    rw [List.flatMap_cons, List.filterMap_append, List.filterMap_append, ih, List.append_nil]
    unfold Config.expiryErrands
    cases Message.ofBytes entry.1 entry.2 <;> cases config.persistent <;> rfl

theorem records_turn {α : Type} (t : Turn α) (config : Config) : (t.course config).records = [] :=
  recordOf?_expiry config t.expired

theorem recordOf?_change (kind : BackendKind) (change : Option Change) :
    ((changeErrands kind change).filterMap Errand.job?).filterMap recordOf? =
      change.toList.map fun change => (kind, change) := by
  cases change <;> rfl

namespace Cache

/-- The change that is recorded of a call by a rule, if there is one. -/
def recorded? (c : Cache) (now : Millis) (rule : Rule) (call : Invocation) (outcome : Outcome) :
    Option Change :=
  match rule.kind with
  | .replaceDuration | .resetDuration =>
    match call.keys with
    | [] => none
    | key :: _ =>
      c.durationChange? rule.kind call key
        (Command.run c.config c.codec now c.store (.peek key)).answer
  | kind => c.callChange? kind call outcome

theorem records_recordChange (c : Cache) (now : Millis) (rule : Rule) (call : Invocation)
    (outcome : Outcome) :
    (c.recordChangeCourse now rule call outcome).records =
      (c.recorded? now rule call outcome).toList.map fun change => (rule.backend, change) := by
  have hduration : (c.recordDurationCourse now rule call).records =
      (match call.keys with
        | [] => none
        | key :: _ =>
          c.durationChange? rule.kind call key
            (Command.run c.config c.codec now c.store (.peek key)).answer).toList.map
        fun change => (rule.backend, change) := by
    unfold recordDurationCourse Course.records Course.jobs
    cases call.keys with
    | nil => rfl
    | cons key rest =>
      dsimp only
      rw [List.filterMap_append, List.filterMap_append, recordOf?_change]
      exact congrArg (· ++ _) (recordOf?_expiry c.config _)
  obtain ⟨kind, expectation, backend⟩ := rule
  cases kind with
  | replaceDuration | resetDuration => exact hduration
  | write | removeKeys | removeBySimilarity | removeAll | replaceValue =>
    exact recordOf?_change backend _

/-! ### Which calls pass -/

/-- A command with this result is to be recorded: persistence is on, its method has a rule, and it
has answered what tells of an effect, by the kind of the rule. -/
def Passes (c : Cache) (command : Command) (result : Except CacheError Answer) : Prop :=
  c.config.persistent = true ∧ ∃ call rule answer, command.invocation? = some call ∧
    c.methods.rule? call.method = some rule ∧ result = .ok answer ∧
    rule.kind.expectation.isMet answer.outcome = true

/-- Every rule has the expectation of its kind. -/
def OwnExpectations (c : Cache) : Prop :=
  ∀ method rule, c.methods.rule? method = some rule → rule.expectation = rule.kind.expectation

variable {c : Cache} {now : Millis} {command : Command} {result : Except CacheError Answer}

theorem passes_iff (hown : c.OwnExpectations) :
    c.Passes command result ↔ ∃ recording, c.recording? command result = some recording := by
  constructor
  · rintro ⟨hpersistent, call, rule, answer, hcall, hrule, hresult, hmet⟩
    rw [← hown call.method rule hrule] at hmet
    exact ⟨(rule, call, answer.outcome),
      recording?_eq_some_iff.2 ⟨hpersistent, hcall, hrule, answer, hresult, rfl, hmet⟩⟩
  · rintro ⟨⟨rule, call, outcome⟩, hsome⟩
    obtain ⟨hpersistent, hcall, hrule, answer, hresult, rfl, hmet⟩ :=
      recording?_eq_some_iff.1 hsome
    rw [hown call.method rule hrule] at hmet
    exact ⟨hpersistent, call, rule, answer, hcall, hrule, hresult, hmet⟩

/-- A call that is not recorded asks for no change. -/
theorem records_of_unrecorded
    (h : c.recording? command (command.run c.config c.codec now c.store).answer = none) :
    (c.course now command).records = [] := by
  rw [course_of_unrecorded rfl h, records_turn]

/-- A call that is recorded asks for the change of its rule, if there is one. -/
theorem records_of_recorded {rule : Rule} {call : Invocation} {outcome : Outcome}
    (h : c.recording? command (command.run c.config c.codec now c.store).answer =
      some (rule, call, outcome)) :
    (c.course now command).records =
      ({ c with store := (command.run c.config c.codec now c.store).store }.recorded? now rule call
        outcome).toList.map fun change => (rule.backend, change) := by
  rw [course_of_recorded rfl h, ← records_recordChange]
  unfold Course.records Course.jobs
  rw [List.filterMap_append, List.filterMap_append]
  exact congrArg (· ++ _) (recordOf?_expiry c.config _)

/-- No call asks for more than one change. -/
theorem length_records_course (c : Cache) (now : Millis) (command : Command) :
    (c.course now command).records.length ≤ 1 := by
  cases hrecording : c.recording? command (command.run c.config c.codec now c.store).answer with
  | none => simp [records_of_unrecorded hrecording]
  | some recording =>
    obtain ⟨rule, call, outcome⟩ := recording
    rw [records_of_recorded hrecording, List.length_map]
    exact Option.length_toList_le

end Cache

/-! ### The standard rules -/

/-- The key whose TTL a command changes. -/
def Command.durationKey? : Command → Option String
  | .replaceDuration key _ | .resetDuration key => some key
  | _ => none

namespace Cache

variable {c : Cache} {now : Millis} {command : Command} {call : Invocation} {kind : ChangeKind}

/-- The entry of a key can be read back from a store. -/
def CanPeek (c : Cache) (now : Millis) (s : Store) (key : String) : Prop :=
  ∃ view, (Command.run c.config c.codec now s (.peek key)).answer = .ok (.view (some view))

/-- By the standard rules, a command passes with what it answers just if its method has a rule and
its answer reports an effect. -/
theorem passes_iff_effective {backend : BackendKind} (hpersistent : c.config.persistent = true)
    (hmethods : c.methods = MethodTable.standard backend) (now : Millis) (s : Store)
    (command : Command) :
    let answer := (command.run c.config c.codec now s).answer
    c.Passes command answer ↔
      (∃ call kind, command.invocation? = some call ∧
        MethodTable.standardKind? call.method = some kind) ∧ Command.effective answer = true := by
  intro answer
  constructor
  · rintro ⟨-, call, rule, a, hcall, hrule, hanswer, hmet⟩
    rw [hmethods] at hrule
    obtain ⟨kind, hkind, rfl⟩ := Option.map_eq_some_iff.1 hrule
    have heffective := Command.isMet_outcome hcall hkind (command.yields_of_run hanswer)
    exact ⟨⟨call, kind, hcall, hkind⟩, by rw [hanswer]; exact heffective.symm.trans hmet⟩
  · rintro ⟨⟨call, kind, hcall, hkind⟩, heffective⟩
    have hrule : c.methods.rule? call.method = some (Rule.ofKind kind backend) := by
      rw [hmethods]
      exact congrArg (Option.map _) hkind
    cases hanswer : answer with
    | error e =>
      rw [hanswer] at heffective
      cases heffective
    | ok a =>
      rw [hanswer] at heffective
      have hmet := Command.isMet_outcome hcall hkind (command.yields_of_run hanswer)
      exact ⟨hpersistent, call, _, a, hcall, hrule, rfl, hmet.trans heffective⟩

/-- Of a call that has changed no TTL there is always a change to record. -/
theorem callChange?_eq_some (hcodec : c.changeCodec = Codec.json) (kind : ChangeKind)
    (call : Invocation) (outcome : Outcome) :
    ∃ change, c.callChange? kind call outcome = some change := by
  unfold callChange?
  split
  · exact ⟨_, rfl⟩
  · have hvalue : ∃ value, call.changedValue kind c.changeCodec = .ok value := by
      rw [hcodec]
      unfold Invocation.changedValue
      split <;> exact ⟨_, rfl⟩
    obtain ⟨value, hvalue⟩ := hvalue
    rw [Invocation.change, hvalue]
    exact ⟨_, rfl⟩

/-- Of a call that has changed a TTL there is one if the entry can be read back. -/
theorem durationChange?_of_canPeek (hcodec : c.changeCodec = Codec.json) (call : Invocation)
    (kind : ChangeKind) {s : Store} {key : String} (h : c.CanPeek now s key) :
    ∃ change, c.durationChange? kind call key
      (Command.run c.config c.codec now s (.peek key)).answer = some change := by
  obtain ⟨view, hview⟩ := h
  unfold durationChange?
  rw [hview, hcodec]
  dsimp only
  split
  · exact ⟨_, rfl⟩
  · exact ⟨_, rfl⟩

theorem durationChange?_of_not_canPeek (call : Invocation) (kind : ChangeKind) {s : Store}
    {key : String} (h : ¬ c.CanPeek now s key) :
    c.durationChange? kind call key (Command.run c.config c.codec now s (.peek key)).answer =
      none := by
  unfold durationChange?
  split
  · next view hview => exact absurd ⟨view, hview⟩ h
  · rfl

/-- By the standard rules a change of TTL is recorded as such, and no other call is. -/
theorem recorded?_standard (hcall : command.invocation? = some call)
    (hkind : MethodTable.standardKind? call.method = some kind) (backend : BackendKind)
    (outcome : Outcome) :
    c.recorded? now (Rule.ofKind kind backend) call outcome =
      match command.durationKey? with
      | some key =>
        c.durationChange? kind call key
          (Command.run c.config c.codec now c.store (.peek key)).answer
      | none => c.callChange? kind call outcome := by
  cases command with
  | peek key => cases hcall
  | get key | contains key | ttl key =>
    obtain rfl := Option.some.inj hcall
    cases hkind
  | set | setWithTtl | setIfAbsent | delete | deleteSimilar | deleteAll | replaceDuration
  | resetDuration | replace =>
    obtain rfl := Option.some.inj hcall
    obtain rfl := Option.some.inj hkind
    rfl

/-- By the standard rules there is a change to record of every call, but of a change of TTL only if
the entry can be read back. -/
theorem recorded?_of_standard (hcodec : c.changeCodec = Codec.json)
    (hcall : command.invocation? = some call)
    (hkind : MethodTable.standardKind? call.method = some kind) (now : Millis)
    (backend : BackendKind) (outcome : Outcome) :
    match command.durationKey? with
    | none => ∃ change, c.recorded? now (Rule.ofKind kind backend) call outcome = some change
    | some key =>
      (c.CanPeek now c.store key →
          ∃ change, c.recorded? now (Rule.ofKind kind backend) call outcome = some change) ∧
        (¬ c.CanPeek now c.store key →
          c.recorded? now (Rule.ofKind kind backend) call outcome = none) := by
  rw [recorded?_standard hcall hkind]
  cases command.durationKey? with
  | none => exact callChange?_eq_some hcodec kind call outcome
  | some key =>
    exact ⟨durationChange?_of_canPeek hcodec call kind, durationChange?_of_not_canPeek call kind⟩

/-- By the standard rules, a call that is recorded asks for one change, but a change of TTL for none
if the entry cannot be read back. -/
theorem records_of_standard {backend : BackendKind}
    (hmethods : c.methods = MethodTable.standard backend) (hcodec : c.changeCodec = Codec.json)
    {t : Run} (ht : command.run c.config c.codec now c.store = t)
    {recording : Rule × Invocation × Outcome}
    (hrecording : c.recording? command t.answer = some recording) :
    ∃ change : Option Change,
      (c.course now command).records = change.toList.map (fun change => (backend, change)) ∧
        match command.durationKey? with
        | none => change ≠ none
        | some key =>
          (c.CanPeek now t.store key → change ≠ none) ∧
            (¬ c.CanPeek now t.store key → change = none) := by
  subst ht
  obtain ⟨rule, call, outcome⟩ := recording
  obtain ⟨-, hcall, hrule, -⟩ := recording?_eq_some_iff.1 hrecording
  rw [hmethods] at hrule
  obtain ⟨kind, hkind, rfl⟩ := Option.map_eq_some_iff.1 hrule
  refine ⟨_, records_of_recorded hrecording, ?_⟩
  have hrecorded := recorded?_of_standard
    (c := { c with store := (command.run c.config c.codec now c.store).store }) hcodec hcall hkind
    now backend outcome
  cases hduration : command.durationKey? with
  | none =>
    rw [hduration] at hrecorded
    exact Option.ne_none_iff_exists'.2 hrecorded
  | some key =>
    rw [hduration] at hrecorded
    exact ⟨fun hpeek => Option.ne_none_iff_exists'.2 (hrecorded.1 hpeek), hrecorded.2⟩

/-- What becomes of the rows if no change is recorded. -/
theorem row?_of_unrecorded (hinline : c.backing.worker.isRunning = false)
    (hsound : ∀ kind, c.backing.Sound kind) {t : Run}
    (ht : command.run c.config c.codec now c.store = t) (h : c.recording? command t.answer = none)
    (kind : BackendKind) (key : Bytes) :
    (c.perform now command).2.backing.row? kind key =
      if c.config.persistent = true ∧ c.config.backend = kind ∧ key ∈ t.expired.map (·.1) then none
      else c.backing.row? kind key := by
  rw [perform_eq, course_of_unrecorded ht h]
  refine (Backing.row?_carryOutAll hinline hsound _ _ _ kind key).trans ?_
  rw [Turn.course, effects_expiry]
  cases hhas : c.backing.has kind with
  | true => rfl
  | false => simp [Backing.row?_of_missing hhas]

/-- **Changes are recorded of calls that had an effect.** Jobs are done at once, by backends that
never fail, and every rule has the expectation of its kind.

* No call records more than one change.
* A call that has failed, whose answer tells of no effect, whose method has no rule, or which is
  made without persistence, records none. The rows stay as they are, but for those of keys the call
  has found expired, and those stay as well without persistence.
* By the standard rules, every other call records a change; but a change of TTL none if the entry
  cannot be read back. -/
theorem recorded_if_passed (c : Cache) (now : Millis) (command : Command)
    (hinline : c.backing.worker.isRunning = false) (hsound : ∀ kind, c.backing.Sound kind)
    (hown : c.OwnExpectations) :
    let t := command.run c.config c.codec now c.store
    let c' := (c.perform now command).2
    ∃ submitted, c'.backing.records = c.backing.records ++ submitted ∧ submitted.length ≤ 1 ∧
      (¬ c.Passes command t.answer → submitted = [] ∧ ∀ kind key, c'.backing.row? kind key =
        if c.config.persistent = true ∧ c.config.backend = kind ∧ key ∈ t.expired.map (·.1) then
          none
        else c.backing.row? kind key) ∧
      ∀ backend, c.methods = MethodTable.standard backend → c.backing.has backend = true →
        c.changeCodec = Codec.json → c.Passes command t.answer →
          match command.durationKey? with
          | none => ∃ change, submitted = [(backend, change)]
          | some key =>
            (c.CanPeek now t.store key → ∃ change, submitted = [(backend, change)]) ∧
              (¬ c.CanPeek now t.store key → submitted = []) := by
  intro t c'
  refine ⟨(c.course now command).records.filter fun record => c.backing.has record.1, ?_, ?_, ?_, ?_⟩
  · have hperform : c' = c.take now (c.course now command) :=
      congrArg Prod.snd (perform_eq c now command)
    rw [hperform]
    exact Backing.records_carryOutAll hinline hsound c.listeners.expiration now _
  · exact Nat.le_trans (List.length_filter_le _ _) (length_records_course c now command)
  · intro hfails
    have hunrecorded : c.recording? command t.answer = none :=
      Option.eq_none_iff_forall_ne_some.2 fun recording hsome =>
        hfails ((passes_iff hown).2 ⟨recording, hsome⟩)
    exact ⟨by rw [records_of_unrecorded hunrecorded]; rfl,
      row?_of_unrecorded hinline hsound rfl hunrecorded⟩
  · intro backend hmethods hhas hcodec hpasses
    obtain ⟨recording, hrecording⟩ := (passes_iff hown).1 hpasses
    obtain ⟨change, hrecords, hchange⟩ := records_of_standard hmethods hcodec rfl hrecording
    have hsubmitted :
        (c.course now command).records.filter (fun record => c.backing.has record.1) =
          change.toList.map fun change => (backend, change) := by
      rw [hrecords]
      cases change <;> simp [hhas]
    have hone : change ≠ none → ∃ change', (change.toList.map fun change => (backend, change)) =
        [(backend, change')] := by
      intro hne
      obtain ⟨change', rfl⟩ := Option.ne_none_iff_exists'.1 hne
      exact ⟨change', rfl⟩
    rw [hsubmitted]
    cases hduration : command.durationKey? with
    | none =>
      rw [hduration] at hchange
      exact hone hchange
    | some key =>
      rw [hduration] at hchange
      exact ⟨fun hpeek => hone (hchange.1 hpeek), fun hpeek => by rw [hchange.2 hpeek]; rfl⟩

/-- A key that is over is deleted in vain, and only its row goes; a second earlier, to reset its TTL
is recorded. -/
theorem recorded_if_passed_at_deadline :
    let row : Row := { value := [49], ttl := 60000, expiresAt := 60000 }
    let c : Cache := { new { persistent := true } {}
        { registry := { memory := some (.memory ⟨(∅ : ByteMap Row).insert [107] row⟩) } } with
      store := ((Store.new .sinceCreation).put 0 [107] [49] (.ofSeconds 60)).store }
    (c.perform 60000 (.delete ["k"])).2.backing.records = [] ∧
      (c.perform 60000 (.delete ["k"])).2.backing.row? .memory [107] = none ∧
      ∃ change, (c.perform 59000 (.resetDuration "k")).2.backing.records = [(.memory, change)] := by
  intro row c
  have hsound : ∀ kind, c.backing.Sound kind := by
    intro kind
    refine ⟨rfl, rfl, fun backend hback => ?_⟩
    cases kind <;> cases hback
    trivial
  have hown : c.OwnExpectations := by
    intro method rule hrule
    obtain ⟨kind, -, rfl⟩ := Option.map_eq_some_iff.1 hrule
    rfl
  have hfails : ¬ c.Passes (.delete ["k"])
      (Command.run c.config c.codec 60000 c.store (.delete ["k"])).answer := by
    rintro ⟨-, call, rule, answer, hcall, hrule, hresult, hmet⟩
    obtain rfl := Option.some.inj hcall
    obtain rfl := Option.some.inj hrule
    obtain rfl := Except.ok.inj hresult
    exact absurd hmet (by decide +kernel)
  have hpasses : c.Passes (.resetDuration "k")
      (Command.run c.config c.codec 59000 c.store (.resetDuration "k")).answer :=
    ⟨rfl, _, _, _, rfl, rfl, rfl, by decide +kernel⟩
  obtain ⟨submitted, hrecords, -, hgone, -⟩ :=
    recorded_if_passed c 60000 (.delete ["k"]) rfl hsound hown
  obtain ⟨rfl, hrow⟩ := hgone hfails
  obtain ⟨submitted, hreset, -, -, hstandard⟩ :=
    recorded_if_passed c 59000 (.resetDuration "k") rfl hsound hown
  obtain ⟨change, rfl⟩ := (hstandard .memory rfl rfl rfl hpasses).1 ⟨_, rfl⟩
  exact ⟨hrecords, (hrow .memory [107]).trans (if_pos (by decide +kernel)), change, hreset⟩

end Cache

end ExpiringCache
