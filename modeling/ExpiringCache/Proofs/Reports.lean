import ExpiringCache.Proofs.Session

/-!
# What is reported

The entries that requests have found expired are reported to listeners (`Cache.reports`), each to
all of them. This is what the journal says of listeners, whatever becomes of jobs
(`Cache.told_serveAll`).
-/

namespace ExpiringCache

/-- What listeners are told by an errand. -/
def Errand.message? : Errand → Option Message
  | .tell m => some m
  | .hand _ _ => none

/-- The reports of a course. -/
def Course.messages (course : Course) : List Message := course.errands.filterMap Errand.message?

/-- The reports of requests, in order. -/
def Cache.reports : Cache → List (Millis × Request) → List Message
  | _, [] => []
  | c, first :: rest =>
    (c.requestCourse first.1 first.2).messages ++ (c.serve first.1 first.2).2.reports rest

theorem Cache.reports_append (xs ys : List (Millis × Request)) : ∀ c : Cache,
    c.reports (xs ++ ys) = c.reports xs ++ (c.serveAll xs).2.reports ys := by
  induction xs with
  | nil => exact fun _ => rfl
  | cons first rest ih =>
    intro c
    rw [List.cons_append, reports, reports, ih, List.append_assoc]
    rfl

/-! ### Reports of expired entries -/

/-- The message about an entry, if it can be decoded. -/
def message? (entry : Bytes × Bytes) : Option Message :=
  (Message.ofBytes entry.1 entry.2).toOption

/-- A change that is recorded is not reported. -/
theorem message?_changeErrands (kind : BackendKind) (change : Option Change) :
    (changeErrands kind change).filterMap Errand.message? = [] := by
  cases change <;> rfl

theorem messages_turn {α : Type} (t : Turn α) (config : Config) :
    (t.course config).messages = t.expired.filterMap message? := by
  unfold Course.messages Turn.course
  dsimp only
  induction t.expired with
  | nil => rfl
  | cons entry rest ih =>
    rw [List.flatMap_cons, List.filterMap_append, ih, Config.expiryErrands, List.filterMap_cons,
      message?]
    cases Message.ofBytes entry.1 entry.2 <;> cases config.persistent <;> rfl

/-! ### What the journal says -/

/-- The listener that an event is about, and what it was told. -/
def Event.told? : Event → Option (ExpirationListener × Message)
  | .notified l m => some (l, m)
  | _ => none

namespace Backing

variable {b : Backing}

/-- What listeners were told, in order. -/
def told (b : Backing) : List (ExpirationListener × Message) := b.journal.filterMap Event.told?

@[simp] theorem told_advance (b : Backing) : b.advance.told = b.told := by
  unfold advance
  split <;> rfl

theorem told_note {event : Event} (h : event.told? = none) (b : Backing) :
    (b.note event).told = b.told := by
  show (b.journal ++ [event]).filterMap Event.told? = _
  rw [List.filterMap_append, List.filterMap_cons, h]
  exact List.append_nil _

/-- Backends tell nobody anything. -/
theorem told_perform (b : Backing) (now : Millis) (kind : BackendKind) (job : Job) :
    (b.perform now kind job).2.told = b.told := by
  have hset : ∀ backend, (b.setBackend kind backend).told = b.told := fun _ => rfl
  cases job with
  | apply change =>
    unfold perform apply
    dsimp only
    -- There is no such backend; a crash; an outage; and what the backend answers.
    split
    · rfl
    split
    · exact told_advance b
    split
    · rw [told_advance, told_note rfl]
    split <;> rw [told_advance, told_note rfl, hset]
  | erase key =>
    unfold perform erase
    dsimp only
    split
    · rfl
    split
    · exact told_advance b
    split
    · rw [told_advance, told_note rfl]
    split <;> rw [told_advance, told_note rfl, hset]

theorem told_carryOut (listeners : List ExpirationListener) (now : Millis) (b : Backing)
    (errand : Errand) :
    (b.carryOut listeners now errand).told =
      b.told ++ errand.message?.toList.flatMap fun m => listeners.map fun l => (l, m) := by
  cases errand with
  | tell m =>
    show (b.tell listeners m).2.journal.filterMap Event.told? = _
    rw [tell_eq, List.filterMap_append, List.filterMap_map]
    simp [told, Event.told?, Errand.message?, Function.comp_def]
  | hand kind job =>
    show (b.deliver now kind job).2.told = b.told ++ []
    rw [List.append_nil]
    cases hworker : b.worker.isRunning with
    | false => rw [deliver_inline hworker, told_perform]
    | true =>
      cases hjobs : b.worker with
      | running jobs =>
        rw [deliver_running hjobs]
        rfl
      | absent | stopped => rw [hjobs] at hworker; cases hworker

theorem told_carryOutAll (listeners : List ExpirationListener) (now : Millis)
    (errands : List Errand) : ∀ b : Backing,
    (b.carryOutAll listeners now errands).told =
      b.told ++ (errands.filterMap Errand.message?).flatMap fun m =>
        listeners.map fun l => (l, m) := by
  induction errands with
  | nil => exact fun b => (List.append_nil _).symm
  | cons errand rest ih =>
    intro b
    show ((b.carryOut listeners now errand).carryOutAll listeners now rest).told = _
    rw [ih, told_carryOut, List.append_assoc, ← List.flatMap_append]
    cases errand <;> rfl

end Backing

/-- **Listeners are told what is reported**, each of them about every report, in order. -/
theorem Cache.told_serveAll (steps : List (Millis × Request)) : ∀ c : Cache,
    (c.serveAll steps).2.backing.told =
      c.backing.told ++ (c.reports steps).flatMap fun m =>
        c.listeners.expiration.map fun l => (l, m) := by
  induction steps with
  | nil => exact fun c => (List.append_nil _).symm
  | cons step rest ih =>
    intro c
    have hserve : (c.serve step.1 step.2).2 = c.take step.1 (c.requestCourse step.1 step.2) :=
      congrArg Prod.snd (serve_eq c step.1 step.2)
    show ((c.serve step.1 step.2).2.serveAll rest).2.backing.told = _
    rw [ih, reports, List.flatMap_append, ← List.append_assoc, hserve]
    exact congrArg (· ++ _) (Backing.told_carryOutAll c.listeners.expiration step.1 _ c.backing)

end ExpiringCache
