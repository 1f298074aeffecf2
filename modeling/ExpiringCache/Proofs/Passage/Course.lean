import ExpiringCache.Proofs.Passage.Basic

/-!
# What a persisting cache records

A cache that persists every method that changes something, with one codec for commands and
changes. A call other than a change of TTL asks for one change at most, and that change follows
from the answer alone (`Cache.course_call`).
-/

namespace ExpiringCache

/-- The methods that change a TTL and nothing else. -/
def Method.isAboutTtl : Method → Bool
  | .replaceDuration | .resetDuration => true
  | _ => false

namespace Cache

/-- The wiring of a cache that persists: persistence is on, every method that changes something
goes to the configured backend, and recovery replays what is there. -/
structure Persisting (c : Cache) : Prop where
  persistent : c.config.persistent = true
  methods : c.methods = MethodTable.standard c.config.backend
  codec : c.codec = Codec.json
  changeCodec : c.changeCodec = Codec.json
  recovery : c.listeners.recovery = [.replay]

/-- A new cache persists if its configuration says so and the replaying listener is bound. -/
theorem persisting_new {config : Config} {listeners : Listeners} (backing : Backing)
    (hpersistent : config.persistent = true) (hrecovery : listeners.recovery = [.replay]) :
    (new config listeners backing).Persisting :=
  ⟨hpersistent, rfl, rfl, rfl, hrecovery⟩

/-- The change recorded of a call with this answer, unless the call has changed a TTL. -/
def changeFor (c : Cache) (call : Invocation) (answer : Except CacheError Answer) :
    Option Change :=
  match MethodTable.standardKind? call.method, answer with
  | some kind, .ok answer =>
    if kind.expectation.isMet answer.outcome then c.callChange? kind call answer.outcome else none
  | _, _ => none

variable {c : Cache} {now : Millis} {command : Command} {call : Invocation}

theorem recordCourse_eq (h : c.Persisting) (s : Store) (call : Invocation) (outcome : Outcome) :
    { c with store := s }.recordCourse now call outcome =
      match MethodTable.standardKind? call.method with
      | some kind =>
        if kind.expectation.isMet outcome then
          { c with store := s }.recordChangeCourse now (Rule.ofKind kind c.config.backend) call outcome
        else ⟨s, []⟩
      | none => ⟨s, []⟩ := by
  have hrule : c.methods.rule? call.method =
      (MethodTable.standardKind? call.method).map fun kind => Rule.ofKind kind c.config.backend := by
    rw [h.methods]
    rfl
  unfold recordCourse
  rw [if_pos h.persistent, hrule]
  cases MethodTable.standardKind? call.method <;> rfl

/-- The course of a turn with a change recorded of it, if there is one. -/
def courseWith {α : Type} (c : Cache) (t : Turn α) (change : Option Change) : Course :=
  ⟨t.store, (t.course c.config).errands ++ changeErrands c.config.backend change⟩

theorem courseWith_none {α : Type} (c : Cache) (t : Turn α) :
    c.courseWith t none = t.course c.config :=
  congrArg (Course.mk t.store) (List.append_nil _)

/-- A call that does not change a TTL asks, apart from what has expired, for its change. -/
theorem course_call (h : c.Persisting) (hcall : command.invocation? = some call)
    (hmethod : call.method.isAboutTtl = false) {t : Run}
    (ht : command.run c.config Codec.json now c.store = t) :
    c.course now command = c.courseWith t (c.changeFor call t.answer) := by
  rw [← h.codec] at ht
  unfold course changeFor
  rw [hcall, ht]
  dsimp only
  cases t.answer with
  | error e =>
    dsimp only
    cases MethodTable.standardKind? call.method <;> exact (courseWith_none c t).symm
  | ok answer =>
    dsimp only
    rw [recordCourse_eq h]
    cases hkind : MethodTable.standardKind? call.method with
    | none => rfl
    | some kind =>
      dsimp only
      split
      · cases kind with
        | replaceDuration =>
          cases hname : call.method <;>
            simp [hname, MethodTable.standardKind?, Method.isAboutTtl] at hkind hmethod
        | resetDuration =>
          cases hname : call.method <;>
            simp [hname, MethodTable.standardKind?, Method.isAboutTtl] at hkind hmethod
        | write => rfl
        | removeKeys => rfl
        | removeBySimilarity => rfl
        | removeAll => rfl
        | replaceValue => rfl
      · rfl

/-- A call that is not looked at asks only for what has expired. -/
theorem course_plain (h : c.Persisting) (hcall : command.invocation? = none) {t : Run}
    (ht : command.run c.config Codec.json now c.store = t) :
    c.course now command = c.courseWith t none := by
  rw [← h.codec] at ht
  unfold course
  rw [hcall, ht, courseWith_none]

/-! ### Changes -/

/-- What is recorded of a call that succeeded and does not write: what its kind says, if the answer
tells that something has changed. -/
theorem changeFor_ok {kind : ChangeKind} (hkind : MethodTable.standardKind? call.method = some kind)
    (hwrite : kind ≠ .write) {value : Option Bytes}
    (hvalue : call.changedValue kind c.changeCodec = .ok value) (answer : Answer) :
    c.changeFor call (.ok answer) =
      if kind.expectation.isMet answer.outcome then
        some
          { kind := kind
            keys := call.changedKeys kind answer.outcome
            value := value
            ttl := call.changedTtl kind c.config.defaultTtl }
      else none := by
  have hchange : c.callChange? kind call answer.outcome =
      some
        { kind := kind
          keys := call.changedKeys kind answer.outcome
          value := value
          ttl := call.changedTtl kind c.config.defaultTtl } := by
    rw [callChange?, if_neg fun hboth => hwrite hboth.1]
    unfold Invocation.change
    rw [hvalue]
    rfl
  unfold changeFor
  rw [hkind, ← hchange]

/-- The call writes a value under a key. -/
structure Writes (call : Invocation) (text : String) (v : Json) : Prop where
  kind : MethodTable.standardKind? call.method = some .write
  keys : call.keys = [text]
  value : call.value = some v

variable {text : String} {v : Json}

/-- A write that is worthy is recorded, and one that is not erases what was recorded. -/
theorem callChange?_write (h : c.Persisting) (hcall : Writes call text v) (outcome : Outcome) :
    c.callChange? .write call outcome =
      if c.config.isWorthy call.ttl then
        some
          { kind := .write
            keys := [Codec.encodeKey text]
            value := some v.printed
            ttl := some (call.ttl.getD c.config.defaultTtl) }
      else some (Change.erase [Codec.encodeKey text]) := by
  unfold callChange?
  cases c.config.isWorthy call.ttl with
  | false => simp [Invocation.erasure, Invocation.byteKeys, hcall.keys]
  | true =>
    simp [Invocation.change, Invocation.changedValue, Invocation.changedKeys,
      Invocation.changedTtl, Invocation.byteKeys, hcall.keys, hcall.value, h.changeCodec,
      Except.map]

end Cache

end ExpiringCache
