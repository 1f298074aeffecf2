import ExpiringCache.Proofs.Codec
import ExpiringCache.Proofs.Errands

/-!
# How an expired entry is handled

Whatever an expired entry holds and whatever becomes of the calls, its handling comes to its end
(`Backing.expiry_handled`): first every listener is told once, in order, if the entry can be decoded,
and then the erasure of the row of its key is asked for once, of the worker or of the backend but
never of both, if there is persistence.
-/

namespace ExpiringCache

/-! ### Telling listeners -/

/-- There is a message about an entry just if both its key and its value can be decoded. -/
theorem Message.ofBytes_eq_ok_iff {key value : Bytes} {m : Message} :
    Message.ofBytes key value = .ok m ↔
      ∃ text v, Codec.decodeKey key = .ok text ∧ Codec.decodeValue value = .ok v ∧
        m = ⟨key, value, text, v⟩ := by
  unfold Message.ofBytes
  cases Codec.decodeKey key with
  | error e => simp
  | ok text =>
    cases Codec.decodeValue value with
    | error e => simp
    | ok v => simp [eq_comm]

/-- How far the handling of an entry has come when listeners have been told about it. -/
def ExpirationReport.told (listeners : List ExpirationListener) (key value : Bytes) :
    ExpirationReport :=
  match Message.ofBytes key value with
  | .ok _ =>
    { stage := .expiring
      decoded := true
      notified := listeners.countP (·.conduct = .succeeds)
      failed := listeners.countP (·.conduct ≠ .succeeds) }
  | .error _ => { stage := .expiring }

theorem ExpirationReport.told_unasked (listeners : List ExpirationListener) (key value : Bytes) :
    (told listeners key value).queued = false ∧ (told listeners key value).erased = false := by
  unfold told
  split <;> exact ⟨rfl, rfl⟩

/-- A listener succeeds or does not. -/
theorem countP_conduct (listeners : List ExpirationListener) :
    listeners.countP (·.conduct = .succeeds) + listeners.countP (·.conduct ≠ .succeeds) =
      listeners.length := by
  rw [List.length_eq_countP_add_countP fun l : ExpirationListener => decide (l.conduct = .succeeds)]
  simp

/-- What listeners are told about an entry. -/
def messages (listeners : List ExpirationListener) (key value : Bytes) : List Event :=
  match Message.ofBytes key value with
  | .ok m => listeners.map (.notified · m)
  | .error _ => []

/-- Where key and value can be decoded, each listener is told once. -/
theorem messages_of_decoded (listeners : List ExpirationListener) {key value : Bytes}
    {text : String} {v : Option Json} (hkey : Codec.decodeKey key = .ok text)
    (hvalue : Codec.decodeValue value = .ok v) :
    let report := ExpirationReport.told listeners key value
    messages listeners key value = listeners.map (.notified · ⟨key, value, text, v⟩) ∧
      report.decoded = true ∧ report.notified = listeners.countP (·.conduct = .succeeds) ∧
      report.notified + report.failed = listeners.length := by
  have hmessage : Message.ofBytes key value = .ok ⟨key, value, text, v⟩ :=
    Message.ofBytes_eq_ok_iff.2 ⟨text, v, hkey, hvalue, rfl⟩
  simp only [messages, ExpirationReport.told, hmessage, true_and]
  exact countP_conduct listeners

/-- Otherwise nobody is told. -/
theorem messages_of_undecoded (listeners : List ExpirationListener) {key value : Bytes}
    (hnone : ¬ ∃ text v, Codec.decodeKey key = .ok text ∧ Codec.decodeValue value = .ok v) :
    let report := ExpirationReport.told listeners key value
    messages listeners key value = [] ∧ report.decoded = false ∧
      report.notified + report.failed = 0 := by
  cases hmessage : Message.ofBytes key value with
  | error e => simp only [messages, ExpirationReport.told, hmessage, true_and]
  | ok m =>
    obtain ⟨text, v, hkey, hvalue, -⟩ := Message.ofBytes_eq_ok_iff.1 hmessage
    exact absurd ⟨text, v, hkey, hvalue⟩ hnone

namespace Backing

variable {b : Backing} {config : Config} {kind : BackendKind}

/-- Takes note of events. -/
def noteAll (b : Backing) (events : List Event) : Backing :=
  { b with journal := b.journal ++ events }

/-- An entry is told about, and then its row is erased. -/
theorem expire_told (b : Backing) (config : Config) (listeners : List ExpirationListener)
    (now : Millis) (key value : Bytes) :
    b.expire config listeners now key value =
      let erased := (b.noteAll (messages listeners key value)).eraseExpired config now key
        (.told listeners key value)
      ({ erased.1 with stage := .cleaned }, erased.2) := by
  unfold expire ExpirationReport.told messages
  cases Message.ofBytes key value with
  | ok m =>
    dsimp only
    rw [tell_eq]
    rfl
  | error e =>
    have hnone : b.noteAll [] = b := by rw [noteAll, List.append_nil]
    dsimp only
    rw [hnone]

/-! ### Erasing the row -/

theorem eraseExpired_volatile (h : config.persistent = false) (now : Millis) (key : Bytes)
    (report : ExpirationReport) : b.eraseExpired config now key report = (report, b) := by
  rw [eraseExpired, if_neg (Bool.eq_false_iff.1 h)]

/-- A running worker takes the erasure, and nothing is done yet. -/
theorem eraseExpired_queued (h : config.persistent = true) {jobs : List (BackendKind × Job)}
    (hrunning : b.worker = .running jobs) (now : Millis) (key : Bytes)
    (report : ExpirationReport) :
    b.eraseExpired config now key report =
      ({ report with queued := true },
        { b with worker := .running (jobs ++ [(config.backend, .erase key)]) }) := by
  simp only [eraseExpired, if_pos h, deliver, submit, hrunning]

/-- Where no worker takes it, the backend is asked at once. -/
theorem eraseExpired_inline (h : config.persistent = true) (hidle : b.worker.isRunning = false)
    (now : Millis) (key : Bytes) (report : ExpirationReport) :
    b.eraseExpired config now key report =
      ({ report with erased := (b.erase config.backend key).1 },
        (b.erase config.backend key).2) := by
  cases hworker : b.worker with
  | absent => simp only [eraseExpired, if_pos h, deliver, submit, hworker, perform]
  | stopped => simp only [eraseExpired, if_pos h, deliver, submit, hworker, perform]
  | running jobs => rw [hworker] at hidle; cases hidle

/-- What was reported of the listeners stays as it is. -/
theorem eraseExpired_told (b : Backing) (config : Config) (now : Millis) (key : Bytes)
    (report : ExpirationReport) :
    let erased := (b.eraseExpired config now key report).1
    erased.decoded = report.decoded ∧ erased.notified = report.notified ∧
      erased.failed = report.failed := by
  unfold eraseExpired
  split
  · split <;> exact ⟨rfl, rfl, rfl⟩
  · exact ⟨rfl, rfl, rfl⟩

/-- A backend that is asked to erase a key, and does not crash, is asked once. -/
theorem erase_noted (hhas : b.has kind = true) (hcalm : b.outage.crashOnErase = false)
    (key : Bytes) : ∃ outcome,
      (b.erase kind key).2.journal = b.journal ++ [.erased kind key outcome] ∧
        (b.erase kind key).1 = outcome.getD false := by
  have hjournal : ∀ b : Backing, b.advance.journal = b.journal := fun b => by
    unfold advance; split <;> rfl
  obtain ⟨backend, hfind⟩ := Option.isSome_iff_exists.1 hhas
  unfold erase
  rw [hfind, hcalm]
  dsimp only
  rw [if_neg Bool.false_ne_true]
  -- An outage, and what the backend answers, with or without success.
  split
  · exact ⟨none, hjournal _, rfl⟩
  · split
    · next erased _ _ => exact ⟨some erased, hjournal _, rfl⟩
    · exact ⟨none, hjournal _, rfl⟩

/-- The backend of a kind erases what it is asked to. -/
structure Erases (b : Backing) (kind : BackendKind) : Prop where
  outage : b.outage.erase = false
  calm : b.outage.crashOnErase = false
  reliable : ∃ backend, b.registry.find? kind = some backend ∧ backend.Reliable

theorem erase_row (h : b.Erases kind) (key : Bytes) :
    (b.erase kind key).1 = (b.row? kind key).isSome ∧
      (b.erase kind key).2.journal =
        b.journal ++ [.erased kind key (some (b.row? kind key).isSome)] ∧
      ∀ k key', (b.erase kind key).2.row? k key' =
        if k = kind ∧ key' = key then none else b.row? k key' := by
  obtain ⟨backend, hfind, hreliable⟩ := h.reliable
  obtain ⟨kept, herase, -, htable⟩ := Backend.erase_reliable hreliable key
  have hrow : b.row? kind key = backend.table.find? key := by rw [row?, hfind]; rfl
  have heq : b.erase kind key = ((b.row? kind key).isSome,
      ((b.setBackend kind kept).note (.erased kind key (some (b.row? kind key).isSome))).advance) := by
    rw [hrow, ← Table.erase_fst]
    simp only [erase, hfind, h.outage, h.calm, herase, Bool.false_eq_true, if_false]
  refine ⟨by rw [heq], ?_, fun k key' => ?_⟩
  · rw [heq]
    unfold advance
    dsimp only
    split <;> rfl
  · rw [heq, row?]
    dsimp only
    rw [registry_advance]
    show ((b.registry.insert kind kept).find? k).bind _ = _
    rw [Registry.find?_insert]
    by_cases hk : k = kind
    · subst hk
      rw [if_pos rfl, row?, hfind]
      show kept.table.find? key' = if k = k ∧ key' = key then none else backend.table.find? key'
      rw [htable, Table.find?_erase]
      simp only [true_and]
    · rw [if_neg hk, if_neg fun hand => hk hand.1, row?]

/-! ### The whole -/

/-- **What is done about an expired entry**, whatever its bytes, its listeners and the durable side:

* If key and value can be decoded, each listener is told once, in order, about just these bytes and
  what they stand for, whatever the listeners before it did; otherwise nobody is told.
* Then, if there is persistence, the erasure of the key is asked for once: a running worker takes it,
  and otherwise the backend is asked at once. Without persistence nothing is asked.
* The entry is reported as cleaned. If the erasure was done at once by a working backend, there is no
  row of the key any more, every other row is as it was, and the report tells whether there was one. -/
theorem expiry_handled (b : Backing) (config : Config) (listeners : List ExpirationListener)
    (now : Millis) (key value : Bytes) :
    let report := (b.expire config listeners now key value).1
    let after := (b.expire config listeners now key value).2
    ∃ told : List Event,
      (∀ text v, Codec.decodeKey key = .ok text → Codec.decodeValue value = .ok v →
        told = listeners.map (.notified · ⟨key, value, text, v⟩) ∧ report.decoded = true ∧
          report.notified = listeners.countP (·.conduct = .succeeds) ∧
          report.notified + report.failed = listeners.length) ∧
      ((¬ ∃ text v, Codec.decodeKey key = .ok text ∧ Codec.decodeValue value = .ok v) →
        told = [] ∧ report.decoded = false ∧ report.notified + report.failed = 0) ∧
      report.stage = .cleaned ∧
      (config.persistent = false →
        after = b.noteAll told ∧ report.queued = false ∧ report.erased = false) ∧
      (config.persistent = true → ∀ jobs, b.worker = .running jobs →
        after = { b.noteAll told with
          worker := .running (jobs ++ [(config.backend, .erase key)]) } ∧
          report.queued = true ∧ report.erased = false) ∧
      (config.persistent = true → b.worker.isRunning = false →
        after = ((b.noteAll told).erase config.backend key).2 ∧ after.worker = b.worker ∧
          report.queued = false ∧
          (b.has config.backend = true → b.outage.crashOnErase = false → ∃ outcome,
            after.journal = b.journal ++ told ++ [.erased config.backend key outcome] ∧
              report.erased = outcome.getD false) ∧
          (b.Erases config.backend →
            report.erased = (b.row? config.backend key).isSome ∧
              after.journal = b.journal ++ told ++
                [.erased config.backend key (some (b.row? config.backend key).isSome)] ∧
              ∀ kind key', after.row? kind key' =
                if kind = config.backend ∧ key' = key then none else b.row? kind key')) := by
  intro report after
  generalize htold : messages listeners key value = told
  have hrun := expire_told b config listeners now key value
  rw [htold] at hrun
  have hreport : report = _ := congrArg Prod.fst hrun
  have hafter : after = _ := congrArg Prod.snd hrun
  have hcounts : report.decoded = (ExpirationReport.told listeners key value).decoded ∧
      report.notified = (ExpirationReport.told listeners key value).notified ∧
      report.failed = (ExpirationReport.told listeners key value).failed := by
    rw [hreport]
    exact eraseExpired_told (b.noteAll told) config now key _
  obtain ⟨hdecoded, hnotified, hfailed⟩ := hcounts
  refine ⟨told, fun text v hkey hvalue => ?_, fun hnone => ?_, by rw [hreport], fun hvolatile => ?_,
    fun hpersistent jobs hrunning => ?_, fun hpersistent hidle => ?_⟩
  · rw [hdecoded, hnotified, hfailed, ← htold]
    exact messages_of_decoded listeners hkey hvalue
  · rw [hdecoded, hnotified, hfailed, ← htold]
    exact messages_of_undecoded listeners hnone
  · rw [hreport, hafter]
    dsimp only
    rw [eraseExpired_volatile hvolatile]
    exact ⟨rfl, ExpirationReport.told_unasked listeners key value⟩
  · rw [hreport, hafter]
    dsimp only
    rw [eraseExpired_queued (b := b.noteAll told) hpersistent hrunning]
    exact ⟨rfl, rfl, (ExpirationReport.told_unasked listeners key value).2⟩
  · have hworker : after.worker = b.worker := by
      rw [hafter]
      dsimp only
      rw [eraseExpired_inline (b := b.noteAll told) hpersistent hidle]
      exact worker_perform (b.noteAll told) now config.backend (.erase key)
    rw [eraseExpired_inline (b := b.noteAll told) hpersistent hidle] at hreport hafter
    rw [hreport]
    refine ⟨hafter, hworker, (ExpirationReport.told_unasked listeners key value).1,
      fun hhas hcalm => ?_, fun herases => ?_⟩
    · rw [hafter]
      exact erase_noted (b := b.noteAll told) hhas hcalm key
    · rw [hafter]
      exact erase_row (b := b.noteAll told) ⟨herases.outage, herases.calm, herases.reliable⟩ key

/-- An entry about which one listener fails, one crashes and one succeeds, and whose row is in a
table in memory. -/
theorem expiry_handled_row :
    let listeners := [.custom "a" .fails, .custom "b" .crashes, .custom "c" .succeeds]
    let key := Codec.encodeKey "k"
    let value := (Json.int 1).printed
    let row := Row.fresh 0 value (Duration.ofMillis 60000)
    let b : Backing := { registry := { memory := some (.memory (Table.empty.insert key row)) } }
    let config : Config := { persistent := true }
    let report := (b.expire config listeners 60000 key value).1
    let after := (b.expire config listeners 60000 key value).2
    report.notified = 1 ∧ report.notified + report.failed = 3 ∧ report.erased = true ∧
      after.row? .memory key = none := by
  intro listeners key value row b config report after
  obtain ⟨told, hdecoded, -, -, -, -, hinline⟩ := expiry_handled b config listeners 60000 key value
  obtain ⟨-, -, hnotified, hall⟩ := hdecoded "k" (some (.int 1)) (Codec.decodeKey_encodeKey "k")
    (Codec.decodeValue_printed (by decide))
  obtain ⟨-, -, -, -, herased⟩ := hinline rfl rfl
  obtain ⟨hwas, -, hrow⟩ := herased ⟨rfl, rfl, _, rfl, trivial⟩
  have hrecorded : b.row? .memory key = some row :=
    (Table.find?_insert Table.empty key row key).trans (if_pos rfl)
  rw [hrecorded] at hwas
  exact ⟨hnotified, hall, hwas, (hrow .memory key).trans (if_pos ⟨rfl, rfl⟩)⟩

end Backing

end ExpiringCache
