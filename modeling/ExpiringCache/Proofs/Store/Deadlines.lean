import ExpiringCache.Proofs.Store.Accounts

/-!
# Deadlines

What somebody knows of the TTL of a key who sees which operations are carried out and what they
answer: the TTL it was written with, the one given last, and when that one was started (`Term`). A
successful write, restore or change of the TTL starts it, and under one of the policies so does a
read; nothing else does (`Operation.starts`). If the key has an entry, it has just that term
(`Store.Termed`), so that deadlines can be told from the history alone (`Store.deadlines`).
-/

namespace ExpiringCache

/-- A TTL that runs. -/
structure Term where
  /-- The TTL the entry was written with. -/
  written : Duration
  /-- The TTL given last. -/
  ttl : Duration
  /-- When it was started. -/
  since : Millis

/-- When the TTL is over. -/
def Term.deadline (term : Term) : Millis := min Clock.latest (term.since + term.ttl.millis)

/-- The term of an entry. -/
def Entry.term (e : Entry) : Term := ⟨e.writtenTtl, e.ttl, e.clockStart⟩

/-- To hold a length of time before it is added and not only afterwards makes no difference. -/
theorem Entry.expiresAt_eq_deadline (e : Entry) : e.expiresAt = e.term.deadline := by
  have hheld : ∀ latest start d : Nat, min latest (start + min latest d) = min latest (start + d) :=
    fun _ _ _ => by omega
  exact hheld Clock.latest e.clockStart e.ttl.millis

namespace Store

/-- How an operation starts the TTL of a key. -/
inductive Start where
  /-- For an entry that it makes. -/
  | made (written ttl : Duration)
  /-- With another TTL. -/
  | changed (ttl : Duration)
  /-- With the TTL the entry was written with. -/
  | reset
  /-- With the same TTL. -/
  | read

/-- The term after a start. -/
def Start.note (now : Millis) : Start → Option Term → Option Term
  | .made written ttl, _ => some ⟨written, ttl, now⟩
  | .changed ttl, term => term.map fun t => { t with ttl := ttl, since := now }
  | .reset, term => term.map fun t => { t with ttl := t.written, since := now }
  | .read, term => term.map fun t => { t with since := now }

namespace Operation

/-- The key whose TTL an operation started, by its answer. -/
def starts (policy : ExpiryPolicy) : Operation → Result → Option (Bytes × Start)
  | .put key _ lifetime, .previous (.ok _) => some (key, .made lifetime lifetime)
  | .putIfAbsent key _ lifetime, .stored (.ok true) => some (key, .made lifetime lifetime)
  | .restore key _ writtenTtl remaining, .stored (.ok true) =>
    some (key, .made writtenTtl remaining)
  | .replaceTtl key lifetime, .flag true => some (key, .changed lifetime)
  | .resetTtl key, .flag true => some (key, .reset)
  | .get key, .value (some _) => if policy = .sinceAccess then some (key, .read) else none
  | _, _ => none

/-- The operation started the TTL of the key, by its answer. -/
def Starts (policy : ExpiryPolicy) (op : Operation) (answer : Result) (key : Bytes) : Prop :=
  ∃ start, op.starts policy answer = some (key, start)

/-- The term of a key after an operation, by its answer. -/
def note (policy : ExpiryPolicy) (now : Millis) (key : Bytes) (op : Operation) (answer : Result)
    (term : Option Term) : Option Term :=
  match op.starts policy answer with
  | some (k, start) => if k = key then start.note now term else term
  | none => term

end Operation

/-- The term of a key after operations on a store, from its term before. -/
def termFrom (s : Store) (key : Bytes) (term : Option Term) :
    List (Millis × Operation) → Option Term
  | [] => term
  | step :: rest =>
    let t := s.operate step.1 step.2
    t.store.termFrom key (step.2.note s.policy step.1 key t.answer term) rest

/-- Operations at readings from `now` to `later`, none of which starts the TTL of the key, or takes
a live entry of it out of the store. -/
def Undisturbed (s : Store) (key : Bytes) (now later : Millis) : List (Millis × Operation) → Prop
  | [] => now ≤ later
  | step :: rest =>
    let t := s.operate step.1 step.2
    now ≤ step.1 ∧ ¬ step.2.Starts s.policy t.answer key ∧
      (∀ e, s.live? step.1 key = some e → step.2.Looks key → step.2.hands key e = none) ∧
      t.store.Undisturbed key step.1 later rest

/-- The entry of the key, if there is one, has this term. -/
def Termed (s : Store) (key : Bytes) (term : Option Term) : Prop :=
  ∀ e, s.entries.find? key = some e → e.policy = s.policy ∧ term = some e.term

variable {s : Store} {now : Millis} {key : Bytes} {op : Operation} {term : Option Term}

/-! ### One operation -/

/-- What answers say was started. -/
theorem starts_eq (s : Store) (now : Millis) (op : Operation) :
    op.starts s.policy (s.operate now op).answer =
      match op with
      | .put key value ttl =>
        if refusal? key value = none then some (key, .made ttl ttl) else none
      | .putIfAbsent key value ttl =>
        if refusal? key value = none ∧ s.live? now key = none then some (key, .made ttl ttl)
        else none
      | .restore key value writtenTtl remaining =>
        if refusal? key value = none ∧ s.live? now key = none
        then some (key, .made writtenTtl remaining) else none
      | .replaceTtl key ttl =>
        if s.live? now key ≠ none then some (key, .changed ttl) else none
      | .resetTtl key => if s.live? now key ≠ none then some (key, .reset) else none
      | .get key =>
        if s.live? now key ≠ none ∧ s.policy = .sinceAccess then some (key, .read) else none
      | _ => none := by
  cases op with
  | put key value ttl =>
    cases hrefusal : refusal? key value with
    | some refusal =>
      simp [operate, Turn.map, put_refused hrefusal, idle, Operation.starts, hrefusal]
    | none => simp [operate, Turn.map, put_answer hrefusal, Operation.starts, hrefusal]
  | putIfAbsent key value | restore key value =>
    cases hrefusal : refusal? key value with
    | some refusal =>
      simp [operate, Turn.map, putIfAbsent, restore, insertAbsent, Entry.restored, Entry.fresh,
        hrefusal, idle, Operation.starts]
    | none =>
      cases hlive : s.live? now key <;>
        simp [operate, Turn.map, putIfAbsent, restore, insertAbsent, Entry.restored, Entry.fresh,
          hrefusal, hlive, Operation.starts]
  | replaceTtl key | resetTtl key =>
    cases hlive : s.live? now key <;>
      simp [operate, Turn.map, replaceTtl, resetTtl, change_answer, hlive, Operation.starts]
  | get key =>
    cases hlive : s.live? now key <;>
      simp [operate, Turn.map, get_answer, hlive, Operation.starts]
  | replace | peek | contains | ttl | remove | removeWhere | clear | sweep => rfl

/-- A TTL is started only under a key that the operation looks at. -/
theorem looks_of_starts (h : op.Starts s.policy (s.operate now op).answer key) :
    op.Looks key := by
  obtain ⟨start, hstart⟩ := h
  rw [starts_eq] at hstart
  cases op with
  | put | putIfAbsent | restore | replaceTtl | resetTtl | get =>
    simp only at hstart
    split at hstart
    · next hdone => simp_all [Operation.Looks]
    · cases hstart
  | replace | peek | contains | ttl | remove | removeWhere | clear | sweep => cases hstart

theorem note_of_not_starts {answer : Result} (h : ¬ op.Starts s.policy answer key) :
    op.note s.policy now key answer term = term := by
  unfold Operation.note
  split
  · next k start hstart =>
    refine if_neg fun hkey => h ⟨start, ?_⟩
    rw [hstart, hkey]
  · rfl

theorem term_touch (e : Entry) (now : Millis) :
    (e.touch now).term =
      if e.policy = .sinceAccess then { e.term with since := now } else e.term := by
  unfold Entry.touch
  split
  · next h => rw [if_pos h]; rfl
  · next h => rw [if_neg (by rw [h]; exact nofun)]

/-- A key that is looked at holds afterwards an entry with the term that is noted, if any. -/
theorem note_next (hlooks : op.Looks key)
    (hlive : ∀ e, s.live? now key = some e → e.policy = s.policy ∧ term = some e.term) {e' : Entry}
    (hnext : op.next s.policy now key (s.live? now key) = some e') :
    e'.policy = s.policy ∧
      op.note s.policy now key (s.operate now op).answer term = some e'.term := by
  rw [Operation.note, starts_eq]
  cases op with
  | put =>
    obtain ⟨hrefusal, rfl⟩ := hlooks
    cases hnext
    simp [hrefusal, Start.note, Entry.term, Entry.fresh]
  | putIfAbsent | restore =>
    obtain ⟨hrefusal, rfl⟩ := hlooks
    cases h : s.live? now key with
    | some e =>
      rw [h] at hnext
      cases hnext
      simp [h, hlive e h]
    | none =>
      rw [h] at hnext
      cases hnext
      simp [hrefusal, h, Start.note, Entry.term, Entry.fresh, Entry.restored]
  | replace =>
    obtain ⟨e, h, rfl⟩ := Option.map_eq_some_iff.1 hnext
    exact hlive e h
  | replaceTtl | resetTtl =>
    obtain rfl := hlooks
    obtain ⟨e, h, rfl⟩ := Option.map_eq_some_iff.1 hnext
    obtain ⟨hpolicy, rfl⟩ := hlive e h
    simp [h, Start.note, Entry.term, Entry.resetTtl, Entry.replaceTtl, hpolicy]
  | get =>
    obtain rfl := hlooks
    obtain ⟨e, h, rfl⟩ := Option.map_eq_some_iff.1 hnext
    obtain ⟨hpolicy, rfl⟩ := hlive e h
    have htouch : (e.touch now).policy = e.policy := by unfold Entry.touch; split <;> rfl
    refine ⟨htouch.trans hpolicy, ?_⟩
    rw [term_touch, hpolicy]
    by_cases haccess : s.policy = .sinceAccess <;> simp [h, haccess, Start.note]
  | removeWhere test =>
    exact hlive e' (Option.filter_eq_some_iff.1 hnext).1
  | peek | contains | ttl | sweep => exact hlive e' hnext
  | remove | clear => cases hnext

/-- **A step of the terms.** -/
theorem Termed.operate (h : s.Termed key term) (now : Millis) (op : Operation) :
    (s.operate now op).store.Termed key
      (op.note s.policy now key (s.operate now op).answer term) := by
  intro e' he'
  have hacts := operate_acts s now op
  rw [hacts.policy]
  by_cases hlooks : op.Looks key
  · rw [hacts.inside key hlooks] at he'
    exact note_next hlooks (fun e he => h e (live?_eq_some_iff.1 he).1) he'
  · rw [hacts.outside key hlooks] at he'
    rw [note_of_not_starts fun hstarts => hlooks (looks_of_starts hstarts)]
    exact h e' he'

theorem policy_after (steps : List (Millis × Operation)) :
    ∀ s : Store, (s.after steps).policy = s.policy := by
  induction steps with
  | nil => exact fun _ => rfl
  | cons step rest ih => exact fun s => (ih _).trans (operate_acts s step.1 step.2).policy

/-- **A history of the terms.** -/
theorem Termed.history (steps : List (Millis × Operation)) :
    ∀ {s : Store} {term : Option Term}, s.Termed key term →
      (s.after steps).Termed key (s.termFrom key term steps) := by
  induction steps with
  | nil => exact fun h => h
  | cons step rest ih => exact fun h => ih (h.operate step.1 step.2)

/-- An entry whose TTL was not started was there before, and is due when it was. -/
theorem Termed.expiresAt_eq (h : s.Termed key term)
    (hstarts : ¬ op.Starts s.policy (s.operate now op).answer key) {e' : Entry}
    (he' : (s.operate now op).store.entries.find? key = some e') :
    ∃ e, s.entries.find? key = some e ∧ e'.expiresAt = e.expiresAt := by
  have hterm : s.Termed key ((s.entries.find? key).map Entry.term) := by
    intro e he
    exact ⟨(h e he).1, by rw [he]; rfl⟩
  obtain ⟨-, hnoted⟩ := hterm.operate now op e' he'
  rw [note_of_not_starts hstarts] at hnoted
  obtain ⟨e, he, hsame⟩ := Option.map_eq_some_iff.1 hnoted
  exact ⟨e, he, by rw [e'.expiresAt_eq_deadline, e.expiresAt_eq_deadline, hsame]⟩

/-! ### Undisturbed keys -/

/-- From `now` on the key is live until `deadline`, and no longer. -/
def LiveUntil (s : Store) (key : Bytes) (now deadline : Millis) : Prop :=
  ∀ later, now ≤ later → ((s.live? later key).isSome = true ↔ later < deadline)

/-- A live entry that is not handed over stays. -/
theorem next_of_hands {e : Entry} (h : op.hands key e = none) :
    (op.next s.policy now key (some e)).isSome = true := by
  cases op with
  | removeWhere test =>
    cases htest : test key with
    | true => simp [Operation.hands, htest] at h
    | false => simp [Operation.next, htest]
  | put | remove | clear => cases h
  | putIfAbsent | restore | replace | get | peek | contains | ttl | replaceTtl | resetTtl | sweep =>
    rfl

theorem isSome_live?_of_find? {e : Entry} (h : s.entries.find? key = some e) (now : Millis) :
    (s.live? now key).isSome = true ↔ now < e.expiresAt := by
  rw [live?_of_find? h, ← Nat.not_le, ← Entry.isExpiredAt_iff]
  cases e.isExpiredAt now <;> simp

/-- An operation that does not disturb the key leaves it live for as long as it was. -/
theorem LiveUntil.operate {reading deadline : Millis} (h : s.LiveUntil key now deadline)
    (hterm : s.Termed key term) (hle : now ≤ reading)
    (hstarts : ¬ op.Starts s.policy (s.operate reading op).answer key)
    (hstays : ∀ e, s.live? reading key = some e → op.Looks key → op.hands key e = none) :
    (s.operate reading op).store.LiveUntil key reading deadline := by
  intro later hlater
  have hacts := operate_acts s reading op
  refine Iff.trans ?_ (h later (Nat.le_trans hle hlater))
  by_cases hlooks : op.Looks key
  · cases hafter : (s.operate reading op).store.entries.find? key with
    | some e' =>
      obtain ⟨e, he, hsame⟩ := hterm.expiresAt_eq hstarts hafter
      rw [isSome_live?_of_find? hafter, isSome_live?_of_find? he, hsame]
    | none =>
      have hdead : s.live? reading key = none := by
        refine Option.eq_none_iff_forall_ne_some.2 fun e he => ?_
        have hnext : (op.next s.policy reading key (some e)).isSome = true :=
          next_of_hands (hstays e he hlooks)
        rw [← he, ← hacts.inside key hlooks, hafter] at hnext
        cases hnext
      have hlast : s.live? later key = none := by rw [live?_later hlater, hdead]; rfl
      rw [hlast, live?, hafter]
      rfl
  · rw [live?, hacts.outside key hlooks, live?]

theorem LiveUntil.history {later deadline : Millis} (steps : List (Millis × Operation)) :
    ∀ {s : Store} {now : Millis} {term : Option Term}, s.LiveUntil key now deadline →
      s.Termed key term → s.Undisturbed key now later steps →
      (((s.after steps).live? later key).isSome = true ↔ later < deadline) := by
  induction steps with
  | nil => exact fun h _ hle => h later hle
  | cons step rest ih =>
    intro s now term h hterm hundisturbed
    obtain ⟨hle, hstarts, hstays, hrest⟩ := hundisturbed
    exact ih (h.operate hterm hle hstarts hstays) (hterm.operate step.1 step.2) hrest

/-- **Deadlines by history.** Take any history of a new store, at any readings of the clock, and a
key:

* If the key has an entry, it expires when the TTL given last is over, counted in whole milliseconds
  from where it was started and held at the last instant the clock can tell.
* An operation that does not start the TTL of the key leaves its deadline where it is: an entry that
  the key has afterwards it had before, and with that deadline.
* If the key is said to have time left, that is some time; and if the clock does not go back then,
  and no operation starts the TTL of the key or takes its live entry out, the key is live for just
  that time. -/
theorem deadlines (policy : ExpiryPolicy) (steps : List (Millis × Operation)) (key : Bytes) :
    let s := (Store.new policy).after steps
    (∀ e, s.entries.find? key = some e →
      ∃ term, (Store.new policy).termFrom key none steps = some term ∧
        e.expiresAt = min Clock.latest (term.since + term.ttl.millis)) ∧
    (∀ now op, ¬ op.Starts policy (s.operate now op).answer key →
      ∀ e', (s.operate now op).store.entries.find? key = some e' →
        ∃ e, s.entries.find? key = some e ∧ e'.expiresAt = e.expiresAt) ∧
    ∀ now left, (s.ttl now key).answer = some left →
      0 < left.nanos ∧
      ∀ more later, (s.ttl now key).store.Undisturbed key now later more →
        (((s.ttl now key).store.after more).contains later key).answer =
          decide (later < now + left.millis) := by
  intro s
  have hpolicy : s.policy = policy := policy_after steps _
  have hterm : s.Termed key ((Store.new policy).termFrom key none steps) :=
    Termed.history steps fun e he => by cases he
  refine ⟨fun e he => ⟨e.term, (hterm e he).2, e.expiresAt_eq_deadline⟩,
    fun now op hstarts e' he' => hterm.expiresAt_eq (by rwa [hpolicy]) he',
    fun now left hleft => ?_⟩
  rw [ttl_answer] at hleft
  obtain ⟨e, hlive, rfl⟩ := Option.map_eq_some_iff.1 hleft
  obtain ⟨hfind, hfresh⟩ := live?_eq_some_iff.1 hlive
  have hearly : now < e.expiresAt := lt_expiresAt hfresh
  have hend : now + (e.remaining now).millis = e.expiresAt := by
    rw [Entry.remaining, Clock.millis_left, Nat.add_sub_cancel' (Nat.le_of_lt hearly)]
  refine ⟨Nat.mul_pos (Nat.sub_pos_of_lt hearly) (by decide), fun more later hundisturbed => ?_⟩
  have hkept : (s.ttl now key).store.entries.find? key = some e :=
    (ttl_acts.inside key rfl).trans hlive
  have huntil : (s.ttl now key).store.LiveUntil key now e.expiresAt := fun later _ =>
    isSome_live?_of_find? hkept later
  have htermed : (s.ttl now key).store.Termed key _ := hterm.operate now (.ttl key)
  rw [contains_answer, hend, Bool.eq_iff_iff, decide_eq_true_iff]
  exact LiveUntil.history more huntil htermed hundisturbed

/-- A key with ten seconds that is read after four of them expires at fourteen; its value may be
replaced, and other keys written, until then. -/
theorem deadlines_read :
    let steps := [(0, .put [107] [49] (.ofSeconds 10)), (4000, .get [107])]
    let s := (Store.new .sinceAccess).after steps
    (∃ term, (Store.new .sinceAccess).termFrom [107] none steps = some term ∧
        14000 = min Clock.latest (term.since + term.ttl.millis)) ∧
      (s.ttl 6000 [107]).answer = some (.ofSeconds 8) ∧
      ∀ later, 9000 ≤ later →
        (((s.ttl 6000 [107]).store.after [(7000, .replace [107] [50]),
          (8000, .put [108] [51] .zero), (9000, .sweep)]).contains later [107]).answer =
          decide (later < 14000) := by
  intro steps s
  obtain ⟨hterm, -, hleft⟩ := deadlines .sinceAccess steps [107]
  have hentry : s.entries.find? [107] =
      some ⟨[49], 0, 4000, .ofSeconds 10, .ofSeconds 10, .sinceAccess⟩ := by decide +kernel
  have height : (s.ttl 6000 [107]).answer = some (.ofSeconds 8) := by decide +kernel
  refine ⟨hterm _ hentry, height, fun later hlater => (hleft 6000 _ height).2 _ later ?_⟩
  exact ⟨by decide, fun ⟨_, h⟩ => absurd h nofun, fun _ _ _ => rfl,
    by decide, fun h => absurd (looks_of_starts h).2 (by decide), fun _ _ h => absurd h.2 (by decide),
    by decide, fun ⟨_, h⟩ => absurd h nofun, fun _ _ _ => rfl, hlater⟩

end Store

end ExpiringCache
