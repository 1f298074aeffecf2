import ExpiringCache.Proofs.Command
import ExpiringCache.Proofs.Errands
import ExpiringCache.Proofs.Json.Depth
import ExpiringCache.Proofs.Session

/-!
# Values as they were given

What somebody knows of the values of keys who sees commands and their answers: the value last given
to each key (`Given`). The store holds just that value, as its text (`Store.Holds`). So what reads
answer of a live key is decided by the value it was last given: they answer it, unless it is nested
deeper than values are read; then they fail (`Cache.read_back`).
-/

namespace ExpiringCache

/-- The key that a command has given a value, by its answer. A replacement fails by the codec if the
value it took out cannot be read; it has put in its own value by then. -/
def Command.gives : Command → Except CacheError Answer → Option (String × Json)
  | .set text v, .ok _ | .setWithTtl text v _, .ok _ => some (text, v)
  | .setIfAbsent text v _, .ok (.flag true) => some (text, v)
  | .replace text v, .ok (.value (some _)) | .replace text v, .error (.codec _) => some (text, v)
  | _, _ => none

/-- The value last given to each key. -/
abbrev Given := String → Option Json

namespace Given

/-- No key was given a value. -/
def nothing : Given := fun _ => none

/-- Takes note of a value. -/
def note (given : Given) (text : String) (v : Json) : Given :=
  fun t => if t = text then some v else given t

/-- The values last given, after a request that was answered so. -/
def after (given : Given) : Request → Reply → Given
  | .call command, some answer =>
    match command.gives answer with
    | some (text, v) => given.note text v
    | none => given
  | _, _ => given

theorem after_of_gives {given : Given} {command : Command} {answer : Except CacheError Answer}
    {text : String} {v : Json} (h : command.gives answer = some (text, v)) :
    given.after (.call command) (some answer) = given.note text v := by
  simp only [after, h]

theorem after_of_not_gives {given : Given} {command : Command}
    {answer : Except CacheError Answer} (h : command.gives answer = none) :
    given.after (.call command) (some answer) = given := by
  simp only [after, h]

end Given

/-- The values last given after requests, by those given before. -/
def Cache.givenFrom : Cache → Given → List (Millis × Request) → Given
  | _, given, [] => given
  | c, given, first :: rest =>
    let served := c.serve first.1 first.2
    served.2.givenFrom (given.after first.2 served.1) rest

namespace Store

variable {α : Type} {s : Store} {now : Millis} {given : Given} {text : String} {v : Json}
  {on : Bytes → Prop} {next : Bytes → Option Entry → Option Entry} {t : Turn α}

/-- What the entry of a key holds is the text of the value last given to it. -/
def Holds (s : Store) (given : Given) : Prop :=
  ∀ key e, s.entries.find? key = some e →
    ∃ text v, key = Codec.encodeKey text ∧ given text = some v ∧ v.isExact = true ∧
      e.value = v.printed

theorem Holds.of_find? {s' : Store} (h : s.Holds given)
    (hfind : ∀ key e', s'.entries.find? key = some e' →
      ∃ e, s.entries.find? key = some e ∧ e'.value = e.value) : s'.Holds given := by
  intro key e' he'
  obtain ⟨e, he, hvalue⟩ := hfind key e' he'
  rw [hvalue]
  exact h key e he

/-- The value of a live key. -/
theorem Holds.live (h : s.Holds given) {e : Entry}
    (hlive : s.live? now (Codec.encodeKey text) = some e) :
    ∃ v, given text = some v ∧ v.isExact = true ∧ e.value = v.printed := by
  obtain ⟨text', v, hkey, hgiven, hexact, hvalue⟩ := h _ e (live?_eq_some_iff.1 hlive).1
  rw [Codec.encodeKey_inj.1 hkey]
  exact ⟨v, hgiven, hexact, hvalue⟩

/-- Operations that bring in no value. -/
theorem Acts.holds (hacts : s.Acts now on next t) (h : s.Holds given)
    (hnext : ∀ key e', on key → next key (s.live? now key) = some e' →
      ∃ e, s.live? now key = some e ∧ e'.value = e.value) : t.store.Holds given := by
  refine h.of_find? fun key e' he' => ?_
  by_cases hon : on key
  · rw [hacts.inside key hon] at he'
    obtain ⟨e, hlive, hvalue⟩ := hnext key e' hon he'
    exact ⟨e, (live?_eq_some_iff.1 hlive).1, hvalue⟩
  · rw [hacts.outside key hon] at he'
    exact ⟨e', he', rfl⟩

/-- Operations that change the entries of live keys, but not their values. -/
theorem Acts.holds_map {f : Entry → Entry} (hf : ∀ e, (f e).value = e.value)
    (hacts : s.Acts now on (fun _ live => live.map f) t) (h : s.Holds given) :
    t.store.Holds given := by
  refine hacts.holds h fun key e' _ he' => ?_
  obtain ⟨e, hlive, rfl⟩ := Option.map_eq_some_iff.1 he'
  exact ⟨e, hlive, hf e⟩

/-- Operations that leave what is live. -/
theorem Acts.holds_same (hacts : s.Acts now on (fun _ live => live) t) (h : s.Holds given) :
    t.store.Holds given :=
  hacts.holds h fun _ e' _ he' => ⟨e', he', rfl⟩

/-- Operations that remove what is live. -/
theorem Acts.holds_none (hacts : s.Acts now on (fun _ _ => none) t) (h : s.Holds given) :
    t.store.Holds given :=
  hacts.holds h fun _ _ _ he' => nomatch he'

/-- Operations that remove live keys. -/
theorem Acts.holds_filter {keep : Bytes → Bool}
    (hacts : s.Acts now on (fun key live => live.filter fun _ => keep key) t) (h : s.Holds given) :
    t.store.Holds given :=
  hacts.holds h fun _ e' _ he' => ⟨e', (Option.filter_eq_some_iff.1 he').1, rfl⟩

/-- Operations that give a key a value. -/
theorem Acts.holds_note (hacts : s.Acts now (· = Codec.encodeKey text) next t) (h : s.Holds given)
    (hexact : v.isExact = true)
    (hnext : ∀ e', next (Codec.encodeKey text) (s.live? now (Codec.encodeKey text)) = some e' →
      e'.value = v.printed) : t.store.Holds (given.note text v) := by
  intro key e' he'
  by_cases hkey : key = Codec.encodeKey text
  · rw [hacts.inside key hkey, hkey] at he'
    exact ⟨text, v, hkey, if_pos rfl, hexact, hnext e' he'⟩
  · rw [hacts.outside key hkey] at he'
    obtain ⟨text', v', rfl, hgiven, hexact', hvalue⟩ := h key e' he'
    refine ⟨text', v', rfl, ?_, hexact', hvalue⟩
    rw [Given.note, if_neg fun heq => hkey (congrArg Codec.encodeKey heq), hgiven]

end Store

namespace Command

open Store

variable {s : Store} {now : Millis} {given : Given} {text : String} {v : Json} {config : Config}

/-! ### Commands on a store -/

/-- A write that is not refused succeeds. -/
theorem set_run_answer (h : refusal? (Codec.encodeKey text) v.printed = none) :
    (run config .json now s (.set text v)).answer = .ok (.flag true) := by
  show ((s.put now (Codec.encodeKey text) v.printed config.defaultTtl).toRun _).answer = _
  simp only [put, h]
  rfl

/-- A command that is refused gives nothing. -/
theorem refused_holds (h : s.Holds given) (command : Command) {refusal : Refusal} {t : Run}
    (ht : t = s.idle (.error (.invalidRequest refusal))) :
    t.store.Holds (given.after (.call command) (some t.answer)) := by
  have hgives : command.gives (.error (.invalidRequest refusal)) = none := by
    cases command <;> rfl
  rw [ht, idle, Given.after_of_not_gives hgives]
  exact h

/-- A write gives the key its value, unless it is refused. -/
theorem put_holds (h : s.Holds given) (hexact : v.isExact = true) (lifetime : Duration)
    {command : Command} (hgives : ∀ answer, command.gives (.ok answer) = some (text, v)) :
    let t := (s.put now (Codec.encodeKey text) v.printed lifetime).toRun fun _ => .flag true
    t.store.Holds (given.after (.call command) (some t.answer)) := by
  intro t
  cases hrefusal : refusal? (Codec.encodeKey text) v.printed with
  | some refusal =>
    have ht : t = s.idle (.error (.invalidRequest refusal)) := by
      simp only [t, put_refused hrefusal]
      rfl
    exact refused_holds h command ht
  | none =>
    have hanswer : t.answer = .ok (.flag true) := by
      simp only [t, put, hrefusal]
      rfl
    rw [hanswer, Given.after_of_gives (hgives _)]
    exact ((put_acts hrefusal lifetime).toRun _).holds_note h hexact fun e' he' => by
      cases he'
      rfl

/-- A write to a key that is to be absent gives it its value if it is. -/
theorem insertAbsent_holds (h : s.Holds given) (hexact : v.isExact = true)
    (lifetime : Option Duration) {entry : Entry} (hvalue : entry.value = v.printed) :
    let t := (s.insertAbsent now (Codec.encodeKey text) entry).toRun .flag
    t.store.Holds (given.after (.call (.setIfAbsent text v lifetime)) (some t.answer)) := by
  intro t
  cases hrefusal : refusal? (Codec.encodeKey text) entry.value with
  | some refusal =>
    have ht : t = s.idle (.error (.invalidRequest refusal)) := by
      simp only [t, insertAbsent_refused hrefusal]
      rfl
    exact refused_holds h _ ht
  | none =>
    have hacts : s.Acts now (· = Codec.encodeKey text) (fun _ live => some (live.getD entry)) t :=
      (insertAbsent_acts hrefusal).toRun .flag
    have hanswer : t.answer = .ok (.flag (s.live? now (Codec.encodeKey text)).isNone) := by
      simp only [t, Turn.toRun, Turn.map, insertAbsent_answer hrefusal]
    rw [hanswer]
    cases hlive : s.live? now (Codec.encodeKey text) with
    | some e =>
      rw [Given.after_of_not_gives rfl]
      refine hacts.holds h fun key e' hkey he' => ?_
      rw [hkey, hlive] at he'
      cases he'
      exact ⟨e, by rw [hkey, hlive], rfl⟩
    | none =>
      rw [Given.after_of_gives rfl]
      refine hacts.holds_note h hexact fun e' he' => ?_
      rw [hlive] at he'
      cases he'
      exact hvalue

/-- What a replacement answers of a live key: the value it was given, if that is read back. -/
theorem valueAnswer_printed (h : v.isExact = true) :
    valueAnswer (some v.printed) =
      if v.depth ≤ Json.maxDepth then .ok (.value (some v)) else .error (.codec .value) := by
  simp only [valueAnswer, Codec.decodeValue_printed_of_exact h]
  split
  · next heq =>
    split at heq
    · next hdepth => cases heq; rw [if_pos hdepth]
    · cases heq
  · next heq =>
    split at heq
    · cases heq
    · next hdepth => cases heq; rw [if_neg hdepth]

theorem replace_run (config : Config) (s : Store) (now : Millis) (text : String) (v : Json) :
    run config .json now s (.replace text v) =
      (s.replace now (Codec.encodeKey text) v.printed).map fun
        | .ok previous => valueAnswer previous
        | .error refusal => .error (.invalidRequest refusal) := rfl

theorem replace_run_refused {refusal : Refusal}
    (h : refusal? (Codec.encodeKey text) v.printed = some refusal) :
    run config .json now s (.replace text v) = s.idle (.error (.invalidRequest refusal)) := by
  rw [replace_run, replace_refused h]
  rfl

/-- A replacement that is not refused answers the value there was. -/
theorem replace_run_answer (h : refusal? (Codec.encodeKey text) v.printed = none) :
    (run config .json now s (.replace text v)).answer =
      valueAnswer ((s.live? now (Codec.encodeKey text)).map (·.value)) := by
  rw [replace_run, Turn.map, replace_answer h]

/-- A replacement gives a live key its value, whether the one before can be read or not. -/
theorem replace_holds (h : s.Holds given) (hexact : v.isExact = true) :
    let t := run config .json now s (.replace text v)
    t.store.Holds (given.after (.call (.replace text v)) (some t.answer)) := by
  intro t
  cases hrefusal : refusal? (Codec.encodeKey text) v.printed with
  | some refusal =>
    exact refused_holds h _ (replace_run_refused hrefusal)
  | none =>
    have hacts : s.Acts now (· = Codec.encodeKey text)
        (fun _ live => live.map (·.replaceValue v.printed)) t := by
      simp only [t, replace_run]
      exact (replace_acts hrefusal).map _
    have hanswer : t.answer = valueAnswer ((s.live? now (Codec.encodeKey text)).map (·.value)) :=
      replace_run_answer hrefusal
    rw [hanswer]
    cases hlive : s.live? now (Codec.encodeKey text) with
    | none =>
      rw [Given.after_of_not_gives rfl]
      refine hacts.holds h fun key e' hkey he' => ?_
      rw [hkey, hlive] at he'
      cases he'
    | some e =>
      obtain ⟨old, -, hold, hvalue⟩ := h.live hlive
      have hgives : (Command.replace text v).gives (valueAnswer (some e.value)) =
          some (text, v) := by
        rw [hvalue, valueAnswer_printed hold]
        split <;> rfl
      rw [Option.map_some, Given.after_of_gives hgives]
      refine hacts.holds_note h hexact fun e' he' => ?_
      obtain ⟨e₁, -, rfl⟩ := Option.map_eq_some_iff.1 he'
      rfl

/-- **A step of what was given.** -/
theorem run_holds (h : s.Holds given) (command : Command)
    (hexact : ∀ v, command.value? = some v → v.isExact = true) :
    let t := command.run config .json now s
    t.store.Holds (given.after (.call command) (some t.answer)) := by
  cases command with
  | set text v | setWithTtl text v lifetime => exact put_holds h (hexact v rfl) _ fun _ => rfl
  | setIfAbsent text v lifetime => exact insertAbsent_holds h (hexact v rfl) lifetime rfl
  | replace text v => exact replace_holds h (hexact v rfl)
  | get text => exact (get_acts.map _).holds_map (fun e => e.touch_value now) h
  | contains text => exact (contains_acts.answering _).holds_same h
  | ttl text => exact (ttl_acts.answering _).holds_same h
  | peek text => exact (peek_acts.map _).holds_same h
  | delete texts => exact ((removeAll_acts _).answering _).holds_none h
  | deleteSimilar start =>
    exact ((removeWhere_acts fun key => key.startsWith (Codec.encodeKey start)).answering
      _).holds_filter h
  | deleteAll => exact (clear_acts.answering _).holds_none h
  | replaceDuration text lifetime =>
    exact ((change_acts _).answering _).holds_map (fun e => e.replaceTtl_value now lifetime) h
  | resetDuration text =>
    exact ((change_acts _).answering _).holds_map (f := fun e => e.resetTtl now) (fun _ => rfl) h

/-! ### What commands answer of live keys -/

/-- A command that fails by the codec has come upon a live key whose bytes are not read. -/
theorem codec_error_inv {command : Command} {e : CodecError}
    (h : (command.run config .json now s).answer = .error (.codec e)) :
    ∃ text entry, (command = .get text ∨ command = .peek text ∨ ∃ v, command = .replace text v) ∧
      s.live? now (Codec.encodeKey text) = some entry ∧ Codec.decodeValue entry.value = .error e := by
  have hrefused : ∀ {β : Type} {t : Turn (Except Refusal β)} {f : β → Answer},
      (t.toRun f).answer ≠ .error (.codec e) := by
    intro β t f ht
    simp only [Turn.toRun, Turn.map] at ht
    split at ht <;> cases ht
  have hvalue : ∀ {bytes : Option Bytes}, valueAnswer bytes = .error (.codec e) →
      ∃ value, bytes = some value ∧ Codec.decodeValue value = .error e := by
    intro bytes hbytes
    unfold valueAnswer at hbytes
    split at hbytes
    · cases hbytes
    · split at hbytes
      · cases hbytes
      · next herror => cases hbytes; exact ⟨_, rfl, herror⟩
  cases command with
  | set | setWithTtl | setIfAbsent => exact absurd h hrefused
  | contains | ttl | delete | deleteSimilar | deleteAll | replaceDuration | resetDuration => cases h
  | get text =>
    have hanswer : valueAnswer ((s.live? now (Codec.encodeKey text)).map (·.value)) =
        .error (.codec e) := by
      rw [← get_answer]
      exact h
    obtain ⟨value, hfound, herror⟩ := hvalue hanswer
    obtain ⟨entry, hlive, rfl⟩ := Option.map_eq_some_iff.1 hfound
    exact ⟨text, entry, .inl rfl, hlive, herror⟩
  | peek text =>
    have hanswer : viewAnswer (s.live? now (Codec.encodeKey text)) = .error (.codec e) := by
      rw [← peek_answer]
      exact h
    unfold viewAnswer at hanswer
    split at hanswer
    · cases hanswer
    · next entry hlive =>
      split at hanswer
      · cases hanswer
      · next herror => cases hanswer; exact ⟨text, entry, .inr (.inl rfl), hlive, herror⟩
  | replace text v =>
    cases hrefusal : refusal? (Codec.encodeKey text) v.printed with
    | some refusal =>
      rw [replace_run_refused hrefusal] at h
      cases h
    | none =>
      obtain ⟨value, hfound, herror⟩ := hvalue ((replace_run_answer hrefusal).symm.trans h)
      obtain ⟨entry, hlive, rfl⟩ := Option.map_eq_some_iff.1 hfound
      exact ⟨text, entry, .inr (.inr ⟨v, rfl⟩), hlive, herror⟩

/-- A removal by similarity answers the value that a key was given, or null if it cannot be
read. -/
theorem mem_removed (h : s.Holds given) {e : Entry}
    (hlive : s.live? now (Codec.encodeKey text) = some e) (hgiven : given text = some v)
    (test : Bytes → Bool) (htest : test (Codec.encodeKey text) = true) :
    (text, if v.depth ≤ Json.maxDepth then v else .null) ∈
      ((s.removeWhere now test).answer.map removedMember).foldr Json.addMember [] := by
  have hnamed : ∀ key e, s.live? now key = some e → ∃ text, key = Codec.encodeKey text := by
    intro key e hlive
    obtain ⟨text, -, hkey, -⟩ := h key e (live?_eq_some_iff.1 hlive).1
    exact ⟨text, hkey⟩
  refine (mem_removedMembers hnamed test).2 ⟨text, e, hlive, htest, ?_⟩
  obtain ⟨v', hgiven', hexact, hvalue⟩ := h.live hlive
  obtain rfl : v' = v := Option.some.inj (hgiven'.symm.trans hgiven)
  rw [removedMember, hvalue, Codec.decodeValue_printed_of_exact hexact, Codec.repair_encodeKey]
  by_cases hdepth : v'.depth ≤ Json.maxDepth
  · rw [if_pos hdepth, if_pos hdepth]
  · rw [if_neg hdepth, if_neg hdepth]

end Command

namespace Cache

variable {c : Cache} {now : Millis} {given : Given} {key : Bytes} {e : Entry}

/-! ### Requests -/

/-- Reading an entry back brings in none. -/
theorem find?_of_peek {s : Store} {k : Bytes}
    (h : (s.peek now k).store.entries.find? key = some e) : s.entries.find? key = some e := by
  have hpeek : s.Acts now (· = k) (fun _ live => live) (s.peek now k) := Store.peek_acts
  by_cases hkey : key = k
  · rw [hpeek.inside key hkey] at h
    exact (Store.live?_eq_some_iff.1 h).1
  · rwa [hpeek.outside key hkey] at h

theorem find?_of_recordChangeCourse {rule : Rule} {call : Invocation} {outcome : Outcome}
    (h : (c.recordChangeCourse now rule call outcome).store.entries.find? key = some e) :
    c.store.entries.find? key = some e := by
  have hduration : (c.recordDurationCourse now rule call).store.entries.find? key = some e →
      c.store.entries.find? key = some e := by
    unfold recordDurationCourse
    cases call.keys with
    | nil => exact fun h => h
    | cons text rest => exact fun h => find?_of_peek h
  obtain ⟨kind, expectation, backend⟩ := rule
  cases kind with
  | replaceDuration | resetDuration => exact hduration h
  | write | removeKeys | removeBySimilarity | removeAll | replaceValue => exact h

/-- Recording a change leaves no entry that the command has not left. -/
theorem find?_of_requestCourse {asked : Request}
    (h : (c.requestCourse now asked).store.entries.find? key = some e) :
    (c.store.serve c.config c.codec now asked).2.entries.find? key = some e := by
  cases asked with
  | sweep => exact h
  | call command =>
    cases hrecorded : c.recording? command (command.run c.config c.codec now c.store).answer with
    | none =>
      have hcourse := course_of_unrecorded rfl hrecorded
      rw [requestCourse, hcourse] at h
      exact h
    | some recording =>
      have hcourse := course_of_recorded rfl hrecorded
      rw [requestCourse, hcourse] at h
      exact find?_of_recordChangeCourse h

/-- Values are written as JSON, and the store holds those that were given. -/
structure Keeps (c : Cache) (given : Given) : Prop where
  codec : c.codec = .json
  holds : c.store.Holds given

theorem Keeps.serve (h : c.Keeps given) (now : Millis) (asked : Request)
    (hexact : ∀ v, asked.value? = some v → v.isExact = true) :
    (c.serve now asked).2.Keeps (given.after asked (c.serve now asked).1) := by
  rw [serve_eq]
  refine ⟨h.codec, Store.Holds.of_find? (s := (c.store.serve c.config c.codec now asked).2) ?_
    fun key e he => ⟨e, find?_of_requestCourse he, rfl⟩⟩
  rw [h.codec]
  cases asked with
  | call command => exact Command.run_holds h.holds command hexact
  | sweep => exact Store.sweep_acts.holds_same h.holds

theorem Keeps.serveAll (steps : List (Millis × Request)) :
    ∀ {c : Cache} {given : Given}, c.Keeps given →
      (∀ step ∈ steps, ∀ v, step.2.value? = some v → v.isExact = true) →
      (c.serveAll steps).2.Keeps (c.givenFrom given steps) := by
  induction steps with
  | nil => exact fun h _ => h
  | cons step rest ih =>
    intro c given h hexact
    exact ih (h.serve step.1 step.2 (hexact step List.mem_cons_self)) fun later hlater =>
      hexact later (List.mem_cons_of_mem _ hlater)

/-- A cache without entries that writes values as JSON. -/
structure Vacant (c : Cache) : Prop where
  codec : c.codec = .json
  entries : c.store.entries = ∅

theorem Vacant.keeps (h : c.Vacant) : c.Keeps .nothing :=
  ⟨h.codec, fun key e he => by rw [h.entries] at he; cases he⟩

end Cache

/-- What a command gives is its own value. -/
theorem Command.value?_of_gives {command : Command} {answer : Except CacheError Answer}
    {text : String} {v : Json} (h : command.gives answer = some (text, v)) :
    command.value? = some v := by
  unfold gives at h
  split at h <;> cases h <;> rfl

theorem Given.of_after {given : Given} {asked : Request} {reply : Reply} {text : String} {v : Json}
    (h : given.after asked reply text = some v) : given text = some v ∨ asked.value? = some v := by
  cases asked with
  | sweep => exact .inl h
  | call command =>
    cases reply with
    | none => exact .inl h
    | some answer =>
      cases hgives : command.gives answer with
      | none =>
        rw [after_of_not_gives hgives] at h
        exact .inl h
      | some gift =>
        rw [after_of_gives hgives, note] at h
        split at h
        · cases h
          exact .inr (Command.value?_of_gives hgives)
        · exact .inl h

namespace Cache

variable {c : Cache}

theorem value?_of_givenFrom {text : String} {v : Json} (steps : List (Millis × Request)) :
    ∀ {c : Cache} {given : Given}, c.givenFrom given steps text = some v →
      given text = some v ∨ ∃ step ∈ steps, step.2.value? = some v := by
  induction steps with
  | nil => exact fun h => .inl h
  | cons step rest ih =>
    intro c given h
    rcases ih h with hbefore | ⟨later, hlater, hvalue⟩
    · exact (Given.of_after hbefore).imp id fun hvalue => ⟨step, List.mem_cons_self, hvalue⟩
    · exact .inr ⟨later, List.mem_cons_of_mem _ hlater, hvalue⟩

section Answers

variable {now : Millis} {given : Given} {text : String} {v : Json} {e : Entry}

/-- To get a live key answers the value it was given, or fails. -/
theorem Keeps.get (h : c.Keeps given) (hlive : c.store.live? now (Codec.encodeKey text) = some e)
    (hgiven : given text = some v) :
    (c.perform now (.get text)).1 =
      if v.depth ≤ Json.maxDepth then .ok (.value (some v)) else .error (.codec .value) := by
  obtain ⟨v', hgiven', hexact, hvalue⟩ := h.holds.live hlive
  obtain rfl : v' = v := Option.some.inj (hgiven'.symm.trans hgiven)
  rw [← Command.valueAnswer_printed hexact, ← hvalue, perform_eq]
  show Command.valueAnswer (c.store.get now (Codec.encodeKey text)).answer = _
  rw [Store.get_answer, hlive]
  rfl

theorem Keeps.peek (h : c.Keeps given) (hlive : c.store.live? now (Codec.encodeKey text) = some e)
    (hgiven : given text = some v) :
    (c.perform now (.peek text)).1 =
      if v.depth ≤ Json.maxDepth then .ok (.view (some ⟨v, e.writtenTtl, e.ttl⟩))
      else .error (.codec .value) := by
  obtain ⟨v', hgiven', hexact, hvalue⟩ := h.holds.live hlive
  obtain rfl : v' = v := Option.some.inj (hgiven'.symm.trans hgiven)
  rw [perform_eq]
  show Command.viewAnswer (c.store.peek now (Codec.encodeKey text)).answer = _
  rw [Store.peek_answer, hlive]
  simp only [Command.viewAnswer, hvalue, Codec.decodeValue_printed_of_exact hexact]
  by_cases hdepth : v'.depth ≤ Json.maxDepth <;> simp [hdepth]

/-- To replace the value of a live key answers the value it was given, or fails. -/
theorem Keeps.replace (h : c.Keeps given)
    (hlive : c.store.live? now (Codec.encodeKey text) = some e) (hgiven : given text = some v)
    {w : Json} (hrefusal : Store.refusal? (Codec.encodeKey text) w.printed = none) :
    (c.perform now (.replace text w)).1 =
      if v.depth ≤ Json.maxDepth then .ok (.value (some v)) else .error (.codec .value) := by
  obtain ⟨v', hgiven', hexact, hvalue⟩ := h.holds.live hlive
  obtain rfl : v' = v := Option.some.inj (hgiven'.symm.trans hgiven)
  rw [← Command.valueAnswer_printed hexact, ← hvalue, perform_eq, h.codec]
  have hanswer : (Command.run c.config .json now c.store (.replace text w)).answer =
      Command.valueAnswer ((c.store.live? now (Codec.encodeKey text)).map (·.value)) :=
    Command.replace_run_answer hrefusal
  rw [hlive] at hanswer
  exact hanswer

end Answers

/-- **What was given is read back**, unless it is nested deeper than values are read. Take any
session of a cache that is empty at first, with any requests whose values have no floating-point
number in them, at any readings of the clock. As long as a key is live:

* To get or to peek at it answers the value it was last given, to replace its value answers that as
  the value before, and to remove it with other keys has it among the removed values. But if that
  value is nested deeper than values are read, the former fail by the codec, and the last one answers
  null.
* Nothing else fails by the codec.

What was last given to a key is the value of a request that stored it. -/
theorem read_back (c : Cache) (hvacant : c.Vacant) (steps : List (Millis × Request))
    (hexact : ∀ step ∈ steps, ∀ v, step.2.value? = some v → v.isExact = true) :
    let c' := (c.serveAll steps).2
    let given := c.givenFrom .nothing steps
    (∀ now text e, c'.store.live? now (Codec.encodeKey text) = some e →
      ∃ v, given text = some v ∧
        (c'.perform now (.get text)).1 =
          (if v.depth ≤ Json.maxDepth then .ok (.value (some v)) else .error (.codec .value)) ∧
        (c'.perform now (.peek text)).1 =
          (if v.depth ≤ Json.maxDepth then .ok (.view (some ⟨v, e.writtenTtl, e.ttl⟩))
            else .error (.codec .value)) ∧
        (∀ w, Store.refusal? (Codec.encodeKey text) w.printed = none →
          (c'.perform now (.replace text w)).1 =
            if v.depth ≤ Json.maxDepth then .ok (.value (some v)) else .error (.codec .value)) ∧
        ∀ start, (Codec.encodeKey text).startsWith (Codec.encodeKey start) = true →
          ∃ members, (c'.perform now (.deleteSimilar start)).1 = .ok (.removed members) ∧
            (text, if v.depth ≤ Json.maxDepth then v else .null) ∈ members) ∧
    (∀ now command e, (c'.perform now command).1 = .error (.codec e) →
      ∃ text v, (command = .get text ∨ command = .peek text ∨ ∃ w, command = .replace text w) ∧
        (c'.store.live? now (Codec.encodeKey text)).isSome = true ∧ given text = some v ∧
        Json.maxDepth < v.depth) ∧
    ∀ text v, given text = some v → ∃ step ∈ steps, step.2.value? = some v := by
  intro c' given
  have hkeeps : c'.Keeps given := hvacant.keeps.serveAll steps hexact
  refine ⟨fun now text e hlive => ?_, fun now command e herror => ?_, fun text v hgiven =>
    (value?_of_givenFrom steps hgiven).resolve_left nofun⟩
  · obtain ⟨v, hgiven, -⟩ := hkeeps.holds.live hlive
    refine ⟨v, hgiven, hkeeps.get hlive hgiven, hkeeps.peek hlive hgiven,
      fun w hrefusal => hkeeps.replace hlive hgiven hrefusal, fun start hstart => ?_⟩
    rw [perform_eq]
    exact ⟨_, rfl, Command.mem_removed hkeeps.holds hlive hgiven _ hstart⟩
  · rw [perform_eq, hkeeps.codec] at herror
    obtain ⟨text, entry, hcommand, hlive, hunread⟩ := Command.codec_error_inv herror
    obtain ⟨v, hgiven, hv, hvalue⟩ := hkeeps.holds.live hlive
    rw [hvalue, Codec.decodeValue_printed_of_exact hv] at hunread
    refine ⟨text, v, hcommand, by rw [hlive]; rfl, hgiven, Nat.lt_of_not_le fun hdepth => ?_⟩
    rw [if_pos hdepth] at hunread
    cases hunread

/-- A key that is set, and whose value is replaced a second later, is read as the new value. -/
theorem read_back_replaced :
    let steps := [(0, .call (.set "k" (.arr [.int 1]))), (1000, .call (.replace "k" (.str "v")))]
    let c := ((new {} {} {}).serveAll steps).2
    (c.perform 2000 (.get "k")).1 = .ok (.value (some (.str "v"))) := by
  intro steps c
  have hexact : ∀ step ∈ steps, ∀ v, step.2.value? = some v → v.isExact = true :=
    List.forall_mem_cons.2 ⟨fun v hv => by cases hv; rfl,
      List.forall_mem_cons.2 ⟨fun v hv => by cases hv; rfl, nofun⟩⟩
  obtain ⟨hlive, -, -⟩ := read_back (new {} {} {}) ⟨rfl, rfl⟩ steps hexact
  obtain ⟨e, he⟩ : ∃ e, c.store.live? 2000 (Codec.encodeKey "k") = some e := ⟨_, rfl⟩
  obtain ⟨v, hgiven, hget, -⟩ := hlive 2000 "k" e he
  obtain rfl : Json.str "v" = v := Option.some.inj hgiven
  exact hget

/-- A value that is nested deeper than values are read is stored by a cache without persistence, but
not read. -/
theorem Vacant.unread_of_deep (h : c.Vacant) (hplain : c.config.persistent = false) {now : Millis}
    (hearly : now < Clock.after now c.config.defaultTtl) {text : String} {v : Json}
    (hexact : v.isExact = true) (hdeep : ¬ v.depth ≤ Json.maxDepth)
    (hrefusal : Store.refusal? (Codec.encodeKey text) v.printed = none) :
    let c' := (c.perform now (.set text v)).2
    (c.perform now (.set text v)).1 = .ok (.flag true) ∧
      (c'.store.live? now (Codec.encodeKey text)).isSome = true ∧
      (c'.perform now (.get text)).1 = .error (.codec .value) ∧
      ∀ w, Store.refusal? (Codec.encodeKey text) w.printed = none →
        (c'.perform now (.replace text w)).1 = .error (.codec .value) := by
  have hstored : (c.perform now (.set text v)).1 = .ok (.flag true) := by
    rw [perform_eq, h.codec]
    exact Command.set_run_answer hrefusal
  have hunrecorded : c.recording? (.set text v)
      (Command.run c.config c.codec now c.store (.set text v)).answer = none :=
    Option.eq_none_iff_forall_ne_some.2 fun recording hsome =>
      Bool.false_ne_true (hplain.symm.trans (recording?_eq_some_iff.1 hsome).1)
  obtain ⟨e, hlive⟩ : ∃ e, (c.perform now (.set text v)).2.store.live? now
      (Codec.encodeKey text) = some e := by
    have hacts : c.store.Acts now (· = Codec.encodeKey text)
        (fun _ _ => some (Entry.fresh now v.printed c.config.defaultTtl c.store.policy)) _ :=
      Store.put_acts hrefusal c.config.defaultTtl
    have hput := hacts.inside _ rfl
    have hfresh : ¬ (Entry.fresh now v.printed c.config.defaultTtl c.store.policy).isExpiredAt now =
        true := fun hover => Nat.not_le.2 hearly (Entry.isExpiredAt_iff.1 hover)
    rw [perform_eq, take, course_of_unrecorded rfl hunrecorded, h.codec]
    exact ⟨_, (Store.live?_of_find? hput).trans (if_neg hfresh)⟩
  have hkeeps := h.keeps.serve now (.call (.set text v)) fun w hw => by cases hw; exact hexact
  have hgiven : Given.nothing.after (.call (.set text v)) (c.serve now (.call (.set text v))).1
      text = some v := by
    show Given.nothing.after _ (some (c.perform now (.set text v)).1) text = some v
    rw [hstored, Given.after_of_gives rfl, Given.note, if_pos rfl]
  exact ⟨hstored, congrArg Option.isSome hlive, (hkeeps.get hlive hgiven).trans (if_neg hdeep),
    fun w hw => (hkeeps.replace hlive hgiven hw).trans (if_neg hdeep)⟩

/-- A value in one array more than values are read is stored, and its key is live; but to get the
value fails, and so does the replacement that takes it out. -/
theorem deep_value_unread :
    let v := Json.nested Json.maxDepth (.arr [])
    let c := ((new {} {} {}).perform 0 (.set "k" v)).2
    v.isExact = true ∧ ((new {} {} {}).perform 0 (.set "k" v)).1 = .ok (.flag true) ∧
      (c.store.live? 0 (Codec.encodeKey "k")).isSome = true ∧
      (c.perform 0 (.get "k")).1 = .error (.codec .value) ∧
      (c.perform 0 (.replace "k" .null)).1 = .error (.codec .value) := by
  have hexact : (Json.nested Json.maxDepth (.arr [])).isExact = true := by decide +kernel
  have hdeep : ¬ (Json.nested Json.maxDepth (.arr [])).depth ≤ Json.maxDepth := by decide +kernel
  have hrefusal : Store.refusal? (Codec.encodeKey "k")
      (Json.nested Json.maxDepth (.arr [])).printed = none := by
    rw [Json.printed_nested]
    decide +kernel
  have hvacant : (new {} {} {}).Vacant := ⟨rfl, rfl⟩
  have hearly : 0 < Clock.after 0 (new {} {} {}).config.defaultTtl := by decide +kernel
  obtain ⟨hstored, hlive, hget, hreplace⟩ :=
    hvacant.unread_of_deep rfl hearly hexact hdeep hrefusal
  exact ⟨hexact, hstored, hlive, hget, hreplace .null (by decide +kernel)⟩

end Cache

end ExpiringCache
