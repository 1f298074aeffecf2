import ExpiringCache.Proofs.Command
import ExpiringCache.Proofs.Recovery

/-!
# Commands that report no effect

A command that fails, or answers false, zero or nothing, has left every live entry as it was: its
value, its TTL and the TTL it was written with (`Cache.kept_of_ineffective`). Where the values that
commands show can be read, live entries are just the same (`Command.run_same`).

There are two exceptions, both about an entry whose bytes are no value. What a command answers of
an entry is read from its bytes when the store has been changed already. So to replace the value of
such an entry fails, or answers that there was none, and the entry has the new value all the same;
and to get it restarts its TTL, where reads do so, which ends its life if the TTL is nothing and the
clock has gone back. In a cache that is filled from a durable table such entries exist
(`Cache.replaced_without_effect`).
-/

namespace ExpiringCache

/-! ### What answers report -/

/-- Whether an answer reports an effect: anything but false, zero, and nothing. -/
def Answer.effective : Answer → Bool
  | .unit => true
  | .flag b => b
  | .count n => 0 < n
  | .removed members => !members.isEmpty
  | .value v => v.isSome
  | .duration d => d.isSome
  | .view v => v.isSome

/-- Whether a result reports an effect, which a failure does not. -/
def Command.effective : Except CacheError Answer → Bool
  | .ok answer => answer.effective
  | .error _ => false

/-- An answer that reports no effect meets no expectation. -/
theorem Answer.isMet_of_ineffective {answer : Answer} (h : answer.effective = false)
    (expectation : Expectation) : expectation.isMet answer.outcome = false := by
  cases answer <;> cases expectation <;>
    simp_all [Answer.effective, Answer.outcome, Expectation.isMet]

/-- What callers can see of an entry, but for the time it has left. -/
def Entry.shown (e : Entry) : Bytes × Duration × Duration := (e.value, e.ttl, e.writtenTtl)

namespace Store

variable {α : Type} {s : Store} {now : Millis} {key : Bytes} {on : Bytes → Prop}
  {next : Bytes → Option Entry → Option Entry} {t : Turn α}

/-- The key shows the same afterwards: it is live or not, with what callers can see of its entry. -/
def Kept (s : Store) (now : Millis) (t : Turn α) (key : Bytes) : Prop :=
  (t.store.live? now key).map Entry.shown = (s.live? now key).map Entry.shown

theorem shown_touch (e : Entry) (now : Millis) : (e.touch now).shown = e.shown := by
  unfold Entry.shown Entry.touch
  split <;> rfl

theorem Acts.live?_outside (h : s.Acts now on next t) (hoff : ¬ on key) :
    t.store.live? now key = s.live? now key := by
  unfold live?
  rw [h.outside key hoff]

/-- The key has the same live entry afterwards, or still none. -/
def Same (s : Store) (now : Millis) (t : Turn α) (key : Bytes) : Prop :=
  t.store.live? now key = s.live? now key

theorem Same.kept (h : s.Same now t key) : s.Kept now t key := congrArg (Option.map Entry.shown) h

/-- A key is the same after an operation that does not look at it, or leaves its live entry. -/
theorem Acts.same (h : s.Acts now on next t)
    (hsame : on key → next key (s.live? now key) = s.live? now key) : s.Same now t key := by
  by_cases hon : on key
  · rw [Same, live?, h.inside key hon, hsame hon, ← live?_later (Nat.le_refl now)]
  · exact h.live?_outside hon

end Store

namespace Command

open Store

variable {s : Store} {now : Millis} {key : Bytes} {config : Config} {codec : Codec}

/-! ### Commands on a store -/

theorem withValue_cases (codec : Codec) (s : Store) (value : Json) (run : Bytes → Run) :
    (∃ e, withValue codec s value run = s.idle (.error e)) ∨
      ∃ bytes, codec.encodeValue value = .ok bytes ∧ withValue codec s value run = run bytes := by
  unfold withValue
  cases codec.encodeValue value with
  | ok bytes => exact .inr ⟨bytes, rfl, rfl⟩
  | error e => exact .inl ⟨_, rfl⟩

/-- Only of bytes that are no value it is answered that there is none. -/
theorem unreadable_of_ineffective {bytes : Bytes} (h : effective (valueAnswer (some bytes)) = false) :
    Codec.Unreadable bytes := by
  intro value hvalue
  simp only [valueAnswer, hvalue, effective, Answer.effective, Option.isSome_some] at h
  cases h

theorem same_idle (answer : Except CacheError Answer) : s.Same now (s.idle answer) key := rfl

/-- A write with a TTL that reports no effect was refused. -/
theorem put_same {bytes : Bytes} {ttl : Duration} {text : String}
    (h : effective ((s.put now (Codec.encodeKey text) bytes ttl).toRun fun _ => .flag true).answer =
      false) :
    s.Same now ((s.put now (Codec.encodeKey text) bytes ttl).toRun fun _ => .flag true) key := by
  cases hrefusal : refusal? (Codec.encodeKey text) bytes with
  | some refusal =>
    rw [put_refused hrefusal]
    exact same_idle _
  | none =>
    simp only [put, hrefusal, Turn.toRun, Turn.map, settle_answer, effective, Answer.effective] at h
    cases h

/-- A write to a key that is to be absent, which reports no effect, was refused or found it live. -/
theorem insertAbsent_same {text : String} {entry : Entry}
    (h : effective ((s.insertAbsent now (Codec.encodeKey text) entry).toRun .flag).answer = false) :
    s.Same now ((s.insertAbsent now (Codec.encodeKey text) entry).toRun .flag) key := by
  cases hrefusal : refusal? (Codec.encodeKey text) entry.value with
  | some refusal =>
    rw [insertAbsent_refused hrefusal]
    exact same_idle _
  | none =>
    refine ((insertAbsent_acts hrefusal).toRun _).same fun hkey => ?_
    simp only [Turn.toRun, Turn.map, insertAbsent_answer hrefusal, effective, Answer.effective] at h
    obtain ⟨e, hlive⟩ := Option.isSome_iff_exists.1 (Option.isNone_eq_false_iff.1 h)
    rw [hkey, hlive]
    rfl

/-- What is done with the bytes of a value is not done if the codec does not write it. -/
theorem withValue_same {value : Json} {run : Bytes → Run}
    (hrun : ∀ bytes, effective (run bytes).answer = false → s.Same now (run bytes) key)
    (h : effective (withValue codec s value run).answer = false) :
    s.Same now (withValue codec s value run) key := by
  rcases withValue_cases codec s value run with ⟨e, heq⟩ | ⟨bytes, -, heq⟩
  all_goals rw [heq] at h ⊢
  · exact same_idle _
  · exact hrun bytes h

/-- A replacement is refused, or answers the value there was and puts in its own. -/
theorem replace_cases (config : Config) (codec : Codec) (now : Millis) (s : Store) (text : String)
    (value : Json) :
    let t := run config codec now s (.replace text value)
    (∃ e, t = s.idle (.error e)) ∨
      ∃ bytes, codec.encodeValue value = .ok bytes ∧
        t.answer = valueAnswer ((s.live? now (Codec.encodeKey text)).map (·.value)) ∧
        s.Acts now (· = Codec.encodeKey text) (fun _ live => live.map (·.replaceValue bytes)) t := by
  intro t
  rcases withValue_cases codec s value _ with ⟨e, hrun⟩ | ⟨bytes, hbytes, hrun⟩
  all_goals rw [show t = _ from hrun]
  · exact .inl ⟨_, rfl⟩
  · cases hrefusal : refusal? (Codec.encodeKey text) bytes with
    | some refusal =>
      rw [replace_refused hrefusal]
      exact .inl ⟨_, rfl⟩
    | none =>
      refine .inr ⟨bytes, hbytes, ?_, (replace_acts hrefusal).map _⟩
      rw [Turn.map, replace_answer hrefusal]

/-! ### The shapes of answers -/

section Shapes

variable {answer : Answer}

/-- Whether an answer has the shape of the answers to a command. -/
def yields : Command → Answer → Bool
  | .set _ _, .flag _ | .setWithTtl _ _ _, .flag _ | .setIfAbsent _ _ _, .flag _
  | .contains _, .flag _ | .deleteAll, .flag _ | .replaceDuration _ _, .flag _
  | .resetDuration _, .flag _ => true
  | .get _, .value _ | .replace _ _, .value _ => true
  | .ttl _, .duration _ => true
  | .delete _, .count _ => true
  | .deleteSimilar _, .removed _ => true
  | .peek _, .view _ => true
  | _, _ => false

theorem answer_of_toRun {α : Type} {t : Turn (Except Refusal α)} {f : α → Answer}
    (h : (t.toRun f).answer = .ok answer) : ∃ a, answer = f a := by
  simp only [Turn.toRun, Turn.map] at h
  split at h
  · cases h
    exact ⟨_, rfl⟩
  · cases h

theorem answer_of_withValue {value : Json} {run : Bytes → Run}
    (h : (withValue codec s value run).answer = .ok answer) :
    ∃ bytes, (run bytes).answer = .ok answer := by
  rcases withValue_cases codec s value run with ⟨e, heq⟩ | ⟨bytes, -, heq⟩
  all_goals rw [heq] at h
  · cases h
  · exact ⟨bytes, h⟩

theorem answer_of_valueAnswer {bytes : Option Bytes} (h : valueAnswer bytes = .ok answer) :
    ∃ value, answer = .value value := by
  unfold valueAnswer at h
  split at h
  · cases h
    exact ⟨_, rfl⟩
  · split at h
    · cases h
      exact ⟨_, rfl⟩
    · cases h

theorem answer_of_viewAnswer {entry : Option Entry} (h : viewAnswer entry = .ok answer) :
    ∃ view, answer = .view view := by
  unfold viewAnswer at h
  split at h
  · cases h
    exact ⟨_, rfl⟩
  · split at h
    · cases h
      exact ⟨_, rfl⟩
    · cases h

/-- What a command answers has its shape. -/
theorem yields_of_run (command : Command)
    (h : (command.run config codec now s).answer = .ok answer) : command.yields answer = true := by
  cases command with
  | set | setWithTtl | setIfAbsent =>
    obtain ⟨bytes, hwritten⟩ := answer_of_withValue h
    obtain ⟨flag, rfl⟩ := answer_of_toRun hwritten
    rfl
  | get text =>
    obtain ⟨value, rfl⟩ := answer_of_valueAnswer h
    rfl
  | peek text =>
    obtain ⟨view, rfl⟩ := answer_of_viewAnswer h
    rfl
  | replace text value =>
    rcases replace_cases config codec now s text value with ⟨e, hrun⟩ | ⟨bytes, -, hanswer, -⟩
    · rw [hrun] at h
      cases h
    · obtain ⟨value, rfl⟩ := answer_of_valueAnswer (hanswer.symm.trans h)
      rfl
  | contains | ttl | delete | deleteSimilar | deleteAll | replaceDuration | resetDuration =>
    cases h
    rfl

/-- Of a command that is to be recorded, an answer meets the expectation just if it reports an
effect. -/
theorem isMet_outcome {command : Command} {call : Invocation} {kind : ChangeKind}
    (hcall : command.invocation? = some call)
    (hkind : MethodTable.standardKind? call.method = some kind)
    (hyields : command.yields answer = true) :
    kind.expectation.isMet answer.outcome = answer.effective := by
  cases command with
  | peek => cases hcall
  | get | contains | ttl =>
    obtain rfl := Option.some.inj hcall
    cases hkind
  | set | setWithTtl | setIfAbsent | delete | deleteAll | replaceDuration | resetDuration
  | replace =>
    obtain rfl := Option.some.inj hcall
    obtain rfl := Option.some.inj hkind
    cases answer <;> cases hyields
    rfl
  | deleteSimilar =>
    obtain rfl := Option.some.inj hcall
    obtain rfl := Option.some.inj hkind
    cases answer <;> cases hyields
    exact congrArg not List.isEmpty_map

end Shapes

/-! ### What commands do to keys -/

/-- Whatever the command, it looks at some keys and gives them their next entries. -/
theorem run_acts (config : Config) (codec : Codec) (now : Millis) (s : Store) (command : Command) :
    ∃ on next, s.Acts now on next (command.run config codec now s) := by
  have hidle : ∀ answer : Except CacheError Answer, ∃ on next, s.Acts now on next (s.idle answer) :=
    fun answer => ⟨_, fun _ live => live, acts_idle _ answer⟩
  have hwritten : ∀ {value : Json} {run : Bytes → Run},
      (∀ bytes, ∃ on next, s.Acts now on next (run bytes)) →
        ∃ on next, s.Acts now on next (withValue codec s value run) := by
    intro value run hrun
    rcases withValue_cases codec s value run with ⟨e, heq⟩ | ⟨bytes, -, heq⟩
    all_goals rw [heq]
    · exact hidle _
    · exact hrun bytes
  have hput : ∀ key bytes ttl, ∃ on next,
      s.Acts now on next ((s.put now key bytes ttl).toRun fun _ => .flag true) := by
    intro key bytes ttl
    cases hrefusal : refusal? key bytes with
    | some refusal =>
      rw [put_refused hrefusal]
      exact hidle _
    | none => exact ⟨_, _, (put_acts hrefusal ttl).toRun _⟩
  cases command with
  | set | setWithTtl => exact hwritten fun bytes => hput _ bytes _
  | setIfAbsent text value ttl =>
    refine hwritten fun bytes => ?_
    cases hrefusal : refusal? (Codec.encodeKey text) bytes with
    | some refusal =>
      rw [putIfAbsent, insertAbsent_refused hrefusal]
      exact hidle _
    | none => exact ⟨_, _, (insertAbsent_acts hrefusal).toRun _⟩
  | get => exact ⟨_, _, get_acts.map _⟩
  | contains => exact ⟨_, _, contains_acts.answering _⟩
  | ttl => exact ⟨_, _, ttl_acts.answering _⟩
  | peek => exact ⟨_, _, peek_acts.map _⟩
  | delete => exact ⟨_, _, (removeAll_acts _).answering _⟩
  | deleteSimilar => exact ⟨_, _, (removeWhere_acts _).answering _⟩
  | deleteAll => exact ⟨_, _, clear_acts.answering _⟩
  | replaceDuration | resetDuration => exact ⟨_, _, (change_acts _).answering _⟩
  | replace text value =>
    rcases replace_cases config codec now s text value with ⟨e, hrun⟩ | ⟨bytes, -, -, hacts⟩
    · rw [hrun]
      exact hidle _
    · exact ⟨_, _, hacts⟩

/-- The command answers the value of a key. -/
def Shows (command : Command) (text : String) : Prop :=
  command = .get text ∨ ∃ value, command = .replace text value

/-- A command that shows the value of a key reports it, if the key is live and its bytes are a
value. -/
theorem shows_same {text : String} {next : Bytes → Option Entry → Option Entry} {t : Run}
    (hacts : s.Acts now (· = Codec.encodeKey text) next t) (hnone : ∀ key, next key none = none)
    (hanswer : t.answer = valueAnswer ((s.live? now (Codec.encodeKey text)).map (·.value)))
    (hread : ∀ e, s.live? now (Codec.encodeKey text) = some e → ¬ Codec.Unreadable e.value)
    (h : effective t.answer = false) : s.Same now t key := by
  refine hacts.same fun hkey => ?_
  rw [hkey]
  cases hlive : s.live? now (Codec.encodeKey text) with
  | none => exact hnone _
  | some e =>
    rw [hanswer, hlive] at h
    exact absurd (unreadable_of_ineffective h) (hread e hlive)

/-- A removal by similarity that answers no names has removed nothing. -/
theorem removed_of_ineffective {removed : List (Bytes × Bytes)}
    (h : (Answer.removed ((removed.map removedMember).foldr Json.addMember [])).effective = false) :
    removed = [] := by
  have hnone : (removed.map removedMember).foldr Json.addMember [] = [] := by
    simpa [Answer.effective] using h
  refine List.eq_nil_iff_forall_not_mem.2 fun entry hentry => ?_
  have hname : (removedMember entry).1 ∈
      ((removed.map removedMember).foldr Json.addMember []).map (·.1) :=
    (mem_names_addMember _).2 (List.mem_map_of_mem (List.mem_map_of_mem hentry))
  rw [hnone] at hname
  exact List.not_mem_nil hname

/-- A command that reports no effect leaves every key the same, if it reports the value that it
shows. -/
theorem run_same (command : Command)
    (h : effective (command.run config codec now s).answer = false)
    (hread : ∀ text e, command.Shows text → s.live? now (Codec.encodeKey text) = some e →
      ¬ Codec.Unreadable e.value) (key : Bytes) :
    s.Same now (command.run config codec now s) key := by
  cases command with
  | set text value | setWithTtl text value ttl => exact withValue_same (fun _ => put_same) h
  | setIfAbsent text value ttl => exact withValue_same (fun _ => insertAbsent_same) h
  | get text =>
    exact shows_same (get_acts.map _) (fun _ => rfl) (congrArg valueAnswer get_answer)
      (fun e => hread text e (.inl rfl)) h
  | contains text => exact (contains_acts.answering _).same fun _ => rfl
  | ttl text => exact (ttl_acts.answering _).same fun _ => rfl
  | peek text => exact (peek_acts.map _).same fun _ => rfl
  | delete texts =>
    refine ((removeAll_acts _).answering _).same fun hkey => ?_
    have hzero : (removeAll s now (texts.map Codec.encodeKey)).answer = 0 := by
      simpa [run, Turn.answering, Turn.map, effective, Answer.effective] using h
    exact (live?_of_removeAll_eq_zero hzero hkey).symm
  | deleteSimilar start =>
    refine ((removeWhere_acts _).answering _).same fun _ => ?_
    have hnone := removed_of_ineffective h
    rw [removeWhere_answer, List.map_eq_nil_iff, List.filter_eq_nil_iff] at hnone
    cases hlive : s.live? now key with
    | none => rfl
    | some e =>
      have hmem := ByteMap.mem_entries_iff.2 ((find?_living s now key).trans hlive)
      simpa [Option.filter_some] using hnone _ hmem
  | deleteAll =>
    refine (clear_acts.answering _).same fun _ => ?_
    have hcount : decide (0 < (s.clear now).answer) = false := h
    rw [decide_eq_false_iff_not, clear_answer_pos, not_exists] at hcount
    exact (Option.not_isSome_iff_eq_none.1 (hcount key)).symm
  | replaceDuration text ttl | resetDuration text =>
    refine ((change_acts _).answering _).same fun hkey => ?_
    have hnone : (s.live? now (Codec.encodeKey text)).isSome = false := by
      simpa [run, replaceTtl, resetTtl, Turn.answering, Turn.map, effective, Answer.effective,
        change_answer] using h
    rw [hkey, Option.isNone_iff_eq_none.1 (Option.isSome_eq_false_iff.1 hnone)]
    rfl
  | replace text value =>
    rcases replace_cases config codec now s text value with ⟨e, hrun⟩ | ⟨bytes, -, hanswer, hacts⟩
    · rw [hrun]
      exact same_idle _
    · exact shows_same hacts (fun _ => rfl) hanswer (fun e => hread text e (.inr ⟨value, rfl⟩)) h

/-! ### Entries whose bytes are no value -/

/-- A duration that ends at once where it starts now, and did not end yet where it started before,
is nothing, and the clock has gone back. -/
theorem of_after_le {start : Millis} {d : Duration} (hover : Clock.after now d ≤ now)
    (hleft : now < Clock.after start d) : d.millis = 0 ∧ now < start := by
  have harith : ∀ latest n a m : Nat, 0 < latest → min latest (n + min latest m) ≤ n →
      n < min latest (a + min latest m) → m = 0 ∧ n < a := by
    omega
  exact harith Clock.latest now start d.millis (by decide) hover hleft

/-- A read ends the life of an entry only where reads restart TTLs, and then of one whose TTL is
nothing, when the clock has gone back. -/
theorem of_touch_expired {e : Entry} (hlive : e.isExpiredAt now = false)
    (htouched : (e.touch now).isExpiredAt now = true) :
    e.policy = .sinceAccess ∧ e.ttl.millis = 0 ∧ now < e.clockStart := by
  have hleft : now < e.expiresAt := lt_expiresAt hlive
  rw [Entry.isExpiredAt_iff] at htouched
  unfold Entry.touch at htouched
  cases hpolicy : e.policy with
  | sinceCreation =>
    simp only [hpolicy] at htouched
    exact absurd hleft (Nat.not_lt.2 htouched)
  | sinceAccess =>
    simp only [hpolicy] at htouched
    exact ⟨rfl, of_after_le htouched hleft⟩

/-- The exceptions: the live entry of a key whose bytes are no value was given another value, or its
life was ended by reading it. -/
def Slips (command : Command) (codec : Codec) (now : Millis) (s : Store) (t : Run) (key : Bytes) :
    Prop :=
  ∃ text e, key = Codec.encodeKey text ∧ s.live? now key = some e ∧ Codec.Unreadable e.value ∧
    ((∃ value bytes, command = .replace text value ∧ codec.encodeValue value = .ok bytes ∧
        t.store.live? now key = some (e.replaceValue bytes)) ∨
      (command = .get text ∧ e.policy = .sinceAccess ∧ e.ttl.millis = 0 ∧ now < e.clockStart ∧
        t.store.live? now key = none))

/-- To get an entry whose bytes are no value keeps it, or ends its life. -/
theorem get_slips {text : String} {e : Entry}
    (hlive : s.live? now (Codec.encodeKey text) = some e) (hunreadable : Codec.Unreadable e.value) :
    let t := run config codec now s (.get text)
    s.Kept now t (Codec.encodeKey text) ∨
      Slips (.get text) codec now s t (Codec.encodeKey text) := by
  intro t
  have hfind : t.store.entries.find? (Codec.encodeKey text) = some (e.touch now) := by
    have hacts : s.Acts now (· = Codec.encodeKey text) (fun _ live => live.map (·.touch now)) t :=
      get_acts.map _
    rw [hacts.inside _ rfl, hlive]
    rfl
  cases htouched : (e.touch now).isExpiredAt now with
  | false =>
    left
    rw [Kept, live?_of_find? hfind, htouched, hlive]
    exact congrArg some (shown_touch e now)
  | true =>
    right
    obtain ⟨hpolicy, httl, hback⟩ := of_touch_expired (live?_eq_some_iff.1 hlive).2 htouched
    refine ⟨text, e, rfl, hlive, hunreadable, .inr ⟨rfl, hpolicy, httl, hback, ?_⟩⟩
    rw [live?_of_find? hfind, htouched]
    rfl

/-- To replace the value of an entry whose bytes are no value keeps it, if that is refused, and
gives it another value otherwise. -/
theorem replace_slips {text : String} {value : Json} {e : Entry}
    (hlive : s.live? now (Codec.encodeKey text) = some e) (hunreadable : Codec.Unreadable e.value) :
    let t := run config codec now s (.replace text value)
    s.Kept now t (Codec.encodeKey text) ∨
      Slips (.replace text value) codec now s t (Codec.encodeKey text) := by
  intro t
  rcases replace_cases config codec now s text value with ⟨_, hrun⟩ | ⟨bytes, hbytes, -, hacts⟩
  · left
    rw [show t = _ from hrun]
    exact (same_idle _).kept
  · right
    have hfind : t.store.entries.find? (Codec.encodeKey text) = some (e.replaceValue bytes) := by
      rw [hacts.inside _ rfl, hlive]
      rfl
    have hlater : (e.replaceValue bytes).isExpiredAt now = false := (live?_eq_some_iff.1 hlive).2
    exact ⟨text, e, rfl, hlive, hunreadable,
      .inl ⟨value, bytes, rfl, hbytes, live?_eq_some_iff.2 ⟨hfind, hlater⟩⟩⟩

/-- A command that shows a value changes no other key. -/
theorem Shows.outside {command : Command} {text : String} (h : command.Shows text)
    (hkey : key ≠ Codec.encodeKey text) : s.Same now (command.run config codec now s) key := by
  rcases h with rfl | ⟨value, rfl⟩
  · exact (get_acts.map _).same fun hon => absurd hon hkey
  · rcases replace_cases config codec now s text value with ⟨e, hrun⟩ | ⟨bytes, -, -, hacts⟩
    · rw [hrun]
      exact same_idle _
    · exact hacts.same fun hon => absurd hon hkey

/-- A command that reports no effect keeps every key, but for the exceptions. -/
theorem run_ineffective (command : Command)
    (h : effective (command.run config codec now s).answer = false) (key : Bytes) :
    s.Kept now (command.run config codec now s) key ∨
      command.Slips codec now s (command.run config codec now s) key := by
  by_cases hread : ∀ text e, command.Shows text → s.live? now (Codec.encodeKey text) = some e →
      ¬ Codec.Unreadable e.value
  · exact .inl (run_same command h hread key).kept
  · push Not at hread
    obtain ⟨text, e, hshows, hlive, hunreadable⟩ := hread
    by_cases hkey : key = Codec.encodeKey text
    · subst hkey
      rcases hshows with rfl | ⟨value, rfl⟩
      · exact get_slips hlive hunreadable
      · exact replace_slips hlive hunreadable
    · exact .inl (hshows.outside hkey).kept

end Command

/-! ### Commands on a cache -/

namespace Cache

/-- What reports no effect is not recorded. -/
theorem recording?_of_ineffective (c : Cache) (command : Command)
    {result : Except CacheError Answer} (h : Command.effective result = false) :
    c.recording? command result = none := by
  refine Option.eq_none_iff_forall_ne_some.2 fun recording hsome => ?_
  obtain ⟨-, -, -, answer, rfl, houtcome, hmet⟩ := recording?_eq_some_iff.1 hsome
  rw [← houtcome, Answer.isMet_of_ineffective h] at hmet
  cases hmet

/-- The store is left as a command leaves it that reports no effect. -/
theorem store_of_ineffective (c : Cache) (now : Millis) (command : Command)
    (h : Command.effective (c.perform now command).1 = false) :
    (c.perform now command).2.store = (command.run c.config c.codec now c.store).store := by
  rw [perform_eq] at h ⊢
  exact congrArg Course.store (course_of_unrecorded rfl (c.recording?_of_ineffective command h))

/-- **What reports no effect has none**, in whatever state a cache is, but for entries whose bytes
are no value. After a command that has failed, or has answered false, zero or nothing, a key is live
if it was live before, with the same value, TTL, and TTL it was written with. The exceptions:

* The command replaces the value of a live key whose bytes are no value. The key has the new value.
* The command gets the value of such a key, where reads restart TTLs. The TTL in force is nothing,
  and the clock has gone back, so the key was still live; it is so no more. -/
theorem kept_of_ineffective (c : Cache) (now : Millis) (command : Command)
    (h : Command.effective (c.perform now command).1 = false) (key : Bytes) :
    let c' := (c.perform now command).2
    (c'.store.live? now key).map Entry.shown = (c.store.live? now key).map Entry.shown ∨
      ∃ text e, key = Codec.encodeKey text ∧ c.store.live? now key = some e ∧
        (∀ value, Codec.decodeValue e.value ≠ .ok (some value)) ∧
        ((∃ value bytes, command = .replace text value ∧ c.codec.encodeValue value = .ok bytes ∧
            c'.store.live? now key = some (e.replaceValue bytes)) ∨
          (command = .get text ∧ e.policy = .sinceAccess ∧ e.ttl.millis = 0 ∧
            now < e.clockStart ∧ c'.store.live? now key = none)) := by
  intro c'
  have hstore : c'.store = (command.run c.config c.codec now c.store).store :=
    c.store_of_ineffective now command h
  rw [hstore]
  rw [perform_eq] at h
  exact Command.run_ineffective command h key

/-- An entry with a TTL of nothing is live again when the clock goes back. To read it fails, for it
holds half an object, and ends its life. -/
theorem kept_of_ineffective_read :
    let c : Cache := { new { policy := .sinceAccess } {} {} with
      store := ((Store.new .sinceAccess).put 20000 [107] [123] .zero).store }
    Command.effective (c.perform 5000 (.get "k")).1 = false ∧
      (c.store.live? 5000 [107]).isSome = true ∧
      (c.perform 5000 (.get "k")).2.store.live? 5000 [107] = none := by
  intro c
  have hresult : Command.effective (c.perform 5000 (.get "k")).1 = false := by decide +kernel
  refine ⟨hresult, by decide +kernel, ?_⟩
  rcases kept_of_ineffective c 5000 (.get "k") hresult [107] with
    hkept | ⟨text, e, -, -, -, ⟨value, bytes, hcommand, -⟩ | ⟨-, -, -, -, hnone⟩⟩
  · exact absurd hkept (by decide +kernel)
  · cases hcommand
  · exact hnone

/-- A row that holds half an object is brought back. To replace its value fails, and the key has the
new value all the same, while the row still has the old one. -/
theorem replaced_without_effect :
    let row : Row := { value := [123], ttl := 60000, expiresAt := 60000 }
    let c := ((new { persistent := true } { recovery := [.replay] }
      { registry := { memory := some (.memory ⟨(∅ : ByteMap Row).insert [107] row⟩) } }).relaunch
        0).2
    let replaced := c.perform 0 (.replace "k" (.int 1))
    replaced.1 = .error (.codec .value) ∧
      (c.store.live? 0 [107]).map Entry.shown =
        some ([123], .ofSeconds 60, .ofSeconds 60) ∧
      (replaced.2.store.live? 0 [107]).map Entry.shown =
        some ([49], .ofSeconds 60, .ofSeconds 60) ∧
      replaced.2.backing.row? .memory [107] = some row := by
  refine ⟨rfl, ?_, ?_, ?_⟩ <;> decide +kernel

end Cache

end ExpiringCache
