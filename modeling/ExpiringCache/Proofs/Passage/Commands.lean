import ExpiringCache.Proofs.Passage.Course

/-!
# The passages of commands

One lemma for each way a command can end, each a statement about one key: what the operation makes
of the live entry and what the change recorded of the call makes of the row are a passage. Before
that the row of an expired entry is erased, which is the same for all commands
(`Cache.Persisting.carries`).
-/

namespace ExpiringCache

namespace Cache

namespace Persisting

variable {α : Type} {c : Cache} {now : Millis} {on : Bytes → Prop}
  {next : Bytes → Option Entry → Option Entry} {t : Turn α} {given : Option Json}
  {timing : Bytes → Timing}

/-- An operation with the change recorded of it: it is enough to look at the keys that the operation
looks at, and that the change is about no others. -/
theorem carries (h : c.Persisting) (hacts : c.store.Acts now on next t) {change : Option Change}
    (hon : ∀ key row, on key →
      Passage c.config now key given (timing key) (c.store.live? now key) row
        (next key (c.store.live? now key)) (afterChange now key row change))
    (hoff : ∀ key, ¬ on key →
      timing key = .kept ∧ ∀ row, afterChange now key row change = row) :
    c.Carries now given timing (c.courseWith t change) := by
  refine ⟨hacts.policy, fun key => ?_⟩
  have hmem := hacts.mem_expired key
  unfold courseWith
  rw [Errand.effects_append, effects_change, effects_course h.persistent]
  show Passage c.config now key given (timing key) _ _ (t.store.entries.find? key) _
  by_cases hkey : on key
  · have hpassage := hon key
    rw [hacts.inside key hkey]
    by_cases hdue : c.store.due now key = []
    · rw [if_neg fun hexpired => (hmem.1 hexpired).2 hdue, Store.due_eq_nil_iff.1 hdue]
      exact hpassage _ hkey
    · -- The entry of the key was due: it is gone, and so is its row.
      obtain ⟨entry, hentry⟩ := List.exists_mem_of_ne_nil _ hdue
      have hcollected := hpassage none hkey
      rw [Store.live?_eq_none_of_due hentry] at hcollected ⊢
      rw [if_pos (hmem.2 ⟨hkey, hdue⟩)]
      exact hcollected.of_collected _ _
  · obtain ⟨htiming, hrow⟩ := hoff key hkey
    rw [if_neg fun hexpired => hkey (hmem.1 hexpired).1, hacts.outside key hkey, htiming, hrow]
    exact .kept _ _

/-- An operation without a change. -/
theorem carries_unchanged (h : c.Persisting) (hacts : c.store.Acts now on next t)
    (hon : ∀ key row, on key →
      Passage c.config now key given (timing key) (c.store.live? now key) row
        (next key (c.store.live? now key)) row)
    (hoff : ∀ key, ¬ on key → timing key = .kept) :
    c.Carries now given timing (c.courseWith t none) :=
  h.carries hacts hon fun key hkey => ⟨hoff key hkey, fun _ => rfl⟩

/-- An operation that leaves live entries as they are, and has nothing recorded. -/
theorem carries_look (h : c.Persisting) (hacts : c.store.Acts now on (fun _ live => live) t)
    (htiming : ∀ key, timing key = .kept) : c.Carries now given timing (c.courseWith t none) := by
  refine h.carries_unchanged hacts (fun key row _ => ?_) fun key _ => htiming key
  rw [htiming key]
  exact .kept _ _

/-! ### Writes -/

variable {call : Invocation} {text : String} {v : Json}

/-- What its write leaves of a key in the table. -/
theorem afterChange_write (h : c.Persisting) (hcall : Writes call text v) (outcome : Outcome)
    (row : Option Row) :
    afterChange now (Codec.encodeKey text) row (c.callChange? .write call outcome) =
      if c.config.criticalMillis ≤ (call.ttl.getD c.config.defaultTtl).millis then
        some (Row.fresh now v.printed (call.ttl.getD c.config.defaultTtl))
      else none := by
  have hworthy := c.config.isWorthy_iff call.ttl
  rw [callChange?_write h hcall]
  by_cases hgate : c.config.isWorthy call.ttl = true
  · rw [if_pos hgate, if_pos (hworthy.1 hgate)]
    simp [afterChange, Change.effect]
  · rw [if_neg hgate, if_neg fun hle => hgate (hworthy.2 hle)]
    simp [afterChange, Change.effect, Change.erase]

/-- A write leaves the rows of other keys as they are. -/
theorem afterChange_write_of_ne (h : c.Persisting) (hcall : Writes call text v)
    (outcome : Outcome) {key : Bytes} (hkey : key ≠ Codec.encodeKey text) (row : Option Row) :
    afterChange now key row (c.callChange? .write call outcome) = row := by
  rw [callChange?_write h hcall]
  split
  · exact if_neg hkey
  · simp [afterChange, Change.effect, Change.erase, hkey]

theorem changeFor_write (hcall : Writes call text v) {b : Bool} :
    c.changeFor call (.ok (.flag b)) =
      if b then c.callChange? .write call (.flag b) else none := by
  unfold changeFor
  rw [hcall.kind]
  rfl

theorem changeFor_error (call : Invocation) (e : CacheError) :
    c.changeFor call (.error e) = none := by
  unfold changeFor
  cases MethodTable.standardKind? call.method <;> rfl

/-- A call that is refused does not look at the entries, and has nothing recorded. -/
theorem refused (h : c.Persisting) (call : Invocation) (e : CacheError)
    (htiming : ∀ key, timing key = .kept) :
    c.Carries now given timing (c.courseWith
      (c.store.idle (.error e : Except CacheError Answer)) (c.changeFor call (.error e))) := by
  rw [changeFor_error]
  exact h.carries_look (Store.acts_idle _ _) htiming

theorem put (h : c.Persisting) (hpolicy : c.store.policy = c.config.policy)
    (hcall : Writes call text v) {t : Run}
    (ht : (c.store.put now (Codec.encodeKey text) v.printed
      (call.ttl.getD c.config.defaultTtl)).toRun (fun _ => .flag true) = t)
    (hdone : t.answer = .ok (.flag true) →
      timing = Timing.under (.written (call.ttl.getD c.config.defaultTtl)) text)
    (hkept : ∀ e, t.answer = .error e → timing = fun _ => .kept) :
    c.Carries now (some v) timing (c.courseWith t (c.changeFor call t.answer)) := by
  subst ht
  cases hrefusal : Store.refusal? (Codec.encodeKey text) v.printed with
  | some refusal =>
    rw [Store.put_refused hrefusal] at hkept ⊢
    rw [hkept _ rfl]
    exact h.refused call (.invalidRequest refusal) fun _ => rfl
  | none =>
    have hacts : c.store.Acts now _ _ (c.store.put now (Codec.encodeKey text) v.printed
        (call.ttl.getD c.config.defaultTtl)) := Store.put_acts hrefusal _
    have hanswer : ((c.store.put now (Codec.encodeKey text) v.printed
        (call.ttl.getD c.config.defaultTtl)).toRun fun _ => .flag true).answer =
        .ok (.flag true) := by
      simp only [Turn.toRun, Turn.map, Store.put, hrefusal, Store.settle_answer]
    rw [hdone hanswer, hanswer, changeFor_write hcall, if_pos rfl]
    refine h.carries (hacts.toRun _) (fun key row hon => ?_) fun key hoff => ?_
    · rw [hon, Timing.under_self, h.afterChange_write hcall, hpolicy]
      exact .written v _ _ row rfl ⟨text, rfl⟩ hrefusal
    · exact ⟨Timing.under_of_ne hoff _, h.afterChange_write_of_ne hcall _ hoff⟩

theorem putIfAbsent (h : c.Persisting) (hpolicy : c.store.policy = c.config.policy)
    (hcall : Writes call text v) {t : Run}
    (ht : (c.store.putIfAbsent now (Codec.encodeKey text) v.printed
      (call.ttl.getD c.config.defaultTtl)).toRun .flag = t)
    (hdone : t.answer = .ok (.flag true) →
      timing = Timing.under (.written (call.ttl.getD c.config.defaultTtl)) text)
    (hkept : t.answer ≠ .ok (.flag true) → timing = fun _ => .kept) :
    c.Carries now (some v) timing (c.courseWith t (c.changeFor call t.answer)) := by
  subst ht
  cases hrefusal : Store.refusal? (Codec.encodeKey text) v.printed with
  | some refusal =>
    have hentry : Store.refusal? (Codec.encodeKey text) (Entry.fresh now v.printed
      (call.ttl.getD c.config.defaultTtl) c.store.policy).value = some refusal := hrefusal
    unfold Store.putIfAbsent at hkept ⊢
    rw [Store.insertAbsent_refused hentry] at hkept ⊢
    rw [hkept (by intro hflag; cases hflag)]
    exact h.refused call (.invalidRequest refusal) fun _ => rfl
  | none =>
    have hentry : Store.refusal? (Codec.encodeKey text) (Entry.fresh now v.printed
      (call.ttl.getD c.config.defaultTtl) c.store.policy).value = none := hrefusal
    have hacts : c.store.Acts now _ _ (c.store.putIfAbsent now (Codec.encodeKey text) v.printed
        (call.ttl.getD c.config.defaultTtl)) := Store.insertAbsent_acts hentry
    have hanswer : ((c.store.putIfAbsent now (Codec.encodeKey text) v.printed
        (call.ttl.getD c.config.defaultTtl)).toRun .flag).answer =
        .ok (.flag (c.store.live? now (Codec.encodeKey text)).isNone) := by
      simp only [Turn.toRun, Turn.map, Store.putIfAbsent, Store.insertAbsent_answer hentry]
    rw [hanswer, changeFor_write hcall]
    cases hlive : c.store.live? now (Codec.encodeKey text) with
    | some e =>
      -- The key is live, and nothing is written.
      have hnot : ((c.store.putIfAbsent now (Codec.encodeKey text) v.printed
          (call.ttl.getD c.config.defaultTtl)).toRun .flag).answer ≠ .ok (.flag true) := by
        rw [hanswer, hlive]
        intro hflag
        cases hflag
      rw [hkept hnot, Option.isNone_some, if_neg (by decide)]
      refine h.carries_unchanged (hacts.toRun _) (fun key row hon => ?_) fun _ _ => rfl
      rw [hon, hlive]
      exact .kept _ row
    | none =>
      rw [hdone (by rw [hanswer, hlive]; rfl), Option.isNone_none, if_pos rfl]
      refine h.carries (hacts.toRun _) (fun key row hon => ?_) fun key hoff => ?_
      · rw [hon, hlive, Option.getD_none, Timing.under_self, h.afterChange_write hcall, hpolicy]
        exact .written v _ _ row rfl ⟨text, rfl⟩ hrefusal
      · exact ⟨Timing.under_of_ne hoff _, h.afterChange_write_of_ne hcall _ hoff⟩

/-! ### Reads -/

theorem get (h : c.Persisting) {t : Run}
    (ht : (c.store.get now (Codec.encodeKey text)).map Command.valueAnswer = t)
    (hread : ∀ key e, c.store.live? now key = some e → timing key = Timing.under .read text key)
    (hkept : ∀ key, c.store.live? now key = none → timing key = .kept) :
    c.Carries now given timing (c.courseWith t none) := by
  subst ht
  refine h.carries_unchanged (Store.get_acts.map _) (fun key row hon => ?_) fun key hoff => ?_
  · cases hlive : c.store.live? now key with
    | none =>
      rw [hkept key hlive]
      exact .kept none row
    | some e =>
      rw [hread key e hlive, hon, Timing.under_self]
      exact .read e row
  · cases hlive : c.store.live? now key with
    | none => exact hkept key hlive
    | some e => rw [hread key e hlive, Timing.under_of_ne hoff]

/-! ### Swapping values -/

/-- To replace the value of a key is recorded if there was a value to answer. -/
theorem changeFor_replace (h : c.Persisting) (old : Option Json) :
    c.changeFor { method := .replace, keys := [text], value := some v } (.ok (.value old)) =
      if old.isSome then
        some
          { kind := .replaceValue
            keys := [Codec.encodeKey text]
            value := some v.printed }
      else none := by
  have hvalue : Invocation.changedValue { method := .replace, keys := [text], value := some v }
      .replaceValue c.changeCodec = .ok (some v.printed) := by
    rw [h.changeCodec]
    rfl
  rw [changeFor_ok rfl (by decide) hvalue]
  rfl

/-- Of bytes that are no value none is answered, and then nothing is recorded. -/
theorem changeFor_replace_unread (h : c.Persisting) {bytes : Bytes}
    (hbytes : Codec.Unreadable bytes) :
    c.changeFor { method := .replace, keys := [text], value := some v }
      (Command.valueAnswer (some bytes)) = none := by
  unfold Command.valueAnswer
  dsimp only
  cases hdecoded : Codec.decodeValue bytes with
  | error e => exact changeFor_error _ _
  | ok found =>
    cases found with
    | none => exact h.changeFor_replace none
    | some old => exact absurd hdecoded (hbytes old)

theorem replace (h : c.Persisting) {t : Run}
    (hcall : call = { method := .replace, keys := [text], value := some v })
    (ht : ((c.store.replace now (Codec.encodeKey text) v.printed).map fun
      | .ok previous => Command.valueAnswer previous
      | .error refusal => .error (.invalidRequest refusal)) = t)
    (htiming : ∀ key, timing key = .kept) :
    c.Carries now (some v) timing (c.courseWith t (c.changeFor call t.answer)) := by
  subst ht hcall
  cases hrefusal : Store.refusal? (Codec.encodeKey text) v.printed with
  | some refusal =>
    rw [Store.replace_refused hrefusal]
    exact h.refused _ (.invalidRequest refusal) htiming
  | none =>
    have hacts : c.store.Acts now _ _ (c.store.replace now (Codec.encodeKey text) v.printed) :=
      Store.replace_acts hrefusal
    have hanswer : ((c.store.replace now (Codec.encodeKey text) v.printed).map fun
        | .ok previous => Command.valueAnswer previous
        | .error refusal => .error (.invalidRequest refusal)).answer =
        Command.valueAnswer ((c.store.live? now (Codec.encodeKey text)).map (·.value)) := by
      simp only [Turn.map, Store.replace_answer hrefusal]
    rw [hanswer]
    cases hlive : c.store.live? now (Codec.encodeKey text) with
    | none =>
      have hchange : c.changeFor { method := .replace, keys := [text], value := some v }
          (Command.valueAnswer none) = none := h.changeFor_replace none
      rw [Option.map_none, hchange]
      refine h.carries_unchanged (hacts.map _) (fun key row hon => ?_) fun key _ => htiming key
      rw [hon, hlive, htiming]
      exact .kept none row
    | some e =>
      rw [Option.map_some]
      rcases Codec.readable_or_unreadable e.value with ⟨old, hold⟩ | hold
      · have hfound : Command.valueAnswer (some e.value) = .ok (.value (some old)) := by
          simp [Command.valueAnswer, hold]
        rw [hfound, h.changeFor_replace, Option.isSome_some, if_pos rfl]
        refine h.carries (hacts.map _) (fun key row hon => ?_) fun key hoff => ?_
        · rw [hon, hlive, htiming]
          have hrow : afterChange now (Codec.encodeKey text) row (some
              { kind := .replaceValue
                keys := [Codec.encodeKey text]
                value := some v.printed }) = row.map fun r => { r with value := v.printed } := by
            simp [afterChange, Change.effect]
          rw [hrow]
          exact .revalued v old e row rfl hrefusal hold
        · exact ⟨htiming key, fun row => by simp [afterChange, Change.effect, hoff]⟩
      · rw [h.changeFor_replace_unread hold]
        refine h.carries_unchanged (hacts.map _) (fun key row hon => ?_) fun key _ => htiming key
        rw [hon, hlive, htiming]
        exact .revaluedUnread v e row rfl hrefusal hold

/-! ### Removals -/

theorem delete (h : c.Persisting) {keys : List String} {t : Run}
    (ht : (Command.removeAll c.store now (keys.map Codec.encodeKey)).answering .count = t)
    (htiming : ∀ key, timing key = .kept) :
    c.Carries now given timing (c.courseWith t
      (c.changeFor { method := .delete, keys := keys } t.answer)) := by
  subst ht
  have hacts : c.store.Acts now _ _ (Command.removeAll c.store now (keys.map Codec.encodeKey)) :=
    Command.removeAll_acts _
  generalize hcount : (Command.removeAll c.store now (keys.map Codec.encodeKey)).answer = count
  have hanswer : ((Command.removeAll c.store now (keys.map Codec.encodeKey)).answering
      .count).answer = .ok (.count count) := by
    rw [← hcount]
    rfl
  rw [hanswer]
  have hchange : c.changeFor { method := .delete, keys := keys } (.ok (.count count)) =
      if 0 < count then some (Change.erase (keys.map Codec.encodeKey)) else none := by
    rw [changeFor_ok rfl (by decide) rfl]
    simp [ChangeKind.expectation, Expectation.isMet, Answer.outcome, Change.erase,
      Invocation.changedKeys, Invocation.changedTtl, Invocation.byteKeys]
  rw [hchange]
  refine h.carries (hacts.answering _) (fun key row hon => ?_) fun key hoff => ?_
  · rw [htiming]
    by_cases hpos : 0 < count
    · rw [if_pos hpos]
      have herased : afterChange now key row (some (Change.erase (keys.map Codec.encodeKey))) =
          none := if_pos hon
      rw [herased]
      exact .gone _ row
    · -- No key was live, so nothing is removed and nothing is recorded.
      have hzero : count = 0 := by omega
      rw [if_neg hpos, Command.live?_of_removeAll_eq_zero (hcount.trans hzero) hon]
      exact .kept none row
  · refine ⟨htiming key, fun row => ?_⟩
    split
    · exact if_neg hoff
    · rfl

theorem deleteAll (h : c.Persisting) {t : Run}
    (ht : (c.store.clear now).answering (fun live => .flag (0 < live)) = t)
    (htiming : ∀ key, timing key = .kept) :
    c.Carries now given timing
      (c.courseWith t (c.changeFor { method := .deleteAll } t.answer)) := by
  subst ht
  have hacts : c.store.Acts now _ _ (c.store.clear now) := Store.clear_acts
  have hanswer : ((c.store.clear now).answering fun live => .flag (0 < live)).answer =
      .ok (.flag (0 < (c.store.living now).size)) := rfl
  rw [hanswer]
  have hchange : c.changeFor { method := .deleteAll } (.ok (.flag (0 < (c.store.living now).size))) =
      if 0 < (c.store.living now).size then some { kind := .removeAll, keys := [] } else none := by
    rw [changeFor_ok rfl (by decide) rfl]
    simp [ChangeKind.expectation, Expectation.isMet, Answer.outcome, Invocation.changedKeys,
      Invocation.changedTtl]
  rw [hchange]
  refine h.carries (hacts.answering _) (fun key row _ => ?_) fun key hoff => absurd trivial hoff
  rw [htiming]
  by_cases hpos : 0 < (c.store.living now).size
  · rw [if_pos hpos]
    exact .gone _ row
  · rw [if_neg hpos]
    have hempty : c.store.living now = ∅ := by
      refine ByteMap.isEmpty_iff.1 (List.isEmpty_iff.2 (List.eq_nil_of_length_eq_zero ?_))
      exact Nat.eq_zero_of_not_pos hpos
    rw [← Store.find?_living, hempty]
    exact .kept none row

theorem deleteSimilar (h : c.Persisting)
    (hnamed : ∀ key e, c.store.live? now key = some e → ∃ text, key = Codec.encodeKey text)
    {start : String} {t : Run}
    (ht : (c.store.removeWhere now fun key => key.startsWith (Codec.encodeKey start)).answering
      (fun removed => .removed ((removed.map Command.removedMember).foldr Json.addMember [])) = t)
    (htiming : ∀ key, timing key = .kept) :
    c.Carries now given timing (c.courseWith t
      (c.changeFor { method := .deleteSimilar, keys := [start] } t.answer)) := by
  subst ht
  generalize htest : (fun key : Bytes => key.startsWith (Codec.encodeKey start)) = test
  have hacts : c.store.Acts now _ _ (c.store.removeWhere now test) := Store.removeWhere_acts test
  generalize hnames : (((c.store.removeWhere now test).answer.map Command.removedMember).foldr
    Json.addMember []).map (·.1) = names
  have hchange : c.changeFor { method := .deleteSimilar, keys := [start] }
      ((c.store.removeWhere now test).answering fun removed =>
        .removed ((removed.map Command.removedMember).foldr Json.addMember [])).answer =
      if names.isEmpty then none
      else some { kind := .removeBySimilarity, keys := names.map Codec.encodeKey } := by
    rw [← hnames]
    show c.changeFor _ (.ok (.removed _)) = _
    rw [changeFor_ok rfl (by decide) rfl]
    simp [ChangeKind.expectation, Expectation.isMet, Answer.outcome, Invocation.changedKeys,
      Invocation.changedTtl]
  have hmem : ∀ key, key ∈ names.map Codec.encodeKey ↔
      ∃ e, c.store.live? now key = some e ∧ test key = true := by
    rw [← hnames]
    exact fun key => Command.mem_removedKeys hnamed test key
  -- With no names there is nothing to erase, and no key that would have to be.
  have hafter : ∀ key row, afterChange now key row (if names.isEmpty then none
      else some { kind := .removeBySimilarity, keys := names.map Codec.encodeKey }) =
      if key ∈ names.map Codec.encodeKey then none else row := by
    intro key row
    cases names with
    | nil => rfl
    | cons name rest => rfl
  rw [hchange]
  refine h.carries (hacts.answering _) (fun key row _ => ?_) fun key hoff => absurd trivial hoff
  rw [hafter, htiming]
  by_cases hkey : key ∈ names.map Codec.encodeKey
  · obtain ⟨e, hlive, htested⟩ := (hmem key).1 hkey
    rw [if_pos hkey, hlive, htested]
    exact .gone _ row
  · rw [if_neg hkey]
    cases hlive : c.store.live? now key with
    | none => exact .kept none row
    | some e =>
      have hkeep : test key = false := by
        cases htested : test key with
        | false => rfl
        | true => exact absurd ((hmem key).2 ⟨e, hlive, htested⟩) hkey
      rw [hkeep]
      exact .kept (some e) row

end Persisting

end Cache

end ExpiringCache
