import ExpiringCache.Proofs.Passage.Duration

/-!
# Every request takes each key on a passage

The passages of all requests put together (`Cache.Prompt.passage`), in a cache that records what it
does at once. Such a cache remains one whatever is asked of it, and when it starts again.
-/

namespace ExpiringCache

namespace Cache

variable {c : Cache} {now : Millis}

namespace Persisting

theorem timing_eq (h : c.Persisting) {command : Command} {t : Run}
    (ht : command.run c.config Codec.json now c.store = t) (key : Bytes) :
    c.timing now key (.call command) =
      command.timing c.config key (c.store.live? now key) t.answer := by
  rw [← ht, ← h.codec]
  rfl

/-- A change of TTL answers whether the key is live. -/
theorem timing_change (h : c.Persisting) {command : Command} {text : String} {f : Entry → Entry}
    (ht : command.run c.config Codec.json now c.store =
      (c.store.change now (Codec.encodeKey text) f).answering .flag) (key : Bytes) :
    c.timing now key (.call command) =
      command.timing c.config key (c.store.live? now key)
        (.ok (.flag (c.store.live? now (Codec.encodeKey text)).isSome)) := by
  rw [h.timing_eq ht, ← Store.change_answer f]
  rfl

/-- What is asked for at a request takes each key on a passage, if it is done at once. -/
theorem request (h : c.Persisting) (hpolicy : c.store.policy = c.config.policy)
    (hnamed : ∀ key e, c.store.live? now key = some e → ∃ text, key = Codec.encodeKey text)
    (asked : Request) :
    c.Carries now asked.value? (fun key => c.timing now key asked) (c.requestCourse now asked) := by
  cases asked with
  | sweep =>
    show c.Carries now none _ ((c.store.sweep now).course c.config)
    rw [← courseWith_none]
    exact h.carries_look Store.sweep_acts fun _ => rfl
  | call command =>
    show c.Carries now command.value? _ (c.course now command)
    generalize ht : command.run c.config Codec.json now c.store = t
    cases command with
    | set text v =>
      rw [course_call h rfl rfl ht]
      refine h.put hpolicy ⟨rfl, rfl, rfl⟩ ht (fun hanswer => ?_) fun e hanswer => ?_
      · funext key
        rw [h.timing_eq ht, hanswer]
        rfl
      · funext key
        rw [h.timing_eq ht, hanswer]
        rfl
    | setWithTtl text v ttl =>
      rw [course_call h rfl rfl ht]
      refine h.put hpolicy ⟨rfl, rfl, rfl⟩ ht (fun hanswer => ?_) fun e hanswer => ?_
      · funext key
        rw [h.timing_eq ht, hanswer]
        rfl
      · funext key
        rw [h.timing_eq ht, hanswer]
        rfl
    | setIfAbsent text v ttl =>
      rw [course_call h rfl rfl ht]
      refine h.putIfAbsent hpolicy ⟨rfl, rfl, rfl⟩ ht (fun hanswer => ?_) fun hanswer => ?_
      · funext key
        rw [h.timing_eq ht, hanswer]
        rfl
      · funext key
        rw [h.timing_eq ht]
        unfold Command.timing
        split <;> simp_all
    | get text =>
      rw [course_call h rfl rfl ht]
      refine h.get ht (fun key e hlive => ?_) fun key hlive => ?_
      · rw [h.timing_eq ht, hlive]
        rfl
      · rw [h.timing_eq ht, hlive]
        rfl
    | contains text =>
      rw [course_call h rfl rfl ht, ← ht]
      exact h.carries_look (Store.contains_acts.answering _) fun _ => rfl
    | ttl text =>
      rw [course_call h rfl rfl ht, ← ht]
      exact h.carries_look (Store.ttl_acts.answering _) fun _ => rfl
    | delete keys =>
      rw [course_call h rfl rfl ht]
      exact h.delete ht fun _ => rfl
    | deleteSimilar start =>
      rw [course_call h rfl rfl ht]
      exact h.deleteSimilar hnamed ht fun _ => rfl
    | deleteAll =>
      rw [course_call h rfl rfl ht]
      exact h.deleteAll ht fun _ => rfl
    | replaceDuration text ttl =>
      have hrun : Command.run c.config Codec.json now c.store (.replaceDuration text ttl) = _ := rfl
      refine h.duration rfl rfl (.inl rfl) rfl hrun (fun e hlive => ?_) (fun hlive key => ?_)
        fun key hkey => ?_
      · rw [h.timing_change hrun, hlive]
        exact Timing.under_self _ text
      · rw [h.timing_change hrun, hlive]
        rfl
      · rw [h.timing_change hrun]
        cases (c.store.live? now (Codec.encodeKey text)).isSome with
        | false => rfl
        | true => exact Timing.under_of_ne hkey _
    | resetDuration text =>
      have hrun : Command.run c.config Codec.json now c.store (.resetDuration text) = _ := rfl
      refine h.duration rfl rfl (.inr rfl) rfl hrun (fun e hlive => ?_) (fun hlive key => ?_)
        fun key hkey => ?_
      · rw [h.timing_change hrun, hlive]
        exact Timing.under_self _ text
      · rw [h.timing_change hrun, hlive]
        rfl
      · rw [h.timing_change hrun]
        cases (c.store.live? now (Codec.encodeKey text)).isSome with
        | false => rfl
        | true =>
          cases c.store.live? now key with
          | none => rfl
          | some e => exact Timing.under_of_ne hkey _
    | replace text v =>
      rw [course_call h rfl rfl ht]
      exact h.replace rfl ht fun _ => rfl
    | peek text =>
      rw [course_plain h rfl rfl]
      exact h.carries_look (Store.peek_acts.map _) fun _ => rfl

end Persisting

/-! ### A cache that does everything at once -/

/-- A persisting cache that does everything at once, by a backend that never fails, and has entries
and rows only under texts. -/
structure Prompt (c : Cache) : Prop where
  persisting : c.Persisting
  direct : c.backing.Direct c.config.backend
  policy : c.store.policy = c.config.policy
  named : ∀ key, c.store.entries.find? key ≠ none ∨ c.backing.row? c.config.backend key ≠ none →
    ∃ text, key = Codec.encodeKey text

/-- With nothing stored and nothing durable a cache is one. -/
theorem prompt_new {config : Config} {listeners : Listeners} {backing : Backing}
    (hpersistent : config.persistent = true) (hreplay : listeners.recovery = [.replay])
    (hdirect : backing.Direct config.backend)
    (hempty : ∀ key, backing.row? config.backend key = none) :
    (new config listeners backing).Prompt where
  persisting := persisting_new backing hpersistent hreplay
  direct := hdirect
  policy := rfl
  named key h := absurd h (not_or.2 ⟨fun hne => hne rfl, fun hne => hne (hempty key)⟩)

namespace Prompt

/-- What a request asks for takes each key on a passage. -/
theorem carries (h : c.Prompt) (now : Millis) (asked : Request) :
    c.Carries now asked.value? (fun key => c.timing now key asked) (c.requestCourse now asked) := by
  refine h.persisting.request h.policy (fun key e hlive => h.named key (.inl ?_)) asked
  rw [(Store.live?_eq_some_iff.1 hlive).1]
  exact Option.some_ne_none e

/-- A request takes each key on a passage. -/
theorem passage (h : c.Prompt) (now : Millis) (asked : Request) (key : Bytes) :
    Passage c.config now key asked.value? (c.timing now key asked) (c.store.entries.find? key)
      (c.backing.row? c.config.backend key) ((c.act now (.request asked)).store.entries.find? key)
      ((c.act now (.request asked)).backing.row? c.config.backend key) := by
  have hrow : (c.act now (.request asked)).backing.row? c.config.backend key =
      Errand.effects now c.config.backend key (c.requestCourse now asked).errands
        (c.backing.row? c.config.backend key) := by
    rw [act_request]
    exact (Backing.carryOutAll_direct c.listeners.expiration now _ h.direct).2 key
  rw [hrow, act_request]
  exact (h.carries now asked).keys key

/-- Whatever is asked of it, the cache remains one that does everything at once. -/
theorem request (h : c.Prompt) (now : Millis) (asked : Request) :
    (c.act now (.request asked)).Prompt := by
  have hp := h.persisting
  have hpassage := h.passage now asked
  rw [act_request] at hpassage ⊢
  exact ⟨⟨hp.persistent, hp.methods, hp.codec, hp.changeCodec, hp.recovery⟩,
    (Backing.carryOutAll_direct c.listeners.expiration now _ h.direct).1,
    (h.carries now asked).policy.trans h.policy,
    fun key hafter => (hpassage key).named (h.named key) hafter⟩

/-- Starting again leaves the rows with time left, and brings back only entries of such rows. -/
theorem relaunch (h : c.Prompt) (now : Millis) :
    let d := (c.relaunch now).2
    d.Prompt ∧ d.config = c.config ∧
      (∀ key, d.backing.row? c.config.backend key =
        (c.backing.row? c.config.backend key).filter (·.isLive now)) ∧
      ∀ key e, d.store.entries.find? key = some e →
        ∃ r, c.backing.row? c.config.backend key = some r ∧ r.isLive now = true ∧
          e = r.entry now c.config.policy := by
  intro d
  have hp := h.persisting
  obtain ⟨rows, hrows⟩ := Backing.rows_of_has h.direct.sound h.direct.has
  have hascending := Backing.rows_ascending hrows
  obtain ⟨restored, failed, s, b, hrelaunch, -, hpolicy, hfind, hsound, hworker, hhas, hleft⟩ :=
    relaunch_rows now hp.persistent hp.recovery h.direct.sound hrows
  have hd : d = { c with store := s, backing := b } := congrArg Prod.snd hrelaunch
  have hrow : ∀ key, b.row? c.config.backend key =
      (c.backing.row? c.config.backend key).filter (·.isLive now) := by
    intro key
    rw [Backing.row?_of_rows hleft, Backing.row?_of_rows hrows]
    exact ByteMap.seek_filter (fun _ row => row.isLive now) hascending key
  have hback : ∀ key e, s.entries.find? key = some e →
      ∃ r, c.backing.row? c.config.backend key = some r ∧ r.isLive now = true ∧
        e = r.entry now c.config.policy := by
    intro key e he
    rw [hfind key] at he
    obtain ⟨r, hseek, rfl⟩ := Option.map_eq_some_iff.1 he
    have hmem : (key, r) ∈ restorable now rows := (mem_restorable hascending).2 hseek
    obtain ⟨hmem', hlive⟩ := List.mem_filter.1 ((restorable_sublist now rows).mem hmem)
    exact ⟨r, (Backing.mem_rows_iff hrows).1 hmem', hlive, rfl⟩
  rw [hd]
  refine ⟨⟨⟨hp.persistent, hp.methods, hp.codec, hp.changeCodec, hp.recovery⟩,
    ⟨hsound, by rw [hworker]; exact h.direct.idle, by rw [hhas]; exact h.direct.has⟩, hpolicy,
    fun key hafter => h.named key (.inr ?_)⟩, rfl, hrow, hback⟩
  rcases hafter with hentry | hrow'
  · obtain ⟨e, he⟩ := Option.ne_none_iff_exists'.1 hentry
    obtain ⟨r, hr, -⟩ := hback key e he
    rw [hr]
    exact Option.some_ne_none r
  · intro hnone
    exact hrow' ((hrow key).trans (by rw [hnone]; rfl))

/-- Nothing that happens changes that the cache does everything at once, nor its configuration. -/
theorem act (h : c.Prompt) (now : Millis) (action : Action) :
    (c.act now action).Prompt ∧ (c.act now action).config = c.config := by
  cases action with
  | request asked =>
    refine ⟨h.request now asked, ?_⟩
    rw [act_request]
    rfl
  | restart =>
    obtain ⟨hprompt, hconfig, -⟩ := h.relaunch now
    exact ⟨hprompt, hconfig⟩

end Prompt

end Cache

end ExpiringCache
