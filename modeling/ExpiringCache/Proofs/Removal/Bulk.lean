import ExpiringCache.Proofs.Removal.Anchored
import ExpiringCache.Proofs.Removal.Similar
import ExpiringCache.Proofs.Reports
import ExpiringCache.Proofs.Store.Drops
import Mathlib.Algebra.Order.Ring.Nat

/-!
# To remove keys together and one by one

Keys can be removed by name, by a common beginning, or all of them. Once the store is swept, each of
these comes to the same as to remove the keys one by one (`Cache.bulk_removal`): the same entries are
left and the same was reported, because the same live keys were removed (`Store.Drops.entries_eq`),
and so the same rows are left (`Cache.Anchored.row?_removals`).
-/

namespace ExpiringCache

namespace Cache

variable {c : Cache} {now : Millis} {on on₁ on₂ gone gone₁ gone₂ : Bytes → Prop}

/-! ### Requests that remove keys -/

/-- Removals at one reading of the clock: what they do to the store, and what is reported. -/
structure Drops (c : Cache) (now : Millis) (on gone : Bytes → Prop)
    (steps : List (Millis × Request)) : Prop where
  removes : ∀ step ∈ steps, step.2.removes = true
  store : ∃ expired, c.store.Drops now on gone expired (c.serveAll steps).2.store ∧
    c.reports steps = expired.filterMap message?

theorem drops_nil (c : Cache) (now : Millis) :
    c.Drops now (fun _ => False) (fun _ => False) [] where
  removes _ h := absurd h List.not_mem_nil
  store := ⟨[], c.store.drops_nothing now, rfl⟩

theorem Drops.append {xs ys : List (Millis × Request)} (hxs : c.Drops now on₁ gone₁ xs)
    (hys : (c.serveAll xs).2.Drops now on₂ gone₂ ys) :
    c.Drops now (fun key => on₁ key ∨ on₂ key) (fun key => gone₁ key ∨ gone₂ key) (xs ++ ys) := by
  refine ⟨fun step hstep => (List.mem_append.1 hstep).elim (hxs.removes step) (hys.removes step), ?_⟩
  obtain ⟨expired₁, hdrops₁, hreports₁⟩ := hxs.store
  obtain ⟨expired₂, hdrops₂, hreports₂⟩ := hys.store
  refine ⟨expired₁ ++ expired₂, ?_, ?_⟩
  · rw [serveAll_append]
    exact hdrops₁.trans hdrops₂
  · rw [reports_append, hreports₁, hreports₂, List.filterMap_append]

/-- One request that removes keys, by what it does to the store. -/
theorem drops_step {α : Type} {t : Turn α} {asked : Request} (hremoves : asked.removes = true)
    (hstore : (c.requestCourse now asked).store = t.store)
    (hmessages : (c.requestCourse now asked).messages = t.expired.filterMap message?)
    (hdrops : c.store.Drops now on gone t.expired t.store) : c.Drops now on gone [(now, asked)] := by
  have hserve : (c.serve now asked).2 = c.take now (c.requestCourse now asked) :=
    congrArg Prod.snd (serve_eq c now asked)
  refine ⟨fun step hstep => by rw [List.mem_singleton.1 hstep]; exact hremoves, t.expired, ?_, ?_⟩
  · show c.store.Drops now on gone t.expired (c.serve now asked).2.store
    rw [hserve]
    show c.store.Drops now on gone t.expired (c.requestCourse now asked).store
    rwa [hstore]
  · show (c.requestCourse now asked).messages ++ [] = _
    rw [List.append_nil, hmessages]

/-- A sweep after removals. -/
theorem Drops.swept {steps : List (Millis × Request)} (h : c.Drops now on gone steps) :
    c.Drops now (fun _ => True) gone (steps ++ [(now, .sweep)]) := by
  have hsweep : (c.serveAll steps).2.Drops now (fun _ => True) (fun _ => False) [(now, .sweep)] :=
    drops_step rfl rfl (messages_turn _ _) (Store.drops_sweep _ now)
  simpa using h.append hsweep

/-! ### Commands that remove keys -/

namespace Anchored

/-- The course of a removal is that of what it does to the store, with a change recorded of it. -/
theorem course_of_removes (h : c.Anchored) (now : Millis) (command : Command)
    (hremoves : (Request.call command).removes = true) :
    ∃ change, c.course now command =
      c.courseWith (command.run c.config c.codec now c.store) change := by
  have hcalled : ∀ {call}, command.invocation? = some call → call.method.isAboutTtl = false →
      ∃ change, c.course now command =
        c.courseWith (command.run c.config c.codec now c.store) change := by
    intro call hcall hmethod
    have hcodec : Codec.json = c.codec := h.prompt.persisting.codec.symm
    exact ⟨_, course_call h.prompt.persisting hcall hmethod
      (congrArg (command.run c.config · now c.store) hcodec)⟩
  cases command with
  | delete _ | deleteSimilar _ | deleteAll => exact hcalled rfl rfl
  | _ => cases hremoves

theorem drops_call (h : c.Anchored) {command : Command}
    (hremoves : (Request.call command).removes = true)
    (hdrops : c.store.Drops now on gone (command.run c.config c.codec now c.store).expired
      (command.run c.config c.codec now c.store).store) :
    c.Drops now on gone [(now, .call command)] := by
  obtain ⟨change, hcourse⟩ := h.course_of_removes now command hremoves
  have hmessages : (c.course now command).messages =
      (command.run c.config c.codec now c.store).expired.filterMap message? := by
    rw [hcourse, ← messages_turn _ c.config]
    show (_ ++ changeErrands _ change).filterMap Errand.message? = _
    rw [List.filterMap_append, message?_changeErrands, List.append_nil]
    rfl
  exact drops_step hremoves (congrArg Course.store hcourse) hmessages hdrops

theorem drops_delete (h : c.Anchored) (now : Millis) (texts : List String) :
    c.Drops now (· ∈ texts.map Codec.encodeKey) (· ∈ texts.map Codec.encodeKey)
      [(now, .call (.delete texts))] :=
  h.drops_call rfl ((Command.removeAll_acts (texts.map Codec.encodeKey)).drops (fun _ h => h)
    (fun _ _ => rfl) fun _ h hkeep => absurd h hkeep)

theorem drops_deleteSimilar (h : c.Anchored) (now : Millis) (start : String) :
    c.Drops now (fun _ => True) (fun key => key.startsWith (Codec.encodeKey start) = true)
      [(now, .call (.deleteSimilar start))] := by
  refine h.drops_call rfl ((Store.removeWhere_acts fun key =>
    key.startsWith (Codec.encodeKey start)).drops (fun _ _ => trivial) (fun key hstart => ?_)
    fun key _ hkeep => ?_)
  · simp [hstart]
  · rw [Bool.eq_false_iff.2 hkeep]
    cases c.store.live? now key <;> rfl

theorem drops_deleteAll (h : c.Anchored) (now : Millis) :
    c.Drops now (fun _ => True) (fun _ => True) [(now, .call .deleteAll)] :=
  h.drops_call rfl (Store.clear_acts.drops (fun _ h => h) (fun _ _ => rfl)
    fun _ h hkeep => absurd h hkeep)

/-! ### Keys one by one -/

end Anchored

/-- The commands that remove keys one by one. -/
def removeEach (texts : List String) : List Command := texts.map fun text => .delete [text]

/-- Commands as requests at one reading of the clock. -/
def atOnce (now : Millis) (commands : List Command) : List (Millis × Request) :=
  commands.map fun command => (now, .call command)

namespace Anchored

theorem drops_each (now : Millis) (texts : List String) : ∀ {c : Cache}, c.Anchored →
    c.Drops now (· ∈ texts.map Codec.encodeKey) (· ∈ texts.map Codec.encodeKey)
      (atOnce now (removeEach texts)) := by
  induction texts with
  | nil => exact fun {c} _ => by simpa [atOnce, removeEach] using drops_nil c now
  | cons text rest ih =>
    intro c h
    have hfirst := h.drops_delete now [text]
    have hrest := ih (h.request now (.call (.delete [text])))
    simpa [atOnce, removeEach] using hfirst.append hrest

/-- What is counted one by one adds up to what is counted together. -/
theorem counts_each (now : Millis) (texts : List String) : ∀ {c : Cache}, c.Anchored →
    ∃ counts : List Nat,
      (c.serveAll (atOnce now (removeEach texts))).1 =
          counts.map (fun n => some (.ok (.count n))) ∧
        (Command.removeAll c.store now (texts.map Codec.encodeKey)).answer = counts.sum := by
  induction texts with
  | nil => exact fun _ => ⟨[], rfl, rfl⟩
  | cons text rest ih =>
    intro c h
    obtain ⟨counts, hreplies, hsum⟩ := ih (h.request now (.call (.delete [text])))
    obtain ⟨change, hcourse⟩ := h.course_of_removes now (.delete [text]) rfl
    have hstore : (c.act now (.request (.call (.delete [text])))).store =
        (Command.removeAll c.store now [Codec.encodeKey text]).store := by
      rw [act_request]
      exact congrArg Course.store hcourse
    have hreply : (c.perform now (.delete [text])).1 =
        .ok (.count (Command.removeAll c.store now [Codec.encodeKey text]).answer) := by
      rw [perform_eq]
      rfl
    refine ⟨(Command.removeAll c.store now [Codec.encodeKey text]).answer :: counts, ?_, ?_⟩
    · show some (c.perform now (.delete [text])).1 :: _ = _
      rw [hreply, List.map_cons]
      exact congrArg _ hreplies
    · rw [List.map_cons, Command.removeAll_cons, List.sum_cons]
      dsimp only
      rw [← hstore, hsum]

end Anchored

/-! ### Two ways to remove keys -/

/-- Two lists of commands, each followed by a sweep, leave the same entries and the same rows, and
have reported the same, so that listeners were told the same. -/
structure SameRemoval (c : Cache) (now : Millis) (one other : List Command) : Prop where
  entries : (c.serveAll (atOnce now one ++ [(now, .sweep)])).2.store.entries =
    (c.serveAll (atOnce now other ++ [(now, .sweep)])).2.store.entries
  rows : ∃ rows,
    (c.serveAll (atOnce now one ++ [(now, .sweep)])).2.backing.rows c.config.backend = .ok rows ∧
    (c.serveAll (atOnce now other ++ [(now, .sweep)])).2.backing.rows c.config.backend = .ok rows
  reports : ∀ m, m ∈ c.reports (atOnce now one ++ [(now, .sweep)]) ↔
    m ∈ c.reports (atOnce now other ++ [(now, .sweep)])
  told : ∃ tellings others,
    (c.serveAll (atOnce now one ++ [(now, .sweep)])).2.backing.told = c.backing.told ++ tellings ∧
    (c.serveAll (atOnce now other ++ [(now, .sweep)])).2.backing.told = c.backing.told ++ others ∧
    ∀ telling, telling ∈ tellings ↔ telling ∈ others

/-- Commands that remove the same live keys come to the same. -/
theorem Anchored.sameRemoval (h : c.Anchored) {one other : List Command}
    (hone : c.Drops now on₁ gone₁ (atOnce now one))
    (hother : c.Drops now on₂ gone₂ (atOnce now other))
    (hsame : ∀ key, (c.store.live? now key).isSome = true → (gone₁ key ↔ gone₂ key)) :
    c.SameRemoval now one other := by
  obtain ⟨expired₁, hdrops₁, hreports₁⟩ := hone.swept.store
  obtain ⟨expired₂, hdrops₂, hreports₂⟩ := hother.swept.store
  obtain ⟨hentries, hexpired⟩ := hdrops₁.entries_eq hdrops₂ hsame
  have hreports : ∀ m, m ∈ c.reports (atOnce now one ++ [(now, .sweep)]) ↔
      m ∈ c.reports (atOnce now other ++ [(now, .sweep)]) := by
    simp only [hreports₁, hreports₂, List.mem_filterMap, hexpired, implies_true]
  refine ⟨hentries, ?_, hreports, _, _, told_serveAll _ c, told_serveAll _ c, fun telling => ?_⟩
  · -- Each row goes with its entry, and the entries are the same.
    obtain ⟨hafter₁, hconfig₁⟩ := h.requests (atOnce now one ++ [(now, .sweep)])
    obtain ⟨hafter₂, hconfig₂⟩ := h.requests (atOnce now other ++ [(now, .sweep)])
    have hdirect₁ := hafter₁.direct
    have hdirect₂ := hafter₂.direct
    rw [hconfig₁] at hdirect₁
    rw [hconfig₂] at hdirect₂
    obtain ⟨rows, hrows⟩ := Backing.rows_of_has hdirect₁.sound hdirect₁.has
    refine ⟨rows, hrows, Backing.rows_of_row? hdirect₂.sound hdirect₂.has
      (Backing.rows_ascending hrows) fun key => ?_⟩
    rw [← Backing.row?_of_rows hrows, h.row?_removals hone.swept.removes,
      h.row?_removals hother.swept.removes, hentries]
  · simp only [List.mem_flatMap, hreports]

/-! ### Which keys, one by one -/

theorem Anchored.live_named (h : c.Anchored) {key : Bytes}
    (hlive : (c.store.live? now key).isSome = true) : ∃ text, key = Codec.encodeKey text := by
  obtain ⟨e, he⟩ := Option.isSome_iff_exists.1 hlive
  exact h.named (Store.live?_eq_some_iff.1 he).1

/-- Removing keys by some common property comes to the same as removing the keys that have it. -/
theorem Anchored.sameRemoval_each (h : c.Anchored) {command : Command} {texts : List String}
    (hdrops : c.Drops now on gone [(now, .call command)])
    (htexts : ∀ text, (c.store.live? now (Codec.encodeKey text)).isSome = true →
      (gone (Codec.encodeKey text) ↔ text ∈ texts)) :
    c.SameRemoval now [command] (removeEach texts) := by
  refine h.sameRemoval hdrops (h.drops_each now texts) fun key hlive => ?_
  obtain ⟨text, rfl⟩ := h.live_named hlive
  rw [htexts text hlive, Codec.encodeKey_mem_map]

/-! ### What is answered -/

/-- What a removed entry is answered as: its key, with its value if that can be read. -/
theorem removedMember_eq_iff {text : String} {bytes : Bytes} {v : Json} :
    Command.removedMember (Codec.encodeKey text, bytes) = (text, v) ↔
      Codec.decodeValue bytes = .ok (some v) ∨ Codec.Unreadable bytes ∧ v = .null := by
  unfold Command.removedMember
  rw [Codec.repair_encodeKey, Prod.mk.injEq]
  dsimp only
  split
  · next w hw =>
    have hread : ¬ Codec.Unreadable bytes := fun hunread => hunread w hw
    simp [hw, hread]
  · next hunread =>
    have hunread : Codec.Unreadable bytes := hunread
    simp [hunread, hunread v, eq_comm]

theorem Anchored.mem_similarMembers_iff (h : c.Anchored) {start text : String} {v : Json} :
    (text, v) ∈ c.similarMembers now start ↔
      ∃ e, c.store.live? now (Codec.encodeKey text) = some e ∧
        (Codec.encodeKey text).startsWith (Codec.encodeKey start) = true ∧
        (Codec.decodeValue e.value = .ok (some v) ∨ Codec.Unreadable e.value ∧ v = .null) := by
  have hnamed : ∀ key e, c.store.live? now key = some e → ∃ text, key = Codec.encodeKey text :=
    fun _ _ hlive => h.named (Store.live?_eq_some_iff.1 hlive).1
  refine (Command.mem_removedMembers hnamed _).trans ?_
  constructor
  · rintro ⟨other, e, hlive, hstart, hmember⟩
    obtain rfl : text = other := by
      have hname := congrArg Prod.fst hmember
      exact hname.trans (Codec.repair_encodeKey other)
    exact ⟨e, hlive, hstart, removedMember_eq_iff.1 hmember.symm⟩
  · rintro ⟨e, hlive, hstart, hvalue⟩
    exact ⟨text, e, hlive, hstart, (removedMember_eq_iff.2 hvalue).symm⟩

/-- **To remove keys together comes to the same as to remove them one by one.** At every moment of a
session that starts with nothing in a cache that does everything at once, and at every reading of
the clock:

* Keys removed by name count as many as the removals of each, one after another, add up to.
* What is removed by a common beginning, and answered with their values, are the live keys with that
  beginning.
* That everything was removed is answered if some key was live.

Each of these, followed by a sweep, leaves the same entries and the same rows, and reports the same,
as the removals of those keys one by one. If the process is started again in between, rows are
replayed and values are read back as they were given. -/
theorem bulk_removal (config : Config) (listeners : Listeners) (backing : Backing)
    (hpersistent : config.persistent = true) (hdirect : backing.Direct config.backend)
    (hempty : ∀ key, backing.row? config.backend key = none) (steps : List (Millis × Action))
    (hrestart : (∃ step ∈ steps, step.2 = .restart) →
      listeners.recovery = [.replay] ∧ ∀ step ∈ steps, step.2.Faithful) (now : Millis) :
    let c := (new config listeners backing).session steps
    (∀ key, (c.store.live? now key).isSome = true → ∃ text, key = Codec.encodeKey text) ∧
      (∀ texts, c.SameRemoval now [.delete texts] (removeEach texts) ∧
        ∃ counts : List Nat,
          (c.serveAll (atOnce now (removeEach texts))).1 =
              counts.map (fun n => some (.ok (.count n))) ∧
            (c.perform now (.delete texts)).1 = .ok (.count counts.sum)) ∧
      (∀ start, (∃ members, (c.perform now (.deleteSimilar start)).1 = .ok (.removed members) ∧
          members.Pairwise (fun a b => a.1 < b.1) ∧
          ∀ text v, (text, v) ∈ members ↔
            ∃ e, c.store.live? now (Codec.encodeKey text) = some e ∧
              (Codec.encodeKey text).startsWith (Codec.encodeKey start) = true ∧
              (Codec.decodeValue e.value = .ok (some v) ∨
                Codec.Unreadable e.value ∧ v = .null)) ∧
        ∀ texts : List String,
          (∀ text, text ∈ texts ↔ (c.store.live? now (Codec.encodeKey text)).isSome = true ∧
            (Codec.encodeKey text).startsWith (Codec.encodeKey start) = true) →
          c.SameRemoval now [.deleteSimilar start] (removeEach texts)) ∧
      (∃ any : Bool, (c.perform now .deleteAll).1 = .ok (.flag any) ∧
        (any = true ↔ ∃ key, (c.store.live? now key).isSome = true)) ∧
      ∀ texts : List String,
        (∀ text, text ∈ texts ↔ (c.store.live? now (Codec.encodeKey text)).isSome = true) →
        c.SameRemoval now [.deleteAll] (removeEach texts) := by
  intro c
  obtain ⟨h, -⟩ := anchored_session hpersistent hdirect hempty steps hrestart
  refine ⟨fun key => h.live_named, fun texts => ⟨?_, ?_⟩, fun start => ⟨?_, fun texts htexts => ?_⟩,
    ⟨decide (0 < (c.store.clear now).answer), ?_, ?_⟩, fun texts htexts => ?_⟩
  · exact h.sameRemoval (h.drops_delete now texts) (h.drops_each now texts) fun _ _ => Iff.rfl
  · obtain ⟨counts, hreplies, hsum⟩ := h.counts_each now texts
    refine ⟨counts, hreplies, ?_⟩
    rw [perform_eq, ← hsum]
    rfl
  · exact ⟨c.similarMembers now start, perform_deleteSimilar_answer, Json.pairwise_object _,
      fun text v => h.mem_similarMembers_iff⟩
  · exact h.sameRemoval_each (h.drops_deleteSimilar now start) fun text hlive => by
      rw [htexts]
      exact (and_iff_right hlive).symm
  · rw [perform_eq]
    rfl
  · rw [decide_eq_true_iff, Store.clear_answer_pos]
  · exact h.sameRemoval_each (h.drops_deleteAll now) fun text hlive => by
      rw [htexts]
      exact iff_of_true trivial hlive

/-- Three keys are brought back and a fourth had expired; then one more expires. -/
theorem bulk_removal_after_restart :
    let c := (new { persistent := true } { recovery := [.replay] }
        { registry := { memory := some (.memory .empty) } }).session
      [(0, .request (.call (.setWithTtl "ka" (.int 1) (.ofSeconds 90)))),
        (0, .request (.call (.setWithTtl "kb" (.int 2) (.ofSeconds 90)))),
        (0, .request (.call (.setWithTtl "s" (.int 3) (.ofSeconds 50)))),
        (0, .request (.call (.setWithTtl "k" (.int 4) (.ofSeconds 30)))), (40000, .restart)]
    c.SameRemoval 60000 [.delete ["ka", "s", "ka", "x"]] (removeEach ["ka", "s", "ka", "x"]) ∧
      (c.serveAll (atOnce 60000 (removeEach ["ka", "s", "ka", "x"]))).1 =
        [some (.ok (.count 1)), some (.ok (.count 0)), some (.ok (.count 0)),
          some (.ok (.count 0))] ∧
      (c.perform 60000 (.delete ["ka", "s", "ka", "x"])).1 = .ok (.count 1) ∧
      (c.perform 60000 (.deleteSimilar "k")).1 = .ok (.removed [("ka", .int 1), ("kb", .int 2)]) ∧
      c.SameRemoval 60000 [.deleteSimilar "k"] (removeEach ["kb", "ka"]) ∧
      (c.perform 60000 .deleteAll).1 = .ok (.flag true) ∧
      c.SameRemoval 60000 [.deleteAll] (removeEach ["ka", "kb"]) := by
  intro c
  obtain ⟨-, hnamed, hsimilar, -, hall⟩ := bulk_removal { persistent := true } { recovery := [.replay] }
    { registry := { memory := some (.memory .empty) } } rfl
    ⟨⟨rfl, rfl, fun backend hback => by cases hback; trivial⟩, rfl, rfl⟩ (fun _ => rfl)
    [(0, .request (.call (.setWithTtl "ka" (.int 1) (.ofSeconds 90)))),
      (0, .request (.call (.setWithTtl "kb" (.int 2) (.ofSeconds 90)))),
      (0, .request (.call (.setWithTtl "s" (.int 3) (.ofSeconds 50)))),
      (0, .request (.call (.setWithTtl "k" (.int 4) (.ofSeconds 30)))), (40000, .restart)]
    (fun _ => ⟨rfl, by
      intro step hstep
      simp only [List.mem_cons, List.not_mem_nil, or_false] at hstep
      rcases hstep with rfl | rfl | rfl | rfl | rfl
      · intro v hv; cases hv; exact Json.Storable.faithful (by decide)
      · intro v hv; cases hv; exact Json.Storable.faithful (by decide)
      · intro v hv; cases hv; exact Json.Storable.faithful (by decide)
      · intro v hv; cases hv; exact Json.Storable.faithful (by decide)
      · trivial⟩) 60000
  have hliving : (c.store.living 60000).keys = ["ka", "kb"].map Codec.encodeKey := rfl
  have hlive : ∀ text, (c.store.live? 60000 (Codec.encodeKey text)).isSome = true ↔
      text ∈ ["ka", "kb"] := by
    intro text
    rw [← Store.find?_living, ← ByteMap.mem_keys_iff, hliving, Codec.encodeKey_mem_map]
  refine ⟨(hnamed _).1, rfl, rfl, rfl, (hsimilar "k").2 _ fun text => ?_, rfl,
    hall _ fun text => (hlive text).symm⟩
  rw [hlive]
  simp only [List.mem_cons, List.not_mem_nil, or_false]
  constructor
  · rintro (rfl | rfl)
    · exact ⟨.inr rfl, by decide⟩
    · exact ⟨.inl rfl, by decide⟩
  · exact fun h => h.1.symm

end Cache

end ExpiringCache
