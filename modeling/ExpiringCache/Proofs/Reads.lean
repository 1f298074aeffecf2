import ExpiringCache.Proofs.Mirror.Restart
import ExpiringCache.Proofs.Passage.Past

/-!
# Reads are not recorded

Where expiry is counted from reads as well, to read a key moves the end of its entry and leaves its
row. The row ends when the last write or the last change of TTL said it would; the entry ends no
earlier, and not later either as long as the key was not read since (`Cache.reads_unrecorded`). A
restart goes by the row.
-/

namespace ExpiringCache

theorem Clock.after_mono {start later : Millis} (h : start ≤ later) (d : Duration) :
    after start d ≤ after later d :=
  Nat.le_min.2 ⟨held_le _, Nat.le_trans (Nat.min_le_right _ _) (Nat.add_le_add_right h _)⟩

/-- How the ends of an entry and a row follow from the past of their key, with a reading of the
clock that no TTL has started after. -/
structure Dated (now : Millis) (entry : Option Entry) (row : Option Row) (past : Option Past) :
    Prop where
  entry : ∀ e, entry = some e → e.clockStart ≤ now ∧
    ∃ p, past = some p ∧ Clock.after p.start p.ttl ≤ e.expiresAt ∧
      (p.read = false → e.expiresAt = Clock.after p.start p.ttl)
  row : ∀ r, row = some r → ∃ p, past = some p ∧ r.expiresAt = Clock.after p.start p.ttl

namespace Dated

variable {config : Config} {start now : Millis} {key : Bytes} {given : Option Json}
  {timing : Timing} {entry entry' : Option Entry} {row row' : Option Row} {past : Option Past}

theorem nothing (now : Millis) (past : Option Past) : Dated now none none past where
  entry _ h := by cases h
  row _ h := by cases h

theorem later (h : Dated start entry row past) (hle : start ≤ now) : Dated now entry row past where
  entry e he := ⟨Nat.le_trans (h.entry e he).1 hle, (h.entry e he).2⟩
  row := h.row

/-- What is given a TTL now ends when that is over. -/
theorem begun {e : Entry} {p : Past} (hentry : e.clockStart = now ∧ e.ttl = p.ttl)
    (hpast : p.start = now)
    (hrow : ∀ r, row = some r → r.expiresAt = Clock.after now p.ttl) :
    Dated now (some e) row (some p) where
  entry e' he' := by
    cases he'
    have hend : e.expiresAt = Clock.after p.start p.ttl := by
      rw [Entry.expiresAt, hentry.1, hentry.2, hpast]
    exact ⟨Nat.le_of_eq hentry.1, p, rfl, Nat.le_of_eq hend.symm, fun _ => hend⟩
  row r hr := ⟨p, rfl, by rw [hrow r hr, hpast]⟩

/-- Another value does not matter. -/
theorem revalued {e : Entry} (h : Dated now (some e) row past) (value : Bytes)
    (hrow : ∀ r', row' = some r' → ∃ r, row = some r ∧ r'.expiresAt = r.expiresAt) :
    Dated now (some (e.replaceValue value)) row' past where
  entry e' he' := by
    cases he'
    exact h.entry e rfl
  row r' hr' := by
    obtain ⟨r, hr, hend⟩ := hrow r' hr'
    rw [hend]
    exact h.row r hr

/-- To read a key does not move the end of its entry back, and leaves the row. -/
theorem read {e : Entry} (h : Dated now (some e) row past) :
    Dated now (some (e.touch now)) row (past.map fun p => { p with read := true }) where
  entry e' he' := by
    cases he'
    obtain ⟨hstart, p, rfl, hle, -⟩ := h.entry e rfl
    have htouched : (e.touch now).clockStart ≤ now ∧ e.expiresAt ≤ (e.touch now).expiresAt := by
      unfold Entry.touch
      cases e.policy with
      | sinceCreation => exact ⟨hstart, Nat.le_refl _⟩
      | sinceAccess => exact ⟨Nat.le_refl _, Clock.after_mono hstart e.ttl⟩
    exact ⟨htouched.1, _, rfl, Nat.le_trans hle htouched.2, nofun⟩
  row r hr := by
    obtain ⟨p, rfl, hend⟩ := h.row r hr
    exact ⟨_, rfl, hend⟩

/-- A passage at a reading that is not earlier, of an entry whose bytes are a value. -/
theorem passage (h : Dated now entry row past)
    (hpassage : Passage config now key given timing entry row entry' row')
    (hreadable : ∀ e, entry = some e → ¬ Codec.Unreadable e.value) (recorded : Bool) :
    Dated now entry' row' (Past.after now timing recorded past) := by
  cases hpassage with
  | kept => exact h
  | gone => exact nothing now _
  | read e => exact h.read
  | written v ttl _ _ hv hnamed haccepted =>
    refine begun ⟨rfl, rfl⟩ rfl fun r hr => ?_
    obtain ⟨-, hfresh⟩ := Option.ite_none_right_eq_some.1 hr
    cases hfresh
    rfl
  | revalued v old e _ hv haccepted hold =>
    refine h.revalued v.printed fun r' hr' => ?_
    obtain ⟨r, hr, rfl⟩ := Option.map_eq_some_iff.1 hr'
    exact ⟨r, hr, rfl⟩
  | revaluedUnread v e _ hv haccepted hold => exact absurd hold (hreadable e rfl)
  | changed v ttl e _ hvalue hleft =>
    obtain ⟨-, p, rfl, -⟩ := h.entry e rfl
    refine begun ⟨rfl, rfl⟩ rfl fun r hr => ?_
    obtain ⟨-, hrearmed⟩ := Option.ite_none_right_eq_some.1 hr
    cases hrearmed
    cases row <;> rfl
  | changedUnread ttl e _ hvalue hleft => exact absurd hvalue (hreadable e rfl)
  | ended => exact nothing now _

/-- What comes back from a row ends when the row does. -/
theorem relaunched (h : Dated start entry row past)
    (hentry : ∀ e, entry' = some e → ∃ r policy, row = some r ∧ r.isLive now = true ∧
      e = r.entry now policy)
    (hrow : ∀ r, row' = some r → row = some r) :
    Dated now entry' row' (Past.relaunched past) where
  entry e he := by
    obtain ⟨r, policy, hr, hlive, rfl⟩ := hentry e he
    obtain ⟨p, rfl, hend⟩ := h.row r hr
    have hlatest : r.expiresAt ≤ Clock.latest := by
      rw [hend]
      exact Clock.after_le _ _
    have hback := (Row.expiresAt_entry policy hlive hlatest).trans hend
    exact ⟨Nat.le_refl now, _, rfl, Nat.le_of_eq hback.symm, fun _ => hback⟩
  row r hr := by
    obtain ⟨p, rfl, hend⟩ := h.row r (hrow r hr)
    exact ⟨_, rfl, hend⟩

end Dated

namespace Cache

variable {c : Cache} {strict : Prop} {key : Bytes} {past : Option Past}

/-- An action at a reading that is not earlier keeps the ends as the past says. -/
theorem Mirrored.dated_act (h : c.Mirrored strict) {start now : Millis} (hle : start ≤ now)
    (hdated : Dated start (c.store.entries.find? key) (c.backing.row? c.config.backend key) past)
    (action : Action) :
    Dated now ((c.act now action).store.entries.find? key)
      ((c.act now action).backing.row? c.config.backend key) (c.pastAfter now key past action) := by
  cases action with
  | request asked =>
    refine (hdated.later hle).passage (h.prompt.passage now asked key) (fun e he => ?_) _
    have hkey := h.keys key
    rw [he] at hkey
    exact hkey.not_unreadable
  | restart =>
    obtain ⟨-, -, hrow, hback⟩ := h.prompt.relaunch now
    refine hdated.relaunched (fun e he => ?_) fun r hr => ?_
    · obtain ⟨r, hr, hlive, rfl⟩ := hback key e he
      exact ⟨r, c.config.policy, hr, hlive, rfl⟩
    · exact (Option.filter_eq_some_iff.1 ((hrow key).symm.trans hr)).1

/-- A session at readings that do not go back keeps the ends as the past says. -/
theorem Mirrored.dated_session (steps : List (Millis × Action)) :
    ∀ {c : Cache} {strict : Prop} {past : Option Past} {start : Millis}, c.Mirrored strict →
      Dated start (c.store.entries.find? key) (c.backing.row? c.config.backend key) past →
      (∀ step ∈ steps, step.2.Faithful) → (∀ step ∈ steps, start ≤ step.1) →
      steps.Pairwise (fun a b => a.1 ≤ b.1) →
      ∃ now, Dated now ((c.session steps).store.entries.find? key)
        ((c.session steps).backing.row? c.config.backend key) (c.pastFrom key past steps) := by
  induction steps with
  | nil => exact fun _ hdated _ _ _ => ⟨_, hdated⟩
  | cons step rest ih =>
    intro c strict past start h hdated hfaithful hstart hordered
    obtain ⟨hfirst, hordered'⟩ := List.pairwise_cons.1 hordered
    have hstep := h.dated_act (hstart step List.mem_cons_self) hdated step.2
    have hconfig := (h.prompt.act step.1 step.2).2
    rw [← hconfig] at hstep ⊢
    exact ih (h.act step.1 (hfaithful step List.mem_cons_self)) hstep
      (fun s hs => hfaithful s (List.mem_cons_of_mem _ hs)) hfirst hordered'

/-- **Reads are not recorded.** Take a session that starts with nothing, at readings that do not go
back and with values that are read back as they were given, and an entry whose TTL in force is
worthy. It has a row with its value, which ends when the last write of the key or the last change of
its TTL said. The entry does not end earlier, and ends then too if the key was not read since and
since the process started. A restart brings the key back, with the end of the row, just if the row
has time left. -/
theorem reads_unrecorded (config : Config) (listeners : Listeners) (backing : Backing)
    (hpersistent : config.persistent = true) (hreplay : listeners.recovery = [.replay])
    (hdirect : backing.Direct config.backend)
    (hempty : ∀ key, backing.row? config.backend key = none) (steps : List (Millis × Action))
    (hfaithful : ∀ step ∈ steps, step.2.Faithful)
    (hordered : steps.Pairwise fun a b => a.1 ≤ b.1) (key : Bytes) :
    let c := (new config listeners backing).session steps
    ∀ e, c.store.entries.find? key = some e → config.criticalMillis ≤ e.ttl.millis →
      ∃ r p, c.backing.row? config.backend key = some r ∧
        (new config listeners backing).past steps key = some p ∧
        r.value = e.value ∧ r.expiresAt = Clock.after p.start p.ttl ∧
        r.expiresAt ≤ e.expiresAt ∧ (p.read = false → r.expiresAt = e.expiresAt) ∧
        ∀ now,
          (now < r.expiresAt → ∃ e', (c.relaunch now).2.store.live? now key = some e' ∧
            e'.value = e.value ∧ e'.expiresAt = r.expiresAt) ∧
          (r.expiresAt ≤ now → (c.relaunch now).2.store.entries.find? key = none) := by
  intro c e he hworthy
  have hstart := mirrored_new hpersistent hreplay hdirect hempty
  obtain ⟨hmirrored, hconfig⟩ := hstart.run steps hfaithful
  replace hmirrored : c.Mirrored _ := hmirrored
  replace hconfig : c.config = config := hconfig
  have hnothing : Dated 0 ((new config listeners backing).store.entries.find? key)
      (backing.row? config.backend key) none := by
    rw [hempty key]
    exact .nothing 0 none
  obtain ⟨t, hdated⟩ :=
    hstart.dated_session steps hnothing hfaithful (fun _ _ => Nat.zero_le _) hordered
  have hkey := hmirrored.keys key
  rw [hconfig] at hkey
  obtain ⟨r, hr⟩ := Option.ne_none_iff_exists'.1 (hkey.worthy e he hworthy)
  obtain ⟨e₁, he₁, hvalue, -⟩ := hkey.recorded r hr
  obtain rfl : e₁ = e := Option.some.inj (he₁.symm.trans he)
  obtain ⟨p, hpast, hend⟩ := hdated.row r hr
  obtain ⟨-, p', hpast', hle, hunread⟩ := hdated.entry e₁ he
  obtain rfl : p' = p := Option.some.inj (hpast'.symm.trans hpast)
  have hlatest : r.expiresAt ≤ Clock.latest := by
    rw [hend]
    exact Clock.after_le _ _
  rw [← hend] at hle hunread
  refine ⟨r, p', hr, hpast, hvalue, hend, hle, fun hread => (hunread hread).symm, fun now =>
    ⟨fun hnow => ?_, fun hover => ?_⟩⟩
  · rw [← hconfig] at hr
    obtain ⟨hlive, hback⟩ := hmirrored.live?_relaunch hr (decide_eq_true hnow) hlatest
    exact ⟨_, hlive, hvalue, hback⟩
  · obtain ⟨-, -, -, hback⟩ := hmirrored.prompt.relaunch now
    rw [Option.eq_none_iff_forall_ne_some]
    intro e' he'
    obtain ⟨r', hr', hleft, -⟩ := hback key e' he'
    rw [hconfig, hr] at hr'
    cases hr'
    exact Nat.not_lt.2 hover (of_decide_eq_true hleft)

/-- Two keys are written with a minute, and one of them is read at the half of it: the rows of both
end with the minute, and only the entry that was not read does. -/
theorem reads_unrecorded_half_minute :
    let c := (new { persistent := true, policy := .sinceAccess } { recovery := [.replay] }
        { registry := { memory := some (.memory .empty) } }).session
      [(0, .request (.call (.setWithTtl "a" (.str "v") (.ofSeconds 60)))),
        (0, .request (.call (.setWithTtl "b" (.int 7) (.ofSeconds 60)))),
        (30000, .request (.call (.get "a")))]
    (∃ r, c.backing.row? .memory (Codec.encodeKey "a") = some r ∧ r.expiresAt = 60000 ∧
      ((c.store.live? 50000 (Codec.encodeKey "a")).map Entry.expiresAt) = some 90000 ∧
      ∃ e, (c.relaunch 50000).2.store.live? 50000 (Codec.encodeKey "a") = some e ∧
        e.expiresAt = 60000) ∧
    ∃ r, c.backing.row? .memory (Codec.encodeKey "b") = some r ∧ r.expiresAt = 60000 ∧
      (c.store.live? 50000 (Codec.encodeKey "b")).map Entry.expiresAt = some 60000 := by
  have hrun := reads_unrecorded { persistent := true, policy := .sinceAccess }
    { recovery := [.replay] } { registry := { memory := some (.memory .empty) } } rfl rfl
    ⟨⟨rfl, rfl, fun backend hback => by cases hback; trivial⟩, rfl, rfl⟩ (fun _ => rfl)
    [(0, .request (.call (.setWithTtl "a" (.str "v") (.ofSeconds 60)))),
      (0, .request (.call (.setWithTtl "b" (.int 7) (.ofSeconds 60)))),
      (30000, .request (.call (.get "a")))]
    (by
      intro step hstep
      simp only [List.mem_cons, List.not_mem_nil, or_false] at hstep
      rcases hstep with rfl | rfl | rfl
      · intro v hv; cases hv; exact Json.Storable.faithful (by decide)
      · intro v hv; cases hv; exact Json.Storable.faithful (by decide)
      · intro v hv; cases hv) (by decide)
  obtain ⟨r, p, hr, hpast, -, hend, -, -, hback⟩ := hrun (Codec.encodeKey "a")
    { Entry.fresh 0 (Json.printed (.str "v")) (.ofSeconds 60) .sinceAccess with
      clockStart := 30000 } (by decide +kernel) (by decide)
  obtain ⟨r', p', hr', hpast', -, hend', -, hunread, -⟩ := hrun (Codec.encodeKey "b")
    (Entry.fresh 0 (Json.printed (.int 7)) (.ofSeconds 60) .sinceAccess) (by decide +kernel)
    (by decide)
  have hminute : Clock.after p.start p.ttl = 60000 := by
    have htimed := congrArg (Option.map fun p => Clock.after p.start p.ttl) hpast
    exact Option.some.inj (htimed.symm.trans (by decide +kernel))
  have hunread' : p'.read = false := by
    have hflag := congrArg (Option.map Past.read) hpast'
    exact Option.some.inj (hflag.symm.trans (by decide +kernel))
  rw [hminute] at hend
  obtain ⟨e, hlive, -, he⟩ := (hback 50000).1 (by rw [hend]; decide)
  exact ⟨⟨r, hr, hend, by decide +kernel, e, hlive, he.trans hend⟩, r', hr',
    (hunread hunread').trans (by decide), by decide +kernel⟩

/-! ### Values that are not read back -/

/-- An accepted write leaves its entry, and a row if it is worthy. -/
theorem Prompt.setWithTtl (h : c.Prompt) {text : String} {v : Json} {now : Millis}
    (haccepted : Store.refusal? (Codec.encodeKey text) v.printed = none) (ttl : Duration) :
    let d := c.act now (.request (.call (.setWithTtl text v ttl)))
    d.store.entries.find? (Codec.encodeKey text) =
        some (Entry.fresh now v.printed ttl c.config.policy) ∧
      d.backing.row? c.config.backend (Codec.encodeKey text) =
        if c.config.criticalMillis ≤ ttl.millis then some (Row.fresh now v.printed ttl)
        else none := by
  intro d
  have hpassage := h.passage now (.call (.setWithTtl text v ttl)) (Codec.encodeKey text)
  have htiming : c.timing now (Codec.encodeKey text) (.call (.setWithTtl text v ttl)) =
      .written ttl := by
    have hrun : Command.run c.config Codec.json now c.store (.setWithTtl text v ttl) =
        (c.store.put now (Codec.encodeKey text) v.printed ttl).toRun fun _ => .flag true := rfl
    rw [h.persisting.timing_eq hrun]
    simp only [Turn.toRun, Turn.map, Store.put, haccepted, Store.settle_answer]
    exact Timing.under_self _ text
  rw [htiming] at hpassage
  obtain ⟨w, hgiven, hentry, hrow⟩ := hpassage.of_written
  obtain rfl : v = w := Option.some.inj hgiven
  exact ⟨hentry, hrow⟩

/-- A live key whose value is not read back has another TTL when it is given one, and is recorded as
before. -/
theorem Prompt.replaceDuration_unread (h : c.Prompt) {text : String} {e : Entry} {now : Millis}
    (hlive : c.store.live? now (Codec.encodeKey text) = some e)
    (hvalue : Codec.Unreadable e.value) {ttl : Duration} (hleft : now < Clock.after now ttl) :
    let d := c.act now (.request (.call (.replaceDuration text ttl)))
    d.store.entries.find? (Codec.encodeKey text) = some (e.replaceTtl now ttl) ∧
      d.backing.row? c.config.backend (Codec.encodeKey text) =
        c.backing.row? c.config.backend (Codec.encodeKey text) := by
  intro d
  have hpassage := h.passage now (.call (.replaceDuration text ttl)) (Codec.encodeKey text)
  have htiming : c.timing now (Codec.encodeKey text) (.call (.replaceDuration text ttl)) =
      .changed ttl := by
    rw [h.persisting.timing_change rfl, hlive]
    exact Timing.under_self _ text
  rw [htiming, (Store.live?_eq_some_iff.1 hlive).1] at hpassage
  exact ⟨hpassage.entry_of_changed.trans (if_pos hleft),
    hpassage.row_of_changed_unread hvalue hleft⟩

/-- So a key whose value is not read back is not recorded if it was written with too short a TTL,
however long it is to live. -/
theorem Prompt.lives_unrecorded (h : c.Prompt) (now : Millis) {text : String} {v : Json}
    (haccepted : Store.refusal? (Codec.encodeKey text) v.printed = none)
    (hunread : Codec.Unreadable v.printed) (ttl ttl' : Duration)
    (hshort : ttl.millis < c.config.criticalMillis) (hleft : now < Clock.after now ttl)
    (hleft' : now < Clock.after now ttl') :
    let d := c.session [(now, .request (.call (.setWithTtl text v ttl))),
      (now, .request (.call (.replaceDuration text ttl')))]
    ((d.store.live? now (Codec.encodeKey text)).map fun e => (e.ttl, e.expiresAt)) =
        some (ttl', Clock.after now ttl') ∧
      d.backing.row? c.config.backend (Codec.encodeKey text) = none := by
  intro d
  obtain ⟨hentry, hrow⟩ := h.setWithTtl haccepted ttl
  obtain ⟨hprompt, hconfig⟩ := h.act now (.request (.call (.setWithTtl text v ttl)))
  have hlive := Store.live?_eq_some_iff.2 ⟨hentry, decide_eq_false (Nat.not_le.2 hleft)⟩
  obtain ⟨hentry', hrow'⟩ := hprompt.replaceDuration_unread hlive hunread hleft'
  rw [hconfig, hrow, if_neg (Nat.not_le.2 hshort)] at hrow'
  have hlive' := Store.live?_eq_some_iff.2 ⟨hentry', decide_eq_false (Nat.not_le.2 hleft')⟩
  exact ⟨congrArg (Option.map _) hlive', hrow'⟩

/-- An entry that was read lives on, and is not brought back by a restart after the end that its
write had given it. Nor is one that was given a long TTL, if its value is nested so deep that it
cannot be read back. -/
theorem read_entry_lost :
    let c := new { persistent := true, policy := .sinceAccess } { recovery := [.replay] }
        { registry := { memory := some (.memory .empty) } }
    (let d := c.session
        [(0, .request (.call (.setWithTtl "a" (.str "v") (.ofSeconds 60)))),
          (30000, .request (.call (.get "a")))]
     ((d.store.live? 60000 (Codec.encodeKey "a")).map fun e => (e.ttl, e.expiresAt)) =
         some (.ofSeconds 60, 90000) ∧
       (d.backing.row? .memory (Codec.encodeKey "a")).map Row.expiresAt = some 60000 ∧
       (d.relaunch 60000).2.store.live? 60000 (Codec.encodeKey "a") = none) ∧
    let d := c.session
      [(0, .request (.call (.setWithTtl "b" (.nested 128 .null) (.ofSeconds 10)))),
        (0, .request (.call (.replaceDuration "b" (.ofSeconds 120))))]
    ((d.store.live? 0 (Codec.encodeKey "b")).map fun e => (e.ttl, e.expiresAt)) =
        some (.ofSeconds 120, 120000) ∧
      d.backing.row? .memory (Codec.encodeKey "b") = none := by
  intro c
  have hprompt : c.Prompt := prompt_new rfl rfl
    ⟨⟨rfl, rfl, fun backend hback => by cases hback; trivial⟩, rfl, rfl⟩ fun _ => rfl
  have haccepted : Store.refusal? (Codec.encodeKey "b") (Json.nested 128 .null).printed = none := by
    have hlength : (Json.nested 128 .null).printed.length = 260 := by
      rw [Json.printed_nested, List.length_append, List.length_append, List.length_replicate,
        List.length_replicate]
      rfl
    unfold Store.refusal?
    rw [hlength]
    rfl
  have hunread : Codec.Unreadable (Json.nested 128 .null).printed :=
    Codec.unreadable_nested (by decide) .null
  refine ⟨⟨by decide +kernel, by decide +kernel, by decide +kernel⟩, ?_⟩
  exact hprompt.lives_unrecorded 0 haccepted hunread (.ofSeconds 10) (.ofSeconds 120) (by decide)
    (by decide) (by decide)

end Cache

end ExpiringCache
