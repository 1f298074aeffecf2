import ExpiringCache.Proofs.Mirror.Restart
import ExpiringCache.Proofs.Passage.Past

/-!
# The TTL that a reset goes back to

A reset goes back to the TTL that an entry was written with, and after a restart to the one that its
row says. A row says the TTL that its key was last written with, unless the key was recorded when
its TTL was changed since: then the row says the TTL that the change put in force
(`Cache.recorded_ttl`).

Row and entry differ only where the key came to be recorded by a replacement of its TTL
(`Cache.raised`). A reset that records the key puts the TTL in force that the entry was written
with, and an entry that a restart has made of a row was written with what the row says.
-/

namespace ExpiringCache

/-- What an entry and a row tell of the TTL the key was written with. -/
structure Lineage (entry : Option Entry) (row : Option Row) (past : Option Past)
    (raised : Option Duration) : Prop where
  agree : raised = none → ∀ e r, entry = some e → row = some r → r.ttl = Clock.span e.writtenTtl
  row : ∀ r, row = some r → r.expiresAt ≤ Clock.latest ∧
    ∃ p, past = some p ∧ r.ttl = Clock.span (p.lifted.getD p.written)
  entry : ∀ e, entry = some e → ∃ p, past = some p
  raised : ∀ d, raised = some d → past.bind Past.lifted = some d

namespace Lineage

variable {config : Config} {now : Millis} {key : Bytes} {given : Option Json} {timing : Timing}
  {entry entry' : Option Entry} {row row' : Option Row} {past : Option Past}
  {raised : Option Duration}

theorem nothing (h : ∀ d, raised = some d → past.bind Past.lifted = some d) :
    Lineage none none past raised where
  agree _ _ _ h := by cases h
  row _ h := by cases h
  entry _ h := by cases h
  raised := h

/-- A TTL in whole milliseconds spans what it spans. -/
theorem span_ofMillis_span (d : Duration) :
    Clock.span (Duration.ofMillis (Clock.span d)) = Clock.span d := by
  rw [Clock.span, Duration.millis_ofMillis]
  exact Clock.held_of_le (Clock.held_le _)

/-- What came to be recorded is told alike of pasts that tell it alike. -/
theorem bind_lifted_map {f : Past → Past} (hf : ∀ p, (f p).lifted = p.lifted)
    (past : Option Past) : (past.map f).bind Past.lifted = past.bind Past.lifted := by
  cases past with
  | none => rfl
  | some p => exact hf p

/-- Neither the TTLs written nor the row's are touched. -/
theorem same {e e' : Entry} (h : Lineage (some e) row past raised)
    (he : e'.writtenTtl = e.writtenTtl)
    (hrow : ∀ r', row' = some r' → r'.expiresAt ≤ Clock.latest ∧
      ∃ r, row = some r ∧ r'.ttl = r.ttl)
    {f : Past → Past} (hf : ∀ p, (f p).written = p.written ∧ (f p).lifted = p.lifted) :
    Lineage (some e') row' (past.map f) raised where
  agree hnone e₁ r' he₁ hr' := by
    cases he₁
    obtain ⟨-, r, hr, httl⟩ := hrow r' hr'
    rw [httl, he]
    exact h.agree hnone e r rfl hr
  row r' hr' := by
    obtain ⟨hend, r, hr, httl⟩ := hrow r' hr'
    obtain ⟨-, p, rfl, hp⟩ := h.row r hr
    exact ⟨hend, f p, rfl, by rw [httl, (hf p).1, (hf p).2, hp]⟩
  entry _ _ := by
    obtain ⟨p, rfl⟩ := h.entry e rfl
    exact ⟨f p, rfl⟩
  raised d hd := (bind_lifted_map (fun p => (hf p).2) past).trans (h.raised d hd)

/-- The row is the same. -/
theorem same_row {e e' : Entry} (h : Lineage (some e) row past raised)
    (he : e'.writtenTtl = e.writtenTtl) {f : Past → Past}
    (hf : ∀ p, (f p).written = p.written ∧ (f p).lifted = p.lifted) :
    Lineage (some e') row (past.map f) raised :=
  h.same he (fun r hr => ⟨(h.row r hr).1, r, hr, rfl⟩) hf

/-- A key that is given a worthy TTL keeps the TTL of its row, and without a row is recorded with
the new one. That is the TTL the entry was written with, unless the request replaces it. -/
theorem rearmed {e : Entry} (h : Lineage (some e) row past raised) (now : Millis) (value : Bytes)
    (asked : Request) {ttl : Duration} (hreset : asked.replacesTtl = false → ttl = e.writtenTtl) :
    Lineage (some (e.replaceTtl now ttl)) (some (Row.rearm now value ttl row))
      (Past.after now (.changed ttl) row.isNone past)
      (asked.raised (.changed ttl) row.isNone raised) := by
  cases row with
  | some r =>
    have hwritten : (e.replaceTtl now ttl).writtenTtl = e.writtenTtl := rfl
    refine h.same hwritten (fun r' hr' => ?_) fun p => ⟨rfl, rfl⟩
    cases hr'
    exact ⟨Clock.after_le now ttl, r, rfl, rfl⟩
  | none =>
    obtain ⟨p, rfl⟩ := h.entry e rfl
    have hraised : asked.raised (.changed ttl) true raised =
      if asked.replacesTtl then some ttl else none := rfl
    refine ⟨fun hnone e' r' he' hr' => ?_, fun r' hr' => ?_, fun _ _ => ⟨_, rfl⟩, fun d hd => ?_⟩
    · have hreplaces : asked.replacesTtl = false := Bool.eq_false_iff.2 fun htrue =>
        Option.some_ne_none ttl (ite_eq_right_iff.1 (hraised.symm.trans hnone) htrue)
      cases he'
      cases hr'
      exact congrArg Clock.span (hreset hreplaces)
    · cases hr'
      exact ⟨Clock.after_le now ttl, _, rfl, rfl⟩
    · obtain ⟨-, httl⟩ := Option.ite_none_right_eq_some.1 (hraised.symm.trans hd)
      exact httl

theorem passage (h : Lineage entry row past raised) {asked : Request}
    (hpassage : Passage config now key given timing entry row entry' row')
    (hreset : ∀ ttl e, timing = .changed ttl → entry = some e → asked.replacesTtl = false →
      ttl = e.writtenTtl) :
    Lineage entry' row' (Past.after now timing (row.isNone && row'.isSome) past)
      (asked.raised timing (row.isNone && row'.isSome) raised) := by
  cases hpassage with
  | kept => exact h
  | gone => exact nothing h.raised
  | read e =>
    have htouch : (e.touch now).writtenTtl = e.writtenTtl := by
      unfold Entry.touch
      split <;> rfl
    exact h.same_row htouch fun p => ⟨rfl, rfl⟩
  | written v ttl _ _ hv hnamed haccepted =>
    refine ⟨fun _ e r he hr => ?_, fun r hr => ?_, fun _ _ => ⟨_, rfl⟩, nofun⟩
    · obtain ⟨-, hfresh⟩ := Option.ite_none_right_eq_some.1 hr
      cases hfresh
      cases he
      rfl
    · obtain ⟨-, hfresh⟩ := Option.ite_none_right_eq_some.1 hr
      cases hfresh
      exact ⟨Clock.after_le now ttl, _, rfl, rfl⟩
  | revalued v old e _ hv haccepted hold =>
    have hid : past = past.map fun p => p := Option.map_id'.symm
    rw [Past.after, hid]
    have hwritten : (e.replaceValue v.printed).writtenTtl = e.writtenTtl := rfl
    refine h.same hwritten (fun r' hr' => ?_) fun p => ⟨rfl, rfl⟩
    obtain ⟨r, hr, rfl⟩ := Option.map_eq_some_iff.1 hr'
    exact ⟨(h.row r hr).1, r, hr, rfl⟩
  | revaluedUnread v e _ hv haccepted hold =>
    have hid : past = past.map fun p => p := Option.map_id'.symm
    rw [Past.after, hid]
    have hwritten : (e.replaceValue v.printed).writtenTtl = e.writtenTtl := rfl
    exact h.same_row hwritten fun p => ⟨rfl, rfl⟩
  | changed v ttl e _ hvalue hleft =>
    by_cases hworthy : config.criticalMillis ≤ ttl.millis
    · rw [if_pos hworthy, Option.isSome_some, Bool.and_true]
      exact h.rearmed now v.printed asked (hreset ttl e rfl rfl)
    · rw [if_neg hworthy, Option.isSome_none, Bool.and_false]
      have hwritten : (e.replaceTtl now ttl).writtenTtl = e.writtenTtl := rfl
      exact h.same hwritten (fun r hr => by cases hr) fun p => ⟨rfl, rfl⟩
  | changedUnread ttl e _ hvalue hleft =>
    have hrecorded : (row.isNone && row.isSome) = false := by cases row <;> rfl
    rw [hrecorded]
    have hwritten : (e.replaceTtl now ttl).writtenTtl = e.writtenTtl := rfl
    exact h.same_row hwritten fun p => ⟨rfl, rfl⟩
  | ended ttl =>
    rw [Option.isSome_none, Bool.and_false]
    have hlifted : ∀ p, (Past.changed now ttl false p).lifted = p.lifted := fun _ => rfl
    exact nothing fun d hd => (bind_lifted_map hlifted past).trans (h.raised d hd)

/-- A process that starts again reads the TTL off the row. -/
theorem relaunched (h : Lineage entry row past raised)
    (hentry : ∀ e, entry' = some e → ∃ r, row = some r ∧ e.writtenTtl = Duration.ofMillis r.ttl)
    (hrow : ∀ r, row' = some r → row = some r) :
    Lineage entry' row' (Past.relaunched past) none where
  agree _ e r he hr := by
    obtain ⟨r', hr', hwritten⟩ := hentry e he
    obtain rfl : r' = r := Option.some.inj (hr'.symm.trans (hrow r hr))
    obtain ⟨-, p, -, hp⟩ := h.row r' hr'
    rw [hwritten, hp]
    exact (span_ofMillis_span _).symm
  row r hr := by
    obtain ⟨hend, p, rfl, hp⟩ := h.row r (hrow r hr)
    exact ⟨hend, _, rfl, hp⟩
  entry e he := by
    obtain ⟨r, hr, -⟩ := hentry e he
    obtain ⟨-, p, rfl, -⟩ := h.row r hr
    exact ⟨_, rfl⟩
  raised _ h := by cases h

/-- A row says a TTL that spans what the entry's does, unless the key came to be recorded by a
replacement with another TTL. -/
theorem ttl_eq (h : Lineage entry row past raised) {e : Entry} {r : Row} (he : entry = some e)
    (hr : row = some r)
    (hraised : ∀ d, raised = some d → Clock.span d = Clock.span e.writtenTtl) :
    r.ttl = Clock.span e.writtenTtl := by
  cases hcase : raised with
  | none => exact h.agree hcase e r he hr
  | some d =>
    obtain ⟨-, p, rfl, hp⟩ := h.row r hr
    have hlifted : p.lifted = some d := h.raised d hcase
    rw [hp, hlifted, Option.getD_some]
    exact hraised d hcase

end Lineage

/-- The TTL in force of an entry, as far as the clock tells TTLs apart, and its end. -/
def Entry.timed (e : Entry) : Millis × Millis := (Clock.span e.ttl, e.expiresAt)

namespace Cache

variable {c : Cache} {key : Bytes} {past : Option Past}

/-- A change of TTL that is no replacement goes back to the TTL that the entry was written with. -/
theorem timing_reset {now : Millis} {asked : Request} {ttl : Duration}
    (h : c.timing now key asked = .changed ttl) (hreset : asked.replacesTtl = false) :
    ∃ e, c.store.live? now key = some e ∧ ttl = e.writtenTtl := by
  cases asked with
  | sweep => cases h
  | call command =>
    obtain ⟨text, rfl⟩ | hback := Command.timing_changed h
    · cases hreset
    · exact hback

/-- An action leaves of every key what is told of the TTL it was written with. -/
theorem Prompt.lineage_act {raised : Option Duration} (h : c.Prompt)
    (hlineage : Lineage (c.store.entries.find? key) (c.backing.row? c.config.backend key) past
      raised)
    (now : Millis) (action : Action) :
    Lineage ((c.act now action).store.entries.find? key)
      ((c.act now action).backing.row? c.config.backend key) (c.pastAfter now key past action)
      (c.raisedAfter now key raised action) := by
  cases action with
  | request asked =>
    refine hlineage.passage (h.passage now asked key) fun ttl e hchanged he hreset => ?_
    obtain ⟨e', hlive, rfl⟩ := timing_reset hchanged hreset
    obtain rfl : e = e' := Option.some.inj (he.symm.trans (Store.live?_eq_some_iff.1 hlive).1)
    rfl
  | restart =>
    obtain ⟨-, -, hrow, hback⟩ := h.relaunch now
    refine hlineage.relaunched (fun e he => ?_) fun r hr => ?_
    · obtain ⟨r, hr, -, rfl⟩ := hback key e he
      exact ⟨r, hr, rfl⟩
    · have hleft := (hrow key).symm.trans hr
      exact (Option.filter_eq_some_iff.1 hleft).1

theorem Prompt.lineage_session (steps : List (Millis × Action)) :
    ∀ {c : Cache} {past : Option Past} {raised : Option Duration}, c.Prompt →
      Lineage (c.store.entries.find? key) (c.backing.row? c.config.backend key) past raised →
      (c.session steps).Prompt ∧ (c.session steps).config = c.config ∧
        Lineage ((c.session steps).store.entries.find? key)
          ((c.session steps).backing.row? c.config.backend key) (c.pastFrom key past steps)
          (c.raisedFrom key raised steps) := by
  induction steps with
  | nil => exact fun h hlineage => ⟨h, rfl, hlineage⟩
  | cons step rest ih =>
    intro c past raised h hlineage
    obtain ⟨hprompt, hconfig⟩ := h.act step.1 step.2
    have hstep := h.lineage_act hlineage step.1 step.2
    rw [← hconfig] at hstep
    obtain ⟨hprompt', hconfig', hrest⟩ := ih hprompt hstep
    rw [hconfig] at hconfig' hrest
    exact ⟨hprompt', hconfig', hrest⟩

/-! ### Resets -/

/-- A reset gives a live key the TTL back that its entry was written with. If that is over at once,
the key is gone. -/
theorem Prompt.find?_reset (h : c.Prompt) {text : String} {e : Entry} {now : Millis}
    (hlive : c.store.live? now (Codec.encodeKey text) = some e) :
    (c.perform now (.resetDuration text)).2.store.entries.find? (Codec.encodeKey text) =
      if now < Clock.after now e.writtenTtl then some (e.resetTtl now) else none := by
  have hpassage := h.passage now (.call (.resetDuration text)) (Codec.encodeKey text)
  have htiming : c.timing now (Codec.encodeKey text) (.call (.resetDuration text)) =
      .changed e.writtenTtl := by
    rw [h.persisting.timing_change rfl, hlive]
    exact Timing.under_self _ text
  rw [htiming, (Store.live?_eq_some_iff.1 hlive).1] at hpassage
  exact hpassage.entry_of_changed

/-- Resets to TTLs that the clock does not tell apart give TTLs that it does not tell apart. -/
theorem timed_reset (now : Millis) {e e' : Entry}
    (h : Clock.span e'.writtenTtl = Clock.span e.writtenTtl) :
    (if now < Clock.after now e'.writtenTtl then some (e'.resetTtl now) else none).map Entry.timed =
      (if now < Clock.after now e.writtenTtl then some (e.resetTtl now) else none).map
        Entry.timed := by
  have hafter : Clock.after now e'.writtenTtl = Clock.after now e.writtenTtl := by
    rw [Clock.after, h, Clock.after]
  have htimed : (e'.resetTtl now).timed = (e.resetTtl now).timed :=
    congrArg₂ Prod.mk h hafter
  rw [hafter]
  split
  · exact congrArg some htimed
  · rfl

/-- **A restart keeps the TTL that a reset goes back to**, up to whole milliseconds, unless the key
came to be recorded by a replacement with another TTL. Take any session that starts with nothing,
and a key with an entry and a row. The row says the TTL that the key was last written with, or the
one with which it came to be recorded when its TTL was changed since. To start again before the row
expires brings the key back, if values are read back as they were given. To reset a key that has
come back gives it the TTL of the row. That is what a reset without the restart gives it, in force
and in its end, unless since its last write and since the last restart the key came to be recorded
by a replacement of its TTL, and by one that the clock tells apart from what the reset goes back
to. -/
theorem recorded_ttl (config : Config) (listeners : Listeners) (backing : Backing)
    (hpersistent : config.persistent = true) (hreplay : listeners.recovery = [.replay])
    (hdirect : backing.Direct config.backend)
    (hempty : ∀ key, backing.row? config.backend key = none) (steps : List (Millis × Action))
    (text : String) :
    let c := (new config listeners backing).session steps
    let key := Codec.encodeKey text
    ∀ e r, c.store.entries.find? key = some e → c.backing.row? config.backend key = some r →
      ∃ p, (new config listeners backing).past steps key = some p ∧
        r.ttl = Clock.span (p.lifted.getD p.written) ∧
        (∀ d, (new config listeners backing).raised steps key = some d → p.lifted = some d) ∧
        (∀ now, now < r.expiresAt → (∀ step ∈ steps, step.2.Faithful) →
          ((c.relaunch now).2.store.live? now key).isSome = true) ∧
        ∀ now later e', (c.relaunch now).2.store.live? later key = some e' →
          let reset := ((c.relaunch now).2.perform later (.resetDuration text)).2
          e'.writtenTtl = Duration.ofMillis r.ttl ∧
          (∀ x, reset.store.entries.find? key = some x → x.ttl = Duration.ofMillis r.ttl) ∧
          ((∀ d, (new config listeners backing).raised steps key = some d →
              Clock.span d = Clock.span e.writtenTtl) →
            c.store.live? later key = some e →
            (reset.store.entries.find? key).map Entry.timed =
              ((c.perform later (.resetDuration text)).2.store.entries.find? key).map
                Entry.timed) := by
  intro c key e r he hr
  have hnothing : Lineage ((new config listeners backing).store.entries.find? key)
      (backing.row? config.backend key) none none := by
    rw [hempty key]
    exact .nothing nofun
  obtain ⟨hprompt, hconfig, hlineage⟩ :=
    Prompt.lineage_session steps (prompt_new hpersistent hreplay hdirect hempty) hnothing
  replace hconfig : c.config = config := hconfig
  replace hlineage : Lineage (c.store.entries.find? key) (c.backing.row? config.backend key)
    ((new config listeners backing).past steps key)
    ((new config listeners backing).raised steps key) := hlineage
  replace hprompt : c.Prompt := hprompt
  obtain ⟨hlatest, p, hpast, httl⟩ := hlineage.row r hr
  have hlifted := hlineage.raised
  rw [hpast] at hlifted
  have hrow : c.backing.row? c.config.backend key = some r := hconfig.symm ▸ hr
  refine ⟨p, hpast, httl, hlifted, fun now hnow hfaithful => ?_, fun now later e' hlive => ?_⟩
  · obtain ⟨hmirrored, -⟩ :=
      (mirrored_new hpersistent hreplay hdirect hempty).run steps hfaithful
    replace hmirrored : c.Mirrored _ := hmirrored
    rw [(hmirrored.live?_relaunch hrow (decide_eq_true hnow) hlatest).1]
    rfl
  · obtain ⟨hprompt', -, -, hback⟩ := hprompt.relaunch now
    obtain ⟨r', hr', -, rfl⟩ := hback key e' (Store.live?_eq_some_iff.1 hlive).1
    obtain rfl : r' = r := Option.some.inj (hr'.symm.trans hrow)
    have hreset := hprompt'.find?_reset hlive
    refine ⟨rfl, fun x hx => ?_, fun hraised hlive' => ?_⟩
    · obtain ⟨-, hx⟩ := Option.ite_none_right_eq_some.1 (hreset.symm.trans hx)
      cases hx
      rfl
    · have hspan : Clock.span (r'.entry now c.config.policy).writtenTtl =
          Clock.span e.writtenTtl := by
        rw [← hlineage.ttl_eq he hr hraised]
        show Clock.span (Duration.ofMillis r'.ttl) = r'.ttl
        rw [httl]
        exact Lineage.span_ofMillis_span _
      rw [hreset, hprompt.find?_reset hlive']
      exact timed_reset later hspan

/-- A key that is written with two minutes and given ten seconds, so that it is recorded no more,
then recorded by a reset, given one and a half minutes, and its value replaced: a reset gives it two
minutes, whether the process was started again or not. -/
theorem recorded_ttl_shortened :
    let c := (new { persistent := true } { recovery := [.replay] }
        { registry := { memory := some (.memory .empty) } }).session
      [(0, .request (.call (.setWithTtl "k" (.str "v") (.ofSeconds 120)))),
        (1000, .request (.call (.replaceDuration "k" (.ofSeconds 10)))),
        (1500, .request (.call (.resetDuration "k"))),
        (1700, .request (.call (.replaceDuration "k" (.ofSeconds 90)))),
        (2000, .request (.call (.replace "k" (.int 7))))]
    ((c.relaunch 3000).2.store.live? 3000 (Codec.encodeKey "k")).isSome = true ∧
      (((c.relaunch 3000).2.perform 4000 (.resetDuration "k")).2.store.entries.find?
          (Codec.encodeKey "k")).map Entry.timed =
        ((c.perform 4000 (.resetDuration "k")).2.store.entries.find?
          (Codec.encodeKey "k")).map Entry.timed ∧
      ((c.perform 4000 (.resetDuration "k")).2.store.entries.find?
          (Codec.encodeKey "k")).map Entry.timed = some (120000, 124000) := by
  obtain ⟨p, -, -, -, hback, hreset⟩ := recorded_ttl { persistent := true }
    { recovery := [.replay] } { registry := { memory := some (.memory .empty) } } rfl rfl
    ⟨⟨rfl, rfl, fun backend hback => by cases hback; trivial⟩, rfl, rfl⟩ (fun _ => rfl)
    [(0, .request (.call (.setWithTtl "k" (.str "v") (.ofSeconds 120)))),
      (1000, .request (.call (.replaceDuration "k" (.ofSeconds 10)))),
      (1500, .request (.call (.resetDuration "k"))),
      (1700, .request (.call (.replaceDuration "k" (.ofSeconds 90)))),
      (2000, .request (.call (.replace "k" (.int 7))))] "k"
    { Entry.fresh 0 (Json.printed (.int 7)) (.ofSeconds 120) .sinceCreation with
      ttl := .ofSeconds 90, clockStart := 1700 }
    ⟨Json.printed (.int 7), 120000, 91700⟩ (by decide +kernel) (by decide +kernel)
  have hlive := hback 3000 (by decide) (by
    intro step hstep
    simp only [List.mem_cons, List.not_mem_nil, or_false] at hstep
    rcases hstep with rfl | rfl | rfl | rfl | rfl
    · intro v hv; cases hv; exact Json.Storable.faithful (by decide)
    · intro v hv; cases hv
    · intro v hv; cases hv
    · intro v hv; cases hv
    · intro v hv; cases hv; exact Json.Storable.faithful (by decide))
  obtain ⟨-, -, hsame⟩ := hreset 3000 4000
    { Entry.fresh 3000 (Json.printed (.int 7)) (.ofSeconds 120) .sinceCreation with
      ttl := .ofMillis 88700 } (by decide +kernel)
  refine ⟨hlive, hsame (fun d hd => ?_) (by decide +kernel), by decide +kernel⟩
  -- The reset has recorded the key, so no replacement did.
  exact absurd (hd.symm.trans (by decide +kernel)) (Option.some_ne_none d)

/-- A key that is written with ten seconds is not recorded; given two minutes, it is, with these as
the TTL it was written with. So after a restart a reset gives it two minutes. -/
theorem lifted_ttl_recorded :
    let c := (new { persistent := true } { recovery := [.replay] }
        { registry := { memory := some (.memory .empty) } }).session
      [(0, .request (.call (.setWithTtl "k" (.str "v") (.ofSeconds 10)))),
        (0, .request (.call (.replaceDuration "k" (.ofSeconds 120))))]
    (c.backing.row? .memory (Codec.encodeKey "k")).map Row.ttl = some 120000 ∧
      ((c.perform 0 (.resetDuration "k")).2.store.entries.find?
          (Codec.encodeKey "k")).map Entry.ttl = some (.ofSeconds 10) ∧
      (((c.relaunch 0).2.perform 0 (.resetDuration "k")).2.store.entries.find?
          (Codec.encodeKey "k")).map Entry.ttl = some (.ofSeconds 120) := by
  refine ⟨?_, ?_, ?_⟩ <;> decide +kernel

end Cache

end ExpiringCache
