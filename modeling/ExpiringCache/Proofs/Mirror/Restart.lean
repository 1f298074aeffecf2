import ExpiringCache.Proofs.Mirror.Session

/-!
# A restart is exact

Where expiry is counted from the last write, a row ends when its entry does. So a restart brings
back the entries that have time left and a row, with the end they had, and nobody who reads a key
sees that the process was another one (`Cache.restart_exact`).
-/

namespace ExpiringCache

/-- Entries of two stores that hold the same value to the same end. -/
def Entry.SameLife (e e' : Entry) : Prop := e.value = e'.value ∧ e.expiresAt = e'.expiresAt

namespace Store

variable {s s' : Store} {key : Bytes} {e e' : Entry}

/-- Entries of the same life are live at the same time. -/
theorem live?_sameLife (hlife : e.SameLife e') (hfind : s.entries.find? key = some e)
    (hfind' : s'.entries.find? key = some e') (now : Millis) :
    (s.live? now key = some e ∧ s'.live? now key = some e') ∨
      (s.live? now key = none ∧ s'.live? now key = none) := by
  have hsame : e'.isExpiredAt now = e.isExpiredAt now := by
    unfold Entry.isExpiredAt
    rw [hlife.2]
  unfold live?
  rw [hfind, hfind']
  cases hexp : e.isExpiredAt now with
  | true => exact .inr ⟨by simp [hexp], by simp [hsame, hexp]⟩
  | false => exact .inl ⟨by simp [Option.filter, hexp], by simp [Option.filter, hsame, hexp]⟩

end Store

namespace Cache

/-- The commands that read a key without regard to the TTL it was written with. -/
def Reads (text : String) (command : Command) : Prop :=
  command = .get text ∨ command = .contains text ∨ command = .ttl text

/-- Reading a key answers the same for entries of the same life. -/
theorem perform_sameLife {c d : Cache} {text : String} {e e' : Entry} (hlife : e.SameLife e')
    (hfind : c.store.entries.find? (Codec.encodeKey text) = some e)
    (hfind' : d.store.entries.find? (Codec.encodeKey text) = some e') (now : Millis)
    {command : Command} (hreads : Reads text command) :
    (d.perform now command).1 = (c.perform now command).1 := by
  rw [perform_eq, perform_eq]
  have hlive := Store.live?_sameLife hlife hfind hfind' now
  rcases hreads with rfl | rfl | rfl
  · show Command.valueAnswer (d.store.get now (Codec.encodeKey text)).answer =
      Command.valueAnswer (c.store.get now (Codec.encodeKey text)).answer
    rw [Store.get_answer, Store.get_answer]
    rcases hlive with ⟨h, h'⟩ | ⟨h, h'⟩
    · rw [h, h', Option.map_some, Option.map_some, hlife.1]
    · rw [h, h']
  · show Except.ok (Answer.flag (d.store.contains now (Codec.encodeKey text)).answer) =
      Except.ok (Answer.flag (c.store.contains now (Codec.encodeKey text)).answer)
    rw [Store.contains_answer, Store.contains_answer]
    rcases hlive with ⟨h, h'⟩ | ⟨h, h'⟩
    · rw [h, h', Option.isSome_some, Option.isSome_some]
    · rw [h, h']
  · show Except.ok (Answer.duration (d.store.ttl now (Codec.encodeKey text)).answer) =
      Except.ok (Answer.duration (c.store.ttl now (Codec.encodeKey text)).answer)
    rw [Store.ttl_answer, Store.ttl_answer]
    rcases hlive with ⟨h, h'⟩ | ⟨h, h'⟩
    · rw [h, h', Option.map_some, Option.map_some, Entry.remaining, Entry.remaining, hlife.2]
    · rw [h, h']

variable {c : Cache} {strict : Prop} {now : Millis} {key : Bytes}

/-- What comes back is what has a row with time left. -/
theorem recovered_eq_some {e : Entry} (h : c.recovered now key = some e) :
    ∃ row, c.backing.row? c.config.backend key = some row ∧ row.isLive now = true ∧
      e = row.entry now c.config.policy := by
  obtain ⟨row, hrow, rfl⟩ := Option.map_eq_some_iff.1 h
  obtain ⟨hfind, hlive⟩ := Option.filter_eq_some_iff.1 hrow
  exact ⟨row, hfind, hlive, rfl⟩

namespace Mirrored

/-- The entry that comes back from a row has the same life as the entry it was recorded for. -/
theorem sameLife_entry (h : c.Mirrored strict) (hpolicy : c.config.policy = .sinceCreation)
    {row : Row} (hrow : c.backing.row? c.config.backend key = some row)
    (hlive : row.isLive now = true) :
    (row.entry now c.config.policy).expiresAt = row.expiresAt ∧
      ∃ e, c.store.entries.find? key = some e ∧
        e.SameLife (row.entry now c.config.policy) := by
  obtain ⟨e, he, hvalue, hend⟩ := (h.keys key).recorded row hrow
  have hlatest : row.expiresAt ≤ Clock.latest := by
    rw [hend hpolicy]
    exact Clock.after_le _ _
  have hsame := Row.expiresAt_entry c.config.policy hlive hlatest
  exact ⟨hsame, e, he, hvalue.symm, by rw [hsame, hend hpolicy]⟩

/-- What has come back has the time left that its row has. -/
theorem ttl_of_recovered (h : c.Mirrored strict) (hpolicy : c.config.policy = .sinceCreation)
    {row : Row} (hrow : c.backing.row? c.config.backend key = some row)
    (hlive : row.isLive now = true) {s : Store}
    (hback : s.entries.find? key = some (row.entry now c.config.policy)) :
    (s.ttl now key).answer = some (Duration.ofMillis (row.expiresAt - now)) := by
  obtain ⟨e, -, -, hend⟩ := (h.keys key).recorded row hrow
  have hlatest : row.expiresAt ≤ Clock.latest := by
    rw [hend hpolicy]
    exact Clock.after_le _ _
  exact (Row.live?_entry hlive hlatest hback).2

/-- A worthy entry that is not due comes back with its life. -/
theorem recovered_of_worthy (h : c.Mirrored strict) (hpolicy : c.config.policy = .sinceCreation)
    {e : Entry} (hlive : c.store.live? now key = some e)
    (hworthy : c.config.criticalMillis ≤ e.ttl.millis) :
    ∃ e', c.recovered now key = some e' ∧ e.SameLife e' := by
  obtain ⟨hentry, hnotover⟩ := Store.live?_eq_some_iff.1 hlive
  obtain ⟨row, hrow⟩ := Option.ne_none_iff_exists'.1 ((h.keys key).worthy e hentry hworthy)
  obtain ⟨e₁, he₁, -, hend⟩ := (h.keys key).recorded row hrow
  have hsame : e₁ = e := Option.some.inj (he₁.symm.trans hentry)
  -- The row ends when the entry does, so it has time left as well.
  have hleft : row.isLive now = true := by
    rw [Row.isLive, hend hpolicy, hsame]
    exact decide_eq_true (Nat.not_le.1 (of_decide_eq_false hnotover))
  obtain ⟨-, e₂, he₂, hlife⟩ := h.sameLife_entry hpolicy hrow hleft
  have hsame' : e₂ = e := Option.some.inj (he₂.symm.trans hentry)
  exact ⟨_, recovered_of_live hrow hleft, hsame' ▸ hlife⟩

end Mirrored

/-- **A restart is exact.** Whatever a session has done, restarting at a reading of the clock fails
in nothing: it restores the rows with time left, with their values and the time they have left, and
erases the others. A key whose TTL in force is worthy and which is not due is read afterwards, at
any reading of the clock, as if there had been no restart. -/
theorem restart_exact (config : Config) (listeners : Listeners) (backing : Backing)
    (hpersistent : config.persistent = true)
    (hreplay : listeners.recovery = [.replay]) (hpolicy : config.policy = .sinceCreation)
    (hdirect : backing.Direct config.backend)
    (hempty : ∀ key, backing.row? config.backend key = none) (steps : List (Millis × Action))
    (hreadable : ∀ step ∈ steps, step.2.Readable) (now : Millis) :
    let c := (new config listeners backing).session steps
    let d := (c.relaunch now).2
    ∃ rows, c.backing.rows config.backend = .ok rows ∧
      (c.relaunch now).1 = .ok
        { enumerated := rows.length
          restored := (rows.filter fun e => now < e.2.expiresAt).length
          purged := (rows.filter fun e => !decide (now < e.2.expiresAt)).length
          failed := 0 } ∧
      d.backing.rows config.backend = .ok (rows.filter fun e => now < e.2.expiresAt) ∧
      (∀ key e, d.store.entries.find? key = some e →
        ∃ row, (key, row) ∈ rows ∧ now < row.expiresAt) ∧
      (∀ key row, (key, row) ∈ rows → now < row.expiresAt →
        ∃ e, d.store.entries.find? key = some e ∧ e.value = row.value ∧
          (d.store.ttl now key).answer = some (Duration.ofMillis (row.expiresAt - now))) ∧
      (∀ text e, c.store.live? now (Codec.encodeKey text) = some e →
        config.criticalMillis ≤ e.ttl.millis → ∀ later command, Reads text command →
          (d.perform later command).1 = (c.perform later command).1) := by
  obtain ⟨h, hconfig⟩ :=
    (mirrored_new hpersistent hreplay hdirect hempty).session steps hreadable
  intro c d
  replace hconfig : c.config = config := hconfig
  replace h : c.Mirrored _ := h
  have hcreation : c.config.policy = .sinceCreation := by rw [hconfig, hpolicy]
  obtain ⟨rows, s, b, hrows, hrelaunch, -, hfind, -, hleft⟩ := h.relaunch now
  have hd : d = { c with store := s, backing := b } := congrArg Prod.snd hrelaunch
  have hrow : ∀ key row, (key, row) ∈ rows ↔ c.backing.row? c.config.backend key = some row := by
    intro key row
    rw [Backing.row?_of_rows hrows]
    exact ByteMap.mem_entries_iff (m := ⟨rows, Backing.rows_ascending hrows⟩)
  have hstore : ∀ key, d.store.entries.find? key = c.recovered now key := by
    rw [hd]
    exact hfind
  refine ⟨rows, by rw [← hconfig]; exact hrows, congrArg Prod.fst hrelaunch, ?_,
    fun key e he => ?_, fun key row hmem hlt => ?_, fun text e hlive hworthy later command => ?_⟩
  · rw [hd, ← hconfig]
    exact hleft
  · rw [hstore] at he
    obtain ⟨row, hfound, hlive, -⟩ := recovered_eq_some he
    exact ⟨row, (hrow key row).2 hfound, of_decide_eq_true hlive⟩
  · have hlive : row.isLive now = true := decide_eq_true hlt
    have hfound := (hrow key row).1 hmem
    have hback := (hstore key).trans (recovered_of_live hfound hlive)
    exact ⟨_, hback, rfl, h.ttl_of_recovered hcreation hfound hlive hback⟩
  · rw [← hconfig] at hworthy
    obtain ⟨e', hback, hlife⟩ := h.recovered_of_worthy hcreation hlive hworthy
    exact perform_sameLife hlife (Store.live?_eq_some_iff.1 hlive).1 ((hstore _).trans hback) later

/-- A restart at the very instant one of two keys is due, after another restart: the key is gone
with its row, and the other one has half a minute left. -/
theorem restart_exact_at_deadline :
    let c := (new { persistent := true } { recovery := [.replay] }
        { registry := { memory := some (.memory .empty) } }).session
      [(0, .request (.call (.setWithTtl "a" (.str "v") (.ofSeconds 60)))),
        (0, .request (.call (.setWithTtl "b" (.int 7) (.ofSeconds 90)))), (10000, .restart)]
    (c.relaunch 60000).1 =
        .ok { enumerated := 2, restored := 1, purged := 1, failed := 0 } ∧
      (c.relaunch 60000).2.backing.rows .memory =
        .ok [(Codec.encodeKey "b", ⟨Json.printed (.int 7), 90000, 90000⟩)] ∧
      ((c.relaunch 60000).2.store.ttl 60000 (Codec.encodeKey "b")).answer =
        some (Duration.ofMillis 30000) := by
  obtain ⟨rows, hrows, hreport, hleft, -, hback, -⟩ := restart_exact
    { persistent := true } { recovery := [.replay] }
    { registry := { memory := some (.memory .empty) } } rfl rfl rfl
    ⟨⟨rfl, rfl, fun backend hback => by cases hback; trivial⟩, rfl, rfl⟩ (fun _ => rfl)
    [(0, .request (.call (.setWithTtl "a" (.str "v") (.ofSeconds 60)))),
      (0, .request (.call (.setWithTtl "b" (.int 7) (.ofSeconds 90)))), (10000, .restart)]
    (by
      intro step hstep
      simp only [List.mem_cons, List.not_mem_nil, or_false] at hstep
      rcases hstep with rfl | rfl | rfl
      · intro v hv; cases hv; decide
      · intro v hv; cases hv; decide
      · trivial)
    60000
  have heq : rows = [(Codec.encodeKey "a", ⟨Json.printed (.str "v"), 60000, 60000⟩),
      (Codec.encodeKey "b", ⟨Json.printed (.int 7), 90000, 90000⟩)] :=
    (Except.ok.inj hrows).symm
  subst heq
  obtain ⟨e, -, -, httl⟩ := hback (Codec.encodeKey "b") ⟨Json.printed (.int 7), 90000, 90000⟩
    (List.mem_cons_of_mem _ List.mem_cons_self) (by decide)
  exact ⟨hreport, hleft, httl⟩

end Cache

end ExpiringCache
