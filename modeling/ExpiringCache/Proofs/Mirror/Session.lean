import ExpiringCache.Proofs.Mirror.Basic
import ExpiringCache.Proofs.Passage.Request

/-!
# The durable table mirrors the store

Every request takes each key on a passage, on which entry and row stay together, and a restart
leaves those rows that come back as entries. So they go together at every moment of every session
(`Cache.Mirrored.run`). `Cache.table_mirrors_store` says what that means for the rows a session leaves
behind.
-/

namespace ExpiringCache

namespace Cache

variable {c : Cache} {strict : Prop} {now : Millis}

/-- In a persisting cache that does everything at once, every entry goes with its row. -/
structure Mirrored (c : Cache) (strict : Prop) : Prop where
  prompt : c.Prompt
  keys : ∀ key, Mirrors c.config strict key (c.store.entries.find? key)
    (c.backing.row? c.config.backend key)

namespace Mirrored

theorem weaken {strict' : Prop} (h : c.Mirrored strict) (himp : strict' → strict) :
    c.Mirrored strict' :=
  ⟨h.prompt, fun key => (h.keys key).weaken himp⟩

/-- Every request keeps entries and rows together. -/
theorem request (h : c.Mirrored strict) (now : Millis) {asked : Request}
    (hfaithful : asked.Faithful) : (c.act now (.request asked)).Mirrored strict := by
  obtain ⟨hprompt, hconfig⟩ := h.prompt.act now (.request asked)
  refine ⟨hprompt, fun key => ?_⟩
  rw [hconfig]
  exact (h.keys key).passage (h.prompt.passage now asked key) hfaithful

/-- Every row was written for an entry that the store took, so it takes the rows again. -/
theorem rows_accepted (h : c.Mirrored strict) {rows : List (Bytes × Row)}
    (hrows : c.backing.rows c.config.backend = .ok rows) {e : Bytes × Row} (he : e ∈ rows) :
    c.backing.row? c.config.backend e.1 = some e.2 ∧ Store.refusal? e.1 e.2.value = none := by
  have hrow : c.backing.row? c.config.backend e.1 = some e.2 :=
    (Backing.mem_rows_iff hrows).1 he
  obtain ⟨entry, hentry, hvalue, -⟩ := (h.keys e.1).recorded e.2 hrow
  refine ⟨hrow, ?_⟩
  rw [hvalue]
  exact ((h.keys e.1).kept entry hentry).accepted

/-- A row with time left goes with the entry that comes back from it. -/
theorem mirrors_recovered (h : c.Mirrored strict) (now : Millis) (key : Bytes) :
    Mirrors c.config False key (c.recovered now key)
      ((c.backing.row? c.config.backend key).filter (·.isLive now)) := by
  unfold recovered
  cases hrow : c.backing.row? c.config.backend key with
  | none => exact .nothing
  | some r =>
    obtain ⟨e, he, hvalue, hend⟩ := (h.keys key).recorded r hrow
    have hkept := (h.keys key).kept e he
    cases hlive : r.isLive now with
    | false => simpa [Option.filter, hlive] using Mirrors.nothing
    | true =>
      -- The row is as it was, and the entry made from it has the same value and, held at the latest
      -- instant as it was before, the same end.
      have hrecovered : ((some r).filter (·.isLive now)) = some r := by
        simp [Option.filter, hlive]
      rw [hrecovered, Option.map_some]
      refine ⟨fun e' he' => ?_, fun r' hr' => ?_, fun _ _ _ => Option.some_ne_none r,
        fun hfalse => hfalse.elim⟩
      · rw [← Option.some.inj he']
        have hsame : (r.entry now c.config.policy).value = e.value := hvalue
        exact ⟨by rw [hsame]; exact hkept.accepted, hkept.named,
          by rw [hsame]; exact hkept.readable, rfl⟩
      · rw [← Option.some.inj hr']
        refine ⟨_, rfl, rfl, fun hpolicy => (Row.expiresAt_entry _ hlive ?_).symm⟩
        rw [hend hpolicy]
        exact Clock.after_le _ _

/-- What a restart leads to: nothing fails, the rows with time left are what remains durable, and
the store holds what comes back from them. -/
theorem relaunch (h : c.Mirrored strict) (now : Millis) :
    ∃ rows s b, c.backing.rows c.config.backend = .ok rows ∧
      c.relaunch now =
        (.ok
          { enumerated := rows.length
            restored := (rows.filter fun e => e.2.isLive now).length
            purged := (rows.filter fun e => !e.2.isLive now).length
            failed := 0 },
          { c with store := s, backing := b }) ∧
      s.policy = c.config.policy ∧ (∀ key, s.entries.find? key = c.recovered now key) ∧
      b.Direct c.config.backend ∧
      b.rows c.config.backend = .ok (rows.filter fun e => e.2.isLive now) := by
  have hp := h.prompt.persisting
  have hdirect := h.prompt.direct
  obtain ⟨rows, hrows⟩ := Backing.rows_of_has hdirect.sound hdirect.has
  obtain ⟨s, b, hrelaunch, hpolicy, hfind, hsound, hworker, hhas, hleft⟩ := relaunch_inv now
    hp.persistent hp.recovery hdirect.sound hrows fun e he => (h.rows_accepted hrows he).2
  exact ⟨rows, s, b, hrows, hrelaunch, hpolicy, hfind,
    ⟨hsound, by rw [hworker]; exact hdirect.idle, by rw [hhas]; exact hdirect.has⟩, hleft⟩

/-- A row with time left comes back as a live entry with the end of the row. -/
theorem live?_relaunch (h : c.Mirrored strict) {key : Bytes} {row : Row}
    (hrow : c.backing.row? c.config.backend key = some row) (hlive : row.isLive now = true)
    (hlatest : row.expiresAt ≤ Clock.latest) :
    (c.relaunch now).2.store.live? now key = some (row.entry now c.config.policy) ∧
      (row.entry now c.config.policy).expiresAt = row.expiresAt := by
  have hp := h.prompt.persisting
  have hdirect := h.prompt.direct
  obtain ⟨rows, hrows⟩ := Backing.rows_of_has hdirect.sound hdirect.has
  exact Cache.live?_relaunch now hp.persistent hp.recovery hdirect.sound hrows
    (fun e he => (h.rows_accepted hrows he).2) hrow hlive hlatest

/-- A restart leaves the rows with time left, each with the entry that came back from it. -/
theorem restart (h : c.Mirrored strict) (now : Millis) :
    (c.act now .restart).Mirrored False := by
  obtain ⟨rows, s, b, -, hrelaunch, -, hfind, -⟩ := h.relaunch now
  obtain ⟨hprompt, hconfig, hrow, -⟩ := h.prompt.relaunch now
  refine ⟨hprompt, fun key => ?_⟩
  have hentry : (c.relaunch now).2.store.entries.find? key = c.recovered now key := by
    rw [hrelaunch]
    exact hfind key
  show Mirrors (c.relaunch now).2.config False key ((c.relaunch now).2.store.entries.find? key)
    ((c.relaunch now).2.backing.row? (c.relaunch now).2.config.backend key)
  rw [hconfig, hentry, hrow key]
  exact h.mirrors_recovered now key

/-- Every action keeps entries and rows together; a restart forgets that rows are for worthy
entries only. -/
theorem act (h : c.Mirrored strict) (now : Millis) {action : Action}
    (hfaithful : action.Faithful) :
    (c.act now action).Mirrored (strict ∧ action ≠ .restart) := by
  cases action with
  | request asked => exact (h.request now hfaithful).weaken And.left
  | restart => exact (h.restart now).weaken fun hrestart => hrestart.2 rfl

/-- Entries and rows go together at the end of every session, and the configuration is what it
was. -/
theorem run (steps : List (Millis × Action)) : ∀ {c : Cache} {strict : Prop},
    c.Mirrored strict → (∀ step ∈ steps, step.2.Faithful) →
      (c.session steps).Mirrored (strict ∧ ∀ step ∈ steps, step.2 ≠ .restart) ∧
        (c.session steps).config = c.config := by
  -- By induction on the steps, for any cache that they start from: a restart changes `strict`.
  induction steps with
  | nil => exact fun h _ => ⟨h.weaken And.left, rfl⟩
  | cons step rest ih =>
    intro c strict h hfaithful
    rw [session_cons]
    obtain ⟨hrest, hconfig⟩ := ih (h.act step.1 (hfaithful step List.mem_cons_self)) fun s hs =>
      hfaithful s (List.mem_cons_of_mem _ hs)
    refine ⟨hrest.weaken fun hall => ?_, hconfig.trans (h.prompt.act step.1 step.2).2⟩
    exact ⟨⟨hall.1, hall.2 step List.mem_cons_self⟩,
      fun s hs => hall.2 s (List.mem_cons_of_mem _ hs)⟩

/-- The same of sessions whose values can be stored, since those are read back. -/
theorem session (steps : List (Millis × Action)) (h : c.Mirrored strict)
    (hreadable : ∀ step ∈ steps, step.2.Readable) :
    (c.session steps).Mirrored (strict ∧ ∀ step ∈ steps, step.2 ≠ .restart) ∧
      (c.session steps).config = c.config :=
  run steps h fun step hstep => (hreadable step hstep).faithful

end Mirrored

/-! ### Sessions that start with nothing -/

variable {config : Config} {listeners : Listeners} {backing : Backing}

/-- With nothing stored and nothing durable, entries and rows go together. -/
theorem mirrored_new (hpersistent : config.persistent = true)
    (hreplay : listeners.recovery = [.replay]) (hdirect : backing.Direct config.backend)
    (hempty : ∀ key, backing.row? config.backend key = none) :
    (new config listeners backing).Mirrored True := by
  refine ⟨prompt_new hpersistent hreplay hdirect hempty, fun key => ?_⟩
  show Mirrors config True key none (backing.row? config.backend key)
  rw [hempty key]
  exact .nothing

/-- **The durable table mirrors the store.** At every moment of a session that starts with nothing,
and for every key: a row stands for an entry with the same value and, where expiry is counted from
the last write, the same end; an entry whose TTL in force is worthy has a row; and as long as there
was no restart, an entry whose TTL in force is not has none. -/
theorem table_mirrors_store (config : Config) (listeners : Listeners) (backing : Backing)
    (hpersistent : config.persistent = true)
    (hreplay : listeners.recovery = [.replay]) (hdirect : backing.Direct config.backend)
    (hempty : ∀ key, backing.row? config.backend key = none) (steps : List (Millis × Action))
    (hreadable : ∀ step ∈ steps, step.2.Readable) (key : Bytes) :
    let c := (new config listeners backing).session steps
    (∀ row, c.backing.row? config.backend key = some row →
      ∃ e, c.store.entries.find? key = some e ∧ row.value = e.value ∧
        (config.policy = .sinceCreation → row.expiresAt = e.expiresAt)) ∧
    (∀ e, c.store.entries.find? key = some e → config.criticalMillis ≤ e.ttl.millis →
      ∃ row, c.backing.row? config.backend key = some row) ∧
    ((∀ step ∈ steps, step.2 ≠ .restart) → ∀ e, c.store.entries.find? key = some e →
      e.ttl.millis < config.criticalMillis → c.backing.row? config.backend key = none) := by
  obtain ⟨h, hconfig⟩ :=
    (mirrored_new hpersistent hreplay hdirect hempty).session steps hreadable
  have hkey := h.keys key
  rw [hconfig] at hkey
  exact ⟨hkey.recorded,
    fun e he hworthy => Option.ne_none_iff_exists'.1 (hkey.worthy e he hworthy),
    fun hnone => hkey.unworthy ⟨trivial, hnone⟩⟩

/-- A key that is made to live longer and is still there after a restart; the key that was written
with too short a TTL is not. -/
theorem table_mirrors_store_after_restart :
    let c := (new { persistent := true } { recovery := [.replay] }
        { registry := { memory := some (.memory .empty) } }).session
      [(0, .request (.call (.setWithTtl "k" (.str "v") (.ofSeconds 30)))),
        (0, .request (.call (.setWithTtl "s" (.int 7) (.ofSeconds 30)))),
        (1000, .request (.call (.replaceDuration "k" (.ofSeconds 90)))), (40000, .restart)]
    c.backing.row? .memory (Codec.encodeKey "k") =
        some ⟨Json.printed (.str "v"), 90000, 91000⟩ ∧
      c.backing.row? .memory (Codec.encodeKey "s") = none ∧
      ∃ e, c.store.entries.find? (Codec.encodeKey "k") = some e ∧
        Json.printed (.str "v") = e.value ∧ 91000 = e.expiresAt := by
  have hmirrors := table_mirrors_store { persistent := true } { recovery := [.replay] }
    { registry := { memory := some (.memory .empty) } } rfl rfl
    ⟨⟨rfl, rfl, fun backend hback => by cases hback; trivial⟩, rfl, rfl⟩ (fun _ => rfl)
    [(0, .request (.call (.setWithTtl "k" (.str "v") (.ofSeconds 30)))),
      (0, .request (.call (.setWithTtl "s" (.int 7) (.ofSeconds 30)))),
      (1000, .request (.call (.replaceDuration "k" (.ofSeconds 90)))), (40000, .restart)]
    (by
      intro step hstep
      simp only [List.mem_cons, List.not_mem_nil, or_false] at hstep
      rcases hstep with rfl | rfl | rfl | rfl
      · intro v hv; cases hv; decide
      · intro v hv; cases hv; decide
      · intro v hv; cases hv
      · trivial)
    (Codec.encodeKey "k")
  obtain ⟨e, he, hvalue, hend⟩ := hmirrors.1 ⟨Json.printed (.str "v"), 90000, 91000⟩ rfl
  exact ⟨rfl, rfl, e, he, hvalue, hend rfl⟩

end Cache

end ExpiringCache
