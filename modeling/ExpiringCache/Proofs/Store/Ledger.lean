import ExpiringCache.Proofs.Store.Accounts

/-!
# No entry is lost, and none leaves twice

A ledger is kept of a store by its callers and by whoever receives its reports: it notes which
entries operations say they stored, which of them answers hand back or count, and which are
reported as expired. `Store.entries_conserved` says that the books balance after every operation,
whatever the readings of the clock.
-/

namespace ExpiringCache

namespace Store

variable {s : Store} {now : Millis} {key : Bytes} {op : Operation} {keys : List Bytes}

/-! ### The books -/

/-- What is noted of a store. -/
structure Ledger where
  /-- The entries there have been, the newest first. -/
  lives : List Life := []
  /-- Departures of keys that never had an entry. -/
  strays : Nat := 0
  /-- Entries said to be stored. -/
  created : Nat := 0
  /-- Entries that were handed back, counted or reported. -/
  ended : Nat := 0
  /-- Entries reported as expired. -/
  reports : Nat := 0
  /-- Entries that the store was cleared of. -/
  cleared : Nat := 0
  hits : Nat := 0
  misses : Nat := 0

/-- Notes an operation on a store at a reading of the clock: the departures, and then what is taken
in. -/
def Ledger.note (l : Ledger) (s : Store) (now : Millis) (op : Operation) : Ledger :=
  let t := s.operate now op
  let gone := op.gone t (keysInForce l.lives)
  let gain := op.gain t.answer
  { lives := gain.note (departAll now (fun key => (s.entries.find? key).map (·.expiresAt)) gone
      l.lives)
    strays := l.strays + gone.countP fun g => (latest? l.lives g.1).isNone
    created := l.created + gain.created
    ended := l.ended + gone.length
    reports := l.reports + t.expired.length
    cleared := l.cleared + op.cleared t.answer
    hits := l.hits + op.hits t.answer
    misses := l.misses + op.misses t.answer }

/-- The ledger of a history. -/
def ledger (s : Store) (l : Ledger) : List (Millis × Operation) → Ledger
  | [] => l
  | step :: rest => (s.operate step.1 step.2).store.ledger (l.note s step.1 step.2) rest

/-- The books balance: each entry noted to be in force is in the store with its value, and nothing
else is; and what was counted is what was noted. -/
structure Ledger.Balances (l : Ledger) (s : Store) : Prop where
  orderly : Orderly l.lives
  inForce : ∀ key, inForce? l.lives key = (s.entries.find? key).map (·.value)
  strays : l.strays = 0
  created : l.lives.length = l.created
  ended : (departures l.lives).length = l.ended
  reports : departed Ending.isReport l.lives = l.reports
  cleared : departed Ending.isCount l.lives = l.cleared
  totalEntries : s.stats.totalEntries = s.entries.size
  expirations : s.stats.expirations = l.reports
  hits : s.stats.hits = l.hits
  misses : s.stats.misses = l.misses

/-- What an operation counts. -/
theorem operate_stats (s : Store) (now : Millis) (op : Operation) :
    let t := s.operate now op
    t.store.stats.hits = s.stats.hits + op.hits t.answer ∧
      t.store.stats.misses = s.stats.misses + op.misses t.answer ∧
      t.store.stats.expirations = s.stats.expirations + t.expired.length ∧
      (s.stats.totalEntries = s.entries.size →
        t.store.stats.totalEntries = t.store.entries.size) := by
  intro t
  cases op <;>
    simp only [t, operate, Turn.map, put, putIfAbsent, restore, insertAbsent, replace, get, peek,
      contains, Store.ttl, replaceTtl, resetTtl, change, remove, removeWhere, clear, sweep] <;>
    (repeat' split) <;>
    simp [idle, settleWithout, settle, Stats.expire, Stats.setTotal, Stats.hit, Stats.miss,
      Operation.hits, Operation.misses]

/-- Of the entries that leave, just those reported as expired are noted as reported. -/
theorem countP_reported (hkeys : ∀ key, key ∈ keys ↔ ∃ e, s.entries.find? key = some e) :
    ((op.gone (s.operate now op) keys).countP fun g => g.2.isReport) =
      (s.operate now op).expired.length := by
  have hhanded : ((op.handed (s.operate now op) keys).countP fun g => g.2.isReport) = 0 := by
    refine List.countP_eq_zero.2 fun g hg => ?_
    obtain ⟨-, e, -, hhands⟩ := (mem_handed hkeys g).1 hg
    rcases hands_eq_some hhands with h | h | h <;> simp [h, Ending.isReport]
  rw [Operation.gone, List.countP_append, hhanded, List.countP_map, Nat.add_zero]
  exact List.countP_eq_length.2 fun entry _ => rfl

/-- Of the entries that leave, as many are noted as counted as the store counts when cleared. -/
theorem countP_counted (hnodup : keys.Nodup)
    (hkeys : ∀ key, key ∈ keys ↔ ∃ e, s.entries.find? key = some e) :
    ((op.gone (s.operate now op) keys).countP fun g => g.2.isCount) =
      op.cleared (s.operate now op).answer := by
  have hreported : (((s.operate now op).expired.map fun entry =>
      (entry.1, Ending.reported entry.2)).countP fun g => g.2.isCount) = 0 :=
    List.countP_eq_zero.2 fun g hg => by
      obtain ⟨entry, -, rfl⟩ := List.mem_map.1 hg
      exact Bool.false_ne_true
  rw [Operation.gone, List.countP_append, hreported, Nat.zero_add]
  by_cases hop : op = .clear
  · subst hop
    -- The keys that are counted are those of the live entries, and no key is among them twice.
    have hperm : ((Operation.clear.handed (s.operate now .clear) keys).map (·.1)).Perm
        (s.living now).keys := by
      refine (List.perm_ext_iff_of_nodup (nodup_handed hnodup) (nodup_keys _)).2 fun key => ?_
      simp only [List.mem_map, mem_handed hkeys, mem_keys, find?_living]
      constructor
      · rintro ⟨g, ⟨-, e, hlive, -⟩, rfl⟩
        exact ⟨e, hlive⟩
      · rintro ⟨e, hlive⟩
        exact ⟨(key, .counted), ⟨trivial, e, hlive, rfl⟩, rfl⟩
    have hall : ((Operation.clear.handed (s.operate now .clear) keys).countP fun g =>
        g.2.isCount) = (Operation.clear.handed (s.operate now .clear) keys).length := by
      refine List.countP_eq_length.2 fun g hg => ?_
      obtain ⟨-, e, -, hhands⟩ := (mem_handed hkeys g).1 hg
      rw [← Option.some.inj hhands]
      rfl
    have hlength := hperm.length_eq
    rw [List.length_map, ByteMap.keys, List.length_map] at hlength
    exact hall.trans hlength
  · rw [cleared_of_ne hop]
    refine List.countP_eq_zero.2 fun g hg hcount => ?_
    obtain ⟨-, e, -, hhands⟩ := (mem_handed hkeys g).1 hg
    exact hop (eq_clear_of_hands hhands hcount)

/-! ### The books balance -/

/-- A new store and an empty ledger. -/
theorem Ledger.Balances.start (policy : ExpiryPolicy) : Balances {} (Store.new policy) where
  orderly := ⟨fun _ hlife => absurd hlife List.not_mem_nil, .nil⟩
  inForce _ := rfl
  strays := rfl
  created := rfl
  ended := rfl
  reports := rfl
  cleared := rfl
  totalEntries := rfl
  expirations := rfl
  hits := rfl
  misses := rfl

/-- If the books balance, those thought in force are in the store. -/
theorem Ledger.Balances.mem_keysInForce {l : Ledger} (h : l.Balances s) (key : Bytes) :
    key ∈ keysInForce l.lives ↔ ∃ e, s.entries.find? key = some e := by
  rw [h.orderly.mem_keysInForce, h.inForce]
  simp

/-- **A step of the books.** They balance after an operation if they did before. -/
theorem Ledger.Balances.note {l : Ledger} (h : l.Balances s) (now : Millis) (op : Operation) :
    (l.note s now op).Balances (s.operate now op).store := by
  have hkeys := h.mem_keysInForce
  have hnodup := h.orderly.nodup_keysInForce
  have hacts := operate_acts s now op
  obtain ⟨hhits, hmisses, hexpirations, htotal⟩ := operate_stats s now op
  have hfits : ∀ g ∈ op.gone (s.operate now op) (keysInForce l.lives), ∃ value,
      inForce? l.lives g.1 = some value ∧
        Departure.Fits ⟨g.2, now, (s.entries.find? g.1).map (·.expiresAt)⟩ value := by
    intro g hg
    obtain ⟨e, hfind, hfit⟩ := fits_gone hkeys hg
    exact ⟨e.value, by rw [h.inForce, hfind]; rfl, hfit⟩
  obtain ⟨horderly, hleft, hdeparted⟩ := h.orderly.departAll now
    (fun key => (s.entries.find? key).map (·.expiresAt)) (nodup_keys_gone hnodup hkeys) hfits
  have hstays : ∀ key, op.Looks key →
      inForce? (departAll now (fun key => (s.entries.find? key).map (·.expiresAt))
        (op.gone (s.operate now op) (keysInForce l.lives)) l.lives) key =
        (op.stay key (s.live? now key)).map (·.value) := by
    intro key hlooks
    rw [hleft, h.inForce, ← left_inside hkeys hlooks]
  obtain ⟨horderly', hinForce, hdeparted'⟩ := horderly.note
    ((Gain.fits_congr fun key hkey => hstays key (looks_of_gain hkey)).2 (gain_fits s now op))
  refine ⟨horderly', fun key => ?_, ?_, ?_, ?_, ?_, ?_, htotal h.totalEntries, ?_, ?_, ?_⟩
  · -- What is in force afterwards.
    refine (hinForce key).trans ?_
    by_cases hlooks : op.Looks key
    · rw [hstays key hlooks, ← gain_next hlooks, hacts.inside key hlooks]
    · rw [Gain.after_of_ne (fun hkey => hlooks (looks_of_gain hkey)), hleft, h.inForce,
        left_outside hkeys hlooks, hacts.outside key hlooks]
  · -- Whoever leaves has a life.
    simp only [Ledger.note, h.strays, Nat.zero_add]
    refine List.countP_eq_zero.2 fun g hg => ?_
    obtain ⟨value, hforce, -⟩ := hfits g hg
    obtain ⟨life, hlatest, -⟩ := inForce?_eq_some_iff.1 hforce
    simp [hlatest]
  · simp only [Ledger.note]
    rw [Gain.length_note, length_departAll, h.created]
  · rw [← departed_true]
    refine (hdeparted' _).trans ((hdeparted _).trans ?_)
    rw [departed_true, h.ended, List.countP_true]
    rfl
  · exact (hdeparted' _).trans ((hdeparted _).trans (by rw [h.reports, countP_reported hkeys]; rfl))
  · exact (hdeparted' _).trans
      ((hdeparted _).trans (by rw [h.cleared, countP_counted hnodup hkeys]; rfl))
  · exact hexpirations.trans (by rw [h.expirations]; rfl)
  · exact hhits.trans (by rw [h.hits]; rfl)
  · exact hmisses.trans (by rw [h.misses]; rfl)

/-- **A history of the books.** They balance after all operations if they did before. -/
theorem Ledger.Balances.history (steps : List (Millis × Operation)) :
    ∀ {l : Ledger} {s : Store}, l.Balances s → (s.ledger l steps).Balances (s.after steps) := by
  induction steps with
  | nil => exact fun h => h
  | cons step rest ih => exact fun h => ih (h.note step.1 step.2)

/-- **No entry is lost, and none leaves twice.** Of a history of a new store, at any readings of the
clock:

* Each entry that was stored has left once at most: handed back by the write that took its place or
  by a removal, with the value it was last given; counted when everything was removed; or reported
  as expired, with its key and that value. It was reported if its deadline had come at that
  reading, and only then. Nothing else was handed back, counted or reported.
* The entries in the store are those that have not left.
* The counters of the store are right: the entries there are, which is those stored less those that
  left; the reports; and the reads that found a live entry, and those that did not. -/
theorem entries_conserved (policy : ExpiryPolicy) (steps : List (Millis × Operation)) :
    let s := (Store.new policy).after steps
    let l := (Store.new policy).ledger {} steps
    (∀ life ∈ l.lives, life.departures = [] ∨
        ∃ d, life.departures = [d] ∧ d.Fits life.value) ∧
      l.strays = 0 ∧ l.lives.length = l.created ∧ (departures l.lives).length = l.ended ∧
      departed Ending.isReport l.lives = l.reports ∧ departed Ending.isCount l.lives = l.cleared ∧
      (∀ key value, (∃ e, s.entries.find? key = some e ∧ e.value = value) ↔
        ∃ life ∈ l.lives, life.key = key ∧ life.value = value ∧ life.departures = []) ∧
      s.stats.totalEntries = s.entries.size ∧ s.entries.size + l.ended = l.created ∧
      s.stats.expirations = l.reports ∧ s.stats.hits = l.hits ∧ s.stats.misses = l.misses := by
  intro s l
  have h : l.Balances s := Ledger.Balances.history steps (.start policy)
  refine ⟨h.orderly.proper, h.strays, h.created, h.ended, h.reports, h.cleared,
    fun key value => ?_, h.totalEntries, ?_, h.expirations, h.hits, h.misses⟩
  · rw [← h.orderly.inForce?_iff, h.inForce, Option.map_eq_some_iff]
  · have hperm : (keysInForce l.lives).Perm s.entries.keys := by
      refine (List.perm_ext_iff_of_nodup h.orderly.nodup_keysInForce (nodup_keys _)).2 fun key => ?_
      rw [h.mem_keysInForce, mem_keys]
    have hsize : (keysInForce l.lives).length = s.entries.size :=
      hperm.length_eq.trans (List.length_map _)
    rw [← hsize, ← h.ended, ← h.created, h.orderly.length_eq]

/-- An entry that was due is live again when the clock goes back; it is still reported once. -/
example :
    let l := (Store.new .sinceCreation).ledger {} [(0, .put [107] [49] (.ofSeconds 10)),
      (5000, .replace [107] [50]), (12000, .put [108] [51] .zero), (5000, .get [107]),
      (12000, .get [107]), (12000, .sweep)]
    (l.lives.map fun life => (life.key, life.departures.map (·.ending))) =
        [([108], [.reported [51]]), ([107], [.reported [50]])] ∧
      (l.created, l.ended, l.hits, l.misses) = (2, 2, 1, 1) := by
  decide +kernel

end Store

end ExpiringCache
