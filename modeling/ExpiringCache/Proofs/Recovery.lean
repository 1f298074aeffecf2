import ExpiringCache.Recovery
import ExpiringCache.Proofs.Errands
import ExpiringCache.Proofs.Store.Acts
import Mathlib.Data.List.TakeWhile

/-!
# What recovery brings back

A process that starts again finds an empty store, and the durable table. Replaying stores an entry
for each row with time left, in the order of their keys, until the store refuses one; purging
erases the rows without time left (`Cache.relaunch_rows`). Provided that the store takes every row,
all rows with time left come back (`Cache.relaunch_inv`). Each loop is described by what it does to
one key; that the rows come in ascending order, so each key once, is what carries both inductions.
-/

namespace ExpiringCache

namespace Row

/-- Whether the row has time left. -/
def isLive (row : Row) (now : Millis) : Bool := now < row.expiresAt

/-- The entry that the row comes back as. -/
def entry (now : Millis) (policy : ExpiryPolicy) (row : Row) : Entry :=
  Entry.restored now row.value (Duration.ofMillis row.ttl) (Clock.left row.expiresAt now) policy

theorem remaining?_of_live {row : Row} {now : Millis} (h : row.isLive now = true) :
    row.remaining? now = some (Clock.left row.expiresAt now) := by
  unfold remaining?
  rw [if_pos (of_decide_eq_true h)]

theorem remaining?_of_over {row : Row} {now : Millis} (h : row.isLive now = false) :
    row.remaining? now = none := by
  unfold remaining?
  rw [if_neg (of_decide_eq_false h)]

/-- An entry comes back with the instant its row expires, if the clock can tell that instant. -/
theorem expiresAt_entry {row : Row} {now : Millis} (policy : ExpiryPolicy)
    (hlive : row.isLive now = true) (hlatest : row.expiresAt ≤ Clock.latest) :
    (row.entry now policy).expiresAt = row.expiresAt := by
  have hlt : now < row.expiresAt := of_decide_eq_true hlive
  have hspan : Clock.held (row.expiresAt - now) = row.expiresAt - now :=
    Clock.held_of_le (Nat.le_trans (Nat.sub_le _ _) hlatest)
  show Clock.held (now + Clock.held (Clock.left row.expiresAt now).millis) = row.expiresAt
  rw [Clock.millis_left, hspan, Nat.add_sub_cancel' (Nat.le_of_lt hlt), Clock.held_of_le hlatest]

/-- An entry that has come back from a row is live, with the time that the row has left. -/
theorem live?_entry {row : Row} {s : Store} {now : Millis} {key : Bytes} {policy : ExpiryPolicy}
    (hlive : row.isLive now = true) (hlatest : row.expiresAt ≤ Clock.latest)
    (hfind : s.entries.find? key = some (row.entry now policy)) :
    s.live? now key = some (row.entry now policy) ∧
      (s.ttl now key).answer = some (Duration.ofMillis (row.expiresAt - now)) := by
  have hend := expiresAt_entry policy hlive hlatest
  have hthere : s.live? now key = some (row.entry now policy) := by
    refine Store.live?_eq_some_iff.2 ⟨hfind, ?_⟩
    rw [Entry.isExpiredAt, hend]
    exact decide_eq_false (Nat.not_le.2 (of_decide_eq_true hlive))
  refine ⟨hthere, ?_⟩
  rw [Store.ttl_answer, hthere, Option.map_some, Entry.remaining, hend]
  rfl

end Row

/-- Rows in order with others behind them: their keys are not among the others. -/
theorem Ascending.ne_of_mem {α : Type} {first : Bytes × α} {rest : List (Bytes × α)}
    (h : Ascending (first :: rest)) {entry : Bytes × α} (hmem : entry ∈ rest) :
    entry.1 ≠ first.1 := by
  intro heq
  have hlt : first.1 < entry.1 := (List.pairwise_cons.1 h).1 entry hmem
  rw [heq] at hlt
  exact List.lt_irrefl _ hlt

namespace Cache

/-- Starts again with an empty store and brings back what is durable. -/
def relaunch (c : Cache) (now : Millis) : Except DurableError RecoveryReport × Cache :=
  recover { c with store := Store.new c.config.policy } now

/-- Without a worker and a file, a restart of the process is nothing else. -/
theorem restart_eq_relaunch {c : Cache} (hworker : c.backing.worker = .absent)
    (hfile : c.backing.registry.file = none) (now : Millis) (loseJobs : Bool) :
    c.restart now loseJobs = c.relaunch now := by
  have hbacking : (if loseJobs then c.backing else (c.backing.drain now).2).renewWorker =
      c.backing := by
    cases loseJobs <;> simp [Backing.drain, Backing.renewWorker, hworker]
  unfold restart
  simp only [hbacking, Backing.reopen, hfile]
  rfl

/-! ### Replaying -/

/-- A row with time left whose key is free is restored. -/
theorem restoreRow_live {c : Cache} {now : Millis} {key : Bytes} {row : Row}
    (hlive : row.isLive now = true) (haccepted : Store.refusal? key row.value = none)
    (hfree : c.store.entries.find? key = none) :
    ∃ s, c.restoreRow now key row = (.ok true, { c with store := s }) ∧
      s.policy = c.store.policy ∧ ∀ k, s.entries.find? k =
        if k = key then some (row.entry now c.store.policy) else c.store.entries.find? k := by
  have hentry : Store.refusal? key (row.entry now c.store.policy).value = none := haccepted
  have hnone : c.store.live? now key = none := by rw [Store.live?, hfree]; rfl
  have hacts : c.store.Acts now _ _ (c.store.insertAbsent now key (row.entry now c.store.policy)) :=
    Store.insertAbsent_acts hentry
  have hanswer : (c.store.insertAbsent now key (row.entry now c.store.policy)).answer =
      .ok (c.store.live? now key).isNone := Store.insertAbsent_answer hentry
  -- Nothing was under the key, so nothing is reported either.
  have hexpired : (c.store.insertAbsent now key (row.entry now c.store.policy)).expired = [] := by
    refine List.eq_nil_iff_forall_not_mem.2 fun entry hmem => ?_
    obtain ⟨hkey, hdue⟩ := (hacts.expired entry).1 hmem
    rw [hkey, Store.due, hfree] at hdue
    exact List.not_mem_nil hdue
  refine ⟨(c.store.insertAbsent now key (row.entry now c.store.policy)).store, ?_, hacts.policy,
    fun k => ?_⟩
  · unfold restoreRow
    rw [Row.remaining?_of_live hlive]
    show ((c.store.insertAbsent now key (row.entry now c.store.policy)).answer,
      c.settle now (c.store.insertAbsent now key (row.entry now c.store.policy))) = _
    rw [hanswer, hnone, settle, hexpired]
    rfl
  · by_cases hk : k = key
    · rw [if_pos hk, hacts.inside k hk, hk, hnone]
      rfl
    · rw [if_neg hk, hacts.outside k hk]

/-- A row with time left that the store refuses stops the replay, which leaves everything as it
is. -/
theorem replay_refused {c : Cache} {now : Millis} {key : Bytes} {row : Row} {refusal : Refusal}
    (hlive : row.isLive now = true) (hrefused : Store.refusal? key row.value = some refusal)
    (restored : Nat) (rows : List (Bytes × Row)) :
    c.replay now restored ((key, row) :: rows) = (.error refusal, c) := by
  have hentry : Store.refusal? key (row.entry now c.store.policy).value = some refusal := hrefused
  have hrestore : c.restoreRow now key row = (.error refusal, c) := by
    unfold restoreRow
    rw [Row.remaining?_of_live hlive]
    show ((c.store.insertAbsent now key (row.entry now c.store.policy)).answer,
      c.settle now (c.store.insertAbsent now key (row.entry now c.store.policy))) = _
    rw [Store.insertAbsent_refused hentry]
    rfl
  rw [replay, hrestore]

/-- The rows that have time left. -/
def left (now : Millis) (rows : List (Bytes × Row)) : List (Bytes × Row) :=
  rows.filter fun e => e.2.isLive now

/-- The rows that a replay restores: of those with time left the ones before the first that the
store refuses. -/
def restorable (now : Millis) (rows : List (Bytes × Row)) : List (Bytes × Row) :=
  (left now rows).takeWhile fun e => (Store.refusal? e.1 e.2.value).isNone

theorem left_cons_over {now : Millis} {e : Bytes × Row} (h : e.2.isLive now = false)
    (rows : List (Bytes × Row)) : left now (e :: rows) = left now rows :=
  List.filter_cons_of_neg (by simp [h])

theorem left_cons_live {now : Millis} {e : Bytes × Row} (h : e.2.isLive now = true)
    (rows : List (Bytes × Row)) : left now (e :: rows) = e :: left now rows :=
  List.filter_cons_of_pos h

theorem restorable_cons_over {now : Millis} {e : Bytes × Row} (h : e.2.isLive now = false)
    (rows : List (Bytes × Row)) : restorable now (e :: rows) = restorable now rows := by
  rw [restorable, left_cons_over h, restorable]

theorem restorable_cons_accepted {now : Millis} {e : Bytes × Row} (h : e.2.isLive now = true)
    (haccepted : Store.refusal? e.1 e.2.value = none) (rows : List (Bytes × Row)) :
    restorable now (e :: rows) = e :: restorable now rows := by
  rw [restorable, left_cons_live h, List.takeWhile_cons_of_pos (by simp [haccepted]), restorable]

theorem restorable_cons_refused {now : Millis} {e : Bytes × Row} {refusal : Refusal}
    (h : e.2.isLive now = true) (hrefused : Store.refusal? e.1 e.2.value = some refusal)
    (rows : List (Bytes × Row)) : restorable now (e :: rows) = [] := by
  rw [restorable, left_cons_live h, List.takeWhile_cons_of_neg (by simp [hrefused])]

/-- What can be restored has time left, and is in the order of the rows. -/
theorem restorable_sublist (now : Millis) (rows : List (Bytes × Row)) :
    (restorable now rows).Sublist (left now rows) := List.takeWhile_sublist _

theorem restorable_ascending {rows : List (Bytes × Row)} (h : Ascending rows) (now : Millis) :
    Ascending (restorable now rows) := (h.filter _).sublist (restorable_sublist now rows)

/-- A row that can be restored is found under its key. -/
theorem mem_restorable {rows : List (Bytes × Row)} (h : Ascending rows) {now : Millis} {key : Bytes}
    {row : Row} :
    (key, row) ∈ restorable now rows ↔ ByteMap.seek key (restorable now rows) = some row :=
  ByteMap.mem_entries_iff (m := ⟨_, restorable_ascending h now⟩)

/-- All rows with time left are restored if the store refuses none of them. -/
theorem restorable_eq_left_iff {now : Millis} {rows : List (Bytes × Row)} :
    restorable now rows = left now rows ↔
      ∀ e ∈ left now rows, Store.refusal? e.1 e.2.value = none := by
  rw [restorable, List.takeWhile_eq_self_iff]
  simp only [Option.isNone_iff_eq_none]

/-- A replay into a store that holds none of the keys stores the rows that can be restored, and no
other. It counts them if these are all that have time left, and fails if not. -/
theorem replay_inv (now : Millis) (rows : List (Bytes × Row)) : ∀ (c : Cache) (restored : Nat),
    Ascending rows → (∀ e ∈ rows, c.store.entries.find? e.1 = none) →
    ∃ result s, c.replay now restored rows = (result, { c with store := s }) ∧
      (restorable now rows = left now rows →
        result = .ok (restored + (left now rows).length)) ∧
      (restorable now rows ≠ left now rows → ∃ refusal, result = .error refusal) ∧
      s.policy = c.store.policy ∧
      ∀ k, s.entries.find? k =
        ((ByteMap.seek k (restorable now rows)).map (·.entry now c.store.policy)).or
          (c.store.entries.find? k) := by
  -- The store of `c` holds what was restored from earlier rows, whose keys do not come again.
  induction rows with
  | nil =>
    exact fun c restored _ _ =>
      ⟨_, c.store, rfl, fun _ => rfl, fun h => absurd rfl h, rfl, fun _ => rfl⟩
  | cons first rest ih =>
    obtain ⟨key, row⟩ := first
    intro c restored hascending hfree
    have hapart : ∀ e ∈ rest, e.1 ≠ key := fun e he => hascending.ne_of_mem he
    have hseek : ByteMap.seek key (restorable now rest) = none := by
      refine ByteMap.seek_eq_none_of_lt fun e he => (List.pairwise_cons.1 hascending).1 e ?_
      exact (List.mem_filter.1 ((restorable_sublist now rest).mem he)).1
    cases hlive : row.isLive now with
    | false =>
      rw [left_cons_over hlive, restorable_cons_over hlive]
      obtain ⟨result, s, hreplay, hrest⟩ := ih c restored hascending.of_cons
        fun e he => hfree e (List.mem_cons_of_mem _ he)
      refine ⟨result, s, ?_, hrest⟩
      rw [replay, restoreRow, Row.remaining?_of_over hlive]
      exact hreplay
    | true =>
      cases hrefusal : Store.refusal? key row.value with
      | some refusal =>
        rw [left_cons_live hlive, restorable_cons_refused hlive hrefusal]
        exact ⟨_, c.store, replay_refused hlive hrefusal restored rest, nofun,
          fun _ => ⟨refusal, rfl⟩, rfl, fun _ => rfl⟩
      | none =>
        rw [left_cons_live hlive, restorable_cons_accepted hlive hrefusal]
        obtain ⟨s₁, hrestore, hpolicy₁, hfind₁⟩ := restoreRow_live hlive hrefusal
          (hfree (key, row) List.mem_cons_self)
        obtain ⟨result, s, hreplay, hall, hnotall, hpolicy, hfind⟩ := ih { c with store := s₁ }
          (restored + 1) hascending.of_cons fun e he => by
            rw [hfind₁, if_neg (hapart e he)]
            exact hfree e (List.mem_cons_of_mem _ he)
        refine ⟨result, s, ?_, fun h => ?_, fun h => ?_, hpolicy.trans hpolicy₁, fun k => ?_⟩
        · rw [replay, hrestore]
          exact hreplay
        · rw [hall (List.cons.inj h).2, List.length_cons, Nat.add_right_comm, Nat.add_assoc]
        · exact hnotall fun heq => h (by rw [heq])
        · rw [hfind k, ByteMap.seek, hpolicy₁, hfind₁ k]
          by_cases hk : k = key
          · rw [if_pos hk, if_pos hk, hk, hseek]
            rfl
          · rw [if_neg hk, if_neg hk]

/-! ### Purging -/

/-- Purging a row without time left erases it, and counts it since it was there. -/
theorem purge_over {c : Cache} {now : Millis} {key : Bytes} {row : Row}
    (hover : row.isLive now = false) (hsound : c.backing.Sound c.config.backend)
    (hrow : c.backing.row? c.config.backend key = some row) (report : RecoveryReport) :
    ∃ b, c.purge now report (key, row) =
        ({ report with purged := report.purged + 1 }, { c with backing := b }) ∧
      b = (c.backing.perform now c.config.backend (.erase key)).2 := by
  obtain ⟨backend, hbackend, hfind⟩ := Option.bind_eq_some_iff.1 hrow
  obtain ⟨kept, event, hperform, -⟩ := Backing.perform_inv hsound hbackend now (.erase key)
  have herased : (backend.table.erase key).1 = true := by
    rw [Table.erase_fst, hfind]
    rfl
  refine ⟨_, ?_, rfl⟩
  rw [hperform]
  have herase : c.backing.erase c.config.backend key = _ := hperform
  unfold purge
  rw [Row.remaining?_of_over hover]
  dsimp only
  rw [herase, Job.answer, herased]
  rfl

/-- Purging erases the rows without time left, and no others. -/
theorem purge_inv (now : Millis) (rows : List (Bytes × Row)) : ∀ (c : Cache)
    (report : RecoveryReport), Ascending rows → c.backing.Sound c.config.backend →
    (∀ e ∈ rows, c.backing.row? c.config.backend e.1 = some e.2) →
    ∃ b, rows.foldl (fun (report, c) entry => purge c now report entry) (report, c) =
        ({ report with
            purged := report.purged + (rows.filter fun e => !e.2.isLive now).length },
          { c with backing := b }) ∧
      b.Sound c.config.backend ∧ b.worker = c.backing.worker ∧
      (∀ kind, b.has kind = c.backing.has kind) ∧
      ∀ key, b.row? c.config.backend key =
        if (ByteMap.seek key rows).any (fun row => !row.isLive now) then none
        else c.backing.row? c.config.backend key := by
  -- Erasing a row leaves the rows that are still to come, since their keys are others.
  induction rows with
  | nil =>
    exact fun c report _ hsound _ => ⟨c.backing, rfl, hsound, rfl, fun _ => rfl, fun _ => rfl⟩
  | cons first rest ih =>
    obtain ⟨key, row⟩ := first
    intro c report hascending hsound hrows
    have hrow : c.backing.row? c.config.backend key = some row :=
      hrows (key, row) List.mem_cons_self
    have hseek : ByteMap.seek key rest = none := ByteMap.seek_rest hascending
    rw [List.foldl_cons]
    dsimp only
    cases hlive : row.isLive now with
    | true =>
      obtain ⟨left, hleft⟩ : ∃ left, row.remaining? now = some left :=
        ⟨_, Row.remaining?_of_live hlive⟩
      obtain ⟨b, hfold, hb, hworker, hhas, hfind⟩ := ih c report hascending.of_cons hsound
        fun e he => hrows e (List.mem_cons_of_mem _ he)
      refine ⟨b, ?_, hb, hworker, hhas, fun k => ?_⟩
      · rw [List.filter_cons_of_neg (by simp [hlive]), purge, hleft]
        exact hfold
      · rw [hfind k, ByteMap.seek]
        by_cases hk : k = key
        · rw [if_pos hk, hk, hseek]
          simp [hlive]
        · rw [if_neg hk]
    | false =>
      obtain ⟨b₁, hpurge, hb₁⟩ := purge_over hlive hsound hrow report
      have hhas₁ : c.backing.has c.config.backend = true := by
        obtain ⟨backend, hbackend, -⟩ := Option.bind_eq_some_iff.1 hrow
        rw [Backing.has, hbackend]
        rfl
      have hrow₁ : ∀ k, b₁.row? c.config.backend k =
          if k = key then none else c.backing.row? c.config.backend k := by
        intro k
        rw [hb₁, Backing.row?_perform hsound hhas₁]
        rfl
      obtain ⟨b, hfold, hb, hworker, hhas, hfind⟩ := ih { c with backing := b₁ }
        { report with purged := report.purged + 1 } hascending.of_cons
        (hb₁ ▸ hsound.perform now c.config.backend _) fun e he => by
          rw [hrow₁, if_neg (hascending.ne_of_mem he)]
          exact hrows e (List.mem_cons_of_mem _ he)
      refine ⟨b, ?_, hb, ?_, fun kind => ?_, fun k => ?_⟩
      · rw [hpurge, List.filter_cons_of_pos (by simp [hlive]), List.length_cons, hfold]
        simp only [Nat.add_assoc, Nat.add_comm 1]
      · rw [hworker]
        show b₁.worker = _
        rw [hb₁, Backing.worker_perform]
      · rw [hhas kind]
        show b₁.has kind = _
        rw [hb₁, Backing.has_perform]
      · rw [hfind k, hrow₁ k, ByteMap.seek]
        by_cases hk : k = key
        · rw [if_pos hk, if_pos hk, hk, hseek]
          simp [hlive]
        · rw [if_neg hk, if_neg hk]

/-- Purging touches neither the store nor what is said of the restoring, whatever backends do. -/
theorem purge_frame (now : Millis) (rows : List (Bytes × Row)) : ∀ (c : Cache)
    (report : RecoveryReport), ∃ purged b,
      rows.foldl (fun (report, c) entry => purge c now report entry) (report, c) =
        ({ report with purged := purged }, { c with backing := b }) := by
  induction rows with
  | nil => exact fun c report => ⟨report.purged, c.backing, rfl⟩
  | cons entry rest ih =>
    intro c report
    obtain ⟨purged₁, b₁, hpurge⟩ : ∃ purged b, c.purge now report entry =
        ({ report with purged := purged }, { c with backing := b }) := by
      unfold purge
      cases entry.2.remaining? now with
      | some _ => exact ⟨report.purged, c.backing, rfl⟩
      | none => exact ⟨_, _, rfl⟩
    obtain ⟨purged, b, hrest⟩ := ih { c with backing := b₁ } { report with purged := purged₁ }
    refine ⟨purged, b, ?_⟩
    rw [List.foldl_cons]
    dsimp only
    rw [hpurge]
    exact hrest

/-! ### Starting again -/

/-- Starting again restores the rows that can be restored, and goes on to purge. All rows with time
left are counted, or none, and then the listener has failed. -/
theorem relaunch_eq {c : Cache} {rows : List (Bytes × Row)} (now : Millis)
    (hpersistent : c.config.persistent = true) (hreplay : c.listeners.recovery = [.replay])
    (hrows : c.backing.rows c.config.backend = .ok rows) :
    ∃ restored failed s,
      (let purged := rows.foldl (fun (report, c) entry => purge c now report entry)
        ({ enumerated := rows.length, restored := restored, failed := failed },
          { c with store := s })
      c.relaunch now = (.ok purged.1, purged.2)) ∧
      (restorable now rows = left now rows →
        restored = (left now rows).length ∧ failed = 0) ∧
      (restorable now rows ≠ left now rows → restored = 0 ∧ failed = 1) ∧
      s.policy = c.config.policy ∧
      ∀ key, s.entries.find? key =
        (ByteMap.seek key (restorable now rows)).map (·.entry now c.config.policy) := by
  obtain ⟨result, s, hreplayed, hall, hnotall, hpolicy, hfind⟩ := replay_inv now rows
    { c with store := Store.new c.config.policy } 0 (Backing.rows_ascending hrows) fun _ _ => rfl
  -- What the report says of the replay.
  obtain ⟨restored, failed, hoffer, hcount, hfailed⟩ : ∃ restored failed,
      offer { c with store := Store.new c.config.policy } now rows
          { enumerated := rows.length } .replay =
        ({ enumerated := rows.length, restored := restored, failed := failed },
          { c with store := s }) ∧
      (restorable now rows = left now rows → restored = (left now rows).length ∧ failed = 0) ∧
      (restorable now rows ≠ left now rows → restored = 0 ∧ failed = 1) := by
    by_cases hwhole : restorable now rows = left now rows
    · refine ⟨(left now rows).length, 0, ?_, fun _ => ⟨rfl, rfl⟩, fun h => absurd hwhole h⟩
      unfold offer
      rw [hreplayed, hall hwhole]
      simp only [Nat.zero_add]
    · obtain ⟨refusal, hresult⟩ := hnotall hwhole
      refine ⟨0, 1, ?_, fun h => absurd h hwhole, fun _ => ⟨rfl, rfl⟩⟩
      unfold offer
      rw [hreplayed, hresult]
  refine ⟨restored, failed, s, ?_, hcount, hfailed, hpolicy, fun key => ?_⟩
  · unfold relaunch recover
    rw [if_pos hpersistent, hrows]
    dsimp only
    rw [hreplay, List.foldl_cons, List.foldl_nil]
    dsimp only
    rw [hoffer]
  · rw [hfind key]
    exact Option.or_none

/-- Where no call of a backend fails, starting again erases the rows without time left besides. -/
theorem relaunch_rows {c : Cache} {rows : List (Bytes × Row)} (now : Millis)
    (hpersistent : c.config.persistent = true) (hreplay : c.listeners.recovery = [.replay])
    (hsound : c.backing.Sound c.config.backend)
    (hrows : c.backing.rows c.config.backend = .ok rows) :
    ∃ restored failed s b, c.relaunch now =
        (.ok
          { enumerated := rows.length
            restored := restored
            purged := (rows.filter fun e => !e.2.isLive now).length
            failed := failed },
          { c with store := s, backing := b }) ∧
      (restorable now rows = left now rows →
        restored = (left now rows).length ∧ failed = 0) ∧
      s.policy = c.config.policy ∧
      (∀ key, s.entries.find? key =
        (ByteMap.seek key (restorable now rows)).map (·.entry now c.config.policy)) ∧
      b.Sound c.config.backend ∧ b.worker = c.backing.worker ∧
      (∀ kind, b.has kind = c.backing.has kind) ∧
      b.rows c.config.backend = .ok (left now rows) := by
  have hascending := Backing.rows_ascending hrows
  obtain ⟨restored, failed, s, hrelaunch, hcount, -, hpolicy, hfind⟩ :=
    relaunch_eq now hpersistent hreplay hrows
  obtain ⟨b, hpurged, hb, hworker, hhas, hrow⟩ := purge_inv now rows { c with store := s }
    { enumerated := rows.length, restored := restored, failed := failed }
    hascending hsound fun e he => (Backing.mem_rows_iff hrows).1 he
  refine ⟨restored, failed, s, b, ?_, hcount, hpolicy, hfind, hb, hworker, hhas, ?_⟩
  · dsimp only at hrelaunch
    rw [hrelaunch, hpurged]
    simp only [Nat.zero_add]
  · refine Backing.rows_of_row? hb ?_ (hascending.filter _) fun key => ?_
    · rw [hhas]
      exact Backing.has_of_rows hrows
    · have hfilter := ByteMap.seek_filter (fun _ row => row.isLive now) hascending key
      rw [hrow key, left, hfilter]
      show (if _ then none else c.backing.row? c.config.backend key) = _
      rw [Backing.row?_of_rows hrows]
      cases ByteMap.seek key rows with
      | none => rfl
      | some row => cases hlive : row.isLive now <;> simp [Option.filter, hlive]

/-- What a process that starts again finds in its store if the store takes every row: an entry for
each row with time left. -/
def recovered (c : Cache) (now : Millis) (key : Bytes) : Option Entry :=
  ((c.backing.row? c.config.backend key).filter (·.isLive now)).map (·.entry now c.config.policy)

/-- Starting again restores the rows with time left and erases the others, if the store takes all
of them. -/
theorem relaunch_inv {c : Cache} {rows : List (Bytes × Row)} (now : Millis)
    (hpersistent : c.config.persistent = true) (hreplay : c.listeners.recovery = [.replay])
    (hsound : c.backing.Sound c.config.backend) (hrows : c.backing.rows c.config.backend = .ok rows)
    (haccepted : ∀ e ∈ rows, Store.refusal? e.1 e.2.value = none) :
    ∃ s b, c.relaunch now =
        (.ok
          { enumerated := rows.length
            restored := (rows.filter fun e => e.2.isLive now).length
            purged := (rows.filter fun e => !e.2.isLive now).length
            failed := 0 },
          { c with store := s, backing := b }) ∧
      s.policy = c.config.policy ∧ (∀ key, s.entries.find? key = c.recovered now key) ∧
      b.Sound c.config.backend ∧ b.worker = c.backing.worker ∧
      (∀ kind, b.has kind = c.backing.has kind) ∧
      b.rows c.config.backend = .ok (rows.filter fun e => e.2.isLive now) := by
  obtain ⟨restored, failed, s, b, hrelaunch, hwhole, hpolicy, hfind, hleft⟩ :=
    relaunch_rows now hpersistent hreplay hsound hrows
  have hall : restorable now rows = left now rows :=
    restorable_eq_left_iff.2 fun e he => haccepted e (List.mem_filter.1 he).1
  obtain ⟨rfl, rfl⟩ := hwhole hall
  refine ⟨s, b, hrelaunch, hpolicy, fun key => ?_, hleft⟩
  have hfilter := ByteMap.seek_filter (fun _ row => row.isLive now)
    (Backing.rows_ascending hrows) key
  rw [hfind key, hall, recovered, Backing.row?_of_rows hrows, left, hfilter]

theorem recovered_of_live {c : Cache} {now : Millis} {key : Bytes} {row : Row}
    (hrow : c.backing.row? c.config.backend key = some row) (hlive : row.isLive now = true) :
    c.recovered now key = some (row.entry now c.config.policy) := by
  unfold recovered
  rw [hrow]
  simp [Option.filter, hlive]

/-- A row with time left comes back as a live entry with the end of the row, if the store takes
every row. -/
theorem live?_relaunch {c : Cache} {rows : List (Bytes × Row)} (now : Millis)
    (hpersistent : c.config.persistent = true) (hreplay : c.listeners.recovery = [.replay])
    (hsound : c.backing.Sound c.config.backend) (hrows : c.backing.rows c.config.backend = .ok rows)
    (haccepted : ∀ e ∈ rows, Store.refusal? e.1 e.2.value = none) {key : Bytes} {row : Row}
    (hrow : c.backing.row? c.config.backend key = some row) (hlive : row.isLive now = true)
    (hlatest : row.expiresAt ≤ Clock.latest) :
    (c.relaunch now).2.store.live? now key = some (row.entry now c.config.policy) ∧
      (row.entry now c.config.policy).expiresAt = row.expiresAt := by
  obtain ⟨s, b, hrelaunch, -, hfind, -⟩ :=
    relaunch_inv now hpersistent hreplay hsound hrows haccepted
  have hback : s.entries.find? key = some (row.entry now c.config.policy) :=
    (hfind key).trans (recovered_of_live hrow hlive)
  rw [hrelaunch]
  exact ⟨(Row.live?_entry hlive hlatest hback).1, Row.expiresAt_entry _ hlive hlatest⟩

end Cache

end ExpiringCache
