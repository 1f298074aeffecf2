import ExpiringCache.Proofs.Store.Acts

/-!
# Stores that agree

Two stores *agree* at a reading of the clock if the same entries are live in both and the same
reads were counted. An operation answers the same on them and leaves them in agreement, now and at
any later reading: expired entries that nobody has come upon yet are not seen.
-/

namespace ExpiringCache

/-- What is counted of reads: those that found a live entry, and those that did not. -/
def Stats.reads (s : Stats) : Nat × Nat := (s.hits, s.misses)

theorem Stats.reads_hit (s : Stats) : s.hit.reads = (s.reads.1 + 1, s.reads.2) := rfl

theorem Stats.reads_miss (s : Stats) : s.miss.reads = (s.reads.1, s.reads.2 + 1) := rfl

namespace Store

variable {α β : Type} {s s' : Store} {now : Millis} {key : Bytes} {on : Bytes → Prop}
  {next : Bytes → Option Entry → Option Entry} {t u : Turn α}

/-- The same entries are live in both stores, and the same reads were counted. -/
structure Agree (now : Millis) (s s' : Store) : Prop where
  policy : s.policy = s'.policy
  reads : s.stats.reads = s'.stats.reads
  live? : ∀ key, s.live? now key = s'.live? now key

theorem Agree.refl (now : Millis) (s : Store) : Agree now s s := ⟨rfl, rfl, fun _ => rfl⟩

theorem Agree.trans {s'' : Store} (h : Agree now s s') (h' : Agree now s' s'') :
    Agree now s s'' :=
  ⟨h.policy.trans h'.policy, h.reads.trans h'.reads, fun key => (h.live? key).trans (h'.live? key)⟩

theorem Agree.later {later : Millis} (h : Agree now s s') (hle : now ≤ later) :
    Agree later s s' :=
  ⟨h.policy, h.reads, fun key => by rw [live?_later hle, live?_later hle, h.live? key]⟩

theorem Agree.living (h : Agree now s s') : s.living now = s'.living now :=
  ByteMap.ext_find? fun key => by rw [find?_living, find?_living, h.live? key]

/-- Operations that do the same to live entries leave stores in agreement. -/
theorem Agree.after (h : Agree now s s') (ht : s.Acts now on next t) (hu : s'.Acts now on next u)
    (hreads : t.store.stats.reads = u.store.stats.reads) : Agree now t.store u.store where
  policy := by rw [ht.policy, hu.policy, h.policy]
  reads := hreads
  live? key := by
    by_cases hon : on key
    · unfold Store.live?
      rw [ht.inside key hon, hu.inside key hon, h.live? key]
    · have hlive := h.live? key
      unfold Store.live? at hlive ⊢
      rw [ht.outside key hon, hu.outside key hon, hlive]

/-- The turns have the same answer and leave stores in agreement. -/
structure Alike (now : Millis) (t u : Turn α) : Prop where
  answer : t.answer = u.answer
  store : Agree now t.store u.store

theorem Alike.map (h : Alike now t u) (f : α → β) : Alike now (t.map f) (u.map f) :=
  ⟨congrArg f h.answer, h.store⟩

theorem Alike.answering (h : Alike now t u) (f : α → Answer) :
    Alike now (t.answering f) (u.answering f) := h.map _

theorem Agree.idle (h : Agree now s s') (answer : α) : Alike now (s.idle answer) (s'.idle answer) :=
  ⟨rfl, h⟩

/-- What an operation counts depends on what it finds live and on what was counted before. -/
theorem reads_settle (expired : List (Bytes × Bytes)) (entries : ByteMap Entry) (stats : Stats)
    (answer : α) : (s.settle expired entries stats answer).store.stats.reads = stats.reads := rfl

theorem Agree.put (h : Agree now s s') (key value : Bytes) (ttl : Duration) :
    Alike now (s.put now key value ttl) (s'.put now key value ttl) := by
  cases hrefusal : refusal? key value with
  | some refusal =>
    rw [put_refused hrefusal, put_refused hrefusal]
    exact h.idle _
  | none =>
    have hacts : s.Acts now (· = key) (fun _ _ => some (Entry.fresh now value ttl s'.policy))
        (s.put now key value ttl) := by
      rw [← h.policy]
      exact put_acts hrefusal ttl
    refine ⟨?_, h.after hacts (put_acts hrefusal ttl) ?_⟩
    · simp only [Store.put, hrefusal, settle_answer, h.live? key]
    · simp only [Store.put, hrefusal, reads_settle, h.reads]

theorem Agree.insertAbsent (h : Agree now s s') (key : Bytes) (entry : Entry) :
    Alike now (s.insertAbsent now key entry) (s'.insertAbsent now key entry) := by
  cases hrefusal : refusal? key entry.value with
  | some refusal =>
    rw [insertAbsent_refused hrefusal, insertAbsent_refused hrefusal]
    exact h.idle _
  | none =>
    refine ⟨?_, h.after (insertAbsent_acts hrefusal) (insertAbsent_acts hrefusal) ?_⟩
    · rw [insertAbsent_answer hrefusal, insertAbsent_answer hrefusal, h.live? key]
    · simp only [Store.insertAbsent, hrefusal, h.live? key]
      cases s'.live? now key <;> exact h.reads

theorem Agree.replace (h : Agree now s s') (key value : Bytes) :
    Alike now (s.replace now key value) (s'.replace now key value) := by
  cases hrefusal : refusal? key value with
  | some refusal =>
    rw [replace_refused hrefusal, replace_refused hrefusal]
    exact h.idle _
  | none =>
    refine ⟨?_, h.after (replace_acts hrefusal) (replace_acts hrefusal) ?_⟩
    · rw [replace_answer hrefusal, replace_answer hrefusal, h.live? key]
    · simp only [Store.replace, hrefusal, h.live? key]
      cases s'.live? now key <;> exact h.reads

theorem Agree.get (h : Agree now s s') (key : Bytes) :
    Alike now (s.get now key) (s'.get now key) := by
  refine ⟨by rw [get_answer, get_answer, h.live? key], h.after get_acts get_acts ?_⟩
  unfold Store.get
  rw [h.live? key]
  cases s'.live? now key with
  | some e => rw [reads_settle, reads_settle, Stats.reads_hit, Stats.reads_hit, h.reads]
  | none => rw [reads_settle, reads_settle, Stats.reads_miss, Stats.reads_miss, h.reads]

theorem Agree.peek (h : Agree now s s') (key : Bytes) :
    Alike now (s.peek now key) (s'.peek now key) := by
  refine ⟨by rw [peek_answer, peek_answer, h.live? key], h.after peek_acts peek_acts ?_⟩
  unfold Store.peek
  rw [h.live? key]
  cases s'.live? now key <;> exact h.reads

theorem Agree.contains (h : Agree now s s') (key : Bytes) :
    Alike now (s.contains now key) (s'.contains now key) := by
  refine ⟨by rw [contains_answer, contains_answer, h.live? key],
    h.after contains_acts contains_acts ?_⟩
  unfold Store.contains
  rw [h.live? key]
  cases s'.live? now key <;> exact h.reads

theorem Agree.ttl (h : Agree now s s') (key : Bytes) :
    Alike now (s.ttl now key) (s'.ttl now key) := by
  refine ⟨by rw [ttl_answer, ttl_answer, h.live? key], h.after ttl_acts ttl_acts ?_⟩
  unfold Store.ttl
  rw [h.live? key]
  cases s'.live? now key <;> exact h.reads

theorem Agree.change (h : Agree now s s') (key : Bytes) (f : Entry → Entry) :
    Alike now (s.change now key f) (s'.change now key f) := by
  refine ⟨by rw [change_answer, change_answer, h.live? key],
    h.after (change_acts f) (change_acts f) ?_⟩
  unfold Store.change
  rw [h.live? key]
  cases s'.live? now key <;> exact h.reads

theorem Agree.remove (h : Agree now s s') (key : Bytes) :
    Alike now (s.remove now key) (s'.remove now key) :=
  ⟨by rw [remove_answer, remove_answer, h.live? key], h.after remove_acts remove_acts h.reads⟩

theorem Agree.removeWhere (h : Agree now s s') (test : Bytes → Bool) :
    Alike now (s.removeWhere now test) (s'.removeWhere now test) :=
  ⟨by rw [removeWhere_answer, removeWhere_answer, h.living],
    h.after (removeWhere_acts test) (removeWhere_acts test) h.reads⟩

theorem Agree.clear (h : Agree now s s') : Alike now (s.clear now) (s'.clear now) :=
  ⟨by rw [clear_answer, clear_answer, h.living], h.after clear_acts clear_acts h.reads⟩

/-- A sweep may report more in one store than in the other, but leaves them in agreement. -/
theorem Agree.sweep (h : Agree now s s') : Agree now (s.sweep now).store (s'.sweep now).store :=
  h.after sweep_acts sweep_acts h.reads

end Store

end ExpiringCache
