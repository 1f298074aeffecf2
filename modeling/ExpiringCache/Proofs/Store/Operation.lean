import ExpiringCache.Proofs.Store.Agree

/-!
# Operations one after another

The operations of a store as data, so that histories of a store are lists. What an operation does
is known key by key: which keys it looks at (`Operation.Looks`), and what such a key holds
afterwards, by its live entry (`Operation.next`). `Store.operate_acts` says so for all operations
at once; the rest of the module is what a history leads to.
-/

namespace ExpiringCache

namespace Store

/-- An operation with its arguments. -/
inductive Operation where
  | put (key value : Bytes) (ttl : Duration)
  | putIfAbsent (key value : Bytes) (ttl : Duration)
  | restore (key value : Bytes) (writtenTtl remaining : Duration)
  | replace (key value : Bytes)
  | get (key : Bytes)
  | peek (key : Bytes)
  | contains (key : Bytes)
  | ttl (key : Bytes)
  | replaceTtl (key : Bytes) (ttl : Duration)
  | resetTtl (key : Bytes)
  | remove (key : Bytes)
  | removeWhere (test : Bytes → Bool)
  | clear
  | sweep

/-- What an operation answers. -/
inductive Result where
  /-- The live value that was there, or why the value was refused. -/
  | previous (found : Except Refusal (Option Bytes))
  /-- Whether an entry was stored, or why it was refused. -/
  | stored (done : Except Refusal Bool)
  | value (found : Option Bytes)
  | entry (found : Option Entry)
  | left (time : Option Duration)
  | flag (b : Bool)
  | removed (entries : List (Bytes × Bytes))
  | count (n : Nat)

/-- Carries out an operation. -/
def operate (s : Store) (now : Millis) : Operation → Turn Result
  | .put key value ttl => (s.put now key value ttl).map .previous
  | .putIfAbsent key value ttl => (s.putIfAbsent now key value ttl).map .stored
  | .restore key value writtenTtl remaining =>
    (s.restore now key value writtenTtl remaining).map .stored
  | .replace key value => (s.replace now key value).map .previous
  | .get key => (s.get now key).map .value
  | .peek key => (s.peek now key).map .entry
  | .contains key => (s.contains now key).map .flag
  | .ttl key => (s.ttl now key).map .left
  | .replaceTtl key ttl => (s.replaceTtl now key ttl).map .flag
  | .resetTtl key => (s.resetTtl now key).map .flag
  | .remove key => (s.remove now key).map .value
  | .removeWhere test => (s.removeWhere now test).map .removed
  | .clear => (s.clear now).map .count
  | .sweep => (s.sweep now).map .count

namespace Operation

/-- Whether the operation only collects what is expired. -/
def isSweep : Operation → Bool
  | .sweep => true
  | _ => false

/-- The keys an operation looks at. A write that is refused looks at none. -/
def Looks : Operation → Bytes → Prop
  | .put key value _, k | .putIfAbsent key value _, k | .restore key value _ _, k
  | .replace key value, k => refusal? key value = none ∧ k = key
  | .get key, k | .peek key, k | .contains key, k | .ttl key, k | .replaceTtl key _, k
  | .resetTtl key, k | .remove key, k => k = key
  | .removeWhere _, _ | .clear, _ | .sweep, _ => True

/-- What a key that is looked at holds afterwards, by its live entry. -/
def next (policy : ExpiryPolicy) (now : Millis) : Operation → Bytes → Option Entry → Option Entry
  | .put _ value lifetime, _, _ => some (Entry.fresh now value lifetime policy)
  | .putIfAbsent _ value lifetime, _, live =>
    some (live.getD (Entry.fresh now value lifetime policy))
  | .restore _ value writtenTtl remaining, _, live =>
    some (live.getD (Entry.restored now value writtenTtl remaining policy))
  | .replace _ value, _, live => live.map (·.replaceValue value)
  | .get _, _, live => live.map (·.touch now)
  | .replaceTtl _ lifetime, _, live => live.map (·.replaceTtl now lifetime)
  | .resetTtl _, _, live => live.map (·.resetTtl now)
  | .peek _, _, live | .contains _, _, live | .ttl _, _, live | .sweep, _, live => live
  | .removeWhere test, key, live => live.filter fun _ => !test key
  | .remove _, _, _ | .clear, _, _ => none

end Operation

variable {s s' : Store} {now : Millis}

/-! ### One operation -/

/-- A write looks at its key, unless it is refused. -/
theorem acts_write {α : Type} {key value : Bytes} {next : Bytes → Option Entry → Option Entry}
    {t : Turn α} (hrefused : ∀ refusal, refusal? key value = some refusal →
      ∃ answer, t = s.idle answer)
    (haccepted : refusal? key value = none → s.Acts now (· = key) next t) :
    s.Acts now (fun k => refusal? key value = none ∧ k = key) next t := by
  cases hrefusal : refusal? key value with
  | none => simpa using haccepted hrefusal
  | some refusal =>
    obtain ⟨answer, rfl⟩ := hrefused refusal hrefusal
    have hidle : s.Acts now (fun _ => False) next (s.idle answer) := acts_idle next answer
    simpa using hidle

theorem insertAbsent_acts_write (key : Bytes) (entry : Entry) :
    s.Acts now (fun k => refusal? key entry.value = none ∧ k = key)
      (fun _ live => some (live.getD entry)) (s.insertAbsent now key entry) :=
  acts_write (fun _ h => ⟨_, insertAbsent_refused h⟩) insertAbsent_acts

/-- Every operation does to the keys it looks at what it makes of their live entries. -/
theorem operate_acts (s : Store) (now : Millis) (op : Operation) :
    s.Acts now op.Looks (op.next s.policy now) (s.operate now op) := by
  cases op with
  | put key value ttl =>
    exact (acts_write (fun _ h => ⟨_, put_refused h ttl⟩) fun h => put_acts h ttl).map _
  | putIfAbsent key value ttl =>
    exact (insertAbsent_acts_write key (Entry.fresh now value ttl s.policy)).map _
  | restore key value writtenTtl remaining =>
    exact (insertAbsent_acts_write key
      (Entry.restored now value writtenTtl remaining s.policy)).map _
  | replace key value =>
    exact (acts_write (fun _ h => ⟨_, replace_refused h⟩) fun h => replace_acts h).map _
  | get key => exact get_acts.map _
  | peek key => exact peek_acts.map _
  | contains key => exact contains_acts.map _
  | ttl key => exact ttl_acts.map _
  | replaceTtl key ttl => exact (change_acts _).map _
  | resetTtl key => exact (change_acts _).map _
  | remove key => exact remove_acts.map _
  | removeWhere test => exact (removeWhere_acts test).map _
  | clear => exact clear_acts.map _
  | sweep => exact sweep_acts.map _

/-- Stores that agree answer every operation but a sweep alike, and agree afterwards. -/
theorem Agree.operate (h : Agree now s s') {op : Operation} (hop : op.isSweep = false) :
    Alike now (s.operate now op) (s'.operate now op) := by
  cases op with
  | put key value ttl => exact (h.put key value ttl).map _
  | putIfAbsent key value ttl =>
    simp only [Store.operate, Store.putIfAbsent, h.policy]
    exact (h.insertAbsent key _).map _
  | restore key value writtenTtl remaining =>
    simp only [Store.operate, Store.restore, h.policy]
    exact (h.insertAbsent key _).map _
  | replace key value => exact (h.replace key value).map _
  | get key => exact (h.get key).map _
  | peek key => exact (h.peek key).map _
  | contains key => exact (h.contains key).map _
  | ttl key => exact (h.ttl key).map _
  | replaceTtl key ttl => exact (h.change key _).map _
  | resetTtl key => exact (h.change key _).map _
  | remove key => exact (h.remove key).map _
  | removeWhere test => exact (h.removeWhere test).map _
  | clear => exact h.clear.map _
  | sweep => cases hop

/-! ### Reports -/

/-- The entries of a map have different keys. -/
theorem nodup_keys {α : Type} (m : ByteMap α) : m.keys.Nodup := by
  refine List.pairwise_map.2 (m.ascending.imp fun {a b} hlt heq => ?_)
  rw [heq] at hlt
  exact List.lt_irrefl _ hlt

theorem mem_keys {α : Type} {m : ByteMap α} {key : Bytes} :
    key ∈ m.keys ↔ ∃ value, m.find? key = some value := by
  simp [ByteMap.keys, ← ByteMap.mem_entries_iff]

/-- What is to be reported of a key is its entry, if it is expired. -/
theorem mem_due {key : Bytes} {entry : Bytes × Bytes} :
    entry ∈ s.due now key ↔
      ∃ e, s.entries.find? key = some e ∧ e.isExpiredAt now = true ∧ entry = (key, e.value) := by
  unfold due
  cases s.entries.find? key with
  | none => simp
  | some e => cases hexp : e.isExpiredAt now <;> simp [hexp]

theorem nodup_keys_due (s : Store) (now : Millis) (key : Bytes) :
    ((s.due now key).map (·.1)).Nodup := by
  unfold due
  split
  · split <;> simp
  · exact List.nodup_nil

/-- No key is to be reported twice. -/
theorem nodup_keys_allDue (s : Store) (now : Millis) : ((s.allDue now).map (·.1)).Nodup := by
  have hkeys : (s.allDue now).map (·.1) =
      (s.entries.entries.filter fun entry => entry.2.isExpiredAt now).map (·.1) := by
    rw [allDue, List.map_map]
    rfl
  rw [hkeys]
  exact (nodup_keys s.entries).sublist (List.filter_sublist.map _)

/-- No operation reports a key twice: it reports nothing, what is due of its key, or everything
that is due. -/
theorem nodup_operate_expired (s : Store) (now : Millis) (op : Operation) :
    ((s.operate now op).expired.map (·.1)).Nodup := by
  cases op <;>
    simp only [operate, Turn.map, put, putIfAbsent, restore, insertAbsent, replace, get, peek,
      contains, Store.ttl, replaceTtl, resetTtl, change, remove, removeWhere, clear, sweep] <;>
    (repeat' split) <;>
    simp [idle, settleWithout, nodup_keys_due, nodup_keys_allDue]

/-! ### Histories -/

/-- The store after operations, each at a reading of the clock. -/
def after (s : Store) : List (Millis × Operation) → Store
  | [] => s
  | step :: rest => (s.operate step.1 step.2).store.after rest

/-- The entries that operations report as expired, in order. -/
def reported (s : Store) : List (Millis × Operation) → List (Bytes × Bytes)
  | [] => []
  | step :: rest =>
    (s.operate step.1 step.2).expired ++ (s.operate step.1 step.2).store.reported rest

end Store

end ExpiringCache
