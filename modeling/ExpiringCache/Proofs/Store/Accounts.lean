import ExpiringCache.Proofs.Store.Lives
import ExpiringCache.Proofs.Store.Operation

/-!
# What operations tell

Callers learn from answers which entries were stored, handed back or counted, and from reports
which were expired (`Operation.gain`, `Operation.gone`). That is what happens to the entries of the
store: a live entry of a key that is looked at leaves as `Operation.hands` says, or stays, and
`mem_handed` finds just those that leave in the answer. What is expired is reported
(`Acts.expired`). And what a key holds in the end is what stayed, or what the operation took in
(`gain_next`).
-/

namespace ExpiringCache

namespace Store

namespace Operation

/-! ### What answers tell -/

/-- What the store took in. -/
def gain : Operation → Result → Gain
  | .put key value _, .previous (.ok _) => .entry key value
  | .putIfAbsent key value _, .stored (.ok true) | .restore key value _ _, .stored (.ok true) =>
    .entry key value
  | .replace key value, .previous (.ok (some _)) => .value key value
  | _, _ => .nothing

/-- The entries that were handed back or counted. To clear the store says how many there were, not
which; they are those thought in force (`keys`) that are not reported as expired. -/
def handed (op : Operation) (t : Turn Result) (keys : List Bytes) : List (Bytes × Ending) :=
  match op, t.answer with
  | .put key _ _, .previous (.ok (some value)) => [(key, .overwritten value)]
  | .remove key, .value (some value) => [(key, .removed value)]
  | .removeWhere _, .removed entries => entries.map fun entry => (entry.1, .removed entry.2)
  | .clear, .count _ =>
    (keys.filter fun key => !t.expired.any (·.1 == key)).map fun key => (key, .counted)
  | _, _ => []

/-- The entries that left the store: those reported, and those handed back or counted. -/
def gone (op : Operation) (t : Turn Result) (keys : List Bytes) : List (Bytes × Ending) :=
  t.expired.map (fun entry => (entry.1, .reported entry.2)) ++ op.handed t keys

/-- How many entries were cleared. -/
def cleared : Operation → Result → Nat
  | .clear, .count n => n
  | _, _ => 0

/-- Whether a read found a live entry. -/
def hits : Operation → Result → Nat
  | .get _, .value (some _) => 1
  | _, _ => 0

/-- Whether a read found none. -/
def misses : Operation → Result → Nat
  | .get _, .value none => 1
  | _, _ => 0

/-- How a live entry of a key that is looked at leaves the store, if it does. -/
def hands : Operation → Bytes → Entry → Option Ending
  | .put _ _ _, _, e => some (.overwritten e.value)
  | .remove _, _, e => some (.removed e.value)
  | .removeWhere test, key, e => if test key then some (.removed e.value) else none
  | .clear, _, _ => some .counted
  | _, _, _ => none

/-- The live entry of a key that is looked at, unless it leaves the store. -/
def stay (op : Operation) (key : Bytes) (live : Option Entry) : Option Entry :=
  live.filter fun e => (op.hands key e).isNone

end Operation

variable {s : Store} {now : Millis} {key : Bytes} {op : Operation} {keys : List Bytes}

theorem put_answer {value : Bytes} (h : refusal? key value = none) (ttl : Duration) :
    (s.put now key value ttl).answer = .ok ((s.live? now key).map (·.value)) := by
  simp only [put, h, settle_answer]

theorem cleared_of_ne (h : op ≠ .clear) (answer : Result) : op.cleared answer = 0 := by
  cases op <;> first | rfl | exact absurd rfl h

/-! ### Entries that are handed back -/

/-- An entry leaves with its value, or is counted. -/
theorem hands_eq_some {e : Entry} {ending : Ending} (h : op.hands key e = some ending) :
    ending = .overwritten e.value ∨ ending = .removed e.value ∨ ending = .counted := by
  cases op with
  | put | remove | clear => simp_all [Operation.hands]
  | removeWhere test =>
    cases htest : test key <;> simp_all [Operation.hands]
  | putIfAbsent | restore | replace | get | peek | contains | ttl | replaceTtl | resetTtl | sweep =>
    cases h

/-- Entries are counted only when everything is removed. -/
theorem eq_clear_of_hands {e : Entry} {ending : Ending} (h : op.hands key e = some ending)
    (hcount : ending.isCount = true) : op = .clear := by
  cases op with
  | clear => rfl
  | put | remove =>
    rw [← Option.some.inj h] at hcount
    cases hcount
  | removeWhere test =>
    obtain ⟨-, hremoved⟩ := Option.ite_none_right_eq_some.1 h
    rw [← Option.some.inj hremoved] at hcount
    cases hcount
  | putIfAbsent | restore | replace | get | peek | contains | ttl | replaceTtl | resetTtl | sweep =>
    cases h

theorem handed_removeWhere (s : Store) (now : Millis) (test : Bytes → Bool) (keys : List Bytes) :
    Operation.handed (.removeWhere test) (s.operate now (.removeWhere test)) keys =
      ((s.living now).entries.filter fun entry => test entry.1).map fun entry =>
        (entry.1, .removed entry.2.value) := by
  simp only [Operation.handed, operate, Turn.map, removeWhere_answer, List.map_map,
    Function.comp_def]

theorem handed_clear (s : Store) (now : Millis) (keys : List Bytes) :
    Operation.handed .clear (s.operate now .clear) keys =
      (keys.filter fun key => !(s.clear now).expired.any (·.1 == key)).map
        fun key => (key, .counted) := rfl

/-- The entries that an answer hands back are live ones that leave. -/
theorem mem_handed (hkeys : ∀ key, key ∈ keys ↔ ∃ e, s.entries.find? key = some e)
    (g : Bytes × Ending) :
    g ∈ op.handed (s.operate now op) keys ↔
      op.Looks g.1 ∧ ∃ e, s.live? now g.1 = some e ∧ op.hands g.1 e = some g.2 := by
  obtain ⟨k, ending⟩ := g
  cases op with
  | put key value ttl =>
    cases hrefusal : refusal? key value with
    | some refusal =>
      simp [Operation.handed, operate, put_refused hrefusal, idle, Turn.map, Operation.Looks,
        hrefusal]
    | none =>
      simp only [Operation.handed, operate, Turn.map, put_answer hrefusal, Operation.Looks,
        hrefusal, Operation.hands, true_and]
      cases hlive : s.live? now key with
      | none => simp +contextual [hlive]
      | some e => simp +contextual [hlive, eq_comm]
  | remove key =>
    simp only [Operation.handed, operate, Turn.map, remove_answer, Operation.Looks, Operation.hands]
    cases hlive : s.live? now key with
    | none => simp +contextual [hlive]
    | some e => simp +contextual [hlive, eq_comm]
  | removeWhere test =>
    simp only [handed_removeWhere, Operation.hands, Operation.Looks, true_and, List.mem_map,
      List.mem_filter, Prod.mk.injEq, ← find?_living, ← ByteMap.mem_entries_iff]
    constructor
    · rintro ⟨⟨k, e⟩, ⟨hmem, htest⟩, rfl, rfl⟩
      exact ⟨e, hmem, if_pos htest⟩
    · rintro ⟨e, hmem, hhands⟩
      cases htest : test k with
      | false => simp [htest] at hhands
      | true =>
        rw [htest, if_pos rfl] at hhands
        exact ⟨(k, e), ⟨hmem, htest⟩, rfl, Option.some.inj hhands⟩
  | clear =>
    have hdue : ∀ key, (!(s.clear now).expired.any (·.1 == key)) = true ↔
        s.entries.find? key = s.live? now key := by
      intro key
      have hany : (s.clear now).expired.any (·.1 == key) = true ↔
          key ∈ (s.clear now).expired.map (·.1) := by simp
      rw [← due_eq_nil_iff, Bool.not_eq_true', ← Bool.not_eq_true, hany, clear_acts.mem_expired]
      simp
    simp only [handed_clear, Operation.hands, Operation.Looks, true_and, List.mem_map,
      List.mem_filter, hkeys, hdue, Prod.mk.injEq]
    constructor
    · rintro ⟨k, ⟨⟨e, hfind⟩, hlive⟩, rfl, rfl⟩
      exact ⟨e, hlive.symm.trans hfind, rfl⟩
    · rintro ⟨e, hlive, hending⟩
      have hfind := (live?_eq_some_iff.1 hlive).1
      exact ⟨k, ⟨⟨e, hfind⟩, hfind.trans hlive.symm⟩, rfl, Option.some.inj hending⟩
  | putIfAbsent | restore | replace | get | peek | contains | ttl | replaceTtl | resetTtl | sweep =>
    simp [Operation.handed, Operation.hands]

/-- No key is handed back twice. -/
theorem nodup_handed (hkeys : keys.Nodup) :
    ((op.handed (s.operate now op) keys).map (·.1)).Nodup := by
  cases op with
  | put key value ttl | remove key => unfold Operation.handed; split <;> simp_all
  | removeWhere test =>
    rw [handed_removeWhere, List.map_map]
    exact (nodup_keys (s.living now)).sublist (List.filter_sublist.map _)
  | clear =>
    rw [handed_clear, List.map_map]
    exact (List.map_id _).symm ▸ hkeys.filter _
  | putIfAbsent | restore | replace | get | peek | contains | ttl | replaceTtl | resetTtl | sweep =>
    exact List.nodup_nil

/-- What leaves is what was expired and what is handed back, of the keys that are looked at. -/
theorem mem_keys_gone (hkeys : ∀ key, key ∈ keys ↔ ∃ e, s.entries.find? key = some e)
    (key : Bytes) :
    key ∈ (op.gone (s.operate now op) keys).map (·.1) ↔
      op.Looks key ∧ (s.due now key ≠ [] ∨
        ∃ e, s.live? now key = some e ∧ (op.hands key e).isSome) := by
  have hexpired := (operate_acts s now op).mem_expired key
  have hreported : (((s.operate now op).expired.map fun entry =>
      (entry.1, Ending.reported entry.2)).map (·.1)) = (s.operate now op).expired.map (·.1) := by
    rw [List.map_map]
    rfl
  have hhanded : key ∈ (op.handed (s.operate now op) keys).map (·.1) ↔
      op.Looks key ∧ ∃ e, s.live? now key = some e ∧ (op.hands key e).isSome := by
    simp only [List.mem_map, mem_handed hkeys, Option.isSome_iff_exists]
    constructor
    · rintro ⟨⟨k, ending⟩, ⟨hlooks, e, hlive, hhands⟩, rfl⟩
      exact ⟨hlooks, e, hlive, ending, hhands⟩
    · rintro ⟨hlooks, e, hlive, ending, hhands⟩
      exact ⟨(key, ending), ⟨hlooks, e, hlive, hhands⟩, rfl⟩
  rw [Operation.gone, List.map_append, List.mem_append, hreported, hexpired, hhanded]
  exact and_or_left.symm

/-- No key leaves twice: what was expired was not live. -/
theorem nodup_keys_gone (hnodup : keys.Nodup)
    (hkeys : ∀ key, key ∈ keys ↔ ∃ e, s.entries.find? key = some e) :
    ((op.gone (s.operate now op) keys).map (·.1)).Nodup := by
  rw [Operation.gone, List.map_append, List.map_map]
  refine List.nodup_append.2 ⟨nodup_operate_expired s now op, nodup_handed hnodup, ?_⟩
  intro k hk k' hk' heq
  obtain ⟨entry, hentry, rfl⟩ := List.mem_map.1 hk
  obtain ⟨g, hg, rfl⟩ := List.mem_map.1 hk'
  obtain ⟨-, e, hlive, -⟩ := (mem_handed hkeys g).1 hg
  have hdue := (((operate_acts s now op).expired entry).1 hentry).2
  have hnone := live?_eq_none_of_due hdue
  rw [← heq] at hlive
  exact absurd (hlive.symm.trans hnone) (by simp)

/-- Each entry leaves with its value, and by a report if it is due and only then. -/
theorem fits_gone (hkeys : ∀ key, key ∈ keys ↔ ∃ e, s.entries.find? key = some e)
    {g : Bytes × Ending} (hg : g ∈ op.gone (s.operate now op) keys) :
    ∃ e, s.entries.find? g.1 = some e ∧
      Departure.Fits ⟨g.2, now, (s.entries.find? g.1).map Entry.expiresAt⟩ e.value := by
  rcases List.mem_append.1 hg with hreported | hhanded
  · obtain ⟨entry, hentry, rfl⟩ := List.mem_map.1 hreported
    have hdue := (((operate_acts s now op).expired entry).1 hentry).2
    obtain ⟨e, hfind, hexp, hentry⟩ := mem_due.1 hdue
    refine ⟨e, hfind, e.expiresAt, congrArg (Option.map _) hfind, ?_, Entry.isExpiredAt_iff.1 hexp⟩
    exact congrArg Prod.snd hentry
  · obtain ⟨-, e, hlive, hhands⟩ := (mem_handed hkeys g).1 hhanded
    obtain ⟨hfind, hexp⟩ := live?_eq_some_iff.1 hlive
    have hearly : now < e.expiresAt := lt_expiresAt hexp
    refine ⟨e, hfind, e.expiresAt, congrArg (Option.map _) hfind, ?_⟩
    rcases hands_eq_some hhands with h | h | h <;> rw [h]
    · exact ⟨rfl, hearly⟩
    · exact ⟨rfl, hearly⟩
    · exact hearly

/-- What a key that is looked at has left after the departures is what stays. -/
theorem left_inside (hkeys : ∀ key, key ∈ keys ↔ ∃ e, s.entries.find? key = some e)
    (hlooks : op.Looks key) :
    (if key ∈ (op.gone (s.operate now op) keys).map (·.1) then none
      else (s.entries.find? key).map (·.value)) =
      (op.stay key (s.live? now key)).map (·.value) := by
  simp only [mem_keys_gone hkeys, hlooks, true_and]
  by_cases hdue : s.due now key = []
  · rw [due_eq_nil_iff.1 hdue]
    cases s.live? now key with
    | none => simp [Operation.stay]
    | some e =>
      cases hhands : op.hands key e <;> simp [Operation.stay, Option.filter_some, hhands, hdue]
  · obtain ⟨entry, hentry⟩ := List.exists_mem_of_ne_nil _ hdue
    simp [hdue, live?_eq_none_of_due hentry, Operation.stay]

/-- Any other key has left what it held. -/
theorem left_outside (hkeys : ∀ key, key ∈ keys ↔ ∃ e, s.entries.find? key = some e)
    (hlooks : ¬ op.Looks key) :
    (if key ∈ (op.gone (s.operate now op) keys).map (·.1) then none
      else (s.entries.find? key).map (·.value)) = (s.entries.find? key).map (·.value) := by
  simp [mem_keys_gone hkeys, hlooks]

/-! ### What is taken in -/

/-- What answers say was taken in. -/
theorem gain_eq (s : Store) (now : Millis) (op : Operation) :
    op.gain (s.operate now op).answer =
      match op with
      | .put key value _ => if refusal? key value = none then .entry key value else .nothing
      | .putIfAbsent key value _ | .restore key value _ _ =>
        if refusal? key value = none ∧ s.live? now key = none then .entry key value else .nothing
      | .replace key value =>
        if refusal? key value = none ∧ s.live? now key ≠ none then .value key value else .nothing
      | _ => .nothing := by
  cases op with
  | put key value ttl =>
    cases hrefusal : refusal? key value with
    | some refusal =>
      simp [operate, Turn.map, put_refused hrefusal, idle, Operation.gain, hrefusal]
    | none => simp [operate, Turn.map, put_answer hrefusal, Operation.gain, hrefusal]
  | putIfAbsent key value | restore key value =>
    cases hrefusal : refusal? key value with
    | some refusal =>
      simp [operate, Turn.map, putIfAbsent, restore, insertAbsent, Entry.restored, Entry.fresh,
        hrefusal, idle, Operation.gain]
    | none =>
      cases hlive : s.live? now key <;>
        simp [operate, Turn.map, putIfAbsent, restore, insertAbsent, Entry.restored, Entry.fresh,
          hrefusal, hlive, Operation.gain]
  | replace key value =>
    cases hrefusal : refusal? key value with
    | some refusal =>
      simp [operate, Turn.map, replace_refused hrefusal, idle, Operation.gain, hrefusal]
    | none =>
      cases hlive : s.live? now key <;>
        simp [operate, Turn.map, replace_answer hrefusal, hlive, Operation.gain, hrefusal]
  | get | peek | contains | ttl | replaceTtl | resetTtl | remove | removeWhere | clear | sweep =>
    rfl

/-- Something is taken in only under a key that the operation looks at. -/
theorem looks_of_gain (h : (op.gain (s.operate now op).answer).key? = some key) : op.Looks key := by
  rw [gain_eq] at h
  cases op with
  | put | putIfAbsent | restore | replace =>
    simp only at h
    split at h
    · next hwritten => simp_all [Gain.key?, Operation.Looks]
    · cases h
  | get | peek | contains | ttl | replaceTtl | resetTtl | remove | removeWhere | clear | sweep =>
    cases h

/-- A key that is looked at holds afterwards what stayed, or what was taken in. -/
theorem gain_next (hlooks : op.Looks key) :
    (op.next s.policy now key (s.live? now key)).map (·.value) =
      (op.gain (s.operate now op).answer).after key
        ((op.stay key (s.live? now key)).map (·.value)) := by
  rw [gain_eq]
  cases op with
  | put | putIfAbsent | restore | replace =>
    obtain ⟨hrefusal, rfl⟩ := hlooks
    cases hlive : s.live? now key <;>
      simp [hrefusal, hlive, Gain.after, Operation.next, Operation.stay, Operation.hands,
        Option.filter_some, Entry.fresh, Entry.restored, Entry.replaceValue]
  | removeWhere test =>
    cases s.live? now key with
    | none => rfl
    | some e =>
      cases htest : test key <;>
        simp [Gain.after, Operation.next, Operation.stay, Operation.hands, htest,
          Option.filter_some]
  | get | peek | contains | ttl | replaceTtl | resetTtl | remove | clear | sweep =>
    cases s.live? now key <;>
      simp [Gain.after, Operation.next, Operation.stay, Operation.hands, Option.filter_some,
        Entry.resetTtl]

/-- An entry is created where none stayed, and revalued where one did. -/
theorem gain_fits (s : Store) (now : Millis) (op : Operation) :
    (op.gain (s.operate now op).answer).Fits
      fun key => (op.stay key (s.live? now key)).map (·.value) := by
  rw [gain_eq]
  cases op with
  | put key value ttl =>
    simp only
    split
    · cases s.live? now key <;> simp [Gain.Fits, Operation.stay, Operation.hands]
    · trivial
  | putIfAbsent key | restore key =>
    simp only
    split
    · next hwritten => simp [Gain.Fits, Operation.stay, hwritten.2]
    · trivial
  | replace key =>
    simp only
    split
    · next hwritten =>
      obtain ⟨e, hlive⟩ := Option.ne_none_iff_exists'.1 hwritten.2
      simp [Gain.Fits, Operation.stay, Operation.hands, hlive, Option.filter_some]
    · trivial
  | get | peek | contains | ttl | replaceTtl | resetTtl | remove | removeWhere | clear | sweep =>
    trivial

end Store

end ExpiringCache
