import ExpiringCache.Proofs.Json.Depth
import ExpiringCache.Proofs.Store.Agree

/-!
# What commands do to the store

A command is one operation of the store, or none if it is refused, or a removal for each of its
keys. So it answers the same on stores that agree, and leaves them in agreement
(`Command.run_alike`).
-/

namespace ExpiringCache.Command

open Store

variable {s s' : Store} {now : Millis} {key : Bytes}

/-! ### Removing keys one after another -/

/-- One more removal. -/
def removeNext (now : Millis) (t : Turn Nat) (key : Bytes) : Turn Nat :=
  let next := t.store.remove now key
  ⟨t.answer + (if next.answer.isSome then 1 else 0), t.expired ++ next.expired, next.store⟩

/-- A removal after the removal of other keys. A key that was removed before is not found again. -/
theorem removeNext_acts {done : List Bytes} {t : Turn Nat}
    (h : s.Acts now (· ∈ done) (fun _ _ => none) t) (key : Bytes) :
    s.Acts now (· ∈ done ++ [key]) (fun _ _ => none) (removeNext now t key) := by
  have hremove : t.store.Acts now (· = key) (fun _ _ => none) (t.store.remove now key) := remove_acts
  refine ⟨hremove.policy.trans h.policy, fun k hk => ?_, fun k hk => ?_, fun entry => ?_⟩
  · by_cases heq : k = key
    · exact hremove.inside k heq
    · have hdone : k ∈ done := by simpa [heq] using hk
      exact (hremove.outside k heq).trans (h.inside k hdone)
  · rw [List.mem_append, List.mem_singleton, not_or] at hk
    exact (hremove.outside k hk.2).trans (h.outside k hk.1)
  · -- What was removed before is not due any more, and what was not is due as before.
    have hafter : entry ∈ t.store.due now entry.1 ↔
        entry.1 ∉ done ∧ entry ∈ s.due now entry.1 := by
      by_cases hdone : entry.1 ∈ done
      · have hnone := h.inside entry.1 hdone
        simp [due, hnone, hdone]
      · rw [due_congr (h.outside entry.1 hdone)]
        simp [hdone]
    show entry ∈ t.expired ++ (t.store.remove now key).expired ↔ _
    rw [List.mem_append, h.expired, hremove.expired, hafter, List.mem_append, List.mem_singleton]
    tauto

theorem foldl_removeNext_acts (keys : List Bytes) : ∀ {done : List Bytes} {t : Turn Nat},
    s.Acts now (· ∈ done) (fun _ _ => none) t →
      s.Acts now (· ∈ done ++ keys) (fun _ _ => none) (keys.foldl (removeNext now) t) := by
  induction keys with
  | nil => intro done t h; simpa using h
  | cons key keys ih =>
    intro done t h
    have hrest := ih (removeNext_acts h key)
    rwa [List.append_assoc, List.singleton_append] at hrest

theorem removeAll_acts (keys : List Bytes) :
    s.Acts now (· ∈ keys) (fun _ _ => none) (removeAll s now keys) := by
  have hstart : s.Acts now (· ∈ ([] : List Bytes)) (fun _ _ => none) (s.idle 0) := by
    have hidle : s.Acts now (fun _ => False) (fun _ _ => none) (s.idle 0) := acts_idle _ 0
    simpa using hidle
  exact foldl_removeNext_acts keys hstart

/-- What was removed before is counted with the rest. -/
theorem foldl_removeNext_eq (keys : List Bytes) : ∀ t : Turn Nat,
    keys.foldl (removeNext now) t =
      let rest := removeAll t.store now keys
      ⟨t.answer + rest.answer, t.expired ++ rest.expired, rest.store⟩ := by
  induction keys with
  | nil => exact fun t => by simp [removeAll, idle]
  | cons key keys ih =>
    intro t
    have hstart : removeAll t.store now (key :: keys) =
        keys.foldl (removeNext now) (removeNext now (t.store.idle 0) key) := rfl
    rw [List.foldl_cons, hstart, ih, ih (removeNext now (t.store.idle 0) key)]
    simp only [removeNext, idle, Nat.zero_add, List.nil_append, Nat.add_assoc, List.append_assoc]
    rfl

/-- Keys are removed together as they are one after another. -/
theorem removeAll_cons (s : Store) (now : Millis) (key : Bytes) (keys : List Bytes) :
    removeAll s now (key :: keys) =
      let first := removeAll s now [key]
      let rest := removeAll first.store now keys
      ⟨first.answer + rest.answer, first.expired ++ rest.expired, rest.store⟩ :=
  foldl_removeNext_eq keys (removeNext now (s.idle 0) key)

theorem foldl_removeNext_eq_zero (keys : List Bytes) : ∀ {t : Turn Nat},
    (keys.foldl (removeNext now) t).answer = 0 →
      t.answer = 0 ∧ ∀ key ∈ keys, t.store.live? now key = none := by
  induction keys with
  | nil => intro t h; exact ⟨h, fun key hkey => absurd hkey List.not_mem_nil⟩
  | cons key keys ih =>
    intro t h
    obtain ⟨hzero, hrest⟩ := ih h
    have hcount : t.answer + (if (t.store.remove now key).answer.isSome then 1 else 0) = 0 := hzero
    have hkey : t.store.live? now key = none := by
      rw [remove_answer] at hcount
      cases hlive : t.store.live? now key with
      | none => rfl
      | some e => simp [hlive] at hcount
    refine ⟨by omega, fun k hk => ?_⟩
    by_cases heq : k = key
    · rw [heq]; exact hkey
    · -- The removal of `key` leaves `k` as it was.
      have hmem : k ∈ keys := by simpa [heq] using hk
      have hafter := hrest k hmem
      unfold Store.live? at hafter ⊢
      rwa [show (removeNext now t key).store.entries.find? k = t.store.entries.find? k from
        remove_acts.outside k heq] at hafter

/-- A removal that counts nothing found no live key. -/
theorem live?_of_removeAll_eq_zero {keys : List Bytes} (h : (removeAll s now keys).answer = 0)
    (hkey : key ∈ keys) : s.live? now key = none :=
  (foldl_removeNext_eq_zero keys h).2 key hkey

theorem removeNext_alike {t u : Turn Nat} (h : Alike now t u) (key : Bytes) :
    Alike now (removeNext now t key) (removeNext now u key) := by
  have hremove := h.store.remove key
  refine ⟨?_, hremove.store⟩
  show t.answer + _ = u.answer + _
  rw [h.answer, hremove.answer]

theorem removeAll_alike (h : Agree now s s') (keys : List Bytes) :
    Alike now (removeAll s now keys) (removeAll s' now keys) := by
  have hfold : ∀ {t u : Turn Nat}, Alike now t u →
      Alike now (keys.foldl (removeNext now) t) (keys.foldl (removeNext now) u) := by
    induction keys with
    | nil => exact fun h => h
    | cons key keys ih => exact fun h => ih (removeNext_alike h key)
  exact hfold (h.idle 0)

/-! ### Removing keys with a common beginning -/

/-- The names of an object built from members are the names of the members. -/
theorem mem_names_addMember {name : String} (members : List (String × Json)) :
    name ∈ (members.foldr Json.addMember []).map (·.1) ↔ name ∈ members.map (·.1) := by
  have hadd : ∀ (member : String × Json) (rest : List (String × Json)),
      name ∈ (Json.addMember member rest).map (·.1) ↔ name = member.1 ∨ name ∈ rest.map (·.1) := by
    intro member rest
    induction rest with
    | nil => simp [Json.addMember]
    | cons first rest ih =>
      unfold Json.addMember
      split
      · simp
      · split
        · next heq => simp [heq]
        · rw [List.map_cons, List.mem_cons, ih, List.map_cons, List.mem_cons]
          tauto
  induction members with
  | nil => rfl
  | cons member rest ih =>
    rw [List.foldr_cons, hadd, List.map_cons, List.mem_cons]
    exact or_congr_right ih

/-- The names that are answered are those that the removed keys are repaired to. -/
theorem mem_removedNames (test : Bytes → Bool) (name : String) :
    name ∈ (((s.removeWhere now test).answer.map removedMember).foldr Json.addMember []).map
        (·.1) ↔
      ∃ key e, s.live? now key = some e ∧ test key = true ∧ Utf8.repair key = name := by
  rw [mem_names_addMember, List.map_map, List.mem_map]
  constructor
  · rintro ⟨⟨key, value⟩, hmem, rfl⟩
    obtain ⟨e, hlive, htested, -⟩ := mem_removeWhere_answer.1 hmem
    exact ⟨key, e, hlive, htested, rfl⟩
  · rintro ⟨key, e, hlive, htested, rfl⟩
    exact ⟨(key, e.value), mem_removeWhere_answer.2 ⟨e, hlive, htested, rfl⟩, rfl⟩

/-- A removed key that is a text is named as it is. -/
theorem encodeKey_mem_removedKeys (test : Bytes → Bool) {text : String} {e : Entry}
    (hlive : s.live? now (Codec.encodeKey text) = some e)
    (htest : test (Codec.encodeKey text) = true) :
    Codec.encodeKey text ∈ ((((s.removeWhere now test).answer.map removedMember).foldr
      Json.addMember []).map (·.1)).map Codec.encodeKey :=
  List.mem_map_of_mem ((mem_removedNames test text).2
    ⟨_, e, hlive, htest, Codec.repair_encodeKey text⟩)

/-- Where every live key is a text, the names that are answered are those of the removed keys. -/
theorem mem_removedKeys
    (hnamed : ∀ key e, s.live? now key = some e → ∃ text, key = Codec.encodeKey text)
    (test : Bytes → Bool) (key : Bytes) :
    key ∈ ((((s.removeWhere now test).answer.map removedMember).foldr Json.addMember []).map
        (·.1)).map Codec.encodeKey ↔
      ∃ e, s.live? now key = some e ∧ test key = true := by
  constructor
  · intro hmem
    obtain ⟨name, hin, rfl⟩ := List.mem_map.1 hmem
    obtain ⟨k, e, hlive, htested, rfl⟩ := (mem_removedNames test name).1 hin
    obtain ⟨text, rfl⟩ := hnamed k e hlive
    rw [Codec.repair_encodeKey]
    exact ⟨e, hlive, htested⟩
  · rintro ⟨e, hlive, htested⟩
    obtain ⟨text, rfl⟩ := hnamed key e hlive
    exact encodeKey_mem_removedKeys test hlive htested

/-- A member is in the object if no other one has its name. -/
theorem mem_object_of_names {m : String × Json} {members : List (String × Json)} (h : m ∈ members)
    (hname : ∀ n ∈ members, n.1 = m.1 → n = m) : m ∈ members.foldr Json.addMember [] := by
  have hin : m.1 ∈ (members.foldr Json.addMember []).map (·.1) :=
    (mem_names_addMember members).2 (List.mem_map_of_mem h)
  obtain ⟨n, hn, heq⟩ := List.mem_map.1 hin
  rw [← hname n (Json.mem_object hn) heq]
  exact hn

/-- Where every live key is a text, what is answered are the removed entries. -/
theorem mem_removedMembers
    (hnamed : ∀ key e, s.live? now key = some e → ∃ text, key = Codec.encodeKey text)
    (test : Bytes → Bool) {m : String × Json} :
    m ∈ ((s.removeWhere now test).answer.map removedMember).foldr Json.addMember [] ↔
      ∃ text e, s.live? now (Codec.encodeKey text) = some e ∧ test (Codec.encodeKey text) = true ∧
        m = removedMember (Codec.encodeKey text, e.value) := by
  have hentry : ∀ {n : String × Json}, n ∈ (s.removeWhere now test).answer.map removedMember ↔
      ∃ text e, s.live? now (Codec.encodeKey text) = some e ∧ test (Codec.encodeKey text) = true ∧
        n = removedMember (Codec.encodeKey text, e.value) := by
    intro n
    rw [List.mem_map]
    constructor
    · rintro ⟨⟨key, value⟩, hmem, rfl⟩
      obtain ⟨e, hlive, htested, rfl⟩ := mem_removeWhere_answer.1 hmem
      obtain ⟨text, rfl⟩ := hnamed key e hlive
      exact ⟨text, e, hlive, htested, rfl⟩
    · rintro ⟨text, e, hlive, htested, rfl⟩
      exact ⟨_, mem_removeWhere_answer.2 ⟨e, hlive, htested, rfl⟩, rfl⟩
  refine ⟨fun hmem => hentry.1 (Json.mem_object hmem), fun hremoved => ?_⟩
  refine mem_object_of_names (hentry.2 hremoved) fun n hn hname => ?_
  -- Members of one name are of one key.
  obtain ⟨text, e, hlive, -, rfl⟩ := hremoved
  obtain ⟨text', e', hlive', -, rfl⟩ := hentry.1 hn
  obtain rfl : text' = text := by
    have hrepaired : Utf8.repair (Codec.encodeKey text') = Utf8.repair (Codec.encodeKey text) := hname
    rwa [Codec.repair_encodeKey, Codec.repair_encodeKey] at hrepaired
  rw [Option.some.inj (hlive'.symm.trans hlive)]

/-! ### Commands -/

theorem withValue_alike {codec : Codec} (h : Agree now s s') (value : Json)
    {run run' : Bytes → Run} (hrun : ∀ bytes, Alike now (run bytes) (run' bytes)) :
    Alike now (withValue codec s value run) (withValue codec s' value run') := by
  unfold withValue
  cases codec.encodeValue value with
  | ok bytes => exact hrun bytes
  | error e => exact h.idle _

/-- A command answers the same on stores that agree, and leaves them in agreement. Of the
configuration it looks at the default TTL only. -/
theorem run_alike {config config' : Config} (hconfig : config.defaultTtl = config'.defaultTtl)
    (codec : Codec) (h : Agree now s s') (command : Command) :
    Alike now (command.run config codec now s) (command.run config' codec now s') := by
  cases command with
  | set key value =>
    simp only [run, hconfig]
    exact withValue_alike h value fun bytes => (h.put _ bytes _).map _
  | setWithTtl key value ttl => exact withValue_alike h value fun bytes => (h.put _ bytes _).map _
  | setIfAbsent key value ttl =>
    simp only [run, hconfig, putIfAbsent, h.policy]
    exact withValue_alike h value fun bytes => (h.insertAbsent _ _).map _
  | get key => exact (h.get _).map _
  | contains key => exact (h.contains _).answering _
  | ttl key => exact (h.ttl _).answering _
  | delete keys => exact (removeAll_alike h _).answering _
  | deleteSimilar start => exact (h.removeWhere _).answering _
  | deleteAll => exact h.clear.answering _
  | replaceDuration key ttl => exact (h.change _ _).answering _
  | resetDuration key => exact (h.change _ _).answering _
  | replace key value => exact withValue_alike h value fun bytes => (h.replace _ bytes).map _
  | peek key => exact (h.peek _).map _

end ExpiringCache.Command
