import ExpiringCache.Proofs.Passage.Basic

/-!
# Entries and their rows

How an entry and the row of its key go together (`Mirrors`): a row stands for an entry with the
same value and, where expiry is counted from the last write, the same end; an entry that is worthy
by the TTL in force has a row; and, as long as nothing was recovered, one that is not has none. A
recovered entry has a row whatever is left of its TTL.
-/

namespace ExpiringCache

/-- What is known of every entry: its value was given by a command and can be read back, its key is
a text, and the store takes both. -/
structure Entry.Kept (config : Config) (key : Bytes) (e : Entry) : Prop where
  accepted : Store.refusal? key e.value = none
  named : ∃ text, key = Codec.encodeKey text
  readable : ∃ v : Json, v.Faithful ∧ e.value = v.printed
  policy : e.policy = config.policy

/-- An entry and a row of one key that go together. Under `strict` nothing was recovered. -/
structure Mirrors (config : Config) (strict : Prop) (key : Bytes) (entry : Option Entry)
    (row : Option Row) : Prop where
  kept : ∀ e, entry = some e → e.Kept config key
  recorded : ∀ r, row = some r → ∃ e, entry = some e ∧ r.value = e.value ∧
    (config.policy = .sinceCreation → r.expiresAt = e.expiresAt)
  worthy : ∀ e, entry = some e → config.criticalMillis ≤ e.ttl.millis → row ≠ none
  unworthy : strict → ∀ e, entry = some e → e.ttl.millis < config.criticalMillis → row = none

namespace Mirrors

variable {config : Config} {strict : Prop} {key : Bytes} {e : Entry} {r : Row}
  {entry : Option Entry} {row : Option Row}

theorem nothing : Mirrors config strict key none none where
  kept _ h := by cases h
  recorded _ h := by cases h
  worthy _ h := by cases h
  unworthy _ _ h := by cases h

/-- Without an entry there is no row. -/
theorem row_eq_none (h : Mirrors config strict key none row) : row = none := by
  cases row with
  | none => rfl
  | some r =>
    obtain ⟨e, he, -⟩ := h.recorded r rfl
    cases he

theorem weaken {strict' : Prop} (h : Mirrors config strict key entry row)
    (himp : strict' → strict) : Mirrors config strict' key entry row :=
  ⟨h.kept, h.recorded, h.worthy, fun hs => h.unworthy (himp hs)⟩

/-- A worthy entry with a row that has just been written for it. -/
theorem written (he : e.Kept config key) (hworthy : config.criticalMillis ≤ e.ttl.millis)
    (hvalue : r.value = e.value) (hend : r.expiresAt = e.expiresAt) :
    Mirrors config strict key (some e) (some r) where
  kept _ h := Option.some.inj h ▸ he
  recorded _ h := Option.some.inj h ▸ ⟨e, rfl, hvalue, fun _ => hend⟩
  worthy _ _ _ := Option.some_ne_none r
  unworthy _ e' h hlt := by
    rw [← Option.some.inj h] at hlt
    exact absurd hworthy (Nat.not_le.2 hlt)

/-- An entry that is not worthy, without a row. -/
theorem unwritten (he : e.Kept config key) (hunworthy : ¬ config.criticalMillis ≤ e.ttl.millis) :
    Mirrors config strict key (some e) none where
  kept _ h := Option.some.inj h ▸ he
  recorded _ h := by cases h
  worthy e' h hle := by
    rw [← Option.some.inj h] at hle
    exact absurd hle hunworthy
  unworthy _ _ _ _ := rfl

/-- A read does not move the end of an entry unless expiry is counted from reads. -/
theorem touch (h : Mirrors config strict key entry row) (now : Millis) :
    Mirrors config strict key (entry.map (·.touch now)) row := by
  cases entry with
  | none => exact h
  | some e =>
    have he := h.kept e rfl
    have hpolicy : (e.touch now).policy = e.policy := by unfold Entry.touch; split <;> rfl
    refine ⟨fun e' h' => ?_, fun r hr => ?_, fun e' h' hle => ?_, fun hs e' h' hlt => ?_⟩
    · rw [← Option.some.inj h']
      exact ⟨by rw [Entry.touch_value]; exact he.accepted, he.named,
        by rw [Entry.touch_value]; exact he.readable, hpolicy.trans he.policy⟩
    · obtain ⟨e₀, he₀, hvalue, hend⟩ := h.recorded r hr
      cases he₀
      refine ⟨e.touch now, rfl, by rw [hvalue, Entry.touch_value], fun hcreation => ?_⟩
      rw [hend hcreation, Entry.touch, he.policy, hcreation]
    · rw [← Option.some.inj h', Entry.touch_ttl] at hle
      exact h.worthy e rfl hle
    · rw [← Option.some.inj h', Entry.touch_ttl] at hlt
      exact h.unworthy hs e rfl hlt

/-- A value that is swapped in the entry and in the row. -/
theorem replaceValue {v : Json} (h : Mirrors config strict key entry row) (hv : v.Faithful)
    (haccepted : Store.refusal? key v.printed = none) :
    Mirrors config strict key (entry.map (·.replaceValue v.printed))
      (row.map fun r => { r with value := v.printed }) := by
  cases entry with
  | none =>
    rw [h.row_eq_none]
    exact nothing
  | some e =>
    have he := h.kept e rfl
    refine ⟨fun e' h' => ?_, fun r hr => ?_, fun e' h' hle => ?_, fun hs e' h' hlt => ?_⟩
    · rw [← Option.some.inj h']
      exact ⟨haccepted, he.named, ⟨v, hv, rfl⟩, he.policy⟩
    · obtain ⟨r₀, hr₀, rfl⟩ := Option.map_eq_some_iff.1 hr
      obtain ⟨e₀, he₀, -, hend⟩ := h.recorded r₀ hr₀
      cases he₀
      exact ⟨e.replaceValue v.printed, rfl, rfl, hend⟩
    · rw [← Option.some.inj h'] at hle
      rw [ne_eq, Option.map_eq_none_iff]
      exact h.worthy e rfl hle
    · rw [← Option.some.inj h'] at hlt
      rw [h.unworthy hs e rfl hlt]
      rfl

/-- What an entry can be read from stands for a value. -/
theorem not_unreadable (h : Mirrors config strict key (some e) row) :
    ¬ Codec.Unreadable e.value := by
  obtain ⟨v, hv, hvalue⟩ := (h.kept e rfl).readable
  intro hunread
  rw [hvalue] at hunread
  exact hunread v hv

/-- Another TTL, of a worthy entry or of one that loses its row. -/
theorem replaceTtl {v : Json} {now : Millis} (h : Mirrors config strict key (some e) row)
    (hvalue : Codec.decodeValue e.value = .ok (some v)) (ttl : Duration) :
    Mirrors config strict key (some (e.replaceTtl now ttl))
      (if config.criticalMillis ≤ ttl.millis then some (Row.rearm now v.printed ttl row)
        else none) := by
  have he := h.kept e rfl
  have hkept : (e.replaceTtl now ttl).Kept config key :=
    ⟨he.accepted, he.named, he.readable, he.policy⟩
  -- The value that was read is the one that was given.
  have hsame : v.printed = e.value := by
    obtain ⟨v₀, hv₀, hprinted⟩ := he.readable
    rw [hprinted, hv₀] at hvalue
    cases hvalue
    exact hprinted.symm
  by_cases hworthy : config.criticalMillis ≤ ttl.millis
  · rw [if_pos hworthy]
    cases row with
    | some r =>
      obtain ⟨e₀, he₀, hr, -⟩ := h.recorded r rfl
      cases he₀
      exact .written hkept hworthy hr rfl
    | none => exact .written hkept hworthy hsame rfl
  · rw [if_neg hworthy]
    exact .unwritten hkept hworthy

/-- On every passage with values that are read back an entry and its row stay together. -/
theorem passage {now : Millis} {given : Option Json} {timing : Timing} {entry' : Option Entry}
    {row' : Option Row} (h : Mirrors config strict key entry row)
    (hpassage : Passage config now key given timing entry row entry' row')
    (hgiven : ∀ v, given = some v → v.Faithful) : Mirrors config strict key entry' row' := by
  cases hpassage with
  | kept => exact h
  | gone => exact .nothing
  | read e => exact h.touch now
  | written v ttl _ _ hv hnamed haccepted =>
    have hkept : (Entry.fresh now v.printed ttl config.policy).Kept config key :=
      ⟨haccepted, hnamed, ⟨v, hgiven v hv, rfl⟩, rfl⟩
    by_cases hworthy : config.criticalMillis ≤ ttl.millis
    · rw [if_pos hworthy]
      exact .written hkept hworthy rfl rfl
    · rw [if_neg hworthy]
      exact .unwritten hkept hworthy
  | revalued v old e _ hv haccepted hold => exact h.replaceValue (hgiven v hv) haccepted
  | revaluedUnread v e _ hv haccepted hold => exact absurd hold h.not_unreadable
  | changed v ttl e _ hvalue hleft => exact h.replaceTtl hvalue ttl
  | changedUnread ttl e _ hvalue hleft => exact absurd hvalue h.not_unreadable
  | ended => exact .nothing

end Mirrors

end ExpiringCache
