import ExpiringCache.Proofs.Store.Acts

/-!
# What removals do, one after another

A removal looks at some keys and removes some of those. Removals at one reading of the clock add up
(`Store.Drops.trans`): what they have looked at, what they have removed and what they have reported
is taken together. Once everything was looked at, what is left depends on nothing but the keys that
were removed (`Store.Drops.entries_eq`).
-/

namespace ExpiringCache.Store

variable {α : Type} {s s₁ s₂ : Store} {now : Millis} {on on₁ on₂ gone gone₁ gone₂ : Bytes → Prop}
  {expired expired₁ expired₂ : List (Bytes × Bytes)}

/-- The keys in `on` were looked at, and of these the ones in `gone` were removed. What was found
expired is no longer there, and was reported. -/
structure Drops (s : Store) (now : Millis) (on gone : Bytes → Prop)
    (expired : List (Bytes × Bytes)) (s' : Store) : Prop where
  looked : ∀ key, gone key → on key
  removed : ∀ key, gone key → s'.entries.find? key = none
  kept : ∀ key, on key → ¬ gone key → s'.entries.find? key = s.live? now key
  outside : ∀ key, ¬ on key → s'.entries.find? key = s.entries.find? key
  reported : ∀ entry, entry ∈ expired ↔ on entry.1 ∧ entry ∈ s.due now entry.1

/-- Nothing was looked at. -/
theorem drops_nothing (s : Store) (now : Millis) :
    s.Drops now (fun _ => False) (fun _ => False) [] s where
  looked _ h := h
  removed _ h := h.elim
  kept _ h := h.elim
  outside _ _ := rfl
  reported _ := by simp

/-- An operation that removes some of the keys it looks at and keeps the others as they are. -/
theorem Acts.drops {next : Bytes → Option Entry → Option Entry} {t : Turn α}
    (h : s.Acts now on next t) (hlooked : ∀ key, gone key → on key)
    (hremoved : ∀ key, gone key → next key (s.live? now key) = none)
    (hkept : ∀ key, on key → ¬ gone key → next key (s.live? now key) = s.live? now key) :
    s.Drops now on gone t.expired t.store where
  looked := hlooked
  removed key hgone := (h.inside key (hlooked key hgone)).trans (hremoved key hgone)
  kept key hon hkeep := (h.inside key hon).trans (hkept key hon hkeep)
  outside := h.outside
  reported := h.expired

/-- A sweep looks at everything and removes nothing that is live. -/
theorem drops_sweep (s : Store) (now : Millis) :
    s.Drops now (fun _ => True) (fun _ => False) (s.sweep now).expired (s.sweep now).store :=
  sweep_acts.drops (fun _ h => h.elim) (fun _ h => h.elim) fun _ _ _ => rfl

namespace Drops

/-- What has not been removed is live as before. -/
theorem live?_eq (h : s.Drops now on gone expired s₁) {key : Bytes} (hkey : ¬ gone key) :
    s₁.live? now key = s.live? now key := by
  by_cases hon : on key
  · rw [Store.live?, h.kept key hon hkey, Store.live?, Option.filter_filter]
    simp
  · rw [Store.live?, h.outside key hon, Store.live?]

/-- A key that was looked at is not due any more. -/
theorem due_eq_nil (h : s.Drops now on gone expired s₁) {key : Bytes} (hkey : on key) :
    s₁.due now key = [] := by
  rw [due_eq_nil_iff]
  by_cases hgone : gone key
  · rw [Store.live?, h.removed key hgone, Option.filter_none]
  · rw [h.live?_eq hgone]
    exact h.kept key hkey hgone

/-- **Removals add up.** -/
theorem trans (h₁ : s.Drops now on₁ gone₁ expired₁ s₁) (h₂ : s₁.Drops now on₂ gone₂ expired₂ s₂) :
    s.Drops now (fun key => on₁ key ∨ on₂ key) (fun key => gone₁ key ∨ gone₂ key)
      (expired₁ ++ expired₂) s₂ where
  looked key hgone := hgone.imp (h₁.looked key) (h₂.looked key)
  removed key hgone := by
    by_cases hgone₂ : gone₂ key
    · exact h₂.removed key hgone₂
    · have hnone := h₁.removed key (hgone.resolve_right hgone₂)
      by_cases hon₂ : on₂ key
      · rw [h₂.kept key hon₂ hgone₂, Store.live?, hnone, Option.filter_none]
      · rw [h₂.outside key hon₂, hnone]
  kept key hon hkeep := by
    obtain ⟨hkeep₁, hkeep₂⟩ := not_or.1 hkeep
    by_cases hon₂ : on₂ key
    · rw [h₂.kept key hon₂ hkeep₂, h₁.live?_eq hkeep₁]
    · rw [h₂.outside key hon₂, h₁.kept key (hon.resolve_right hon₂) hkeep₁]
  outside key hoff := by
    obtain ⟨hoff₁, hoff₂⟩ := not_or.1 hoff
    rw [h₂.outside key hoff₂, h₁.outside key hoff₁]
  reported entry := by
    rw [List.mem_append, h₁.reported, h₂.reported]
    by_cases hon₁ : on₁ entry.1
    · -- What was due here was reported the first time.
      simp [hon₁, h₁.due_eq_nil hon₁]
    · rw [due_congr (h₁.outside entry.1 hon₁)]
      simp [hon₁]

/-- Removals that have looked at everything and removed the same live keys leave the same entries
and have reported the same. -/
theorem entries_eq (h₁ : s.Drops now (fun _ => True) gone₁ expired₁ s₁)
    (h₂ : s.Drops now (fun _ => True) gone₂ expired₂ s₂)
    (hsame : ∀ key, (s.live? now key).isSome = true → (gone₁ key ↔ gone₂ key)) :
    s₁.entries = s₂.entries ∧ ∀ entry, entry ∈ expired₁ ↔ entry ∈ expired₂ := by
  refine ⟨ByteMap.ext_find? fun key => ?_, fun entry => by rw [h₁.reported, h₂.reported]⟩
  cases hlive : s.live? now key with
  | none =>
    have hnone : ∀ {gone expired s'}, s.Drops now (fun _ => True) gone expired s' →
        s'.entries.find? key = none := fun {gone _ _} h => by
      by_cases hgone : gone key
      · exact h.removed key hgone
      · exact (h.kept key trivial hgone).trans hlive
    rw [hnone h₁, hnone h₂]
  | some e =>
    have hiff := hsame key (by rw [hlive]; rfl)
    by_cases hgone : gone₁ key
    · rw [h₁.removed key hgone, h₂.removed key (hiff.1 hgone)]
    · rw [h₁.kept key trivial hgone, h₂.kept key trivial fun h => hgone (hiff.2 h)]

end Drops

end ExpiringCache.Store
