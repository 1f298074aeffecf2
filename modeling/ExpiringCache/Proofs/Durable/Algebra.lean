import ExpiringCache.Proofs.Durable.Table

/-!
# Changes repeated and reordered

A change may be applied again at the same reading, and two changes of different keys may be applied
in either order: the table is the same, and so is every answer (`Table.apply_laws`). This is what
makes it safe to retry a job, or to let independent jobs overtake each other.

Tables are compared row by row, through `Change.effect`. Answers are compared through
`Table.apply_fst_congr`: unless a change removes everything, its answer is a matter of the rows of
the keys it lists.
-/

namespace ExpiringCache

/-! ### One row -/

namespace Change

variable {change : Change} {key : Bytes}

/-- A change is not about a key that it does not list, unless it removes every key. -/
theorem effect_of_not_mem (hkind : change.kind ≠ .removeAll) (hkey : key ∉ change.keys)
    (now : Millis) (row : Option Row) : change.effect now key row = row := by
  obtain ⟨kind, keys, value, ttl⟩ := change
  cases kind with
  | write =>
    cases keys with
    | nil => rfl
    | cons first rest =>
      cases value with
      | none => rfl
      | some value => exact if_neg (List.ne_of_not_mem_cons hkey)
  | removeKeys | removeBySimilarity | replaceDuration | resetDuration => exact if_neg hkey
  | removeAll => exact absurd rfl hkind
  | replaceValue =>
    cases value with
    | none => rfl
    | some value => exact if_neg hkey

/-- A change applied again at the same reading does nothing more to a row. -/
theorem effect_effect (change : Change) (now : Millis) (key : Bytes) (row : Option Row) :
    change.effect now key (change.effect now key row) = change.effect now key row := by
  obtain ⟨kind, keys, value, ttl⟩ := change
  cases kind with
  | write =>
    cases keys with
    | nil => rfl
    | cons first rest =>
      cases value with
      | none => rfl
      | some value => by_cases hkey : key = first <;> simp [effect, hkey]
  | removeKeys | removeBySimilarity => by_cases hkey : key ∈ keys <;> simp [effect, hkey]
  | removeAll => rfl
  | replaceDuration | resetDuration =>
    by_cases hkey : key ∈ keys
    · simp only [effect, if_pos hkey, restarted_restarted]
    · simp only [effect, if_neg hkey]
  | replaceValue =>
    cases value with
    | none => rfl
    | some value => by_cases hkey : key ∈ keys <;> cases row <;> simp [effect, hkey]

end Change

namespace Table

variable {change other : Change} {now later : Millis} {t u : Table}

/-! ### Answers -/

/-- Whether a loop changes anything is a matter of the rows of its keys, if that is so of each step:
a step changes the row of its key in the same way in both tables, and no other row. -/
theorem forKeysFrom_fst_congr {act : Table → Bytes → Bool × Table} {f : Option Row → Option Row}
    (h : ActsBy act f)
    (hact : ∀ t u key, t.find? key = u.find? key → (act t key).1 = (act u key).1)
    (keys : List Bytes) : ∀ (changed : Bool) (t u : Table),
      (∀ key ∈ keys, t.find? key = u.find? key) →
        (forKeysFrom act (changed, t) keys).1 = (forKeysFrom act (changed, u) keys).1 := by
  induction keys with
  | nil => exact fun _ _ _ _ => rfl
  | cons key keys ih =>
    intro changed t u hrows
    rw [forKeysFrom_cons, forKeysFrom_cons, hact t u key (hrows key List.mem_cons_self)]
    refine ih _ _ _ fun k hk => ?_
    rw [h.find?, h.find?, hrows k (List.mem_cons_of_mem key hk)]

theorem erase_fst_congr (t u : Table) (key : Bytes) (h : t.find? key = u.find? key) :
    (t.erase key).1 = (u.erase key).1 := by
  rw [erase_fst, erase_fst, h]

theorem restart_fst_congr (change : Change) (now : Millis) (t u : Table) (key : Bytes)
    (h : t.find? key = u.find? key) :
    (restart change now t key).1 = (restart change now u key).1 := by
  unfold restart
  rw [h]
  cases u.find? key with
  | some row => rfl
  | none => cases change.value <;> cases change.ttl <;> rfl

theorem setValue_fst_congr (value : Bytes) (t u : Table) (key : Bytes)
    (h : t.find? key = u.find? key) : (setValue value t key).1 = (setValue value u key).1 := by
  unfold setValue
  rw [h]
  cases u.find? key <;> rfl

/-- Whether there is anything to change is a matter of the rows of the listed keys. -/
theorem apply_fst_congr (hkind : change.kind ≠ .removeAll)
    (hrows : ∀ key ∈ change.keys, t.find? key = u.find? key) :
    (t.apply change now).1 = (u.apply change now).1 := by
  obtain ⟨kind, keys, value, ttl⟩ := change
  cases kind with
  | write =>
    cases keys with
    | nil => rfl
    | cons first rest => cases value <;> rfl
  | removeKeys | removeBySimilarity =>
    exact forKeysFrom_fst_congr actsBy_erase erase_fst_congr keys false t u hrows
  | removeAll => exact absurd rfl hkind
  | replaceDuration | resetDuration =>
    exact forKeysFrom_fst_congr (actsBy_restart _ now) (restart_fst_congr _ now) keys false t u
      hrows
  | replaceValue =>
    cases value with
    | none => rfl
    | some value =>
      exact forKeysFrom_fst_congr (actsBy_setValue value) (setValue_fst_congr value) keys false t u
        hrows

/-! ### Tables -/

/-- Keys that a change does not list keep their rows, unless it removes every key. -/
theorem find?_apply_of_not_mem (hkind : change.kind ≠ .removeAll) {key : Bytes}
    (hkey : key ∉ change.keys) : (t.apply change now).2.find? key = t.find? key := by
  rw [find?_apply, Change.effect_of_not_mem hkind hkey]

theorem apply_apply (t : Table) (change : Change) (now : Millis) :
    ((t.apply change now).2.apply change now).2 = (t.apply change now).2 :=
  ext_find? fun key => by rw [find?_apply, find?_apply, Change.effect_effect]

/-- The answer of a change is not another one after a change of other keys. -/
theorem apply_fst_apply (hother : other.kind ≠ .removeAll) (hkind : change.kind ≠ .removeAll)
    (hkeys : ∀ key ∈ change.keys, key ∉ other.keys) :
    ((t.apply other later).2.apply change now).1 = (t.apply change now).1 :=
  apply_fst_congr hkind fun key hkey => find?_apply_of_not_mem hother (hkeys key hkey)

/-- Changes of different keys, applied in either order, make the same table. -/
theorem apply_comm (hkind : change.kind ≠ .removeAll) (hother : other.kind ≠ .removeAll)
    (hkeys : ∀ key ∈ change.keys, key ∉ other.keys) :
    ((t.apply change now).2.apply other later).2 =
      ((t.apply other later).2.apply change now).2 := by
  refine ext_find? fun key => ?_
  by_cases hkey : key ∈ change.keys
  · -- The other change is not about this key.
    have hnot : key ∉ other.keys := hkeys key hkey
    calc ((t.apply change now).2.apply other later).2.find? key
        = (t.apply change now).2.find? key := find?_apply_of_not_mem hother hnot
      _ = change.effect now key (t.find? key) := find?_apply t change now key
      _ = change.effect now key ((t.apply other later).2.find? key) := by
          rw [find?_apply_of_not_mem hother hnot]
      _ = ((t.apply other later).2.apply change now).2.find? key :=
          (find?_apply (t.apply other later).2 change now key).symm
  · calc ((t.apply change now).2.apply other later).2.find? key
        = other.effect later key ((t.apply change now).2.find? key) :=
          find?_apply (t.apply change now).2 other later key
      _ = other.effect later key (t.find? key) := by rw [find?_apply_of_not_mem hkind hkey]
      _ = (t.apply other later).2.find? key := (find?_apply t other later key).symm
      _ = ((t.apply other later).2.apply change now).2.find? key :=
          (find?_apply_of_not_mem hkind hkey).symm

/-- **The algebra of changes.** Whatever the table, a change of any kind, about any keys, and any
reading of the clock: the change applied twice makes the table that it makes applied once. It
answers that there was nothing to change only if the table is still the same. Unless it removes
everything, keys that it does not list keep their rows. And with another change, at any other
reading, neither of which removes everything and which have no key in common, either order makes
the same table, and each of the two answers the same. -/
theorem apply_laws (t : Table) (change : Change) (now : Millis) :
    ((t.apply change now).2.apply change now).2 = (t.apply change now).2 ∧
    ((t.apply change now).1 = false → (t.apply change now).2 = t) ∧
    (change.kind ≠ .removeAll →
      ∀ key, key ∉ change.keys → (t.apply change now).2.find? key = t.find? key) ∧
    ∀ (other : Change) (later : Millis), change.kind ≠ .removeAll → other.kind ≠ .removeAll →
      (∀ key ∈ change.keys, key ∉ other.keys) →
        ((t.apply change now).2.apply other later).2 =
          ((t.apply other later).2.apply change now).2 ∧
        ((t.apply change now).2.apply other later).1 = (t.apply other later).1 ∧
        ((t.apply other later).2.apply change now).1 = (t.apply change now).1 := by
  refine ⟨apply_apply t change now, apply_same,
    fun hkind key hkey => find?_apply_of_not_mem hkind hkey,
    fun other later hkind hother hkeys => ?_⟩
  have hkeys' : ∀ key ∈ other.keys, key ∉ change.keys :=
    fun key hkey hmem => hkeys key hmem hkey
  exact ⟨apply_comm hkind hother hkeys, apply_fst_apply hkind hother hkeys',
    apply_fst_apply hother hkind hkeys⟩

/-- One of the keys of a change of duration is recorded and the other one, listed twice, is not. To
remove a third key before it is the same as to remove that key after it, and to remove it again
changes nothing. -/
theorem apply_laws_two_orders :
    let t := ofList [([97], ⟨[1], 500, 600⟩), ([99], ⟨[2], 70, 90⟩)]
    let extension : Change := ⟨.replaceDuration, [[98], [97], [98]], some [3], some (.ofMillis 9)⟩
    let removal : Change := ⟨.removeKeys, [[99], [99]], none, none⟩
    let both := ofList [([97], ⟨[1], 500, 14⟩), ([98], ⟨[3], 9, 14⟩)]
    (∀ key ∈ extension.keys, key ∉ removal.keys) ∧
      (t.apply extension 5).2.apply removal 8 = (true, both) ∧
      (t.apply removal 8).2.apply extension 5 = (true, both) ∧
      (both.apply removal 8).1 = false ∧ (both.apply removal 8).2 = both := by
  intro t extension removal both
  have hapart : ∀ key ∈ extension.keys, key ∉ removal.keys := by decide
  obtain ⟨-, -, -, hboth⟩ := apply_laws t extension 5
  obtain ⟨hcomm, hremoval, hextension⟩ := hboth removal 8 (by decide) (by decide) hapart
  have htable : ((t.apply extension 5).2.apply removal 8).2 = both := by decide
  have hsame : (both.apply removal 8).1 = false := by decide
  exact ⟨hapart, Prod.ext hremoval htable, Prod.ext hextension (hcomm.symm.trans htable), hsame,
    (apply_laws both removal 8).2.1 hsame⟩

end Table

end ExpiringCache
