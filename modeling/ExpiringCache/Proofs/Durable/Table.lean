import ExpiringCache.Durable.Table
import Mathlib.Tactic.Common

/-!
# What a change does to a durable table

A change acts on every row by itself: what a key holds afterwards depends on what it held before
and on nothing else (`Table.find?_apply`). All that is said about changes is read off
`Change.effect`, the function of one row.

The time at which a change is applied decides when rows expire and nothing more. Whether a key has
a row, with which value and which written TTL, is its *content*, and what a change makes of that has
nothing to do with the time (`Change.content_effect`).
-/

namespace ExpiringCache

/-! ### One row -/

namespace Change

/-- The row of a key that a change of duration is about: a recorded one is restarted, and one that
is not is recorded if the change says with what. -/
def restarted (change : Change) (now : Millis) (row : Option Row) : Option Row :=
  match row with
  | some row => some (row.restart now change.ttl)
  | none =>
    match change.value, change.ttl with
    | some value, some ttl => some (Row.fresh now value ttl)
    | _, _ => none

/-- What a key holds after a change, by what it held before. -/
def effect (change : Change) (now : Millis) (key : Bytes) (row : Option Row) : Option Row :=
  match change.kind with
  | .write =>
    match change.keys, change.value with
    | first :: _, some value =>
      if key = first then some (Row.fresh now value (change.ttl.getD .zero)) else row
    | _, _ => row
  | .removeKeys | .removeBySimilarity => if key ∈ change.keys then none else row
  | .removeAll => none
  | .replaceDuration | .resetDuration => if key ∈ change.keys then change.restarted now row else row
  | .replaceValue =>
    match change.value with
    | some value =>
      if key ∈ change.keys then row.map (fun row => { row with value := value }) else row
    | none => row

end Change

@[simp] theorem Row.restart_restart (row : Row) (now : Millis) (ttl : Option Duration) :
    (row.restart now ttl).restart now ttl = row.restart now ttl := by
  cases ttl <;> rfl

/-- A row written with a TTL is already restarted with it. -/
@[simp] theorem Row.restart_fresh (now : Millis) (value : Bytes) (ttl : Duration) :
    (Row.fresh now value ttl).restart now (some ttl) = Row.fresh now value ttl := rfl

/-- Restarting twice at one time is restarting once. -/
theorem Change.restarted_restarted (change : Change) (now : Millis) (row : Option Row) :
    change.restarted now (change.restarted now row) = change.restarted now row := by
  cases row with
  | some row => simp [restarted]
  | none =>
    cases hvalue : change.value with
    | none => simp [restarted, hvalue]
    | some value =>
      cases httl : change.ttl with
      | none => simp [restarted, hvalue, httl]
      | some ttl => simp [restarted, hvalue, httl]

namespace Table

/-! ### Something done to each key in turn -/

/-- What is done to a key replaces its row by `f` of it, touches no other key, and leaves the table
as it is where it says that nothing changed. -/
structure ActsBy (act : Table → Bytes → Bool × Table) (f : Option Row → Option Row) : Prop where
  find? : ∀ t key k, (act t key).2.find? k = if k = key then f (t.find? k) else t.find? k
  same : ∀ t key, (act t key).1 = false → (act t key).2 = t

/-- The step of `Table.forKeys`. -/
def forKeysFrom (act : Table → Bytes → Bool × Table) (start : Bool × Table) (keys : List Bytes) :
    Bool × Table :=
  keys.foldl (fun (changed, t) key => ((act t key).1 || changed, (act t key).2)) start

theorem forKeysFrom_cons (act : Table → Bytes → Bool × Table) (changed : Bool) (t : Table)
    (key : Bytes) (keys : List Bytes) :
    forKeysFrom act (changed, t) (key :: keys) =
      forKeysFrom act ((act t key).1 || changed, (act t key).2) keys := rfl

/-- A key that is listed is done once, however often it is listed. -/
theorem find?_forKeysFrom {act : Table → Bytes → Bool × Table} {f : Option Row → Option Row}
    (h : ActsBy act f) (hf : ∀ row, f (f row) = f row) (keys : List Bytes) :
    ∀ (changed : Bool) (t : Table) (k : Bytes), (forKeysFrom act (changed, t) keys).2.find? k =
      if k ∈ keys then f (t.find? k) else t.find? k := by
  induction keys with
  | nil => intro changed t k; simp [forKeysFrom]
  | cons key keys ih =>
    intro changed t k
    rw [forKeysFrom_cons, ih, h.find?]
    by_cases hk : k = key <;> by_cases hmem : k ∈ keys <;> simp [hk, hmem, hf]

/-- A loop that says that nothing changed has changed nothing. -/
theorem forKeysFrom_same {act : Table → Bytes → Bool × Table} {f : Option Row → Option Row}
    (h : ActsBy act f) (keys : List Bytes) : ∀ (changed : Bool) (t : Table),
      (forKeysFrom act (changed, t) keys).1 = false →
        changed = false ∧ (forKeysFrom act (changed, t) keys).2 = t := by
  induction keys with
  | nil => intro changed t hsame; exact ⟨hsame, rfl⟩
  | cons key keys ih =>
    intro changed t hsame
    rw [forKeysFrom_cons] at hsame ⊢
    obtain ⟨hor, heq⟩ := ih _ _ hsame
    rw [Bool.or_eq_false_iff] at hor
    exact ⟨hor.2, heq.trans (h.same t key hor.1)⟩

theorem actsBy_erase : ActsBy erase (fun _ => none) where
  find? t key k := find?_erase t key k
  same t key h := by
    have hnone : t.rows.find? key = none := by simpa [erase, ByteMap.contains] using h
    simp [erase, ByteMap.erase_eq_self hnone]

theorem actsBy_restart (change : Change) (now : Millis) :
    ActsBy (restart change now) (change.restarted now) where
  find? t key k := by
    unfold restart
    cases hrow : t.find? key with
    | some row => by_cases hk : k = key <;> simp [hk, hrow, Change.restarted]
    | none =>
      cases hvalue : change.value with
      | none => by_cases hk : k = key <;> simp [hk, hrow, hvalue, Change.restarted]
      | some value =>
        cases httl : change.ttl with
        | none => by_cases hk : k = key <;> simp [hk, hrow, hvalue, httl, Change.restarted]
        | some ttl => by_cases hk : k = key <;> simp [hk, hrow, hvalue, httl, Change.restarted]
  same t key h := by
    unfold restart at h ⊢
    split at h
    · cases h
    · split at h
      · cases h
      · rfl

theorem actsBy_setValue (value : Bytes) :
    ActsBy (setValue value) (Option.map fun row => { row with value := value }) where
  find? t key k := by
    unfold setValue
    cases hrow : t.find? key with
    | some row => by_cases hk : k = key <;> simp [hk, hrow]
    | none => by_cases hk : k = key <;> simp [hk, hrow]
  same t key h := by
    unfold setValue at h ⊢
    split at h
    · cases h
    · rfl

/-! ### A whole change -/

/-- A change acts on every row by itself. -/
theorem find?_apply (t : Table) (change : Change) (now : Millis) (key : Bytes) :
    (t.apply change now).2.find? key = change.effect now key (t.find? key) := by
  obtain ⟨kind, keys, value, ttl⟩ := change
  cases kind with
  | write =>
    cases keys with
    | nil => rfl
    | cons first rest =>
      cases value with
      | none => rfl
      | some value => simp [apply, Change.effect]
  | removeKeys => exact find?_forKeysFrom actsBy_erase (fun _ => rfl) keys false t key
  | removeBySimilarity => exact find?_forKeysFrom actsBy_erase (fun _ => rfl) keys false t key
  | removeAll => rfl
  | replaceDuration =>
    exact find?_forKeysFrom (actsBy_restart _ now) (Change.restarted_restarted _ now) keys false t key
  | resetDuration =>
    exact find?_forKeysFrom (actsBy_restart _ now) (Change.restarted_restarted _ now) keys false t key
  | replaceValue =>
    cases value with
    | none => rfl
    | some value =>
      exact find?_forKeysFrom (actsBy_setValue value) (fun row => by cases row <;> rfl) keys false t key

/-- A change that says that there was nothing to change has changed nothing. -/
theorem apply_same {t : Table} {change : Change} {now : Millis}
    (h : (t.apply change now).1 = false) : (t.apply change now).2 = t := by
  obtain ⟨kind, keys, value, ttl⟩ := change
  cases kind with
  | write =>
    cases keys with
    | nil => rfl
    | cons first rest =>
      cases value with
      | none => rfl
      | some value => cases h
  | removeKeys => exact (forKeysFrom_same actsBy_erase keys false t h).2
  | removeBySimilarity => exact (forKeysFrom_same actsBy_erase keys false t h).2
  | removeAll =>
    have hempty : t.rows.isEmpty = true := by simpa [apply] using h
    exact (congrArg Table.mk (ByteMap.isEmpty_iff.1 hempty)).symm
  | replaceDuration => exact (forKeysFrom_same (actsBy_restart _ now) keys false t h).2
  | resetDuration => exact (forKeysFrom_same (actsBy_restart _ now) keys false t h).2
  | replaceValue =>
    cases value with
    | none => rfl
    | some value => exact (forKeysFrom_same (actsBy_setValue value) keys false t h).2

theorem erase_same {t : Table} {key : Bytes} (h : (t.erase key).1 = false) :
    (t.erase key).2 = t :=
  actsBy_erase.same t key h

end Table

/-! ### Content -/

/-- What a row holds, whenever it was written: its value and the TTL it was written with. -/
def Row.content (row : Row) : Bytes × Millis := (row.value, row.ttl)

@[simp] theorem Row.content_restart (row : Row) (now : Millis) (ttl : Option Duration) :
    (row.restart now ttl).content = row.content := by
  cases ttl <;> rfl

@[simp] theorem Row.content_fresh (now : Millis) (value : Bytes) (ttl : Duration) :
    (Row.fresh now value ttl).content = (value, Clock.span ttl) := rfl

/-- What a change makes of the content of a key's row, whenever it is applied. -/
def Change.contentEffect (change : Change) (key : Bytes) (content : Option (Bytes × Millis)) :
    Option (Bytes × Millis) :=
  match change.kind with
  | .write =>
    match change.keys, change.value with
    | first :: _, some value =>
      if key = first then some (value, Clock.span (change.ttl.getD .zero)) else content
    | _, _ => content
  | .removeKeys | .removeBySimilarity => if key ∈ change.keys then none else content
  | .removeAll => none
  | .replaceDuration | .resetDuration =>
    if key ∈ change.keys then
      match content with
      | some content => some content
      | none =>
        match change.value, change.ttl with
        | some value, some ttl => some (value, Clock.span ttl)
        | _, _ => none
    else content
  | .replaceValue =>
    match change.value with
    | some value => if key ∈ change.keys then content.map (fun c => (value, c.2)) else content
    | none => content

theorem Change.content_restarted (change : Change) (now : Millis) (row : Option Row) :
    (change.restarted now row).map Row.content =
      match row.map Row.content with
      | some content => some content
      | none =>
        match change.value, change.ttl with
        | some value, some ttl => some (value, Clock.span ttl)
        | _, _ => none := by
  cases row with
  | some row => simp [restarted]
  | none =>
    cases hvalue : change.value with
    | none => simp [restarted, hvalue]
    | some value => cases httl : change.ttl <;> simp [restarted, hvalue, httl]

/-- The content of a row after a change depends on its content before, and not on the time. -/
theorem Change.content_effect (change : Change) (now : Millis) (key : Bytes) (row : Option Row) :
    (change.effect now key row).map Row.content =
      change.contentEffect key (row.map Row.content) := by
  have hduration : (if key ∈ change.keys then change.restarted now row else row).map Row.content =
      if key ∈ change.keys then (change.restarted now row).map Row.content
      else row.map Row.content := by
    split <;> rfl
  unfold effect contentEffect
  cases change.kind with
  | write =>
    cases change.keys with
    | nil => rfl
    | cons first rest =>
      cases change.value with
      | none => rfl
      | some value => by_cases hk : key = first <;> simp [hk]
  | removeKeys => by_cases hk : key ∈ change.keys <;> simp [hk]
  | removeBySimilarity => by_cases hk : key ∈ change.keys <;> simp [hk]
  | removeAll => rfl
  | replaceDuration => rw [hduration, change.content_restarted]
  | resetDuration => rw [hduration, change.content_restarted]
  | replaceValue =>
    cases change.value with
    | none => rfl
    | some value => by_cases hk : key ∈ change.keys <;> cases row <;> simp [hk, Row.content]

end ExpiringCache
