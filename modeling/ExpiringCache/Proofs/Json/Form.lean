import ExpiringCache.Json.Form
import ExpiringCache.Proofs.Json.RoundTrip

/-!
# Records read back

A record written as an object is read back by its form, if every member is a field that was not
given before and its value is read back (`Form.read_printed`). Numbers and byte strings, of which
records consist, are read back from the values they are written as. Whatever a record is read from,
what its fields preserve is true of the fields it is made of (`Form.read_preserves`).
-/

namespace ExpiringCache.Json

open Token

/-! ### Numbers and byte strings -/

/-- A number below the bound is read back. -/
theorem natural_printed {bound n : Nat} (hn : n < bound) (hbound : bound ≤ UInt64.size) :
    ReadsBack (natural bound) (fun n => printed (Json.nat n)) n := by
  intro rest hrest
  have hintegral : isIntegral n = true := by
    simp only [isIntegral, Bool.and_eq_true, decide_eq_true_eq]
    omega
  show natural bound (printed (.int n) ++ rest) = _
  rw [natural, leaf_int hintegral hrest]
  dsimp only
  rw [if_pos (by omega), Int.toNat_natCast]

theorem printed_nat_begins {n : Nat} (hn : n < UInt64.size) :
    ∃ b bs, printed (Json.nat n) = b :: bs ∧ Begins b := by
  have hexact : (Json.nat n).isExact = true := by
    simp only [Json.nat, isExact, isIntegral, Bool.and_eq_true, decide_eq_true_eq]
    omega
  obtain ⟨b, bs, htext, hbegins, -⟩ := printed_begins hexact
  exact ⟨b, bs, htext, hbegins⟩

theorem joined_map {α β : Type} (printed : β → Bytes) (f : α → β) (xs : List α) :
    joined printed (xs.map f) = joined (fun x => printed (f x)) xs := by
  cases xs with
  | nil => rfl
  | cons x xs => simp only [List.map_cons, joined, List.flatMap_map]

/-- An array is read back if its items are. -/
theorem list_printed {α : Type} {item : Bytes → Reading α} {f : α → Json} {xs : List α}
    (hback : ∀ x ∈ xs, ReadsBack item (fun x => printed (f x)) x)
    (hbegins : ∀ x ∈ xs, ∃ b bs, printed (f x) = b :: bs ∧ Begins b) (rest : Bytes) :
    list item (printed (.arr (xs.map f)) ++ rest) = .ok (xs, rest) := by
  rw [printed_arr, joined_map, List.cons_append, List.append_assoc, list, mark?_cons (by decide)]
  exact items_joined hback hbegins rest

/-- Byte strings are read back. -/
theorem bytes_printed (bs : Bytes) :
    ReadsBack bytes (fun bs => printed (.arr (bs.map fun b => Json.nat b.toNat))) bs := by
  intro rest _
  refine list_printed (fun b _ rest hrest => ?_) (fun b _ => printed_nat_begins ?_) rest
  · rw [natural_printed b.toNat_lt (by decide) rest hrest]
    simp [Except.map]
  · exact Nat.lt_trans b.toNat_lt (by decide)

/-! ### Records -/

/-- A field takes what its reader takes. -/
theorem Field.read_make {σ α : Type} {name : String} {omissible : Bool} {get : σ → Option α}
    {set : σ → α → σ} {item : Bytes → Reading α} {x : α} {s rest : Bytes}
    (h : item s = .ok (x, rest)) (filled : σ) :
    (Field.make name omissible get set item).read filled s = .ok (set filled x, rest) := by
  simp only [Field.make, h, Except.map]

namespace Form

variable {σ α : Type} {form : Form σ α} {filled full : σ} {ms : List (String × Json)}

/-- The members belong to fields not given yet, and their values fill them up. -/
inductive Fills (form : Form σ α) : σ → List (String × Json) → σ → Prop where
  | nil (filled : σ) : Fills form filled [] filled
  | cons {filled next full : σ} {field : Field σ} {name : String} {v : Json}
      {ms : List (String × Json)}
      (hfield : form.fields.find? (fun field => field.name == name) = some field)
      (hgiven : field.given filled = false)
      (hread : ∀ rest, Parted rest → field.read filled (printed v ++ rest) = .ok (next, rest))
      (hrest : Fills form next ms full) : Fills form filled ((name, v) :: ms) full

/-- The loop over members takes all of them. -/
theorem membersFrom_joined (h : form.Fills filled ms full) (hne : ms ≠ []) (rest : Bytes) :
    ∀ bound : Bytes, ms.length ≤ bound.length →
      form.membersFrom filled bound (joined printedMember ms ++ byte '\x7d' :: rest) =
        .ok (full, rest) := by
  induction h with
  | nil => exact absurd rfl hne
  | @cons filled next full field name v ms hfield hgiven hread hrest ih =>
    intro bound hbound
    obtain ⟨b, bound, rfl⟩ := List.exists_cons_of_length_pos (Nat.lt_of_lt_of_le Nat.zero_lt_one
      (Nat.le_trans (Nat.succ_le_succ (Nat.zero_le _)) hbound))
    have hvalue : ∀ more, Parted more → form.memberValue filled name
        (byte ':' :: (printed v ++ more)) = .ok (next, more) := by
      intro more hmore
      rw [memberValue, hfield]
      dsimp only
      rw [if_neg (by rw [hgiven]; exact Bool.false_ne_true), mark_cons (by decide)]
      exact hread more hmore
    cases ms with
    | nil =>
      cases hrest
      have hcomma : mark? ',' (byte '\x7d' :: rest) = none := mark?_cons_ne (by decide) (by decide)
      have hclose : mark '\x7d' (byte '\x7d' :: rest) = .ok rest := mark_cons (by decide)
      simp only [joined, List.flatMap_nil, List.append_nil, membersFrom, name_printedMember,
        hvalue _ (parted_brace rest), hcomma, hclose, Except.map]
    | cons m ms =>
      have hsplit : joined printedMember ((name, v) :: m :: ms) ++ byte '\x7d' :: rest =
          printedMember (name, v) ++ byte ',' ::
            (joined printedMember (m :: ms) ++ byte '\x7d' :: rest) := by
        simp [joined]
      rw [hsplit, membersFrom, name_printedMember]
      dsimp only
      rw [hvalue _ (parted_comma _)]
      dsimp only
      rw [mark?_cons (by decide)]
      exact ih (List.cons_ne_nil m ms) bound (Nat.le_of_succ_le_succ hbound)

/-- A record is read back from an object whose members fill its form. -/
theorem read_printed {record : α} (h : form.Fills form.blank ms full)
    (hbuild : form.build full = some record) (rest : Bytes) :
    form.read (printed (.obj ms) ++ rest) = .ok (record, rest) := by
  have hfinish : form.finish (.ok (full, rest)) = .ok (record, rest) := by
    simp only [finish, hbuild]
  rw [printed_obj, List.cons_append, List.append_assoc, read, mark?_cons (by decide)]
  dsimp only
  rw [List.singleton_append]
  cases ms with
  | nil =>
    cases h
    rw [joined, List.nil_append, mark?_cons (by decide)]
    exact hfinish
  | cons m ms =>
    have hlength : (m :: ms).length ≤ (joined printedMember (m :: ms)).length :=
      length_le_joined fun x _ => by simp [printedMember_eq]
    have hopen : mark? '\x7d' (joined printedMember (m :: ms) ++ byte '\x7d' :: rest) = none := by
      simp only [joined, printedMember_eq, List.cons_append]
      exact mark?_cons_ne (by decide) (by decide)
    rw [hopen]
    show form.finish (form.membersFrom form.blank _ _) = _
    rw [membersFrom_joined h (List.cons_ne_nil m ms) rest _ (by
      rw [List.length_append]
      omega), hfinish]

end Form

/-! ### What is read of a record -/

/-- Whatever the field reads, it keeps what is true of the fields gathered so far. -/
def Field.Preserves {σ : Type} (field : Field σ) (P : σ → Prop) : Prop :=
  ∀ filled s next rest, P filled → field.read filled s = .ok (next, rest) → P next

/-- A field preserves what is true after what its reader reads has been put in its place. -/
theorem Field.preserves_make {σ α : Type} {P : σ → Prop} {name : String} {omissible : Bool}
    {get : σ → Option α} {set : σ → α → σ} {item : Bytes → Reading α}
    (h : ∀ filled x s rest, P filled → item s = .ok (x, rest) → P (set filled x)) :
    (Field.make name omissible get set item).Preserves P := by
  intro filled s next rest hfilled hread
  have hmap : (item s).map (fun found => (set filled found.1, found.2)) = .ok (next, rest) := hread
  cases hitem : item s with
  | error e => rw [hitem] at hmap; cases hmap
  | ok found => rw [hitem] at hmap; cases hmap; exact h filled found.1 s _ hfilled hitem

namespace Form

variable {σ α : Type} {form : Form σ α} {P : σ → Prop} {filled next : σ} {s rest : Bytes}

theorem memberValue_preserves (hfields : ∀ field ∈ form.fields, field.Preserves P)
    (hfilled : P filled) {name : String} (h : form.memberValue filled name s = .ok (next, rest)) :
    P next := by
  unfold memberValue at h
  split at h
  · next field hfield =>
    split at h
    · cases h
    · cases hmark : mark ':' s with
      | error e => rw [hmark] at h; cases h
      | ok more =>
        rw [hmark] at h
        exact hfields field (List.mem_of_find?_eq_some hfield) filled more next rest hfilled h
  · cases hskip : (mark ':' s).bind Skim.value with
    | error e => rw [hskip] at h; cases h
    | ok more => rw [hskip] at h; cases h; exact hfilled

theorem membersFrom_preserves (hfields : ∀ field ∈ form.fields, field.Preserves P)
    (bound : Bytes) : ∀ {filled : σ} {s : Bytes}, P filled →
      form.membersFrom filled bound s = .ok (next, rest) → P next := by
  induction bound with
  | nil => exact fun _ h => nomatch h
  | cons b bound ih =>
    intro filled s hfilled h
    unfold membersFrom at h
    split at h
    · cases h
    split at h
    · cases h
    · next hvalue =>
      have hmore := memberValue_preserves hfields hfilled hvalue
      split at h
      · exact ih hmore h
      · next more _ _ =>
        cases hmark : mark '\x7d' more with
        | error e => rw [hmark] at h; cases h
        | ok last => rw [hmark] at h; cases h; exact hmore

theorem slotsFrom_preserves (fields : List (Field σ)) :
    ∀ {isFirst : Bool} {filled : σ} {s : Bytes}, (∀ field ∈ fields, field.Preserves P) →
      P filled → slotsFrom isFirst filled fields s = .ok (next, rest) → P next := by
  induction fields with
  | nil =>
    intro isFirst filled s _ hfilled h
    unfold slotsFrom at h
    cases hmark : mark ']' s with
    | error e => rw [hmark] at h; cases h
    | ok last => rw [hmark] at h; cases h; exact hfilled
  | cons field fields ih =>
    intro isFirst filled s hfields hfilled h
    unfold slotsFrom at h
    split at h
    · split at h
      · cases h; exact hfilled
      · cases h
    split at h
    · cases h
    split at h
    · cases h
    · next hread =>
      exact ih (fun later hlater => hfields later (List.mem_cons_of_mem _ hlater))
        (hfields field List.mem_cons_self _ _ _ _ hfilled hread) h

theorem finish_inv {reading : Reading σ} {record : α} (h : form.finish reading = .ok (record, rest))
    : ∃ full, reading = .ok (full, rest) ∧ form.build full = some record := by
  unfold finish at h
  split at h
  · cases h
  · split at h
    · next hbuild => cases h; exact ⟨_, rfl, hbuild⟩
    · cases h

/-- A record is made of fields of which everything is true that is true of none and preserved by
every field. -/
theorem read_preserves (hblank : P form.blank) (hfields : ∀ field ∈ form.fields, field.Preserves P)
    {record : α} (h : form.read s = .ok (record, rest)) :
    ∃ full, P full ∧ form.build full = some record := by
  unfold read at h
  split at h
  · split at h
    all_goals obtain ⟨full, hread, hbuild⟩ := finish_inv h
    · cases hread
      exact ⟨form.blank, hblank, hbuild⟩
    · exact ⟨full, membersFrom_preserves hfields _ hblank hread, hbuild⟩
  · split at h
    · obtain ⟨full, hread, hbuild⟩ := finish_inv h
      exact ⟨full, slotsFrom_preserves form.fields hfields hblank hread, hbuild⟩
    · cases h

end Form

end ExpiringCache.Json
