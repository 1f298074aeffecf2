import ExpiringCache.Proofs.Codec

/-!
# How deep values are read

A reader that may go so deep reads nothing that is nested deeper, and one that may go deeper reads
the same where the first one reads something (`Json.value_within`, `Json.value_extends`). As an
exact value is read back by a reader that may go deep enough, it is read back by no other
(`Codec.decodeValue_printed_of_exact`). What is read is exact if it has no floating-point number in
it.
-/

namespace ExpiringCache

namespace Json

open Token

/-! ### Values without floating-point numbers -/

mutual

/-- Whether a value has no floating-point number in it. -/
def isFloatFree : Json → Bool
  | .float _ => false
  | .arr items => areFloatFree items
  | .obj members => areFloatFreeMembers members
  | _ => true

/-- Whether no item has a floating-point number in it. -/
def areFloatFree : List Json → Bool
  | [] => true
  | item :: rest => isFloatFree item && areFloatFree rest

/-- Whether no member has a floating-point number in it. -/
def areFloatFreeMembers : List (String × Json) → Bool
  | [] => true
  | member :: rest => isFloatFree member.2 && areFloatFreeMembers rest

end

/-- What is said of a value that is read: how deep it is nested at most, and that it is exact unless
there is a floating-point number in it. -/
structure Within (depth : Nat) (v : Json) : Prop where
  depth : v.depth ≤ depth
  exact : v.isFloatFree = true → v.isExact = true

theorem within_arr {depth : Nat} {items : List Json} (h : ∀ v ∈ items, Within depth v) :
    Within (depth + 1) (.arr items) := by
  induction items with
  | nil => exact ⟨by simp [Json.depth, depthItems], fun _ => rfl⟩
  | cons item rest ih =>
    have hitem := h item List.mem_cons_self
    have hrest := ih fun v hv => h v (List.mem_cons_of_mem _ hv)
    have hdepth := hrest.depth
    simp only [Json.depth, Nat.add_le_add_iff_right] at hdepth
    refine ⟨?_, fun hfree => ?_⟩
    · simp only [Json.depth, depthItems, Nat.add_le_add_iff_right]
      exact Nat.max_le.2 ⟨hitem.depth, hdepth⟩
    · simp only [isFloatFree, areFloatFree, Bool.and_eq_true] at hfree
      have hexact := hrest.exact hfree.2
      simp only [isExact] at hexact
      simp only [isExact, areExact, Bool.and_eq_true]
      exact ⟨hitem.exact hfree.1, hexact⟩

/-- An object with its members in order. -/
theorem within_obj {depth : Nat} {members : List (String × Json)}
    (hordered : members.Pairwise fun a b => a.1 < b.1) (h : ∀ m ∈ members, Within depth m.2) :
    Within (depth + 1) (.obj members) := by
  induction members with
  | nil => exact ⟨by simp [Json.depth, depthMembers], fun _ => rfl⟩
  | cons member rest ih =>
    have hmember := h member List.mem_cons_self
    have hrest := ih hordered.of_cons fun m hm => h m (List.mem_cons_of_mem _ hm)
    have hdepth := hrest.depth
    simp only [Json.depth, Nat.add_le_add_iff_right] at hdepth
    refine ⟨?_, fun hfree => ?_⟩
    · simp only [Json.depth, depthMembers, Nat.add_le_add_iff_right]
      exact Nat.max_le.2 ⟨hmember.depth, hdepth⟩
    · simp only [isFloatFree, areFloatFreeMembers, Bool.and_eq_true] at hfree
      have hexact := hrest.exact hfree.2
      simp only [isExact, Bool.and_eq_true] at hexact
      simp only [isExact, areExactMembers, Bool.and_eq_true, decide_eq_true_eq]
      exact ⟨hordered, hmember.exact hfree.1, hexact.2⟩

/-! ### Objects -/

/-- To add a member brings in that member and no other. -/
theorem mem_addMember {member m : String × Json} {members : List (String × Json)}
    (h : m ∈ addMember member members) : m = member ∨ m ∈ members := by
  induction members with
  | nil => exact .inl (List.mem_singleton.1 h)
  | cons first rest ih =>
    unfold addMember at h
    split at h
    · exact List.mem_cons.1 h
    · split at h
      · exact .inr h
      · rcases List.mem_cons.1 h with rfl | h
        · exact .inr List.mem_cons_self
        · exact (ih h).imp id (List.mem_cons_of_mem _)

/-- To add a member keeps members in order. -/
theorem pairwise_addMember {member : String × Json} {members : List (String × Json)}
    (h : members.Pairwise fun a b => a.1 < b.1) :
    (addMember member members).Pairwise fun a b => a.1 < b.1 := by
  induction members with
  | nil => exact List.pairwise_singleton _ _
  | cons first rest ih =>
    obtain ⟨hfirst, hrest⟩ := List.pairwise_cons.1 h
    unfold addMember
    split
    · next hlt =>
      refine List.pairwise_cons.2 ⟨fun m hm => ?_, h⟩
      rcases List.mem_cons.1 hm with rfl | hm
      · exact hlt
      · exact String.lt_trans hlt (hfirst m hm)
    · next hge =>
      split
      · exact h
      · next hne =>
        refine List.pairwise_cons.2 ⟨fun m hm => ?_, ih hrest⟩
        rcases mem_addMember hm with rfl | hm
        · exact Decidable.byContradiction fun h =>
            hne (String.le_antisymm (String.not_lt.1 h) (String.not_lt.1 hge))
        · exact hfirst m hm

theorem pairwise_object (members : List (String × Json)) :
    (members.foldr addMember []).Pairwise fun a b => a.1 < b.1 := by
  induction members with
  | nil => exact .nil
  | cons member rest ih => exact pairwise_addMember ih

theorem mem_object {m : String × Json} {members : List (String × Json)}
    (h : m ∈ members.foldr addMember []) : m ∈ members := by
  induction members with
  | nil => exact h
  | cons member rest ih =>
    rcases mem_addMember h with rfl | h
    · exact List.mem_cons_self
    · exact List.mem_cons_of_mem _ (ih h)

/-! ### Values without parts -/

theorem isIntegral_integer? {n : Numeral} {i : Int} (h : n.integer? = some i) :
    isIntegral i = true := by
  unfold Numeral.integer? at h
  simp only [isIntegral, Bool.and_eq_true, decide_eq_true_eq]
  split at h
  · cases h
  · dsimp only at h
    split at h
    · split at h
      · cases h
        omega
      · cases h
    · split at h
      · cases h
        omega
      · cases h

theorem word_inv {text : String} {v v' : Json} {s rest : Bytes}
    (h : word text v s = .ok (v', rest)) : v' = v := by
  unfold word at h
  split at h
  · cases h
    rfl
  · cases h

theorem within_numberValue {n : Numeral} {v : Json} (h : numberValue n = some v) : Within 0 v := by
  unfold numberValue at h
  split at h
  · next i hi =>
    cases h
    exact ⟨Nat.le_refl _, fun _ => isIntegral_integer? hi⟩
  · obtain ⟨x, -, rfl⟩ := Option.map_eq_some_iff.1 h
    exact ⟨Nat.le_refl _, fun hfree => absurd hfree Bool.false_ne_true⟩

/-- What is read as a value without parts has none. -/
theorem leaf_within {s rest : Bytes} {v : Json} (h : leaf s = .ok (v, rest)) : Within 0 v := by
  have hstr : ∀ text, Within 0 (.str text) := fun _ => ⟨Nat.le_refl _, fun _ => rfl⟩
  have hnull : Within 0 .null := ⟨Nat.le_refl _, fun _ => rfl⟩
  have hbool : ∀ b, Within 0 (.bool b) := fun _ => ⟨Nat.le_refl _, fun _ => rfl⟩
  unfold leaf at h
  split at h
  · cases h
  split at h
  · split at h
    · cases h
      exact hstr _
    · cases h
  split at h
  · exact word_inv h ▸ hnull
  split at h
  · exact word_inv h ▸ hbool true
  split at h
  · exact word_inv h ▸ hbool false
  split at h
  · split at h
    · split at h
      · next hvalue =>
        cases h
        exact within_numberValue hvalue
      · cases h
    · cases h
  · cases h

/-- What begins with an opening bracket or brace is no value without parts. -/
theorem leaf_of_mark? {c : Char} {s rest : Bytes} (hc : c = '[' ∨ c = '\x7b')
    (h : mark? c s = some rest) : leaf s = .error .malformed := by
  unfold mark? at h
  split at h
  · cases h
  · next b more hskip =>
    obtain ⟨hb, -⟩ := Option.ite_none_right_eq_some.1 h
    rw [leaf, hskip, hb]
    rcases hc with rfl | rfl <;> rfl

/-! ### Loops over items and members -/

section Loops

variable {α : Type}

/-- What the loop over items takes is what was taken before and what the reader of items takes. -/
theorem itemsFrom_forall {item : Bytes → Reading α} {P : α → Prop}
    (hitem : ∀ s x rest, item s = .ok (x, rest) → P x) (bound : Bytes) :
    ∀ {read : List α} {s rest : Bytes} {xs : List α}, (∀ x ∈ read, P x) →
      itemsFrom item read bound s = .ok (xs, rest) → ∀ x ∈ xs, P x := by
  induction bound with
  | nil => exact fun _ h => nomatch h
  | cons b bound ih =>
    intro read s rest xs hread h
    unfold itemsFrom at h
    split at h
    · cases h
    · next x more hx =>
      have hread' : ∀ y ∈ x :: read, P y := List.forall_mem_cons.2 ⟨hitem s x more hx, hread⟩
      split at h
      · exact ih hread' h
      · split at h
        · cases h
          exact fun y hy => hread' y (List.mem_reverse.1 hy)
        · cases h

theorem items_forall {item : Bytes → Reading α} {P : α → Prop}
    (hitem : ∀ s x rest, item s = .ok (x, rest) → P x) {s rest : Bytes} {xs : List α}
    (h : items item s = .ok (xs, rest)) : ∀ x ∈ xs, P x := by
  unfold items at h
  split at h
  · cases h
    exact fun _ hx => absurd hx List.not_mem_nil
  · exact itemsFrom_forall hitem s (fun _ hx => absurd hx List.not_mem_nil) h

theorem member_forall {value : Bytes → Reading α} {P : α → Prop}
    (hvalue : ∀ s x rest, value s = .ok (x, rest) → P x) {s rest : Bytes} {m : String × α}
    (h : member value s = .ok (m, rest)) : P m.2 := by
  unfold member at h
  split at h
  · cases h
  split at h
  · cases h
  split at h
  · cases h
  · next hx =>
    cases h
    exact hvalue _ _ _ hx

/-- What the loop over members takes is what was taken before and what the reader of values
takes. -/
theorem membersFrom_forall {value : Bytes → Reading α} {P : α → Prop}
    (hvalue : ∀ s x rest, value s = .ok (x, rest) → P x) (bound : Bytes) :
    ∀ {read : List (String × α)} {s rest : Bytes} {ms : List (String × α)},
      (∀ m ∈ read, P m.2) → membersFrom value read bound s = .ok (ms, rest) → ∀ m ∈ ms, P m.2 := by
  induction bound with
  | nil => exact fun _ h => nomatch h
  | cons b bound ih =>
    intro read s rest ms hread h
    unfold membersFrom at h
    split at h
    · cases h
    · next m more hm =>
      have hread' : ∀ n ∈ m :: read, P n.2 :=
        List.forall_mem_cons.2 ⟨member_forall hvalue hm, hread⟩
      split at h
      · exact ih hread' h
      · split at h
        · cases h
          exact fun n hn => hread' n (List.mem_reverse.1 hn)
        · cases h

theorem members_forall {value : Bytes → Reading α} {P : α → Prop}
    (hvalue : ∀ s x rest, value s = .ok (x, rest) → P x) {s rest : Bytes}
    {ms : List (String × α)} (h : members value s = .ok (ms, rest)) : ∀ m ∈ ms, P m.2 := by
  unfold members at h
  split at h
  · cases h
    exact fun _ hm => absurd hm List.not_mem_nil
  · exact membersFrom_forall hvalue s (fun _ hm => absurd hm List.not_mem_nil) h

/-- Where the one reader reads something, the other reads the same. -/
def Extends (item item' : Bytes → Reading α) : Prop :=
  ∀ s x rest, item s = .ok (x, rest) → item' s = .ok (x, rest)

variable {item item' : Bytes → Reading α}

theorem Extends.itemsFrom (h : Extends item item') (bound : Bytes) (read : List α) :
    Extends (itemsFrom item read bound) (itemsFrom item' read bound) := by
  induction bound generalizing read with
  | nil => exact fun _ _ _ hread => nomatch hread
  | cons b bound ih =>
    intro s xs rest hread
    unfold Json.itemsFrom at hread ⊢
    cases hx : item s with
    | error e => simp [hx] at hread
    | ok found =>
      rw [hx] at hread
      rw [h s found.1 found.2 hx]
      dsimp only at hread ⊢
      cases hcomma : mark? ',' found.2 with
      | some more =>
        rw [hcomma] at hread
        exact ih _ _ _ _ hread
      | none =>
        rw [hcomma] at hread
        exact hread

theorem Extends.items (h : Extends item item') : Extends (items item) (items item') := by
  intro s xs rest hread
  unfold Json.items at hread ⊢
  split at hread
  · exact hread
  · exact h.itemsFrom s [] s xs rest hread

theorem Extends.member (h : Extends item item') : Extends (member item) (member item') := by
  intro s m rest hread
  unfold Json.member at hread ⊢
  split at hread
  · cases hread
  split at hread
  · cases hread
  split at hread
  · cases hread
  · next hx =>
    rw [h _ _ _ hx]
    exact hread

theorem Extends.membersFrom (h : Extends item item') (bound : Bytes) (read : List (String × α)) :
    Extends (membersFrom item read bound) (membersFrom item' read bound) := by
  induction bound generalizing read with
  | nil => exact fun _ _ _ hread => nomatch hread
  | cons b bound ih =>
    intro s ms rest hread
    unfold Json.membersFrom at hread ⊢
    cases hm : Json.member item s with
    | error e => simp [hm] at hread
    | ok found =>
      rw [hm] at hread
      rw [h.member s found.1 found.2 hm]
      dsimp only at hread ⊢
      cases hcomma : mark? ',' found.2 with
      | some more =>
        rw [hcomma] at hread
        exact ih _ _ _ _ hread
      | none =>
        rw [hcomma] at hread
        exact hread

theorem Extends.members (h : Extends item item') : Extends (members item) (members item') := by
  intro s ms rest hread
  unfold Json.members at hread ⊢
  split at hread
  · exact hread
  · exact h.membersFrom s [] s ms rest hread

end Loops

/-! ### Values -/

/-- What is read is nested no deeper than the reader goes, and exact but for floating-point
numbers. -/
theorem value_within (depth : Nat) : ∀ (s : Bytes) (v : Json) (rest : Bytes),
    value depth s = .ok (v, rest) → Within depth v := by
  induction depth with
  | zero => exact fun _ _ _ h => leaf_within h
  | succ depth ih =>
    intro s v rest h
    unfold value at h
    split at h
    · split at h
      · next hitems =>
        cases h
        exact within_arr (items_forall ih hitems)
      · cases h
    split at h
    · split at h
      · next hmembers =>
        cases h
        exact within_obj (pairwise_object _) fun m hm =>
          members_forall ih hmembers m (mem_object hm)
      · cases h
    · have hleaf := leaf_within h
      exact ⟨Nat.le_trans hleaf.depth (Nat.zero_le _), hleaf.exact⟩

/-- A reader that may go deeper reads the same. -/
theorem value_extends (depth : Nat) : ∀ {depth' : Nat}, depth ≤ depth' →
    Extends (value depth) (value depth') := by
  induction depth with
  | zero =>
    intro depth' _ s v rest h
    cases depth' with
    | zero => exact h
    | succ depth' =>
      have hleaf : leaf s = .ok (v, rest) := h
      have hnone : ∀ c, c = '[' ∨ c = '\x7b' → mark? c s = none := by
        intro c hc
        refine Option.eq_none_iff_forall_ne_some.2 fun more hmore => ?_
        rw [leaf_of_mark? hc hmore] at hleaf
        cases hleaf
      simp only [value, hnone '[' (.inl rfl), hnone '\x7b' (.inr rfl)]
      exact hleaf
  | succ depth ih =>
    intro depth' hle s v rest h
    cases depth' with
    | zero => cases hle
    | succ depth' =>
      have hless := ih (Nat.le_of_succ_le_succ hle)
      unfold value at h ⊢
      split at h
      · split at h
        · next hitems =>
          rw [hless.items _ _ _ hitems]
          exact h
        · cases h
      split at h
      · split at h
        · next hmembers =>
          rw [hless.members _ _ _ hmembers]
          exact h
        · cases h
      · exact h

/-- An exact value is read from its text only by readers that may go as deep as it is nested. -/
theorem depth_le_of_value {v w : Json} (h : v.isExact = true) {depth : Nat} {rest : Bytes}
    (hread : value depth (printed v) = .ok (w, rest)) : v.depth ≤ depth := by
  -- A reader that may go deep enough for both reads the value, and what was read.
  have hdeep := value_extends depth (Nat.le_max_left depth v.depth) _ _ _ hread
  have hback := value_printed v _ h (Nat.le_max_right depth v.depth) [] parted_nil
  rw [List.append_nil, hdeep] at hback
  cases hback
  exact (value_within depth _ _ _ hread).depth

end Json

/-- **An exact value is read back if it is nested as deep as values are read, and else it stands for
nothing.** -/
theorem Codec.decodeValue_printed_of_exact {v : Json} (h : v.isExact = true) :
    decodeValue v.printed =
      if v.depth ≤ Json.maxDepth then .ok (some v) else .error .value := by
  split
  · next hdepth => exact decodeValue_printed ⟨h, hdepth⟩
  · next hdepth =>
    obtain ⟨b, bs, htext, -⟩ := Json.printed_begins h
    have hne : v.printed.isEmpty = false := by rw [htext]; rfl
    have herror : ∃ e, Json.parse v.printed = .error e := by
      cases hread : Json.value Json.maxDepth v.printed with
      | error e => exact ⟨e, by rw [Json.parse, Json.parseTo, hread]; rfl⟩
      | ok found => exact absurd (Json.depth_le_of_value h hread) hdepth
    obtain ⟨e, he⟩ := herror
    rw [decodeValue, hne, he]
    rfl

end ExpiringCache
