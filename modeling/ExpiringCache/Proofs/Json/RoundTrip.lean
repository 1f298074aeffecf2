import ExpiringCache.Proofs.Json.Tokens

/-!
# Values read back

A value without floating-point numbers is read back from its text, whatever follows the text, as
long as the reader may go as deep as the value is nested (`value_printed`). The induction is on the
value; the loops over items and members are done once for any reader of items (`items_joined`,
`members_joined`), with the text of an item given beside its reader.
-/

namespace ExpiringCache.Json

open Utf8 (encode)
open Token

/-! ### Exact values -/

mutual

/-- Whether a value has no floating-point number in it and is in the form in which values are kept:
integers that fit in 64 bits, members in ascending order of their names. -/
def isExact : Json → Bool
  | .null | .bool _ | .str _ => true
  | .int n => isIntegral n
  | .float _ => false
  | .arr items => areExact items
  | .obj members => decide (members.Pairwise fun a b => a.1 < b.1) && areExactMembers members

/-- Whether all items are exact. -/
def areExact : List Json → Bool
  | [] => true
  | item :: rest => isExact item && areExact rest

/-- Whether the values of all members are exact. -/
def areExactMembers : List (String × Json) → Bool
  | [] => true
  | member :: rest => isExact member.2 && areExactMembers rest

end

/-- A value that can be stored and read back: exact, and not nested deeper than the reader goes. -/
structure Storable (v : Json) : Prop where
  isExact : v.isExact = true
  depth : v.depth ≤ maxDepth

instance (v : Json) : Decidable (Storable v) :=
  decidable_of_iff (v.isExact = true ∧ v.depth ≤ maxDepth)
    ⟨fun h => ⟨h.1, h.2⟩, fun h => ⟨h.isExact, h.depth⟩⟩

/-- Members that are in order are not moved by building an object from them. -/
theorem foldr_addMember {members : List (String × Json)}
    (h : members.Pairwise fun a b => a.1 < b.1) : members.foldr addMember [] = members := by
  induction members with
  | nil => rfl
  | cons first rest ih =>
    obtain ⟨hfirst, hrest⟩ := List.pairwise_cons.1 h
    rw [List.foldr_cons, ih hrest]
    cases rest with
    | nil => rfl
    | cons second rest => rw [addMember, if_pos (hfirst second List.mem_cons_self)]

theorem object_of_pairwise {members : List (String × Json)}
    (h : members.Pairwise fun a b => a.1 < b.1) : object members = .obj members := by
  rw [object, foldr_addMember h]

/-! ### Texts as bytes -/

/-- The bytes of a value. -/
def printed (v : Json) : Bytes := encode v.render

/-- The bytes of a member. -/
def printedMember (member : String × Json) : Bytes :=
  encode (quote member.1) ++ byte ':' :: printed member.2

/-- Texts with a comma before each but the first. -/
def joined {α : Type} (printed : α → Bytes) : List α → Bytes
  | [] => []
  | x :: xs => printed x ++ xs.flatMap fun y => byte ',' :: printed y

theorem encode_comma : encode "," = [byte ','] := rfl

mutual

/-- The text of a value is put after what is there. -/
theorem encode_write : ∀ (v : Json) (out : String), encode (write out v) = encode out ++ printed v
  | .null, out => by simp [write, printed, render]
  | .bool true, out => by simp [write, printed, render]
  | .bool false, out => by simp [write, printed, render]
  | .int n, out => by simp [write, printed, render]
  | .float x, out => by simp [write, printed, render]
  | .str s, out => by simp [write, printed, render]
  | .arr items, out => by simp [write, printed, render, encode_writeItems items]
  | .obj members, out => by simp [write, printed, render, encode_writeMembers members]

theorem encode_writeItems : ∀ (items : List Json) (out : String),
    encode (writeItems out items) = encode out ++ joined printed items
  | [], out => by simp [writeItems, joined]
  | item :: rest, out => by
    rw [writeItems, encode_writeMoreItems rest, encode_write item, joined, List.append_assoc]

theorem encode_writeMoreItems : ∀ (items : List Json) (out : String),
    encode (writeMoreItems out items) = encode out ++ items.flatMap fun v => byte ',' :: printed v
  | [], out => by simp [writeMoreItems]
  | item :: rest, out => by
    rw [writeMoreItems, encode_writeMoreItems rest, encode_write item, Utf8.encode_append,
      encode_comma]
    simp

theorem encode_writeMembers : ∀ (members : List (String × Json)) (out : String),
    encode (writeMembers out members) = encode out ++ joined printedMember members
  | [], out => by simp [writeMembers, joined]
  | member :: rest, out => by
    rw [writeMembers, encode_writeMoreMembers rest, encode_writeMember member, joined,
      List.append_assoc]

theorem encode_writeMoreMembers : ∀ (members : List (String × Json)) (out : String),
    encode (writeMoreMembers out members) =
      encode out ++ members.flatMap fun m => byte ',' :: printedMember m
  | [], out => by simp [writeMoreMembers]
  | member :: rest, out => by
    rw [writeMoreMembers, encode_writeMoreMembers rest, encode_writeMember member,
      Utf8.encode_append, encode_comma]
    simp

theorem encode_writeMember : ∀ (member : String × Json) (out : String),
    encode (writeMember out member) = encode out ++ printedMember member
  | (name, v), out => by
    have hcolon : encode ":" = [byte ':'] := rfl
    rw [writeMember, encode_write v, Utf8.encode_append, Utf8.encode_append, hcolon, printedMember]
    simp

end

theorem printed_arr (items : List Json) :
    printed (.arr items) = byte '[' :: (joined printed items ++ [byte ']']) := by
  have hclose : encode "]" = [byte ']'] := rfl
  have hopen : encode ("" ++ "[") = [byte '['] := rfl
  rw [printed, render, write, Utf8.encode_append, encode_writeItems, hopen, hclose]
  rfl

theorem printed_obj (members : List (String × Json)) :
    printed (.obj members) = byte '\x7b' :: (joined printedMember members ++ [byte '\x7d']) := by
  have hclose : encode "\x7d" = [byte '\x7d'] := rfl
  have hopen : encode ("" ++ "\x7b") = [byte '\x7b'] := rfl
  rw [printed, render, write, Utf8.encode_append, encode_writeMembers, hopen, hclose]
  rfl

theorem printed_str (s : String) : printed (.str s) = byte '"' :: (inside s ++ [byte '"']) := by
  have hempty : ("" : String) ++ quote s = quote s := String.empty_append
  rw [printed, render, write, hempty, encode_quote]

theorem printed_int (n : Int) : printed (.int n) = encode (toString n) := by
  have hempty : ("" : String) ++ toString n = toString n := String.empty_append
  rw [printed, render, write, hempty]

/-! ### Values without parts -/

/-- A byte with which a text can begin where a value is expected: no blank, and no closing
bracket. -/
def Begins (b : UInt8) : Prop := isBlank b = false ∧ b ≠ byte ']'

/-- A byte with which a value without parts begins. -/
def BeginsLeaf (b : UInt8) : Prop := Begins b ∧ b ≠ byte '[' ∧ b ≠ byte '\x7b'

theorem beginsLeaf_of_beginsNumber {b : UInt8} (h : beginsNumber b = true) : BeginsLeaf b := by
  have hne : ∀ c : UInt8, beginsNumber c = false → b ≠ c := by
    rintro c hc rfl
    rw [h] at hc
    cases hc
  refine ⟨⟨?_, hne _ (by decide)⟩, hne _ (by decide), hne _ (by decide)⟩
  simp only [isBlank, Bool.or_eq_false_iff, beq_eq_false_iff_ne]
  exact ⟨⟨⟨hne _ (by decide), hne _ (by decide)⟩, hne _ (by decide)⟩, hne _ (by decide)⟩

/-- Where a value without parts begins, the reader of values reads one, at any depth. -/
theorem value_eq_leaf {b : UInt8} (h : BeginsLeaf b) (depth : Nat) (s : Bytes) :
    value depth (b :: s) = leaf (b :: s) := by
  cases depth with
  | zero => rfl
  | succ depth =>
    rw [value, mark?_cons_ne h.1.1 h.2.1]
    dsimp only
    rw [mark?_cons_ne h.1.1 h.2.2]

theorem leaf_null (rest : Bytes) : leaf (printed .null ++ rest) = .ok (.null, rest) := by
  have htext : printed .null = byte 'n' :: encode "ull" := rfl
  rw [htext, List.cons_append, leaf, skipBlanks_cons (by decide)]
  dsimp only
  rw [if_neg (by decide), if_pos rfl, word_encode]

theorem leaf_true (rest : Bytes) : leaf (printed (.bool true) ++ rest) = .ok (.bool true, rest) := by
  have htext : printed (.bool true) = byte 't' :: encode "rue" := rfl
  rw [htext, List.cons_append, leaf, skipBlanks_cons (by decide)]
  dsimp only
  rw [if_neg (by decide), if_neg (by decide), if_pos rfl, word_encode]

theorem leaf_false (rest : Bytes) :
    leaf (printed (.bool false) ++ rest) = .ok (.bool false, rest) := by
  have htext : printed (.bool false) = byte 'f' :: encode "alse" := rfl
  rw [htext, List.cons_append, leaf, skipBlanks_cons (by decide)]
  dsimp only
  rw [if_neg (by decide), if_neg (by decide), if_neg (by decide), if_pos rfl, word_encode]

theorem leaf_str (s : String) (rest : Bytes) :
    leaf (printed (.str s) ++ rest) = .ok (.str s, rest) := by
  rw [printed_str, List.cons_append, leaf, skipBlanks_cons (by decide)]
  dsimp only
  rw [if_pos rfl, List.append_assoc, List.singleton_append, string_inside]

theorem leaf_int {n : Int} (h : isIntegral n = true) {rest : Bytes} (hrest : Parted rest) :
    leaf (printed (.int n) ++ rest) = .ok (.int n, rest) := by
  obtain ⟨b, bs, numeral, htext, hbegins, hnumber, hvalue⟩ := number_toString h hrest
  have hne : ∀ c : UInt8, beginsNumber c = false → b ≠ c := by
    rintro c hc rfl
    rw [hbegins] at hc
    cases hc
  rw [printed_int, htext, List.cons_append, leaf,
    skipBlanks_cons (beginsLeaf_of_beginsNumber hbegins).1.1]
  dsimp only
  rw [if_neg (hne _ (by decide)), if_neg (hne _ (by decide)), if_neg (hne _ (by decide)),
    if_neg (hne _ (by decide)), if_pos hbegins, hnumber]
  dsimp only
  rw [hvalue]

/-- The first byte of a text. -/
theorem printed_begins {v : Json} (h : v.isExact = true) :
    ∃ b bs, printed v = b :: bs ∧ Begins b ∧ (v.depth = 0 → BeginsLeaf b) := by
  have hleaf : ∀ {b : UInt8}, BeginsLeaf b → Begins b ∧ (v.depth = 0 → BeginsLeaf b) :=
    fun hb => ⟨hb.1, fun _ => hb⟩
  cases v with
  | null => exact ⟨byte 'n', encode "ull", rfl, hleaf (by unfold BeginsLeaf Begins; decide)⟩
  | bool b =>
    cases b
    · exact ⟨byte 'f', encode "alse", rfl, hleaf (by unfold BeginsLeaf Begins; decide)⟩
    · exact ⟨byte 't', encode "rue", rfl, hleaf (by unfold BeginsLeaf Begins; decide)⟩
  | int n =>
    obtain ⟨b, bs, -, htext, hbegins, -⟩ := number_toString h parted_nil
    exact ⟨b, bs, (printed_int n).trans htext, hleaf (beginsLeaf_of_beginsNumber hbegins)⟩
  | float x => exact absurd h (by simp [isExact])
  | str s =>
    exact ⟨byte '"', _, printed_str s, hleaf (by unfold BeginsLeaf Begins; decide)⟩
  | arr items =>
    exact ⟨byte '[', _, printed_arr items, by unfold Begins; decide, fun hd => by simp [depth] at hd⟩
  | obj members =>
    exact ⟨byte '\x7b', _, printed_obj members, by unfold Begins; decide,
      fun hd => by simp [depth] at hd⟩

/-! ### Loops over items and members -/

section Loops

variable {α : Type} {item : Bytes → Reading α} {printed : α → Bytes}

/-- The reader takes the text of `x` and leaves what follows it. -/
def ReadsBack (item : Bytes → Reading α) (printed : α → Bytes) (x : α) : Prop :=
  ∀ rest, Parted rest → item (printed x ++ rest) = .ok (x, rest)

theorem parted_comma (rest : Bytes) : Parted (byte ',' :: rest) := parted_cons (by decide)

theorem parted_bracket (rest : Bytes) : Parted (byte ']' :: rest) := parted_cons (by decide)

theorem parted_brace (rest : Bytes) : Parted (byte '\x7d' :: rest) := parted_cons (by decide)

/-- The loop over items takes all of them, each of which is read back. -/
theorem itemsFrom_joined (xs : List α) : ∀ (x : α) (read : List α) (bound rest : Bytes),
    (∀ y ∈ x :: xs, ReadsBack item printed y) → xs.length < bound.length →
      itemsFrom item read bound (joined printed (x :: xs) ++ byte ']' :: rest) =
        .ok (read.reverse ++ x :: xs, rest) := by
  -- The bound loses one byte with every item, and every item has at least one.
  induction xs with
  | nil =>
    intro x read bound rest hback hbound
    obtain ⟨b, bound, rfl⟩ := List.exists_cons_of_length_pos hbound
    have hx := hback x List.mem_cons_self _ (parted_bracket rest)
    have hcomma : mark? ',' (byte ']' :: rest) = none := mark?_cons_ne (by decide) (by decide)
    have hclose : mark ']' (byte ']' :: rest) = .ok rest := mark_cons (by decide)
    simp only [joined, List.flatMap_nil, List.append_nil, itemsFrom, hx, hcomma, hclose,
      List.reverse_cons]
  | cons y xs ih =>
    intro x read bound rest hback hbound
    obtain ⟨b, bound, rfl⟩ := List.exists_cons_of_length_pos (Nat.zero_lt_of_lt hbound)
    have hsplit : joined printed (x :: y :: xs) ++ byte ']' :: rest =
        printed x ++ byte ',' :: (joined printed (y :: xs) ++ byte ']' :: rest) := by
      simp [joined]
    have hx := hback x List.mem_cons_self _ (parted_comma (joined printed (y :: xs) ++ byte ']' :: rest))
    rw [hsplit, itemsFrom, hx]
    dsimp only
    rw [mark?_cons (by decide)]
    dsimp only
    rw [ih y (x :: read) bound rest (fun z hz => hback z (List.mem_cons_of_mem _ hz))
      (by simpa using hbound)]
    simp

/-- Items take at least a byte each. -/
theorem length_le_joined {xs : List α} (h : ∀ x ∈ xs, printed x ≠ []) :
    xs.length ≤ (joined printed xs).length := by
  have hmore : ∀ ys : List α, ys.length ≤ (ys.flatMap fun y => byte ',' :: printed y).length := by
    intro ys
    induction ys with
    | nil => exact Nat.le_refl _
    | cons y ys ih => simp only [List.flatMap_cons, List.length_append, List.length_cons]; omega
  cases xs with
  | nil => exact Nat.zero_le _
  | cons x xs =>
    have hx := List.length_pos_iff.2 (h x List.mem_cons_self)
    have hxs := hmore xs
    simp only [joined, List.length_append, List.length_cons]
    omega

/-- An array is read back, its opening bracket having been read. -/
theorem items_joined {xs : List α} (hback : ∀ x ∈ xs, ReadsBack item printed x)
    (hbegins : ∀ x ∈ xs, ∃ b bs, printed x = b :: bs ∧ Begins b) (rest : Bytes) :
    items item (joined printed xs ++ byte ']' :: rest) = .ok (xs, rest) := by
  cases xs with
  | nil => rw [joined, List.nil_append, items, mark?_cons (by decide)]
  | cons x xs =>
    have hlength : (x :: xs).length ≤ (joined printed (x :: xs)).length :=
      length_le_joined fun y hy => by
        obtain ⟨b, bs, hy, -⟩ := hbegins y hy
        simp [hy]
    obtain ⟨b, bs, hx, hblank, hclose⟩ := hbegins x List.mem_cons_self
    have hnone : mark? ']' (joined printed (x :: xs) ++ byte ']' :: rest) = none := by
      simp only [joined, hx, List.cons_append]
      exact mark?_cons_ne hblank hclose
    rw [items, hnone]
    dsimp only
    rw [itemsFrom_joined xs x [] _ rest hback (by
      simp only [List.length_append, List.length_cons] at hlength ⊢
      omega)]
    rfl

end Loops

/-- The reader of values takes the text of a member's value and leaves what follows it. -/
def MemberReadsBack (value : Bytes → Reading Json) (m : String × Json) : Prop :=
  ReadsBack value printed m.2

theorem printedMember_eq (m : String × Json) :
    printedMember m = byte '"' :: (inside m.1 ++ byte '"' :: byte ':' :: printed m.2) := by
  rw [printedMember, encode_quote]
  simp

/-- The name of a member is read back. -/
theorem name_printedMember (m : String × Json) (rest : Bytes) :
    name (printedMember m ++ rest) = .ok (m.1, byte ':' :: (printed m.2 ++ rest)) := by
  rw [printedMember_eq, List.cons_append, name, mark_cons (by decide)]
  exact (congrArg string (by simp)).trans (string_inside m.1 (byte ':' :: (printed m.2 ++ rest)))

/-- A member is read back. -/
theorem member_printedMember {value : Bytes → Reading Json} {m : String × Json}
    (h : MemberReadsBack value m) : ReadsBack (member value) printedMember m := by
  intro rest hrest
  rw [member, name_printedMember]
  dsimp only
  rw [mark_cons (by decide)]
  dsimp only
  rw [h rest hrest]

/-- The loop over members takes all of them, each of which is read back. -/
theorem membersFrom_joined {value : Bytes → Reading Json} (ms : List (String × Json)) :
    ∀ (m : String × Json) (read : List (String × Json)) (bound rest : Bytes),
      (∀ x ∈ m :: ms, MemberReadsBack value x) → ms.length < bound.length →
        membersFrom value read bound (joined printedMember (m :: ms) ++ byte '\x7d' :: rest) =
          .ok (read.reverse ++ m :: ms, rest) := by
  induction ms with
  | nil =>
    intro m read bound rest hback hbound
    obtain ⟨b, bound, rfl⟩ := List.exists_cons_of_length_pos hbound
    have hm := member_printedMember (hback m List.mem_cons_self) _ (parted_brace rest)
    have hcomma : mark? ',' (byte '\x7d' :: rest) = none := mark?_cons_ne (by decide) (by decide)
    have hclose : mark '\x7d' (byte '\x7d' :: rest) = .ok rest := mark_cons (by decide)
    simp only [joined, List.flatMap_nil, List.append_nil, membersFrom, hm, hcomma, hclose,
      List.reverse_cons]
  | cons n ms ih =>
    intro m read bound rest hback hbound
    obtain ⟨b, bound, rfl⟩ := List.exists_cons_of_length_pos (Nat.zero_lt_of_lt hbound)
    have hsplit : joined printedMember (m :: n :: ms) ++ byte '\x7d' :: rest =
        printedMember m ++ byte ',' :: (joined printedMember (n :: ms) ++ byte '\x7d' :: rest) := by
      simp [joined]
    have hm := member_printedMember (hback m List.mem_cons_self) _
      (parted_comma (joined printedMember (n :: ms) ++ byte '\x7d' :: rest))
    rw [hsplit, membersFrom, hm]
    dsimp only
    rw [mark?_cons (by decide)]
    dsimp only
    rw [ih n (m :: read) bound rest (fun x hx => hback x (List.mem_cons_of_mem _ hx))
      (by simpa using hbound)]
    simp

/-- An object's members are read back, its opening brace having been read. -/
theorem members_joined {value : Bytes → Reading Json} {ms : List (String × Json)}
    (hback : ∀ m ∈ ms, MemberReadsBack value m) (rest : Bytes) :
    members value (joined printedMember ms ++ byte '\x7d' :: rest) = .ok (ms, rest) := by
  cases ms with
  | nil => rw [joined, List.nil_append, members, mark?_cons (by decide)]
  | cons m ms =>
    have hlength : (m :: ms).length ≤ (joined printedMember (m :: ms)).length :=
      length_le_joined fun x _ => by simp [printedMember_eq]
    have hnone : mark? '\x7d' (joined printedMember (m :: ms) ++ byte '\x7d' :: rest) = none := by
      simp only [joined, printedMember_eq, List.cons_append]
      exact mark?_cons_ne (by decide) (by decide)
    rw [members, hnone]
    dsimp only
    rw [membersFrom_joined ms m [] _ rest hback (by
      simp only [List.length_append, List.length_cons] at hlength ⊢
      omega)]
    rfl

/-! ### Values -/

/-- A value without parts is read back at any depth. -/
theorem value_printed_leaf {v : Json} (hexact : v.isExact = true) (hdepth : v.depth = 0)
    (hleaf : ReadsBack leaf printed v) (depth : Nat) : ReadsBack (value depth) printed v := by
  intro rest hrest
  obtain ⟨b, bs, htext, -, hbegins⟩ := printed_begins hexact
  have hvalue := value_eq_leaf (hbegins hdepth) depth (bs ++ rest)
  have hback := hleaf rest hrest
  rw [htext, List.cons_append] at hback ⊢
  rw [hvalue, hback]

mutual

/-- An exact value is read back by a reader that may go as deep as it is nested. -/
theorem value_printed : ∀ (v : Json) (depth : Nat), v.isExact = true → v.depth ≤ depth →
    ReadsBack (value depth) printed v
  | .null, d, hexact, _ => value_printed_leaf hexact rfl (fun rest _ => leaf_null rest) d
  | .bool true, d, hexact, _ => value_printed_leaf hexact rfl (fun rest _ => leaf_true rest) d
  | .bool false, d, hexact, _ => value_printed_leaf hexact rfl (fun rest _ => leaf_false rest) d
  | .int n, d, hexact, _ =>
    value_printed_leaf hexact rfl (fun _ hrest => leaf_int (by simpa [isExact] using hexact) hrest) d
  | .float x, _, hexact, _ => by simp [isExact] at hexact
  | .str s, d, hexact, _ => value_printed_leaf hexact rfl (fun rest _ => leaf_str s rest) d
  | .arr items, 0, _, hdepth => by simp [depth] at hdepth
  | .arr items, d + 1, hexact, hdepth => by
    intro rest _
    have hitems : areExact items = true := by simpa [isExact] using hexact
    have hback := values_printed items d hitems (by simpa [depth] using hdepth)
    rw [printed_arr, List.cons_append, List.append_assoc, value, mark?_cons (by decide)]
    dsimp only
    rw [List.singleton_append, items_joined (fun x hx => (hback x hx).1) (fun x hx => (hback x hx).2)]
  | .obj ms, 0, _, hdepth => by simp [depth] at hdepth
  | .obj ms, d + 1, hexact, hdepth => by
    intro rest _
    simp only [isExact, Bool.and_eq_true, decide_eq_true_eq] at hexact
    have hback := memberValues_printed ms d hexact.2 (by simpa [depth] using hdepth)
    rw [printed_obj, List.cons_append, List.append_assoc, value, mark?_cons_ne (by decide) (by decide)]
    dsimp only
    rw [mark?_cons (by decide)]
    dsimp only
    rw [List.singleton_append, members_joined hback]
    dsimp only
    -- The names are distinct and in order, so building the object changes nothing.
    rw [object_of_pairwise hexact.1]

/-- Exact items are read back, and no item begins like the end of the array. -/
theorem values_printed : ∀ (items : List Json) (depth : Nat), areExact items = true →
    depthItems items ≤ depth → ∀ v ∈ items, ReadsBack (value depth) printed v ∧
      ∃ b bs, printed v = b :: bs ∧ Begins b
  | [], _, _, _, v, hv => absurd hv (List.not_mem_nil)
  | item :: rest, d, hexact, hdepth, v, hv => by
    simp only [areExact, Bool.and_eq_true] at hexact
    simp only [depthItems, Nat.max_le] at hdepth
    have hitem := value_printed item d hexact.1 hdepth.1
    have hrest := values_printed rest d hexact.2 hdepth.2
    rcases List.mem_cons.1 hv with rfl | hv
    · obtain ⟨b, bs, htext, hbegins, -⟩ := printed_begins hexact.1
      exact ⟨hitem, b, bs, htext, hbegins⟩
    · exact hrest v hv

/-- The values of exact members are read back. -/
theorem memberValues_printed : ∀ (ms : List (String × Json)) (depth : Nat),
    areExactMembers ms = true → depthMembers ms ≤ depth →
      ∀ m ∈ ms, MemberReadsBack (value depth) m
  | [], _, _, _, m, hm => absurd hm (List.not_mem_nil)
  | (name, v) :: rest, d, hexact, hdepth, m, hm => by
    simp only [areExactMembers, Bool.and_eq_true] at hexact
    simp only [depthMembers, Nat.max_le] at hdepth
    have hmember := value_printed v d hexact.1 hdepth.1
    have hrest := memberValues_printed rest d hexact.2 hdepth.2
    rcases List.mem_cons.1 hm with rfl | hm
    · exact hmember
    · exact hrest m hm

end

/-- What can be stored is read back from its text. -/
theorem parse_printed {v : Json} (h : Storable v) : parse (printed v) = .ok v := by
  have hback := value_printed v maxDepth h.isExact h.depth [] parted_nil
  rw [List.append_nil] at hback
  rw [parse, parseTo, hback]
  rfl

/-! ### Nesting -/

/-- A value in so many arrays. -/
def nested : Nat → Json → Json
  | 0, v => v
  | n + 1, v => .arr [nested n v]

theorem printed_nested (n : Nat) (v : Json) :
    printed (nested n v) =
      List.replicate n (byte '[') ++ (printed v ++ List.replicate n (byte ']')) := by
  induction n with
  | zero => simp [nested]
  | succ n ih =>
    rw [nested, printed_arr, joined, List.flatMap_nil, List.append_nil, ih, List.replicate_succ,
      List.replicate_succ']
    simp only [List.cons_append, List.append_assoc]

/-- More opening brackets than the reader goes deep are not read. -/
theorem value_deep (depth : Nat) (s : Bytes) :
    ∃ e, value depth (List.replicate (depth + 1) (byte '[') ++ s) = .error e := by
  induction depth with
  | zero =>
    refine ⟨.malformed, ?_⟩
    show leaf (byte '[' :: s) = _
    rw [leaf, skipBlanks_cons (by decide)]
    rfl
  | succ depth ih =>
    obtain ⟨e, he⟩ := ih
    refine ⟨e, ?_⟩
    rw [List.replicate_succ, List.cons_append, value, mark?_cons (by decide)]
    dsimp only
    have hopen : List.replicate (depth + 1) (byte '[') ++ s =
        byte '[' :: (List.replicate depth (byte '[') ++ s) := rfl
    rw [hopen] at he ⊢
    rw [items, mark?_cons_ne (by decide) (by decide)]
    dsimp only
    rw [itemsFrom, he]

/-- A value in more arrays than the reader goes deep is not read back. -/
theorem parse_nested {n : Nat} (h : maxDepth < n) (v : Json) :
    ∃ e, parse (printed (nested n v)) = .error e := by
  obtain ⟨m, rfl⟩ : ∃ m, n = maxDepth + 1 + m := ⟨n - (maxDepth + 1), by omega⟩
  obtain ⟨e, he⟩ := value_deep maxDepth
    (List.replicate m (byte '[') ++ (printed v ++ List.replicate (maxDepth + 1 + m) (byte ']')))
  refine ⟨e, ?_⟩
  have htext : printed (nested (maxDepth + 1 + m) v) =
      List.replicate (maxDepth + 1) (byte '[') ++ (List.replicate m (byte '[') ++
        (printed v ++ List.replicate (maxDepth + 1 + m) (byte ']'))) := by
    rw [printed_nested, ← List.append_assoc (List.replicate (maxDepth + 1) _),
      List.replicate_append_replicate]
  rw [htext, parse, parseTo, he]
  rfl

end ExpiringCache.Json
