import ExpiringCache.Proofs.Command
import ExpiringCache.Proofs.Gate
import ExpiringCache.Proofs.Json.Depth

/-!
# What a removal by similarity removes and names

A removal by similarity takes every live key with the given beginning out of the store, whatever its
bytes. What it answers, and what is recorded of it, are names: texts, to which the removed keys are
repaired. Of a key that is a text this is the key itself, but a key that is none is named by a text
that is another key, and several keys may be named by one text. So of the removed keys just those
that are texts lose their rows (`Cache.similar_removed`).
-/

namespace ExpiringCache

/-- A key is a text if it is not changed by being repaired. -/
theorem Codec.encodeKey_repair_iff {key : Bytes} :
    encodeKey (Utf8.repair key) = key ↔ ∃ text, key = encodeKey text := by
  constructor
  · exact fun h => ⟨_, h.symm⟩
  · rintro ⟨text, rfl⟩
    rw [repair_encodeKey]

namespace Cache

variable {c : Cache} {now : Millis} {start : String} {key : Bytes}

/-- A removal by similarity removes this key. -/
def Similar (c : Cache) (now : Millis) (start : String) (key : Bytes) : Prop :=
  (c.store.live? now key).isSome = true ∧ key.startsWith (Codec.encodeKey start) = true

instance : Decidable (c.Similar now start key) := inferInstanceAs (Decidable (_ ∧ _))

/-- What a removal by similarity does in the store. -/
def similarTurn (c : Cache) (now : Millis) (start : String) : Turn (List (Bytes × Bytes)) :=
  c.store.removeWhere now fun key => key.startsWith (Codec.encodeKey start)

/-- What it answers. -/
def similarMembers (c : Cache) (now : Millis) (start : String) : List (String × Json) :=
  ((c.similarTurn now start).answer.map Command.removedMember).foldr Json.addMember []

/-- The keys that are named by what it answers. -/
def namedKeys (c : Cache) (now : Millis) (start : String) : List Bytes :=
  ((c.similarMembers now start).map (·.1)).map Codec.encodeKey

theorem similarTurn_acts (c : Cache) (now : Millis) (start : String) : c.store.Acts now (fun _ => True)
    (fun key live => live.filter fun _ => !key.startsWith (Codec.encodeKey start))
    (c.similarTurn now start) := Store.removeWhere_acts _

theorem similar_iff : c.Similar now start key ↔ ∃ e, c.store.live? now key = some e ∧
    key.startsWith (Codec.encodeKey start) = true := by
  rw [Similar, Option.isSome_iff_exists]
  exact exists_and_right.symm

/-! ### Names -/

theorem mem_similarNames {name : String} :
    name ∈ (c.similarMembers now start).map (·.1) ↔
      ∃ key, c.Similar now start key ∧ Utf8.repair key = name := by
  refine (Command.mem_removedNames _ name).trans ?_
  simp only [similar_iff]
  constructor
  · rintro ⟨key, e, hlive, hstart, hname⟩
    exact ⟨key, ⟨e, hlive, hstart⟩, hname⟩
  · rintro ⟨key, ⟨e, hlive, hstart⟩, hname⟩
    exact ⟨key, e, hlive, hstart, hname⟩

/-- A removed key is named if it is a text. -/
theorem mem_namedKeys_iff (h : c.Similar now start key) :
    key ∈ c.namedKeys now start ↔ ∃ text, key = Codec.encodeKey text := by
  constructor
  · intro hmem
    obtain ⟨name, -, hname⟩ := List.mem_map.1 hmem
    exact ⟨name, hname.symm⟩
  · rintro ⟨text, rfl⟩
    exact List.mem_map_of_mem (mem_similarNames.2 ⟨_, h, Codec.repair_encodeKey text⟩)

/-- Every answered member is what some removed entry is answered as. -/
theorem mem_similarMembers {m : String × Json} (h : m ∈ c.similarMembers now start) :
    ∃ key e, c.Similar now start key ∧ c.store.live? now key = some e ∧
      m = Command.removedMember (key, e.value) := by
  obtain ⟨⟨key, value⟩, hentry, rfl⟩ := List.mem_map.1 (Json.mem_object h)
  obtain ⟨e, hlive, hstart, rfl⟩ := Store.mem_removeWhere_answer.1 hentry
  exact ⟨key, e, similar_iff.2 ⟨e, hlive, hstart⟩, hlive, rfl⟩

/-! ### What is recorded -/

/-- The change that is recorded, if anything is answered. -/
def similarChange? (c : Cache) (now : Millis) (start : String) : Option Change :=
  if c.similarMembers now start = [] then none
  else some { kind := .removeBySimilarity, keys := c.namedKeys now start }

theorem perform_deleteSimilar_answer :
    (c.perform now (.deleteSimilar start)).1 = .ok (.removed (c.similarMembers now start)) := by
  rw [perform_eq]
  rfl

theorem course_deleteSimilar (hpersistent : c.config.persistent = true)
    (hmethods : c.methods = MethodTable.standard c.config.backend) :
    c.course now (.deleteSimilar start) =
      ⟨(c.similarTurn now start).store,
        (c.similarTurn now start).expired.flatMap c.config.expiryErrands ++
          changeErrands c.config.backend (c.similarChange? now start)⟩ := by
  have hrecord : ∀ store : Store, { c with store := store }.recordCourse now
      { method := .deleteSimilar, keys := [start] }
      (Answer.removed (c.similarMembers now start)).outcome =
        ⟨store, changeErrands c.config.backend (c.similarChange? now start)⟩ := by
    intro store
    have hrule : c.methods.rule? .deleteSimilar =
        some (Rule.ofKind .removeBySimilarity c.config.backend) := by rw [hmethods]; rfl
    unfold recordCourse similarChange? namedKeys
    dsimp only
    rw [if_pos hpersistent, hrule]
    cases c.similarMembers now start <;> rfl
  unfold course
  exact congrArg (fun recorded : Course => Course.mk recorded.store
    ((c.similarTurn now start).expired.flatMap c.config.expiryErrands ++ recorded.errands))
    (hrecord _)

/-- The named keys lose their rows, and so do those that the removal has found expired. -/
theorem row?_deleteSimilar (hpersistent : c.config.persistent = true)
    (hmethods : c.methods = MethodTable.standard c.config.backend)
    (hdirect : c.backing.Direct c.config.backend) (now : Millis) (start : String) (key : Bytes) :
    (c.perform now (.deleteSimilar start)).2.backing.row? c.config.backend key =
      if key ∈ c.namedKeys now start ∨ c.store.due now key ≠ [] then none
      else c.backing.row? c.config.backend key := by
  have hchange : ∀ row, afterChange now key row (c.similarChange? now start) =
      if key ∈ c.namedKeys now start then none else row := by
    intro row
    unfold similarChange? namedKeys
    cases c.similarMembers now start <;> rfl
  rw [perform_eq, course_deleteSimilar hpersistent hmethods]
  refine ((Backing.carryOutAll_direct _ now _ hdirect).2 key).trans ?_
  rw [Errand.effects_append, effects_change, hchange, effects_expiry]
  simp only [hpersistent, true_and, (similarTurn_acts c now start).mem_expired]
  by_cases hnamed : key ∈ c.namedKeys now start
  · rw [if_pos hnamed, if_pos (.inl hnamed)]
  · rw [if_neg hnamed]
    exact if_congr (by simp [hnamed]) rfl rfl

/-- One change is recorded, if anything is answered. -/
theorem records_deleteSimilar (hpersistent : c.config.persistent = true)
    (hmethods : c.methods = MethodTable.standard c.config.backend)
    (hinline : c.backing.worker.isRunning = false) (hsound : ∀ kind, c.backing.Sound kind)
    (hhas : c.backing.has c.config.backend = true) :
    (c.perform now (.deleteSimilar start)).2.backing.records =
      c.backing.records ++ (c.similarChange? now start).toList.map fun change =>
        (c.config.backend, change) := by
  have hrecords : (c.course now (.deleteSimilar start)).records =
      (c.similarChange? now start).toList.map fun change => (c.config.backend, change) := by
    rw [course_deleteSimilar hpersistent hmethods]
    unfold Course.records Course.jobs
    rw [List.filterMap_append, List.filterMap_append, recordOf?_expiry, recordOf?_change,
      List.nil_append]
  rw [perform_eq]
  refine (Backing.records_carryOutAll hinline hsound _ now _).trans ?_
  rw [hrecords]
  cases c.similarChange? now start <;> simp [hhas]

/-! ### What is removed -/

theorem store_deleteSimilar (hmethods : c.methods = MethodTable.standard c.config.backend) :
    (c.perform now (.deleteSimilar start)).2.store = (c.similarTurn now start).store := by
  rw [perform_eq]
  show (c.course now (.deleteSimilar start)).store = _
  cases hpersistent : c.config.persistent with
  | true => rw [course_deleteSimilar hpersistent hmethods]
  | false =>
    have hunrecorded : c.recording? (.deleteSimilar start)
        (Command.run c.config c.codec now c.store (.deleteSimilar start)).answer = none :=
      Option.eq_none_iff_forall_ne_some.2 fun recording hsome =>
        Bool.false_ne_true (hpersistent.symm.trans (recording?_eq_some_iff.1 hsome).1)
    rw [course_of_unrecorded rfl hunrecorded]
    rfl

theorem live?_similarTurn (key : Bytes) :
    (c.similarTurn now start).store.live? now key =
      if c.Similar now start key then none else c.store.live? now key := by
  have hafter := (similarTurn_acts c now start).inside key trivial
  cases hlive : c.store.live? now key with
  | none =>
    rw [hlive, Option.filter_none] at hafter
    rw [Store.live?, hafter, Option.filter_none, ite_self]
  | some e =>
    rw [hlive] at hafter
    cases hstart : key.startsWith (Codec.encodeKey start) with
    | true =>
      rw [if_pos ⟨by rw [hlive]; rfl, hstart⟩, Store.live?, hafter, Option.filter_some, hstart]
      rfl
    | false =>
      have hunlike : ¬ c.Similar now start key := fun h =>
        Bool.false_ne_true (hstart.symm.trans h.2)
      rw [if_neg hunlike, ← hlive, Store.live?, hafter, Option.filter_some, hstart,
        Store.live?, (Store.live?_eq_some_iff.1 hlive).1]
      rfl

/-- **A removal by similarity names what it has removed as texts.** By the standard rules:

* It removes the live keys with the given beginning, and no others, and answers their names, each
  name once and in order. Each value is that of a removed key with that name.
* A removed key is among the named keys if it is a text, and only then. So if all removed keys are
  texts, they are just the named keys.
* Where changes are recorded at once by backends that never fail, one change is recorded if a key
  was removed: that the named keys be erased. A removed key has lost its row if it is a text; if it
  is none, it has kept it. -/
theorem similar_removed (c : Cache) (now : Millis) (start : String)
    (hmethods : c.methods = MethodTable.standard c.config.backend) :
    let c' := (c.perform now (.deleteSimilar start)).2
    ∃ members : List (String × Json), ∃ named : List Bytes,
      named = (members.map (·.1)).map Codec.encodeKey ∧
      (c.perform now (.deleteSimilar start)).1 = .ok (.removed members) ∧
      members.Pairwise (fun a b => a.1 < b.1) ∧
      (∀ name, name ∈ members.map (·.1) ↔
        ∃ key, c.Similar now start key ∧ Utf8.repair key = name) ∧
      (∀ m ∈ members, ∃ key e, c.Similar now start key ∧ c.store.live? now key = some e ∧
        m = Command.removedMember (key, e.value)) ∧
      (∀ key, c'.store.live? now key =
        if c.Similar now start key then none else c.store.live? now key) ∧
      (∀ key, c.Similar now start key → (key ∈ named ↔ ∃ text, key = Codec.encodeKey text)) ∧
      ((∀ key, c.Similar now start key → ∃ text, key = Codec.encodeKey text) →
        ∀ key, key ∈ named ↔ c.Similar now start key) ∧
      (c.config.persistent = true → c.backing.worker.isRunning = false →
        (∀ kind, c.backing.Sound kind) → c.backing.has c.config.backend = true →
        c'.backing.records = c.backing.records ++ (if members = [] then [] else
          [(c.config.backend, { kind := .removeBySimilarity, keys := named })]) ∧
        (∀ key, c'.backing.row? c.config.backend key =
          if key ∈ named ∨ c.store.due now key ≠ [] then none
          else c.backing.row? c.config.backend key) ∧
        (∀ text, c.Similar now start (Codec.encodeKey text) →
          c'.backing.row? c.config.backend (Codec.encodeKey text) = none) ∧
        ∀ key, c.Similar now start key → (∀ text, key ≠ Codec.encodeKey text) →
          c'.backing.row? c.config.backend key = c.backing.row? c.config.backend key) := by
  intro c'
  refine ⟨c.similarMembers now start, c.namedKeys now start, rfl, perform_deleteSimilar_answer,
    Json.pairwise_object _, fun name => mem_similarNames, fun m hm => mem_similarMembers hm,
    fun key => ?_, fun key hsimilar => mem_namedKeys_iff hsimilar, fun htexts key => ?_,
    fun hpersistent hinline hsound hhas => ?_⟩
  · rw [store_deleteSimilar hmethods]
    exact live?_similarTurn key
  · constructor
    · intro hmem
      obtain ⟨name, hname, rfl⟩ := List.mem_map.1 hmem
      obtain ⟨key, hsimilar, rfl⟩ := mem_similarNames.1 hname
      rwa [Codec.encodeKey_repair_iff.2 (htexts key hsimilar)]
    · exact fun hsimilar => (mem_namedKeys_iff hsimilar).2 (htexts key hsimilar)
  · have hrow := row?_deleteSimilar hpersistent hmethods ⟨hsound _, hinline, hhas⟩ now start
    refine ⟨?_, hrow, fun text hsimilar => ?_, fun key hsimilar hno => ?_⟩
    · rw [records_deleteSimilar hpersistent hmethods hinline hsound hhas, similarChange?]
      split <;> rfl
    · exact (hrow _).trans (if_pos (.inl ((mem_namedKeys_iff hsimilar).2 ⟨text, rfl⟩)))
    · -- A live key is not due.
      obtain ⟨e, hlive, -⟩ := similar_iff.1 hsimilar
      refine (hrow key).trans (if_neg ?_)
      rintro (hnamed | hdue)
      · obtain ⟨text, rfl⟩ := (mem_namedKeys_iff hsimilar).1 hnamed
        exact hno text rfl
      · exact hdue (Store.due_eq_nil_of_live hlive)

/-- Two live keys, of which one has the given beginning; both are texts. -/
theorem similar_removed_one :
    let row : Row := { value := [49], ttl := 60000, expiresAt := 60000 }
    let table := Table.ofList [([107], row), ([107, 97], row)]
    let c := ((new { persistent := true } { recovery := [.replay] }
      { registry := { memory := some (.memory table) } }).recover 0).2
    let c' := (c.perform 0 (.deleteSimilar "ka")).2
    c'.store.live? 0 [107, 97] = none ∧ c'.backing.row? .memory [107, 97] = none ∧
      ∃ members, (c.perform 0 (.deleteSimilar "ka")).1 = .ok (.removed members) ∧
        members.Pairwise fun a b => a.1 < b.1 := by
  intro row table c c'
  have hsound : ∀ kind, c.backing.Sound kind := by
    intro kind
    refine ⟨rfl, rfl, fun backend hback => ?_⟩
    cases kind <;> cases hback
    trivial
  have hsimilar : c.Similar 0 "ka" (Codec.encodeKey "ka") := by decide +kernel
  obtain ⟨members, named, -, hanswer, hordered, -, -, hstore, -, -, hdurable⟩ :=
    similar_removed c 0 "ka" rfl
  obtain ⟨-, -, hgone, -⟩ := hdurable rfl rfl hsound rfl
  exact ⟨(hstore _).trans (if_pos hsimilar), hgone "ka" hsimilar, members, hanswer, hordered⟩

/-- Two keys that are no texts are brought back from their rows. Both are removed and named by the
same text, which is the one key that is recorded as removed; so both rows are kept. -/
theorem broken_keys_recorded :
    let row : Row := { value := [49], ttl := 60000, expiresAt := 60000 }
    let table := Table.ofList [([0xfe], row), ([0xff], row)]
    let c := ((new { persistent := true } { recovery := [.replay] }
      { registry := { memory := some (.memory table) } }).recover 0).2
    let c' := (c.perform 0 (.deleteSimilar "")).2
    c.Similar 0 "" [0xfe] ∧ c.Similar 0 "" [0xff] ∧
      (c.perform 0 (.deleteSimilar "")).1 = .ok (.removed [("\ufffd", .int 1)]) ∧
      c'.store.live? 0 [0xfe] = none ∧ c'.store.live? 0 [0xff] = none ∧
      c'.backing.records = [(.memory,
        { kind := .removeBySimilarity, keys := [Codec.encodeKey "\ufffd"] })] ∧
      c'.backing.row? .memory [0xfe] = some row ∧ c'.backing.row? .memory [0xff] = some row := by
  refine ⟨?_, ?_, rfl, ?_, ?_, ?_, ?_, ?_⟩ <;> decide +kernel

end Cache

end ExpiringCache
