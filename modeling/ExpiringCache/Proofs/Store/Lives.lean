import ExpiringCache.Proofs.Store.Acts

/-!
# Lives of entries

What somebody knows of the entries of a store who sees only what operations answer and report: for
each entry that was stored a life, with the departures noted of it. What is noted of a key is noted
of its latest life, whether it has departed before or not.

Lives are orderly (`Orderly`) if each has departed once at most and rightly so, and of the
lives of one key none is in force but the latest. Then a key has at most one life in force, and
`inForce?` says with which value.
-/

namespace ExpiringCache

namespace Store

/-- How an entry left the store. -/
inductive Ending where
  /-- The write that took its place answered its value. -/
  | overwritten (value : Bytes)
  /-- A removal answered its value. -/
  | removed (value : Bytes)
  /-- The removal of everything counted it. -/
  | counted
  /-- It was reported as expired, with this value. -/
  | reported (value : Bytes)
deriving DecidableEq

namespace Ending

/-- Whether it is a report. -/
def isReport : Ending → Bool
  | .reported _ => true
  | _ => false

/-- Whether it was counted only. -/
def isCount : Ending → Bool
  | .counted => true
  | _ => false

end Ending

/-- A departure from the store, as it was noted. -/
structure Departure where
  ending : Ending
  /-- The reading of the clock at that time. -/
  reading : Millis
  /-- When the entry under the key was to expire, if there was one. -/
  deadline : Option Millis

/-- The departure of an entry with this value is as it ought to be: with that value and, if the entry
was due at the reading, and only then, by a report. -/
def Departure.Fits (d : Departure) (value : Bytes) : Prop :=
  ∃ deadline, d.deadline = some deadline ∧
    match d.ending with
    | .overwritten v | .removed v => v = value ∧ d.reading < deadline
    | .counted => d.reading < deadline
    | .reported v => v = value ∧ deadline ≤ d.reading

/-- What is known of an entry. -/
structure Life where
  key : Bytes
  /-- Its value, which is the last one it was given. -/
  value : Bytes
  /-- The departures noted of it, newest first. -/
  departures : List Departure := []

namespace Life

/-- Whether the entry is still there, as far as is known. -/
def inForce (life : Life) : Bool := life.departures.isEmpty

/-- Notes a departure. -/
def depart (life : Life) (d : Departure) : Life := { life with departures := d :: life.departures }

/-- Takes note of another value. -/
def revalue (life : Life) (value : Bytes) : Life := { life with value := value }

/-- The life has departed once at most, and as it ought to. -/
def Proper (life : Life) : Prop :=
  life.departures = [] ∨ ∃ d, life.departures = [d] ∧ d.Fits life.value

end Life

/-! ### The latest life of a key -/

/-- The latest life of a key; the newest lives come first. -/
def latest? (lives : List Life) (key : Bytes) : Option Life := lives.find? fun life => life.key = key

/-- Changes the latest life of a key. -/
def alterLatest (key : Bytes) (f : Life → Life) : List Life → List Life
  | [] => []
  | life :: rest => if life.key = key then f life :: rest else life :: alterLatest key f rest

/-- The value of a key's latest life, if it is in force. -/
def inForce? (lives : List Life) (key : Bytes) : Option Bytes :=
  ((latest? lives key).filter Life.inForce).map Life.value

/-- The departures noted of lives. -/
def departures (lives : List Life) : List Departure := lives.flatMap Life.departures

/-- How many departures are of a kind. -/
def departed (kind : Ending → Bool) (lives : List Life) : Nat :=
  (departures lives).countP fun d => kind d.ending

/-- The keys that have a life in force. -/
def keysInForce (lives : List Life) : List Bytes := (lives.filter Life.inForce).map Life.key

/-- Each life has departed once at most and as it ought to, and of the lives of one key the older
ones have departed. -/
structure Orderly (lives : List Life) : Prop where
  proper : ∀ life ∈ lives, life.Proper
  older : lives.Pairwise fun newer older => older.key = newer.key → older.inForce = false

variable {lives : List Life} {key : Bytes} {f : Life → Life}

theorem latest?_cons (life : Life) (lives : List Life) (key : Bytes) :
    latest? (life :: lives) key = if life.key = key then some life else latest? lives key := by
  unfold latest?
  rw [List.find?_cons]
  by_cases h : life.key = key <;> simp [h]

/-- An alteration is seen at its key and at no other. -/
theorem latest?_alterLatest (hf : ∀ life, (f life).key = life.key) (k : Bytes) :
    latest? (alterLatest key f lives) k =
      if k = key then (latest? lives key).map f else latest? lives k := by
  induction lives with
  | nil => simp [alterLatest, latest?]
  | cons life rest ih =>
    unfold alterLatest
    by_cases hlife : life.key = key
    · rw [if_pos hlife, latest?_cons, latest?_cons, latest?_cons, hf, hlife]
      by_cases hk : k = key
      · simp [hk]
      · simp [hk, Ne.symm hk]
    · rw [if_neg hlife, latest?_cons, latest?_cons, latest?_cons, if_neg hlife, ih]
      by_cases hk : k = key
      · simp [hk, hlife]
      · simp [hk]

theorem mem_of_latest? {life : Life} (h : latest? lives key = some life) :
    life ∈ lives ∧ life.key = key :=
  ⟨List.mem_of_find?_eq_some h, by simpa using List.find?_some h⟩

/-- An alteration changes one life, the latest of its key. -/
theorem mem_alterLatest {life' : Life} (h : life' ∈ alterLatest key f lives) :
    life' ∈ lives ∨ ∃ life, latest? lives key = some life ∧ life' = f life := by
  induction lives with
  | nil => exact absurd h List.not_mem_nil
  | cons life rest ih =>
    unfold alterLatest at h
    rw [latest?_cons]
    by_cases hlife : life.key = key
    · rw [if_pos hlife] at h ⊢
      rcases List.mem_cons.1 h with rfl | h
      · exact .inr ⟨life, rfl, rfl⟩
      · exact .inl (List.mem_cons_of_mem _ h)
    · rw [if_neg hlife] at h ⊢
      rcases List.mem_cons.1 h with rfl | h
      · exact .inl List.mem_cons_self
      · exact (ih h).imp (List.mem_cons_of_mem _) id

/-! ### Lives in force -/

variable {value : Bytes}

theorem inForce?_eq_some_iff :
    inForce? lives key = some value ↔
      ∃ life, latest? lives key = some life ∧ life.departures = [] ∧ life.value = value := by
  unfold inForce?
  rw [Option.map_eq_some_iff]
  simp only [Option.filter_eq_some_iff, Life.inForce, List.isEmpty_iff, and_assoc]

namespace Orderly

/-- The life in force of a key is the only one. -/
theorem inForce?_iff (h : Orderly lives) :
    inForce? lives key = some value ↔
      ∃ life ∈ lives, life.key = key ∧ life.value = value ∧ life.departures = [] := by
  rw [inForce?_eq_some_iff]
  constructor
  · rintro ⟨life, hlatest, hnone, hvalue⟩
    obtain ⟨hmem, hkey⟩ := mem_of_latest? hlatest
    exact ⟨life, hmem, hkey, hvalue, hnone⟩
  · rintro ⟨life, hmem, hkey, hvalue, hnone⟩
    refine ⟨life, ?_, hnone, hvalue⟩
    have holder := h.older
    clear h
    induction lives with
    | nil => exact absurd hmem List.not_mem_nil
    | cons first rest ih =>
      obtain ⟨hfirst, hrest⟩ := List.pairwise_cons.1 holder
      rw [latest?_cons]
      rcases List.mem_cons.1 hmem with rfl | hmem
      · rw [if_pos hkey]
      · -- A newer life of the key would mean that this one has departed.
        have hne : first.key ≠ key := fun heq => by
          have hgone := hfirst life hmem (hkey.trans heq.symm)
          simp [Life.inForce, hnone] at hgone
        rw [if_neg hne]
        exact ih hmem hrest

theorem mem_keysInForce (h : Orderly lives) :
    key ∈ keysInForce lives ↔ ∃ value, inForce? lives key = some value := by
  simp only [keysInForce, List.mem_map, List.mem_filter, h.inForce?_iff, Life.inForce,
    List.isEmpty_iff]
  constructor
  · rintro ⟨life, ⟨hmem, hnone⟩, hkey⟩
    exact ⟨life.value, life, hmem, hkey, rfl, hnone⟩
  · rintro ⟨value, life, hmem, hkey, -, hnone⟩
    exact ⟨life, ⟨hmem, hnone⟩, hkey⟩

theorem nodup_keysInForce (h : Orderly lives) : (keysInForce lives).Nodup := by
  refine List.pairwise_map.2 ((h.older.filter _).imp_of_mem ?_)
  intro newer older _ holder hgone heq
  have hforce := (List.mem_filter.1 holder).2
  rw [hgone heq.symm] at hforce
  cases hforce

/-- Every life is in force or has departed once. -/
theorem length_eq (h : Orderly lives) :
    lives.length = (keysInForce lives).length + (departures lives).length := by
  have hproper := h.proper
  clear h
  induction lives with
  | nil => rfl
  | cons life rest ih =>
    have hrest := ih fun life' hlife' => hproper life' (List.mem_cons_of_mem _ hlife')
    simp only [keysInForce, departures, List.length_map, List.flatMap_cons, List.length_append,
      List.length_cons] at hrest ⊢
    rcases hproper life List.mem_cons_self with hnone | ⟨d, hone, -⟩
    · rw [List.filter_cons_of_pos (by simp [Life.inForce, hnone]), hnone]
      simp only [List.length_cons, List.length_nil]
      omega
    · rw [List.filter_cons_of_neg (by simp [Life.inForce, hone]), hone]
      simp only [List.length_cons, List.length_nil]
      omega

/-! ### What can be noted -/

/-- Altering the latest life of a key, without bringing it back to life. -/
theorem alter (h : Orderly lives) {life : Life} (hlatest : latest? lives key = some life)
    (hkey : ∀ life, (f life).key = life.key)
    (hforce : ∀ life, life.inForce = false → (f life).inForce = false)
    (hproper : (f life).Proper) : Orderly (alterLatest key f lives) where
  proper life' hlife' := by
    rcases mem_alterLatest hlife' with hmem | ⟨life₀, hlife₀, rfl⟩
    · exact h.proper life' hmem
    · obtain rfl : life = life₀ := Option.some.inj (hlatest.symm.trans hlife₀)
      exact hproper
  older := by
    have holder := h.older
    clear h hlatest
    induction lives with
    | nil => exact .nil
    | cons first rest ih =>
      obtain ⟨hfirst, hrest⟩ := List.pairwise_cons.1 holder
      unfold alterLatest
      split
      · exact List.pairwise_cons.2
          ⟨fun older hmem heq => hfirst older hmem (heq.trans (hkey first)), hrest⟩
      · refine List.pairwise_cons.2 ⟨fun older hmem heq => ?_, ih hrest⟩
        rcases mem_alterLatest hmem with hmem | ⟨old, hold, rfl⟩
        · exact hfirst older hmem heq
        · exact hforce old (hfirst old (mem_of_latest? hold).1 ((hkey old).symm.trans heq))

end Orderly

theorem inForce?_alterLatest (hkey : ∀ life, (f life).key = life.key) (k : Bytes) :
    inForce? (alterLatest key f lives) k =
      if k = key then (((latest? lives key).map f).filter Life.inForce).map Life.value
      else inForce? lives k := by
  unfold inForce?
  rw [latest?_alterLatest hkey]
  by_cases hk : k = key
  · rw [if_pos hk, if_pos hk]
  · rw [if_neg hk, if_neg hk]

theorem departed_cons (kind : Ending → Bool) (life : Life) (lives : List Life) :
    departed kind (life :: lives) =
      (life.departures.countP fun d => kind d.ending) + departed kind lives := by
  simp [departed, departures]

theorem departed_true (lives : List Life) :
    departed (fun _ => true) lives = (departures lives).length := congrFun List.countP_true _

/-- What an alteration does to the departures of lives it does to those of one life. -/
theorem departed_alterLatest (kind : Ending → Bool) {life : Life}
    (h : latest? lives key = some life) :
    departed kind (alterLatest key f lives) + (life.departures.countP fun d => kind d.ending) =
      departed kind lives + (f life).departures.countP fun d => kind d.ending := by
  induction lives with
  | nil => cases h
  | cons first rest ih =>
    unfold alterLatest
    rw [latest?_cons] at h
    split
    · next hfirst =>
      rw [if_pos hfirst] at h
      obtain rfl := Option.some.inj h
      rw [departed_cons, departed_cons]
      omega
    · next hfirst =>
      rw [if_neg hfirst] at h
      have hrest := ih h
      rw [departed_cons, departed_cons]
      omega

namespace Orderly

/-- The life in force of a key departs. -/
theorem depart (h : Orderly lives) (hforce : inForce? lives key = some value) {d : Departure}
    (hfits : d.Fits value) :
    Orderly (alterLatest key (·.depart d) lives) ∧
      (∀ k, inForce? (alterLatest key (·.depart d) lives) k =
        if k = key then none else inForce? lives k) ∧
      ∀ kind, departed kind (alterLatest key (·.depart d) lives) =
        departed kind lives + if kind d.ending then 1 else 0 := by
  obtain ⟨life, hlatest, hnone, rfl⟩ := inForce?_eq_some_iff.1 hforce
  refine ⟨?_, fun k => ?_, fun kind => ?_⟩
  · exact h.alter hlatest (fun _ => rfl) (fun _ _ => rfl)
      (.inr ⟨d, congrArg (d :: ·) hnone, hfits⟩)
  · rw [inForce?_alterLatest (f := fun life => life.depart d) fun _ => rfl, hlatest]
    rfl
  · have hcount := departed_alterLatest (f := fun life => life.depart d) kind hlatest
    rw [hnone, Life.depart, hnone] at hcount
    simpa [List.countP_cons] using hcount

/-- The life in force of a key is given another value. -/
theorem revalue (h : Orderly lives) {old : Bytes} (hforce : inForce? lives key = some old)
    (value : Bytes) :
    Orderly (alterLatest key (·.revalue value) lives) ∧
      (∀ k, inForce? (alterLatest key (·.revalue value) lives) k =
        if k = key then some value else inForce? lives k) ∧
      ∀ kind, departed kind (alterLatest key (·.revalue value) lives) = departed kind lives := by
  obtain ⟨life, hlatest, hnone, -⟩ := inForce?_eq_some_iff.1 hforce
  refine ⟨?_, fun k => ?_, fun kind => ?_⟩
  · exact h.alter hlatest (fun _ => rfl) (fun _ hgone => hgone) (.inl hnone)
  · rw [inForce?_alterLatest (f := fun life => life.revalue value) fun _ => rfl, hlatest]
    simp [Option.filter, Life.inForce, Life.revalue, hnone]
  · have hcount := departed_alterLatest (f := fun life => life.revalue value) kind hlatest
    exact Nat.add_right_cancel hcount

/-- A key without a life in force is given a new one. -/
theorem create (h : Orderly lives) (hforce : inForce? lives key = none) (value : Bytes) :
    Orderly ({ key := key, value := value } :: lives) ∧
      (∀ k, inForce? ({ key := key, value := value } :: lives) k =
        if k = key then some value else inForce? lives k) ∧
      ∀ kind, departed kind ({ key := key, value := value } :: lives) = departed kind lives := by
  refine ⟨⟨fun life hlife => ?_, List.pairwise_cons.2 ⟨fun older hmem heq => ?_, h.older⟩⟩,
    fun k => ?_, fun kind => ?_⟩
  · rcases List.mem_cons.1 hlife with rfl | hlife
    · exact .inl rfl
    · exact h.proper life hlife
  · cases hgone : older.inForce with
    | false => rfl
    | true =>
      have hsome := h.inForce?_iff.2 ⟨older, hmem, heq, rfl, List.isEmpty_iff.1 hgone⟩
      rw [hforce] at hsome
      cases hsome
  · unfold inForce?
    rw [latest?_cons]
    by_cases hk : k = key
    · rw [if_pos hk, if_pos hk.symm]
      rfl
    · rw [if_neg hk, if_neg (Ne.symm hk)]
  · rw [departed_cons]
    exact Nat.zero_add _

end Orderly

/-! ### What a store takes in -/

/-- What a store takes in. -/
inductive Gain where
  | nothing
  /-- A new entry. -/
  | entry (key value : Bytes)
  /-- Another value for an entry that is there. -/
  | value (key value : Bytes)

namespace Gain

/-- The key it is taken in under. -/
def key? : Gain → Option Bytes
  | .nothing => none
  | .entry key _ | .value key _ => some key

/-- How many entries are created. -/
def created : Gain → Nat
  | .nothing | .value _ _ => 0
  | .entry _ _ => 1

/-- Notes what is taken in: a new life, or another value for the latest life of the key. -/
def note : Gain → List Life → List Life
  | .nothing, lives => lives
  | .entry key value, lives => { key, value } :: lives
  | .value key value, lives => alterLatest key (·.revalue value) lives

/-- The value of a key afterwards, by the one it held. -/
def after (key : Bytes) (held : Option Bytes) (gain : Gain) : Option Bytes :=
  match gain with
  | .nothing => held
  | .entry k value | .value k value => if key = k then some value else held

/-- An entry is created where there is none, and given another value where there is one. -/
def Fits (held : Bytes → Option Bytes) : Gain → Prop
  | .nothing => True
  | .entry key _ => held key = none
  | .value key _ => ∃ old, held key = some old

theorem after_of_ne {gain : Gain} (h : gain.key? ≠ some key) (held : Option Bytes) :
    gain.after key held = held := by
  cases gain with
  | nothing => rfl
  | entry k value | value k value => exact if_neg fun heq : key = k => h (congrArg some heq.symm)

/-- The value of a key that takes nothing in is not asked for. -/
theorem fits_congr {gain : Gain} {held held' : Bytes → Option Bytes}
    (h : ∀ key, gain.key? = some key → held key = held' key) :
    gain.Fits held ↔ gain.Fits held' := by
  cases gain with
  | nothing => exact Iff.rfl
  | entry key value | value key value => simp only [Fits, h key rfl]

end Gain

theorem Orderly.note (h : Orderly lives) {gain : Gain} (hfits : gain.Fits (inForce? lives)) :
    Orderly (gain.note lives) ∧
      (∀ k, inForce? (gain.note lives) k = gain.after k (inForce? lives k)) ∧
      ∀ kind, departed kind (gain.note lives) = departed kind lives := by
  cases gain with
  | nothing => exact ⟨h, fun _ => rfl, fun _ => rfl⟩
  | entry key value => exact h.create hfits value
  | value key value =>
    obtain ⟨old, hold⟩ := hfits
    exact h.revalue hold value

theorem length_alterLatest (key : Bytes) (f : Life → Life) (lives : List Life) :
    (alterLatest key f lives).length = lives.length := by
  induction lives with
  | nil => rfl
  | cons life rest ih => unfold alterLatest; split <;> simp [ih]

theorem Gain.length_note (gain : Gain) (lives : List Life) :
    (gain.note lives).length = lives.length + gain.created := by
  cases gain with
  | nothing | entry key value => rfl
  | value key value => exact length_alterLatest key _ lives

/-! ### Many departures -/

/-- Notes departures at a reading of the clock, each of the latest life of its key. -/
def departAll (now : Millis) (deadline : Bytes → Option Millis) :
    List (Bytes × Ending) → List Life → List Life
  | [], lives => lives
  | (key, ending) :: rest, lives =>
    departAll now deadline rest
      (alterLatest key (·.depart { ending, reading := now, deadline := deadline key }) lives)

/-- Lives in force of different keys depart. -/
theorem Orderly.departAll (h : Orderly lives) (now : Millis) (deadline : Bytes → Option Millis)
    {gone : List (Bytes × Ending)} (hkeys : (gone.map (·.1)).Nodup)
    (hfits : ∀ g ∈ gone, ∃ value, inForce? lives g.1 = some value ∧
      Departure.Fits ⟨g.2, now, deadline g.1⟩ value) :
    Orderly (departAll now deadline gone lives) ∧
      (∀ k, inForce? (Store.departAll now deadline gone lives) k =
        if k ∈ gone.map (·.1) then none else inForce? lives k) ∧
      ∀ kind, departed kind (Store.departAll now deadline gone lives) =
        departed kind lives + gone.countP fun g => kind g.2 := by
  induction gone generalizing lives with
  | nil => exact ⟨h, fun k => by simp [Store.departAll], fun kind => rfl⟩
  | cons first rest ih =>
    obtain ⟨key, ending⟩ := first
    obtain ⟨hkey, hrest⟩ := List.nodup_cons.1 hkeys
    obtain ⟨value, hforce, hfit⟩ := hfits _ List.mem_cons_self
    obtain ⟨horderly, hinForce, hdeparted⟩ := h.depart hforce hfit
    have hother : ∀ g ∈ rest, g.1 ≠ key := fun g hg heq =>
      hkey (List.mem_map.2 ⟨g, hg, heq⟩)
    obtain ⟨horderly', hinForce', hdeparted'⟩ := ih horderly hrest fun g hg => by
      rw [hinForce, if_neg (hother g hg)]
      exact hfits g (List.mem_cons_of_mem _ hg)
    refine ⟨horderly', fun k => ?_, fun kind => ?_⟩
    · rw [Store.departAll, hinForce', hinForce]
      by_cases hk : k = key <;> by_cases hmem : k ∈ rest.map (·.1) <;> simp [hk, hmem]
    · rw [Store.departAll, hdeparted', hdeparted, List.countP_cons, Nat.add_assoc,
        Nat.add_comm (rest.countP _)]

theorem length_departAll (now : Millis) (deadline : Bytes → Option Millis)
    (gone : List (Bytes × Ending)) (lives : List Life) :
    (departAll now deadline gone lives).length = lives.length := by
  induction gone generalizing lives with
  | nil => rfl
  | cons first rest ih => rw [departAll, ih, length_alterLatest]

end Store

end ExpiringCache
