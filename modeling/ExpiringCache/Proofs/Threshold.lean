import ExpiringCache.Config.Settings

/-!
# The critical duration

Whether a write deserves a durable record is asked in two ways: of a write with a TTL of its own, by
its TTL as a duration, and of one without, by the amounts of the configuration, converted to whole
milliseconds. The two agree, since the milliseconds that an amount converts to are those of the
duration it converts to (`TimeUnit.millis_toDuration`), and both are those of the amount, rounded
down and held within what the clock can tell (`TimeUnit.toMillis_eq`). Where the amounts of a
configuration come from is said in `ConfigChoices.sealWith_settled`.
-/

namespace ExpiringCache

/-! ### Amounts of a unit -/

namespace TimeUnit

/-- An amount has the same milliseconds whether it is compared or used as a duration. -/
theorem millis_toDuration (unit : TimeUnit) (amount : Nat) :
    (unit.toDuration amount).millis = unit.toMillis amount := by
  cases unit with
  | nanoseconds => simp [toDuration, toMillis, nanos, Duration.millis]
  | microseconds =>
    show amount * 1000 / (1000 * 1000) = amount / 1000
    exact Nat.mul_div_mul_right _ _ (by decide)
  | milliseconds | seconds | minutes | hours | days => exact Duration.millis_ofMillis _

/-- The milliseconds of a 64-bit amount, rounded down and held within what the clock can tell. -/
theorem toMillis_eq (unit : TimeUnit) {amount : Nat} (h : amount < UInt64.size) :
    unit.toMillis amount = Clock.held (amount * unit.nanos / 1000000) := by
  have hamount : amount ≤ Clock.latest := Nat.le_of_lt_succ h
  -- From a millisecond on, a unit is a whole number of milliseconds.
  have hwhole : ∀ n, amount * (n * 1000000) / 1000000 = amount * n := fun n => by
    rw [← Nat.mul_assoc, Nat.mul_div_cancel _ (by decide)]
  cases unit with
  | nanoseconds =>
    show amount / 1000000 = Clock.held (amount * 1 / 1000000)
    rw [Nat.mul_one, Clock.held_of_le (Nat.le_trans (Nat.div_le_self _ _) hamount)]
  | microseconds =>
    show amount / 1000 = Clock.held (amount * 1000 / (1000 * 1000))
    rw [Nat.mul_div_mul_right _ _ (by decide),
      Clock.held_of_le (Nat.le_trans (Nat.div_le_self _ _) hamount)]
  | milliseconds =>
    show amount = Clock.held (amount * 1000000 / 1000000)
    rw [Nat.mul_div_cancel _ (by decide), Clock.held_of_le hamount]
  | seconds => exact congrArg Clock.held (hwhole 1000).symm
  | minutes => exact congrArg Clock.held (hwhole 60000).symm
  | hours => exact congrArg Clock.held (hwhole 3600000).symm
  | days => exact congrArg Clock.held (hwhole 86400000).symm

/-- The milliseconds of a 64-bit amount are told in 64 bits. -/
theorem toMillis_le (unit : TimeUnit) {amount : Nat} (h : amount < UInt64.size) :
    unit.toMillis amount ≤ Clock.latest := by
  rw [unit.toMillis_eq h]
  exact Clock.held_le _

/-- The seconds of the duration of a 64-bit amount are told in 64 bits. -/
theorem seconds_toDuration_le (unit : TimeUnit) {amount : Nat} (h : amount < UInt64.size) :
    (unit.toDuration amount).seconds ≤ Clock.latest :=
  calc (unit.toDuration amount).seconds
      ≤ (unit.toDuration amount).millis := Nat.div_le_div_left (by decide) (by decide)
    _ = unit.toMillis amount := unit.millis_toDuration amount
    _ ≤ Clock.latest := unit.toMillis_le h

end TimeUnit

/-! ### Long enough -/

namespace Config

/-- The default TTL is compared in the milliseconds it has. -/
theorem millis_defaultTtl (config : Config) : config.defaultTtl.millis = config.defaultMillis :=
  config.defaultUnit.millis_toDuration config.defaultAmount

/-- A write is worthy if the TTL it sets, given or by default, is long enough. -/
theorem isWorthy_iff (config : Config) (ttl : Option Duration) :
    config.isWorthy ttl = true ↔ config.criticalMillis ≤ (ttl.getD config.defaultTtl).millis := by
  cases ttl with
  | none =>
    rw [Option.getD_none, millis_defaultTtl]
    exact decide_eq_true_iff
  | some ttl => exact decide_eq_true_iff

/-- What a write without a TTL deserves, a write with the default TTL deserves. -/
theorem isWorthy_none (config : Config) :
    config.isWorthy none = config.isWorthy (some config.defaultTtl) :=
  Bool.eq_iff_iff.2 <| (config.isWorthy_iff none).trans
    (config.isWorthy_iff (some config.defaultTtl)).symm

/-- A longer TTL deserves what a shorter one does. -/
theorem isWorthy_of_le (config : Config) {shorter longer : Duration}
    (h : shorter.nanos ≤ longer.nanos) (hworthy : config.isWorthy (some shorter) = true) :
    config.isWorthy (some longer) = true := by
  have hshorter : config.criticalMillis ≤ shorter.millis := (config.isWorthy_iff _).1 hworthy
  exact (config.isWorthy_iff _).2 (Nat.le_trans hshorter (Nat.div_le_div_right h))

end Config

/-! ### Sealed amounts -/

theorem Text.natural?_lt {bound n : Nat} {text : String} (h : natural? bound text = some n) :
    n < bound := by
  simp only [natural?, Option.ite_none_left_eq_some, Option.ite_none_right_eq_some] at h
  obtain ⟨-, hlt, hn⟩ := h
  exact Option.some.inj hn ▸ hlt

namespace ConfigChoices

/-- How a setting is settled: by what was chosen, else by the property of its name, if that can be
read, and else by default. -/
inductive Settled {α : Type} (properties : Properties) (choice : Option α) (name : String)
    (read : String → Option α) (fallback : α) : α → Prop where
  | chosen {a : α} (hchoice : choice = some a) : Settled properties choice name read fallback a
  | given {a : α} {text : String} (hchoice : choice = none)
      (hfind : properties.find? name = some text) (hread : read text = some a) :
      Settled properties choice name read fallback a
  | standard (hchoice : choice = none)
      (hunread : ∀ text, properties.find? name = some text → read text = none) :
      Settled properties choice name read fallback fallback

section Resolve

variable {α : Type} {properties : Properties} {choice : Option α} {name : String}
  {read : String → Option α} {fallback : α}

/-- A setting is what settles it. -/
theorem resolve_eq_iff {a : α} :
    resolve properties choice name read fallback = a ↔
      Settled properties choice name read fallback a := by
  constructor
  · rintro rfl
    cases choice with
    | some a => exact .chosen rfl
    | none =>
      show Settled properties none name read fallback ((properties.read? read name).getD fallback)
      cases hproperty : properties.read? read name with
      | none => exact .standard rfl (Option.bind_eq_none_iff.1 hproperty)
      | some a =>
        obtain ⟨text, hfind, hread⟩ := Option.bind_eq_some_iff.1 hproperty
        exact .given rfl hfind hread
  · intro h
    cases h with
    | chosen hchoice => rw [hchoice]; rfl
    | given hchoice hfind hread =>
      have hproperty : properties.read? read name = some a :=
        Option.bind_eq_some_iff.2 ⟨_, hfind, hread⟩
      rw [hchoice, resolve, hproperty]
      rfl
    | standard hchoice hunread =>
      have hproperty : properties.read? read name = none := Option.bind_eq_none_iff.2 hunread
      rw [hchoice, resolve, hproperty]
      rfl

/-- What is sealed has a property that the choice has, what is read, and what there is otherwise. -/
theorem resolve_of {P : α → Prop} (hchoice : ∀ a ∈ choice, P a)
    (hread : ∀ text a, read text = some a → P a) (hfallback : P fallback) :
    P (resolve properties choice name read fallback) := by
  generalize hsealed : resolve properties choice name read fallback = a
  cases resolve_eq_iff.1 hsealed with
  | chosen h => exact hchoice _ h
  | given _ _ h => exact hread _ _ h
  | standard => exact hfallback

end Resolve

/-- The amounts of a sealed configuration and their units are those that were chosen, else those of
the properties, and else ten and sixty seconds. -/
theorem sealWith_settled (choices : ConfigChoices) (properties : Properties) :
    let config := choices.sealWith properties
    let amount := Text.natural? UInt64.size
    let unit := fun text => Text.chosen? (TimeUnit.ofText text)
    Settled properties choices.defaultAmount "DEFAULT_DURATION" amount 10 config.defaultAmount ∧
      Settled properties choices.defaultUnit "DEFAULT_DURATION_UNIT" unit .seconds
        config.defaultUnit ∧
      Settled properties choices.criticalAmount "CRITICAL_DURATION" amount 60
        config.criticalAmount ∧
      Settled properties choices.criticalUnit "CRITICAL_DURATION_UNIT" unit .seconds
        config.criticalUnit :=
  ⟨resolve_eq_iff.1 rfl, resolve_eq_iff.1 rfl, resolve_eq_iff.1 rfl, resolve_eq_iff.1 rfl⟩

/-- The amounts chosen explicitly are told in 64 bits. -/
structure Fits (choices : ConfigChoices) : Prop where
  defaultAmount : ∀ amount ∈ choices.defaultAmount, amount < UInt64.size
  criticalAmount : ∀ amount ∈ choices.criticalAmount, amount < UInt64.size

variable {choices : ConfigChoices}

/-- The default amount of a sealed configuration is told in 64 bits. -/
theorem Fits.defaultAmount_lt (h : choices.Fits) (properties : Properties) :
    (choices.sealWith properties).defaultAmount < UInt64.size :=
  resolve_of h.defaultAmount (fun _ _ => Text.natural?_lt) (by decide)

/-- The critical amount of a sealed configuration is told in 64 bits. -/
theorem Fits.criticalAmount_lt (h : choices.Fits) (properties : Properties) :
    (choices.sealWith properties).criticalAmount < UInt64.size :=
  resolve_of h.criticalAmount (fun _ _ => Text.natural?_lt) (by decide)

/-- **Writes without a TTL are judged by the default TTL.** Seal any choices and properties. Then:

* A write without a TTL deserves a record if and only if one with the default TTL does, which is so
  if the default amount has at least the milliseconds of the critical amount, both rounded down and
  held within 64 bits.
* Any 64-bit amount of any unit has the same milliseconds whether it is compared or used as a
  duration, and both it and the duration's seconds are told in 64 bits.
* A longer TTL deserves a record if a shorter one does. -/
theorem worthiness_agrees (h : choices.Fits) (properties : Properties) :
    let config := choices.sealWith properties
    config.isWorthy none = config.isWorthy (some config.defaultTtl) ∧
    config.isWorthy none = decide
      (Clock.held (config.criticalAmount * config.criticalUnit.nanos / 1000000) ≤
        Clock.held (config.defaultAmount * config.defaultUnit.nanos / 1000000)) ∧
    (∀ (unit : TimeUnit) (amount : Nat), amount < UInt64.size →
      (unit.toDuration amount).millis = unit.toMillis amount ∧
        unit.toMillis amount < UInt64.size ∧ (unit.toDuration amount).seconds < UInt64.size) ∧
    ∀ shorter longer : Duration, shorter.nanos ≤ longer.nanos →
      config.isWorthy (some shorter) = true → config.isWorthy (some longer) = true := by
  intro config
  refine ⟨config.isWorthy_none, ?_, fun unit amount hamount => ?_,
    fun _ _ => config.isWorthy_of_le⟩
  · rw [← config.criticalUnit.toMillis_eq (h.criticalAmount_lt properties),
      ← config.defaultUnit.toMillis_eq (h.defaultAmount_lt properties)]
    rfl
  · exact ⟨unit.millis_toDuration amount, Nat.lt_succ_of_le (unit.toMillis_le hamount),
      Nat.lt_succ_of_le (unit.seconds_toDuration_le hamount)⟩

/-- A default TTL of a millisecond and a half is as long as a critical duration of almost two: in
whole milliseconds both are one. Days beyond what the clock can tell end with it. -/
theorem worthiness_agrees_rounded :
    let choices : ConfigChoices :=
      { defaultAmount := some 1500, defaultUnit := some .microseconds
        criticalAmount := some 1999999, criticalUnit := some .nanoseconds }
    let config := choices.sealWith .none
    choices.Fits ∧ config.isWorthy none = true ∧
      config.isWorthy (some config.defaultTtl) = true ∧
      config.isWorthy (some (.ofMillis 2)) = true ∧
      (TimeUnit.days.toDuration Clock.latest).millis = Clock.latest := by
  intro choices config
  have hfits : choices.Fits :=
    ⟨fun amount h => by cases h; decide, fun amount h => by cases h; decide⟩
  obtain ⟨hdefault, hcompared, hamounts, hlonger⟩ := worthiness_agrees hfits .none
  have hworthy : config.isWorthy none = true := hcompared.trans (by decide)
  have hgiven : config.isWorthy (some config.defaultTtl) = true := hdefault ▸ hworthy
  exact ⟨hfits, hworthy, hgiven, hlonger _ _ (by decide) hgiven,
    (hamounts .days Clock.latest (by decide)).1.trans (by decide)⟩

end ConfigChoices

end ExpiringCache
