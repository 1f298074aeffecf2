import ExpiringCache.Proofs.Command
import ExpiringCache.Proofs.Session

/-!
# The durable side is a side channel

Callers see nothing of the durable side. A cache and a store alone that were given the same history
answer the same, count the same reads and hold the same live entries, whatever is recorded, where,
by which rules, and whatever becomes of it (`Cache.durable_side_unseen`).

The two stores are not the same at every moment: to record a change of TTL the cache reads the entry
back, and an entry whose new TTL is over at once is collected by that, while the store alone keeps
it until somebody comes upon it. They do agree in what is live, and that is carried through every
step.
-/

namespace ExpiringCache

/-- Something that happens to a cache: to the cache itself, or to its durable side from without. -/
inductive Happening where
  | request (asked : Request)
  /-- The durable side becomes another one: the worker has gone on, or a backend has come, has gone,
  or fails from now on. -/
  | durable (backing : Backing)

namespace Store

/-- What happens to a store without a durable side. -/
def happen (config : Config) (codec : Codec) (s : Store) (now : Millis) :
    Happening → Reply × Store
  | .request asked => s.serve config codec now asked
  | .durable _ => (none, s)

/-- The replies to a history, and the store after it. -/
def history (config : Config) (codec : Codec) :
    Store → List (Millis × Happening) → List Reply × Store
  | s, [] => ([], s)
  | s, step :: rest =>
    let first := s.happen config codec step.1 step.2
    let later := history config codec first.2 rest
    (first.1 :: later.1, later.2)

end Store

namespace Cache

/-- What happens to a cache. -/
def happen (c : Cache) (now : Millis) : Happening → Reply × Cache
  | .request asked => c.serve now asked
  | .durable backing => (none, { c with backing := backing })

/-- The replies to a history, and the cache after it. -/
def history : Cache → List (Millis × Happening) → List Reply × Cache
  | c, [] => ([], c)
  | c, step :: rest =>
    let first := c.happen step.1 step.2
    let later := history first.2 rest
    (first.1 :: later.1, later.2)

/-! ### One step -/

/-- Looking at a key and leaving it as it is leaves the stores in agreement. -/
theorem peek_agree (s : Store) (now : Millis) (key : Bytes) :
    Store.Agree now (s.peek now key).store s where
  policy := Store.peek_acts.policy
  reads := by
    unfold Store.peek
    cases s.live? now key <;> rfl
  live? k := by
    have hpeek : s.Acts now (· = key) (fun _ live => live) (s.peek now key) := Store.peek_acts
    by_cases hk : k = key
    · -- What the look has left at its key is still there at the same reading.
      have hinside := hpeek.inside k hk
      have hagain : (s.live? now k).filter (fun e => !e.isExpiredAt now) = s.live? now k := by
        rw [← Store.live?_later (Nat.le_refl now)]
      rw [Store.live?, hinside, hagain]
    · have houtside := hpeek.outside k hk
      rw [Store.live?, houtside, Store.live?]

theorem recordChangeCourse_agree (c : Cache) (now : Millis) (rule : Rule) (call : Invocation)
    (outcome : Outcome) :
    Store.Agree now (c.recordChangeCourse now rule call outcome).store c.store := by
  have hduration : Store.Agree now (c.recordDurationCourse now rule call).store c.store := by
    unfold recordDurationCourse
    cases call.keys with
    | nil => exact .refl now c.store
    | cons key rest => exact peek_agree c.store now (Codec.encodeKey key)
  obtain ⟨kind, expectation, backend⟩ := rule
  cases kind with
  | replaceDuration => exact hduration
  | resetDuration => exact hduration
  | write => exact .refl now c.store
  | removeKeys => exact .refl now c.store
  | removeBySimilarity => exact .refl now c.store
  | removeAll => exact .refl now c.store
  | replaceValue => exact .refl now c.store

theorem recordCourse_agree (c : Cache) (now : Millis) (call : Invocation) (outcome : Outcome) :
    Store.Agree now (c.recordCourse now call outcome).store c.store := by
  unfold recordCourse
  split
  · split
    · exact recordChangeCourse_agree c now _ call outcome
    · exact .refl now c.store
  · exact .refl now c.store

/-- Recording what a command has changed leaves the store in agreement with what the command left.
This is the only place where the store is looked at again. -/
theorem requestCourse_agree (c : Cache) (now : Millis) (request : Request) :
    Store.Agree now (c.requestCourse now request).store
      (c.store.serve c.config c.codec now request).2 := by
  cases request with
  | sweep => exact .refl now _
  | call command =>
    unfold requestCourse course
    dsimp only
    split
    · exact recordCourse_agree
        { c with store := (command.run c.config c.codec now c.store).store } now _ _
    · exact .refl now _

/-- A request is answered alike on stores that agree, and leaves them in agreement. -/
theorem serve_agree {s s' : Store} {now : Millis} {config config' : Config}
    (hconfig : config.defaultTtl = config'.defaultTtl) (codec : Codec) (h : Store.Agree now s s')
    (request : Request) :
    (s.serve config codec now request).1 = (s'.serve config' codec now request).1 ∧
      Store.Agree now (s.serve config codec now request).2
        (s'.serve config' codec now request).2 := by
  cases request with
  | call command =>
    obtain ⟨hanswer, hstore⟩ := Command.run_alike hconfig codec h command
    exact ⟨congrArg some hanswer, hstore⟩
  | sweep => exact ⟨rfl, h.sweep⟩

/-- One step keeps a cache and a store alone in agreement, and is answered alike. -/
theorem happen_agree {c : Cache} {s : Store} {now : Millis} {config : Config}
    (hconfig : c.config.defaultTtl = config.defaultTtl) (h : Store.Agree now c.store s)
    (happening : Happening) :
    (c.happen now happening).1 = (s.happen config c.codec now happening).1 ∧
      Store.Agree now (c.happen now happening).2.store
        (s.happen config c.codec now happening).2 := by
  cases happening with
  | request asked =>
    obtain ⟨hreply, hstore⟩ := serve_agree hconfig c.codec h asked
    have hserve : c.happen now (.request asked) = _ := serve_eq c now asked
    rw [hserve]
    exact ⟨hreply, (requestCourse_agree c now asked).trans hstore⟩
  | durable backing => exact ⟨rfl, h⟩

/-- Nothing that happens changes the configuration and the codec of a cache. -/
theorem happen_wiring (c : Cache) (now : Millis) (happening : Happening) :
    (c.happen now happening).2.config = c.config ∧ (c.happen now happening).2.codec = c.codec := by
  cases happening with
  | request asked =>
    have hserve : c.happen now (.request asked) = _ := serve_eq c now asked
    rw [hserve]
    exact ⟨rfl, rfl⟩
  | durable backing => exact ⟨rfl, rfl⟩

/-! ### Histories -/

/-- A history at readings that do not go back keeps a cache and a store alone in agreement. -/
theorem history_agree (config : Config) (steps : List (Millis × Happening)) :
    ∀ {c : Cache} {s : Store} {start : Millis}, c.config.defaultTtl = config.defaultTtl →
      Store.Agree start c.store s → (∀ step ∈ steps, start ≤ step.1) →
      steps.Pairwise (fun a b => a.1 ≤ b.1) →
      (c.history steps).1 = (s.history config c.codec steps).1 ∧
        (c.history steps).2.store.stats.reads = (s.history config c.codec steps).2.stats.reads ∧
        ∀ now, start ≤ now → (∀ step ∈ steps, step.1 ≤ now) →
          Store.Agree now (c.history steps).2.store (s.history config c.codec steps).2 := by
  -- Stores that agree at a reading agree at all later ones, which is why readings must not go back.
  induction steps with
  | nil => exact fun _ h _ _ => ⟨rfl, h.reads, fun now hnow _ => h.later hnow⟩
  | cons step rest ih =>
    intro c s start hconfig h hstart hordered
    obtain ⟨hrest, hordered'⟩ := List.pairwise_cons.1 hordered
    obtain ⟨hreply, hagree⟩ := happen_agree hconfig (h.later (hstart step List.mem_cons_self)) step.2
    obtain ⟨hconfig', hcodec⟩ := happen_wiring c step.1 step.2
    obtain ⟨hreplies, hreads, hafter⟩ := ih (by rw [hconfig', hconfig]) hagree hrest hordered'
    rw [hcodec] at hreplies hreads hafter
    refine ⟨congrArg₂ List.cons hreply hreplies, hreads, fun now _ hnow => ?_⟩
    exact hafter now (hnow step List.mem_cons_self) fun later hlater =>
      hnow later (List.mem_cons_of_mem _ hlater)

/-- **The durable side is not seen.** Whether a cache persists or not, by whatever rules, with
whatever becomes of its backends and its worker: in a history at readings that do not go back every
call is answered as on the store alone, the reads are counted alike, and at no reading from then on
is another entry live. -/
theorem durable_side_unseen (c : Cache) (persistent : Bool) (steps : List (Millis × Happening))
    (hordered : steps.Pairwise fun a b => a.1 ≤ b.1) :
    let alone := c.store.history { c.config with persistent := persistent } c.codec steps
    (c.history steps).1 = alone.1 ∧
      (c.history steps).2.store.stats.hits = alone.2.stats.hits ∧
      (c.history steps).2.store.stats.misses = alone.2.stats.misses ∧
      ∀ now, (∀ step ∈ steps, step.1 ≤ now) →
        ∀ key, (c.history steps).2.store.live? now key = alone.2.live? now key := by
  obtain ⟨hreplies, hreads, hafter⟩ :=
    history_agree { c.config with persistent := persistent } steps (c := c) (s := c.store) rfl
      (.refl 0 c.store) (fun _ _ => Nat.zero_le _) hordered
  exact ⟨hreplies, congrArg Prod.fst hreads, congrArg Prod.snd hreads,
    fun now hnow => (hafter now (Nat.zero_le _) hnow).live?⟩

/-- A TTL of nothing: the cache has collected the entry when it read it back, and the store alone
has not. Then the backend is gone, and another key is read. -/
theorem durable_side_unseen_collected :
    let c := new { persistent := true } {}
      { registry := { memory := some (.memory .empty) }, worker := .running [] }
    let steps := [(0, .request (.call (.setWithTtl "k" (.str "v") (.ofSeconds 120)))),
      (1000, .request (.call (.replaceDuration "k" .zero))), (1000, .durable {}),
      (1000, .request (.call (.ttl "other")))]
    (c.history steps).2.store.entries.size = 0 ∧
      (c.store.history { c.config with persistent := false } c.codec steps).2.entries.size = 1 ∧
      (c.history steps).1 =
        (c.store.history { c.config with persistent := false } c.codec steps).1 :=
  ⟨rfl, rfl, (durable_side_unseen _ false _ (by decide)).1⟩

end Cache

end ExpiringCache
