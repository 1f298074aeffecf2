import ExpiringCache.Proofs.Gate
import ExpiringCache.Proofs.Given
import ExpiringCache.Proofs.Http.Endpoints

/-!
# Errors to requests

A cache that only requests and sweeps have changed holds values that are read back, since what a
request stores is nested less deep than values are read (`Cache.Tended`). So no command that a
request asks for comes upon bytes that are no value, and only such bytes are replaced without a
report. Hence an error tells that nothing has changed, and that a key is missing that it is not live
(`Cache.errors_change_nothing`).
-/

namespace ExpiringCache

/-! ### Caches that only requests change -/

/-- What comes to a server: a request, or the time to sweep. -/
inductive Visit where
  | request (asked : Http.Request)
  | sweep

/-- The value of a visit, if it is a request to store one, has no floating-point number in it. -/
def Visit.IsFloatFree : Visit → Prop
  | .request asked => ∀ resource command v, Http.Asks asked resource command →
      command.value? = some v → v.isFloatFree = true
  | .sweep => True

namespace Cache

/-- The cache after what has come to its server. -/
def visited (c : Cache) : List (Millis × Visit) → Cache
  | [] => c
  | (now, .request asked) :: rest => (Http.serve c now asked).2.visited rest
  | (now, .sweep) :: rest => (c.sweep now).2.visited rest

/-- A cache that writes values as JSON and holds what can be read back, whose jobs are done at once
by backends that never fail. -/
structure Tended (c : Cache) : Prop where
  legible : ∃ given, c.Keeps given ∧ ∀ text v, given text = some v → v.Storable
  inline : c.backing.worker.isRunning = false
  sound : ∀ kind, c.backing.Sound kind

variable {c : Cache} {now : Millis} {command : Command} {text : String}

theorem Tended.serve (h : c.Tended) (now : Millis) {asked : Request} (hreadable : asked.Readable) :
    (c.serve now asked).2.Tended := by
  obtain ⟨given, hkeeps, hgiven⟩ := h.legible
  have hvalue : ∀ v, asked.value? = some v → v.Storable := by
    cases asked with
    | call command => exact hreadable
    | sweep => exact nofun
  refine ⟨⟨_, hkeeps.serve now asked fun v hv => (hvalue v hv).isExact, fun text v hv =>
    (Given.of_after hv).elim (hgiven text v) (hvalue v)⟩, ?_, ?_⟩
  · rw [serve_eq]
    exact Backing.carryOutAll_idle _ now _ h.inline
  · rw [serve_eq]
    exact (Backing.did_carryOutAll h.inline h.sound _ now _).sound

/-- What a request stores can be read back. -/
theorem Tended.serveRequest (h : c.Tended) (now : Millis) {asked : Http.Request}
    (hfree : (Visit.request asked).IsFloatFree) : (Http.serve c now asked).2.Tended := by
  by_cases hasks : ∃ resource command, Http.Asks asked resource command
  · obtain ⟨resource, command, hasks⟩ := hasks
    rw [(Http.serve_of_asks hasks c now).1]
    have hreadable : Request.Readable (.call command) := fun v hv =>
      ⟨(hasks.within hv).exact (hfree resource command v hasks hv),
        Nat.le_trans (hasks.within hv).depth (Nat.sub_le _ _)⟩
    exact h.serve now hreadable
  · rw [Http.serve_of_not_asks (fun resource command hasks' => hasks ⟨resource, command, hasks'⟩)]
    exact h

theorem Tended.visited (steps : List (Millis × Visit)) : ∀ {c : Cache}, c.Tended →
    (∀ step ∈ steps, step.2.IsFloatFree) → (c.visited steps).Tended := by
  induction steps with
  | nil => exact fun h _ => h
  | cons step rest ih =>
    intro c h hfree
    obtain ⟨now, visit⟩ := step
    have hlater := fun later hmem => hfree later (List.mem_cons_of_mem _ hmem)
    cases visit with
    | request asked => exact ih (h.serveRequest now (hfree _ List.mem_cons_self)) hlater
    | sweep =>
      have hreadable : Request.Readable .sweep := trivial
      exact ih (h.serve now hreadable) hlater

/-- The value of a live key is read back. -/
theorem Tended.readable (h : c.Tended) {e : Entry}
    (hlive : c.store.live? now (Codec.encodeKey text) = some e) :
    ∃ v, Codec.decodeValue e.value = .ok (some v) := by
  obtain ⟨given, hkeeps, hgiven⟩ := h.legible
  obtain ⟨v, hv, -, hvalue⟩ := hkeeps.holds.live hlive
  exact ⟨v, by rw [hvalue]; exact Codec.decodeValue_printed (hgiven text v hv)⟩

/-! ### Commands without effect -/

/-- What has no effect leaves live entries and their rows as they are. -/
theorem Tended.same (h : c.Tended) (hresult : Command.effective (c.perform now command).1 = false) :
    let c' := (c.perform now command).2
    (∀ key, c'.store.live? now key = c.store.live? now key) ∧
      ∀ kind key, (c.store.live? now key).isSome = true →
        c'.backing.row? kind key = c.backing.row? kind key := by
  intro c'
  have hrun : Command.effective (command.run c.config c.codec now c.store).answer = false := by
    rwa [perform_eq] at hresult
  refine ⟨fun key => ?_, fun kind key hlive => ?_⟩
  · have hstore : c'.store = (command.run c.config c.codec now c.store).store :=
      c.store_of_ineffective now command hresult
    rw [hstore]
    refine command.run_same hrun (fun text e _ hlive hunreadable => ?_) key
    obtain ⟨v, hv⟩ := h.readable hlive
    exact hunreadable v hv
  · obtain ⟨e, he⟩ := Option.isSome_iff_exists.1 hlive
    obtain ⟨on, next, hacts⟩ := command.run_acts c.config c.codec now c.store
    rw [row?_of_unrecorded h.inline h.sound rfl (c.recording?_of_ineffective command hrun) kind key]
    exact if_neg fun hexpired =>
      ((hacts.mem_expired key).1 hexpired.2.2).2 (Store.due_eq_nil_of_live he)

/-! ### Requests for a key -/

/-- What is answered of the bytes of a live key, or of none. -/
theorem Tended.valueAnswer (h : c.Tended) (now : Millis) (text : String) :
    ∃ answer, Command.valueAnswer ((c.store.live? now (Codec.encodeKey text)).map (·.value)) =
        .ok answer ∧
      answer.effective = (c.store.live? now (Codec.encodeKey text)).isSome := by
  cases hlive : c.store.live? now (Codec.encodeKey text) with
  | none => exact ⟨_, rfl, rfl⟩
  | some e =>
    obtain ⟨v, hv⟩ := h.readable hlive
    exact ⟨.value (some v), by simp [Command.valueAnswer, hv], rfl⟩

/-- A request for a key is answered, and it has an effect just if the key is live. -/
theorem Tended.found (h : c.Tended) (now : Millis) {request : Http.Request}
    (hseeks : Http.Seeks request text) :
    ∃ resource command answer, Http.Asks request resource command ∧
      (c.perform now command).1 = .ok answer ∧
      answer.effective = (c.store.live? now (Codec.encodeKey text)).isSome ∧
      resource.status (.ok answer) = if answer.effective then 200 else 404 := by
  obtain ⟨given, ⟨hcodec, -⟩, -⟩ := h.legible
  cases hseeks with
  | value hasks =>
    obtain ⟨answer, hanswer, heffective⟩ := h.valueAnswer now text
    refine ⟨_, _, answer, hasks, ?_, heffective, rfl⟩
    rw [perform_eq, ← hanswer, ← Store.get_answer]
    rfl
  | ttl hasks =>
    refine ⟨_, _, _, hasks, by rw [perform_eq]; rfl, ?_, rfl⟩
    simp [Answer.effective, Store.ttl_answer]
  | key hasks =>
    have hcount : (Command.removeAll c.store now [Codec.encodeKey text]).answer =
        if (c.store.live? now (Codec.encodeKey text)).isSome then 1 else 0 := by
      show 0 + (if (c.store.remove now (Codec.encodeKey text)).answer.isSome then 1 else 0) = _
      rw [Store.remove_answer, Option.isSome_map, Nat.zero_add]
    refine ⟨_, _, _, hasks, by rw [perform_eq]; rfl, ?_, rfl⟩
    show decide (0 < (Command.removeAll c.store now [Codec.encodeKey text]).answer) = _
    rw [hcount]
    cases c.store.live? now (Codec.encodeKey text) <;> rfl
  | replaceTtl hasks =>
    refine ⟨_, _, _, hasks, by rw [perform_eq]; rfl, ?_, rfl⟩
    exact Store.change_answer _
  | ttlReset hasks =>
    refine ⟨_, _, _, hasks, by rw [perform_eq]; rfl, ?_, rfl⟩
    exact Store.change_answer _
  | replacement hasks hstore =>
    obtain ⟨answer, hanswer, heffective⟩ := h.valueAnswer now text
    refine ⟨_, _, answer, hasks, ?_, heffective, rfl⟩
    have hrun : (Command.run c.config .json now c.store (.replace text _)).answer = _ :=
      Command.replace_run_answer hstore
    rw [perform_eq, hcodec, ← hanswer]
    exact hrun

/-- **Errors change nothing, and a key is missing just if it is not live.** Take any cache that is
empty at first and that only the server has changed since, at any readings of the clock; its jobs
are done at once, by backends that never fail; and no floating-point number was in a value that was
to be stored. Then of the response to any request at any reading:

* If its status is 400 or above, the live entries are the same as before, and so are the rows of
  their keys.
* If the request is for one key (`Http.seeks_iff_concerns`), and its body, if it has one, is in
  order, the status is 200 if the key is live, and 404 if it is not. -/
theorem errors_change_nothing (c : Cache) (hvacant : c.Vacant)
    (hinline : c.backing.worker.isRunning = false) (hsound : ∀ kind, c.backing.Sound kind)
    (steps : List (Millis × Visit)) (hfree : ∀ step ∈ steps, step.2.IsFloatFree) (now : Millis)
    (request : Http.Request) :
    let before := c.visited steps
    let response := (Http.serve before now request).1
    let after := (Http.serve before now request).2
    (400 ≤ response.status →
      (∀ key, after.store.live? now key = before.store.live? now key) ∧
        ∀ kind key, (before.store.live? now key).isSome = true →
          after.backing.row? kind key = before.backing.row? kind key) ∧
    ∀ text, Http.Seeks request text → response.status =
      if (before.store.live? now (Codec.encodeKey text)).isSome then 200 else 404 := by
  intro before response after
  have htended : before.Tended :=
    Tended.visited steps ⟨⟨.nothing, hvacant.keeps, nofun⟩, hinline, hsound⟩ hfree
  refine ⟨fun hstatus => ?_, fun text hseeks => ?_⟩
  · by_cases hasks : ∃ resource command, Http.Asks request resource command
    · obtain ⟨resource, command, hasks⟩ := hasks
      obtain ⟨hcache, hresult⟩ := Http.serve_of_asks hasks before now
      have hsame := htended.same (Http.ineffective_of_status (hresult ▸ hstatus))
      rwa [← hcache] at hsame
    · have hidle : after = before := Http.serve_of_not_asks
        (fun resource command hasks' => hasks ⟨resource, command, hasks'⟩) before now
      rw [hidle]
      exact ⟨fun _ => rfl, fun _ _ _ => rfl⟩
  · obtain ⟨resource, command, answer, hasks, hresult, heffective, hstatus⟩ :=
      htended.found now hseeks
    rw [← heffective, ← hstatus, ← hresult]
    exact (Http.serve_of_asks hasks before now).2

/-- A value is stored and removed. To remove it again is an error, and so is to go back to its TTL or
to swap it; the other key is still there, with its row, to be read, to be asked for the TTL it has
left and to be given another. -/
theorem errors_change_nothing_removed :
    let c := new { persistent := true } {} { registry := { memory := some (.memory ⟨∅⟩) } }
    let storing (text : String) : Http.Request :=
      { verb := .put, target := "/set", contentType := some "application/json",
        body := (Json.object [("key", .str text), ("value", .arr [.int 1])]).printed }
    let removing : Http.Request := { verb := .delete, target := "/del/k" }
    let reading : Http.Request := { verb := .get, target := "/get/l" }
    let asking : Http.Request := { verb := .get, target := "/ttl/l" }
    let extending : Http.Request :=
      { verb := .put, target := "/ttl/l", contentType := some "application/json",
        body := (Json.object [("ttl", .int 60)]).printed }
    let resetting : Http.Request := { verb := .post, target := "/ttl/k/reset" }
    let swapping : Http.Request :=
      { verb := .put, target := "/replace", contentType := some "application/json",
        body := (Json.object [("key", .str "k"), ("value", .int 2)]).printed }
    let steps := [(0, Visit.request (storing "k")), (0, .request (storing "l")), (1000, .sweep),
      (1000, .request removing)]
    (Http.serve (c.visited steps) 2000 removing).1.status = 404 ∧
      (Http.serve (c.visited steps) 2000 reading).1.status = 200 ∧
      (Http.serve (c.visited steps) 2000 removing).2.store.live? 2000 (Codec.encodeKey "l") =
        (c.visited steps).store.live? 2000 (Codec.encodeKey "l") ∧
      (Http.serve (c.visited steps) 2000 removing).2.backing.row? .memory (Codec.encodeKey "l") =
        (c.visited steps).backing.row? .memory (Codec.encodeKey "l") ∧
      (Http.serve (c.visited steps) 2000 asking).1.status = 200 ∧
      (Http.serve (c.visited steps) 2000 extending).1.status = 200 ∧
      (Http.serve (c.visited steps) 2000 resetting).1.status = 404 ∧
      (Http.serve (c.visited steps) 2000 swapping).1.status = 404 := by
  intro c storing removing reading asking extending resetting swapping steps
  have hvacant : c.Vacant := ⟨rfl, rfl⟩
  have hsound : ∀ kind, c.backing.Sound kind := fun kind => ⟨rfl, rfl, fun backend hfind => by
    cases kind <;> cases hfind
    trivial⟩
  have hset : Http.Resource.ofSegments (Http.segments "/set") = some .set := by decide +kernel
  have hdelete : Http.Resource.ofSegments (Http.segments "/del/k") = some (.key "k") := by
    decide +kernel
  -- There is no floating-point number in what is stored.
  have hread : ∀ text ∈ ["k", "l"],
      (Http.readBody Http.SetBody.form (storing text)).toOption.map (·.value.isFloatFree) =
        some true := by decide +kernel
  have hstoring : ∀ text ∈ ["k", "l"], (Visit.request (storing text)).IsFloatFree := by
    intro text htext resource command v hasks hv
    obtain rfl : .set = resource := Option.some.inj (hset.symm.trans hasks.path)
    cases hasks.endpoint with
    | set hbody =>
      have hfree := hread text htext
      rw [hbody] at hfree
      obtain rfl := Option.some.inj ((Http.value?_setCommand _).symm.trans hv)
      exact Option.some.inj hfree
  have hremoving : (Visit.request removing).IsFloatFree := by
    intro resource command v hasks hv
    obtain rfl : .key "k" = resource := Option.some.inj (hdelete.symm.trans hasks.path)
    cases hasks.endpoint
    cases hv
  have hfree : ∀ step ∈ steps, step.2.IsFloatFree :=
    List.forall_mem_cons.2 ⟨hstoring "k" (by decide), List.forall_mem_cons.2
      ⟨hstoring "l" (by decide), List.forall_mem_cons.2
        ⟨trivial, List.forall_mem_singleton.2 hremoving⟩⟩⟩
  have hserved := errors_change_nothing c hvacant rfl hsound steps hfree 2000
  have hgone : ((c.visited steps).store.live? 2000 (Codec.encodeKey "k")).isSome = false := by
    decide +kernel
  have hthere : ((c.visited steps).store.live? 2000 (Codec.encodeKey "l")).isSome = true := by
    decide +kernel
  have hmissing : ∀ request, Http.Concerns request "k" →
      (Http.serve (c.visited steps) 2000 request).1.status = 404 := fun request h => by
    rw [(hserved request).2 "k" (Http.seeks_iff_concerns.2 h)]
    exact if_neg (ne_true_of_eq_false hgone)
  have hfound : ∀ request, Http.Concerns request "l" →
      (Http.serve (c.visited steps) 2000 request).1.status = 200 := fun request h => by
    rw [(hserved request).2 "l" (Http.seeks_iff_concerns.2 h)]
    exact if_pos hthere
  have hk : Http.segmentText? "k" = some "k" := by decide +kernel
  have hl : Http.segmentText? "l" = some "l" := by decide +kernel
  have hremove := hmissing removing (.delete (by decide +kernel) rfl (by decide) hk)
  obtain ⟨hlive, hrows⟩ := (hserved removing).1 (by rw [hremove]; decide)
  refine ⟨hremove, hfound reading (.get (by decide +kernel) (.inl rfl) (by decide) hl), hlive _,
    hrows _ _ hthere, hfound asking (.ttl (by decide +kernel) (.inl rfl) (by decide) hl), ?_,
    hmissing resetting (.resetTtl (by decide +kernel) rfl hk), ?_⟩
  · have hread : (Http.readBody Http.TtlBody.form extending).toOption.map (·.refusal?) =
        some none := by decide +kernel
    obtain ⟨body, hbody, hrefusal⟩ := Option.map_eq_some_iff.1 hread
    exact hfound extending (.replaceTtl (by decide +kernel) rfl (by decide) hl
      (toOption_eq_some_iff.1 hbody) hrefusal)
  · have hread : (Http.readBody Http.ReplaceBody.form swapping).toOption.map (fun body =>
        (body.refusal?, body.key, Store.refusal? (Codec.encodeKey "k") body.value.printed)) =
          some (none, "k", none) := by decide +kernel
    obtain ⟨body, hbody, heq⟩ := Option.map_eq_some_iff.1 hread
    simp only [Prod.mk.injEq] at heq
    obtain ⟨hrefusal, hkey, hstore⟩ := heq
    exact hmissing swapping (.replace (by decide +kernel) rfl (toOption_eq_some_iff.1 hbody)
      hrefusal hkey hstore)

end Cache

end ExpiringCache
