import ExpiringCache.Http.Server
import ExpiringCache.Proofs.Effect
import ExpiringCache.Proofs.Json.Depth
import ExpiringCache.Proofs.Json.Form
import ExpiringCache.Proofs.Session

/-!
# What requests ask for

A request asks an endpoint for a command if its path is served for its method, its key is a text,
and its body is what the endpoint takes (`Http.Asks`). Then the command is carried out, and its
result decides the status of the response (`Http.serve_of_asks`). Any other request leaves the cache
as it is (`Http.serve_of_not_asks`). Which requests are for one key (`Http.Seeks`) is told by their
methods and paths in `Http.seeks_iff_concerns`.

The value a request asks to store stands one level deep in its body, so it is nested less deep than
values are read (`Http.Asks.within`).
-/

namespace ExpiringCache

theorem Cache.yields_of_perform {c : Cache} {now : Millis} {command : Command} {answer : Answer}
    (h : (c.perform now command).1 = .ok answer) : command.yields answer = true := by
  rw [perform_eq] at h
  exact command.yields_of_run h

namespace Http

/-! ### What an endpoint asks for -/

/-- The command that a request asks a resource for, if its key is a text and its body, where the
endpoint has one, is what the endpoint takes. -/
inductive Resource.Asks (request : Request) : Resource → Command → Prop where
  | set {body : SetBody} (hbody : readBody SetBody.form request = .ok body)
      (hrefusal : body.refusal? = none) : Asks request .set (setCommand body)
  | setIfAbsent {body : SetBody} (hbody : readBody SetBody.form request = .ok body)
      (hrefusal : body.refusal? = none) : Asks request .setIfAbsent (setIfAbsentCommand body)
  | replacement {body : ReplaceBody} (hbody : readBody ReplaceBody.form request = .ok body)
      (hrefusal : body.refusal? = none) :
      Asks request .replacement (.replace body.key body.value)
  | deletion {body : DeleteBody} (hbody : readBody DeleteBody.form request = .ok body) :
      Asks request .deletion (.delete body.keys)
  | value {segment key : String} (hkey : segmentText? segment = some key) :
      Asks request (.value segment) (.get key)
  | ttl {segment key : String} (hkey : segmentText? segment = some key)
      (hverb : request.verb ≠ .put) : Asks request (.ttl segment) (.ttl key)
  | replaceTtl {segment key : String} {body : TtlBody} (hkey : segmentText? segment = some key)
      (hverb : request.verb = .put) (hbody : readBody TtlBody.form request = .ok body)
      (hrefusal : body.refusal? = none) :
      Asks request (.ttl segment) (.replaceDuration key body.duration)
  | ttlReset {segment key : String} (hkey : segmentText? segment = some key) :
      Asks request (.ttlReset segment) (.resetDuration key)
  | key {segment key : String} (hkey : segmentText? segment = some key) :
      Asks request (.key segment) (.delete [key])
  | similar {segment start : String} (hkey : segmentText? segment = some start) :
      Asks request (.similar segment) (.deleteSimilar start)
  | all : Asks request .all .deleteAll

/-- The status of the response to a command's result. Where a resource is one key, no effect means
that there is none. -/
def Resource.status : Resource → Except CacheError Answer → Nat
  | _, .error e => errorStatus e
  | .value _, .ok answer | .ttl _, .ok answer | .ttlReset _, .ok answer | .key _, .ok answer
  | .replacement, .ok answer => if answer.effective then 200 else 404
  | _, .ok _ => 200

variable {request : Request} {resource : Resource} {command : Command}

theorem respond_eq (c : Cache) (now : Millis) (command : Command) (answer : Answer → Response) :
    respond c now command answer =
      (match (c.perform now command).1 with
        | .ok a => answer a
        | .error e => failure e, (c.perform now command).2) := by
  unfold respond
  rcases c.perform now command with ⟨_ | _, _⟩ <;> rfl

/-- The status of a response is that of the command's result if it is for all answers of the
command's shape. -/
theorem respond_status {answer : Answer → Response}
    (h : ∀ a, command.yields a = true → (answer a).status = resource.status (.ok a)) (c : Cache)
    (now : Millis) :
    (respond c now command answer).2 = (c.perform now command).2 ∧
      (respond c now command answer).1.status = resource.status (c.perform now command).1 := by
  rw [respond_eq]
  refine ⟨rfl, ?_⟩
  cases hresult : (c.perform now command).1 with
  | ok a => exact h a (Cache.yields_of_perform hresult)
  | error e => cases resource <;> rfl

theorem flag_of_setCommand {body : SetBody} {a : Answer} (h : (setCommand body).yields a = true) :
    ∃ stored, a = .flag stored := by
  unfold setCommand at h
  split at h <;> cases a <;> cases h <;> exact ⟨_, rfl⟩

/-- A command that a request asks for is carried out, and its result decides the status. -/
theorem serveResource_of_asks (h : resource.Asks request command) (c : Cache) (now : Millis) :
    (serveResource c now request resource).2 = (c.perform now command).2 ∧
      (serveResource c now request resource).1.status =
        resource.status (c.perform now command).1 := by
  cases h with
  | set hbody hrefusal =>
    simp only [serveResource, serveSet, hbody, hrefusal]
    refine respond_status (fun a ha => ?_) c now
    obtain ⟨stored, rfl⟩ := flag_of_setCommand ha
    rfl
  | setIfAbsent hbody hrefusal =>
    simp only [serveResource, serveSet, hbody, hrefusal]
    refine respond_status (fun a ha => ?_) c now
    cases a <;> cases ha
    rfl
  | replacement hbody hrefusal =>
    simp only [serveResource, serveReplace, hbody, hrefusal]
    refine respond_status (fun a ha => ?_) c now
    cases a with
    | value v => cases v <;> rfl
    | _ => cases ha
  | deletion hbody =>
    simp only [serveResource, serveDeleteMany, hbody]
    refine respond_status (fun a ha => ?_) c now
    cases a <;> cases ha
    rfl
  | value hkey =>
    simp only [serveResource, withKey, hkey]
    refine respond_status (fun a ha => ?_) c now
    cases a with
    | value v => cases v <;> rfl
    | _ => cases ha
  | ttl hkey hverb =>
    simp only [serveResource, withKey, hkey, if_neg hverb]
    refine respond_status (fun a ha => ?_) c now
    cases a with
    | duration d => cases d <;> rfl
    | _ => cases ha
  | replaceTtl hkey hverb hbody hrefusal =>
    simp only [serveResource, withKey, hkey, if_pos hverb, serveReplaceTtl, hbody, hrefusal]
    refine respond_status (fun a ha => ?_) c now
    cases a with
    | flag updated => cases updated <;> rfl
    | _ => cases ha
  | ttlReset hkey =>
    simp only [serveResource, withKey, hkey]
    refine respond_status (fun a ha => ?_) c now
    cases a with
    | flag updated => cases updated <;> rfl
    | _ => cases ha
  | key hkey =>
    simp only [serveResource, withKey, hkey]
    refine respond_status (fun a ha => ?_) c now
    cases a with
    | count n => cases n <;> rfl
    | _ => cases ha
  | similar hkey =>
    simp only [serveResource, withKey, hkey]
    refine respond_status (fun a ha => ?_) c now
    cases a <;> cases ha
    rfl
  | all =>
    refine respond_status (fun a ha => ?_) c now
    cases a <;> cases ha
    rfl

/-- A request that asks a resource for no command leaves the cache as it is. -/
theorem serveResource_of_not_asks (h : ∀ command, ¬ resource.Asks request command) (c : Cache)
    (now : Millis) : (serveResource c now request resource).2 = c := by
  have hkeyed : ∀ {segment : String} {serve : String → Served},
      (∀ key, segmentText? segment = some key → (serve key).2 = c) →
        (withKey c segment serve).2 = c := by
    intro segment serve hserve
    unfold withKey
    cases hkey : segmentText? segment with
    | some key => exact hserve key hkey
    | none => rfl
  cases resource with
  | set =>
    simp only [serveResource, serveSet]
    split
    · rfl
    · next hbody =>
      split
      · rfl
      · next hrefusal => exact absurd (.set hbody hrefusal) (h _)
  | setIfAbsent =>
    simp only [serveResource, serveSet]
    split
    · rfl
    · next hbody =>
      split
      · rfl
      · next hrefusal => exact absurd (.setIfAbsent hbody hrefusal) (h _)
  | replacement =>
    simp only [serveResource, serveReplace]
    split
    · rfl
    · next hbody =>
      split
      · rfl
      · next hrefusal => exact absurd (.replacement hbody hrefusal) (h _)
  | deletion =>
    simp only [serveResource, serveDeleteMany]
    split
    · rfl
    · next hbody => exact absurd (.deletion hbody) (h _)
  | value segment => exact hkeyed fun key hkey => absurd (.value hkey) (h _)
  | ttl segment =>
    refine hkeyed fun key hkey => ?_
    split
    · next hverb =>
      unfold serveReplaceTtl
      split
      · rfl
      · next hbody =>
        split
        · rfl
        · next hrefusal => exact absurd (.replaceTtl hkey hverb hbody hrefusal) (h _)
    · next hverb => exact absurd (.ttl hkey hverb) (h _)
  | ttlReset segment => exact hkeyed fun key hkey => absurd (.ttlReset hkey) (h _)
  | key segment => exact hkeyed fun key hkey => absurd (.key hkey) (h _)
  | similar segment => exact hkeyed fun key hkey => absurd (.similar hkey) (h _)
  | all => exact absurd .all (h _)
  | stats | health => rfl

/-! ### What a request asks for -/

/-- A request that is served asks a resource for a command. -/
structure Asks (request : Request) (resource : Resource) (command : Command) : Prop where
  path : Resource.ofSegments (segments request.target) = some resource
  verb : request.verb ∈ resource.verbs
  endpoint : resource.Asks request command

/-- A request for one key, which has no body or one that is in order and whose value, if it has one,
is not too large for a store. -/
inductive Seeks (request : Request) : String → Prop where
  | value {segment text : String} (h : Asks request (.value segment) (.get text)) :
      Seeks request text
  | ttl {segment text : String} (h : Asks request (.ttl segment) (.ttl text)) : Seeks request text
  | key {segment text : String} (h : Asks request (.key segment) (.delete [text])) :
      Seeks request text
  | replaceTtl {segment text : String} {lifetime : Duration}
      (h : Asks request (.ttl segment) (.replaceDuration text lifetime)) : Seeks request text
  | ttlReset {segment text : String} (h : Asks request (.ttlReset segment) (.resetDuration text)) :
      Seeks request text
  | replacement {text : String} {value : Json}
      (h : Asks request .replacement (.replace text value))
      (hstore : Store.refusal? (Codec.encodeKey text) value.printed = none) : Seeks request text

/-! ### Requests for one key by their methods and paths -/

/-- The segments that name a resource. -/
def Resource.path : Resource → List String
  | .set => ["set"]
  | .setIfAbsent => ["set-if-absent"]
  | .value segment => ["get", segment]
  | .ttl segment => ["ttl", segment]
  | .ttlReset segment => ["ttl", segment, "reset"]
  | .deletion => ["del"]
  | .key segment => ["del", segment]
  | .similar segment => ["similar", segment]
  | .all => ["all"]
  | .replacement => ["replace"]
  | .stats => ["stats"]
  | .health => ["health"]

/-- A key at the end of a path has at least one character. -/
def Resource.IsNamed : Resource → Prop
  | .value segment | .ttl segment | .key segment | .similar segment => segment ≠ ""
  | _ => True

/-- Each resource is served under its own path and no other. -/
theorem Resource.ofSegments_eq_some_iff {parts : List String} {resource : Resource} :
    ofSegments parts = some resource ↔ parts = resource.path ∧ resource.IsNamed := by
  constructor
  · intro h
    unfold ofSegments at h
    split at h
    case h_8 | h_9 | h_10 | h_11 =>
      obtain ⟨hsegment, hresource⟩ := Option.ite_none_left_eq_some.1 h
      cases hresource
      exact ⟨rfl, fun hempty => hsegment (by rw [hempty]; rfl)⟩
    case h_13 => cases h
    all_goals
      cases h
      exact ⟨rfl, trivial⟩
  · rintro ⟨rfl, hnamed⟩
    cases resource with
    | value segment | ttl segment | key segment | similar segment =>
      exact if_neg fun hempty => hnamed (String.isEmpty_iff.1 hempty)
    | _ => rfl

/-- A request concerns a key if it is sent to one of the endpoints for one key, by a method that the
endpoint is served for. -/
inductive Concerns (request : Request) (text : String) : Prop where
  | get {segment : String} (hpath : segments request.target = ["get", segment])
      (hverb : request.verb = .get ∨ request.verb = .head) (hsegment : segment ≠ "")
      (hkey : segmentText? segment = some text)
  | ttl {segment : String} (hpath : segments request.target = ["ttl", segment])
      (hverb : request.verb = .get ∨ request.verb = .head) (hsegment : segment ≠ "")
      (hkey : segmentText? segment = some text)
  | delete {segment : String} (hpath : segments request.target = ["del", segment])
      (hverb : request.verb = .delete) (hsegment : segment ≠ "")
      (hkey : segmentText? segment = some text)
  | replaceTtl {segment : String} {body : TtlBody}
      (hpath : segments request.target = ["ttl", segment]) (hverb : request.verb = .put)
      (hsegment : segment ≠ "") (hkey : segmentText? segment = some text)
      (hbody : readBody TtlBody.form request = .ok body) (hrefusal : body.refusal? = none)
  | resetTtl {segment : String} (hpath : segments request.target = ["ttl", segment, "reset"])
      (hverb : request.verb = .post) (hkey : segmentText? segment = some text)
  | replace {body : ReplaceBody} (hpath : segments request.target = ["replace"])
      (hverb : request.verb = .put) (hbody : readBody ReplaceBody.form request = .ok body)
      (hrefusal : body.refusal? = none) (hkey : body.key = text)
      (hstore : Store.refusal? (Codec.encodeKey text) body.value.printed = none)

theorem asks_iff : Asks request resource command ↔
    segments request.target = resource.path ∧ resource.IsNamed ∧ request.verb ∈ resource.verbs ∧
      resource.Asks request command := by
  constructor
  · rintro ⟨hpath, hverb, hasks⟩
    obtain ⟨hparts, hnamed⟩ := Resource.ofSegments_eq_some_iff.1 hpath
    exact ⟨hparts, hnamed, hverb, hasks⟩
  · rintro ⟨hparts, hnamed, hverb, hasks⟩
    exact ⟨Resource.ofSegments_eq_some_iff.2 ⟨hparts, hnamed⟩, hverb, hasks⟩

/-- The requests for one key are those that the endpoints for one key are sent. -/
theorem seeks_iff_concerns {text : String} : Seeks request text ↔ Concerns request text := by
  constructor
  · intro h
    cases h with
    | value h =>
      obtain ⟨hpath, hnamed, hverb, hasks⟩ := asks_iff.1 h
      cases hasks with
      | value hkey => exact .get hpath (by simpa [Resource.verbs] using hverb) hnamed hkey
    | ttl h =>
      obtain ⟨hpath, hnamed, hverb, hasks⟩ := asks_iff.1 h
      cases hasks with
      | ttl hkey hput =>
        have hread : request.verb = .get ∨ request.verb = .head ∨ request.verb = .put := by
          simpa [Resource.verbs] using hverb
        exact .ttl hpath (hread.imp_right fun hlast => hlast.resolve_right hput) hnamed hkey
    | key h =>
      obtain ⟨hpath, hnamed, hverb, hasks⟩ := asks_iff.1 h
      cases hasks with
      | key hkey => exact .delete hpath (by simpa [Resource.verbs] using hverb) hnamed hkey
    | replaceTtl h =>
      obtain ⟨hpath, hnamed, -, hasks⟩ := asks_iff.1 h
      cases hasks with
      | replaceTtl hkey hverb hbody hrefusal =>
        exact .replaceTtl hpath hverb hnamed hkey hbody hrefusal
    | ttlReset h =>
      obtain ⟨hpath, -, hverb, hasks⟩ := asks_iff.1 h
      cases hasks with
      | ttlReset hkey => exact .resetTtl hpath (by simpa [Resource.verbs] using hverb) hkey
    | replacement h hstore =>
      obtain ⟨hpath, -, hverb, hasks⟩ := asks_iff.1 h
      cases hasks with
      | replacement hbody hrefusal =>
        exact .replace hpath (by simpa [Resource.verbs] using hverb) hbody hrefusal rfl hstore
  · intro h
    cases h with
    | get hpath hverb hsegment hkey =>
      have hserved : request.verb ∈ [Verb.get, .head] := by simpa using hverb
      exact .value (asks_iff.2 ⟨hpath, hsegment, hserved, .value hkey⟩)
    | ttl hpath hverb hsegment hkey =>
      have hserved : request.verb ∈ [Verb.get, .head, .put] := by
        rcases hverb with hverb | hverb <;> simp [hverb]
      have hput : request.verb ≠ .put := by rcases hverb with hverb | hverb <;> simp [hverb]
      exact .ttl (asks_iff.2 ⟨hpath, hsegment, hserved, .ttl hkey hput⟩)
    | delete hpath hverb hsegment hkey =>
      have hserved : request.verb ∈ [Verb.delete] := List.mem_singleton.2 hverb
      exact .key (asks_iff.2 ⟨hpath, hsegment, hserved, .key hkey⟩)
    | replaceTtl hpath hverb hsegment hkey hbody hrefusal =>
      have hserved : request.verb ∈ [Verb.get, .head, .put] := by simp [hverb]
      exact .replaceTtl (asks_iff.2
        ⟨hpath, hsegment, hserved, .replaceTtl hkey hverb hbody hrefusal⟩)
    | resetTtl hpath hverb hkey =>
      have hserved : request.verb ∈ [Verb.post] := List.mem_singleton.2 hverb
      exact .ttlReset (asks_iff.2 ⟨hpath, trivial, hserved, .ttlReset hkey⟩)
    | replace hpath hverb hbody hrefusal hkey hstore =>
      subst hkey
      have hserved : request.verb ∈ [Verb.put] := List.mem_singleton.2 hverb
      exact .replacement (asks_iff.2 ⟨hpath, trivial, hserved, .replacement hbody hrefusal⟩) hstore

/-! ### Requests that are served -/

/-- OPTIONS requests are answered before a resource is looked at. -/
theorem Resource.options_not_mem (resource : Resource) : Verb.options ∉ resource.verbs := by
  cases resource <;> simp [verbs]

/-- The command that a request asks for is carried out, and its result decides the status. -/
theorem serve_of_asks (h : Asks request resource command) (c : Cache) (now : Millis) :
    (serve c now request).2 = (c.perform now command).2 ∧
      (serve c now request).1.status = resource.status (c.perform now command).1 := by
  have hoptions : request.verb ≠ .options := fun heq => resource.options_not_mem (heq ▸ h.verb)
  have hverb : resource.verbs.contains request.verb = true := List.contains_iff_mem.2 h.verb
  have hserved := serveResource_of_asks h.endpoint c now
  simp only [serve, if_neg hoptions, h.path, hverb, if_true]
  split <;> exact hserved

/-- A request that asks for no command leaves the cache as it is. -/
theorem serve_of_not_asks (h : ∀ resource command, ¬ Asks request resource command) (c : Cache)
    (now : Millis) : (serve c now request).2 = c := by
  unfold serve
  dsimp only
  split
  · rfl
  split
  · rfl
  · next resource hpath =>
    split
    · next hverb =>
      have hnone : ∀ command, ¬ resource.Asks request command := fun command hasks =>
        h resource command ⟨hpath, List.contains_iff_mem.1 hverb, hasks⟩
      have hidle := serveResource_of_not_asks hnone c now
      split <;> exact hidle
    · rfl

/-- The status of an error tells of no effect. -/
theorem ineffective_of_status {result : Except CacheError Answer}
    (h : 400 ≤ resource.status result) : Command.effective result = false := by
  cases result with
  | error e => rfl
  | ok answer =>
    cases heffective : answer.effective with
    | false => exact heffective
    | true =>
      have hstatus : resource.status (.ok answer) = 200 := by
        cases resource <;> simp [Resource.status, heffective]
      rw [hstatus] at h
      exact absurd h (by decide)

/-! ### What a request asks to store -/

/-- What a body is read as stands at its beginning. -/
theorem read_of_readBody {σ α : Type} {form : Json.Form σ α} {body : α}
    (h : readBody form request = .ok body) : ∃ rest, form.read request.body = .ok (body, rest) := by
  unfold readBody at h
  split at h
  · cases h
  split at h
  · cases h
  split at h
  · next hread =>
    cases h
    exact ⟨_, hread⟩
  all_goals cases h

/-- The value of a body is nested as deep as its field is read at most, whatever the other fields
are. -/
theorem within_of_readBody {σ α : Type} {form : Json.Form σ α} {value : σ → Option Json}
    {depth : Nat} {body : α} {v : Json} (h : readBody form request = .ok body)
    (hblank : value form.blank = none)
    (hfields : ∀ field ∈ form.fields,
      field.Preserves fun filled => ∀ v, value filled = some v → Json.Within depth v)
    (hbuild : ∀ full, form.build full = some body → value full = some v) : Json.Within depth v := by
  obtain ⟨rest, hread⟩ := read_of_readBody h
  obtain ⟨full, hfull, hbody⟩ :=
    Json.Form.read_preserves (fun v hv => nomatch hblank.symm.trans hv) hfields hread
  exact hfull v (hbuild full hbody)

theorem SetBody.value_within {body : SetBody} (h : readBody SetBody.form request = .ok body) :
    Json.Within (Json.maxDepth - 1) body.value := by
  have hfields : ∀ field ∈ SetBody.form.fields, field.Preserves fun filled : Fields =>
      ∀ v, filled.value = some v → Json.Within (Json.maxDepth - 1) v := by
    refine List.forall_mem_cons.2 ⟨?_, List.forall_mem_cons.2 ⟨?_, List.forall_mem_singleton.2 ?_⟩⟩
    · exact Json.Field.preserves_make fun _ _ _ _ hfilled _ => hfilled
    · refine Json.Field.preserves_make fun _ x s rest _ hread v hv => ?_
      exact Option.some.inj hv ▸ Json.value_within _ s x rest hread
    · exact Json.Field.preserves_make fun _ _ _ _ hfilled _ => hfilled
  refine within_of_readBody h rfl hfields fun full hbuild => ?_
  obtain ⟨key, -, hvalue⟩ := Option.bind_eq_some_iff.1 hbuild
  obtain ⟨value, hgathered, heq⟩ := Option.bind_eq_some_iff.1 hvalue
  cases heq
  exact hgathered

theorem ReplaceBody.value_within {body : ReplaceBody}
    (h : readBody ReplaceBody.form request = .ok body) :
    Json.Within (Json.maxDepth - 1) body.value := by
  have hfields : ∀ field ∈ ReplaceBody.form.fields, field.Preserves fun filled : Fields =>
      ∀ v, filled.value = some v → Json.Within (Json.maxDepth - 1) v := by
    refine List.forall_mem_cons.2 ⟨?_, List.forall_mem_singleton.2 ?_⟩
    · exact Json.Field.preserves_make fun _ _ _ _ hfilled _ => hfilled
    · refine Json.Field.preserves_make fun _ x s rest _ hread v hv => ?_
      exact Option.some.inj hv ▸ Json.value_within _ s x rest hread
  refine within_of_readBody h rfl hfields fun full hbuild => ?_
  obtain ⟨key, -, hvalue⟩ := Option.bind_eq_some_iff.1 hbuild
  obtain ⟨value, hgathered, heq⟩ := Option.bind_eq_some_iff.1 hvalue
  cases heq
  exact hgathered

theorem value?_setCommand (body : SetBody) : (setCommand body).value? = some body.value := by
  unfold setCommand
  split <;> rfl

/-- The value a request asks to store is nested less deep than values are read. -/
theorem Asks.within (h : Asks request resource command) {v : Json} (hv : command.value? = some v) :
    Json.Within (Json.maxDepth - 1) v := by
  obtain ⟨-, -, h⟩ := h
  cases h with
  | @set body hbody hrefusal =>
    have hvalue : body.value = v := Option.some.inj ((value?_setCommand body).symm.trans hv)
    exact hvalue ▸ SetBody.value_within hbody
  | @setIfAbsent body hbody hrefusal =>
    have hvalue : body.value = v := Option.some.inj hv
    exact hvalue ▸ SetBody.value_within hbody
  | @replacement body hbody hrefusal =>
    have hvalue : body.value = v := Option.some.inj hv
    exact hvalue ▸ ReplaceBody.value_within hbody
  | deletion | value | ttl | replaceTtl | ttlReset | key | similar | all => cases hv

end Http

end ExpiringCache
