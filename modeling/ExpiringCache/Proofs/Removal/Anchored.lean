import ExpiringCache.Proofs.Mirror.Session

/-!
# No row without an entry

In a cache that does everything at once, a key that has no entry has no row (`Cache.Anchored`). Every
request keeps that, whatever the values are that it comes with. A restart keeps it where all rows
come back, that is where they are replayed and values are read back as they were given.

So as long as nothing is written, the rows follow from the entries that are left: a removal leaves a
key with its entry and its row, or with neither (`Cache.Anchored.removals`).
-/

namespace ExpiringCache

/-! ### Removals of one key -/

section Passages

variable {config : Config} {now : Millis} {key : Bytes} {timing : Timing}
  {entry entry' : Option Entry} {row row' : Option Row}

/-- A request leaves no row without an entry if there was none. -/
theorem Passage.row_eq_none {given : Option Json}
    (h : Passage config now key given timing entry row entry' row')
    (hbefore : entry = none → row = none) (hafter : entry' = none) : row' = none := by
  cases h with
  | kept => exact hbefore hafter
  | gone | ended => rfl
  | read | written | revalued | revaluedUnread | changed | changedUnread => cases hafter

/-- What comes without a value and leaves the TTL alone keeps entry and row, or removes both. -/
theorem Passage.kept_or_gone (h : Passage config now key none .kept entry row entry' row') :
    entry' = entry ∧ row' = row ∨ entry' = none ∧ row' = none := by
  cases h with
  | kept => exact .inl ⟨rfl, rfl⟩
  | gone => exact .inr ⟨rfl, rfl⟩
  | revalued _ _ _ _ hgiven | revaluedUnread _ _ _ hgiven => cases hgiven

end Passages

/-- The requests that remove keys and do nothing else. -/
def Request.removes : Request → Bool
  | .call (.delete _) | .call (.deleteSimilar _) | .call .deleteAll | .sweep => true
  | _ => false

theorem Request.value?_of_removes {asked : Request} (h : asked.removes = true) :
    asked.value? = none := by
  cases asked with
  | sweep => rfl
  | call command => cases command <;> first | rfl | cases h

namespace Cache

variable {c : Cache} {now : Millis}

theorem timing_of_removes {asked : Request} (h : asked.removes = true) (key : Bytes) :
    c.timing now key asked = .kept := by
  cases asked with
  | sweep => rfl
  | call command => cases command <;> first | rfl | cases h

/-! ### Recovery listeners -/

/-- The same cache, with recovery replaying what is there. -/
def rebound (c : Cache) : Cache :=
  { c with listeners := { c.listeners with recovery := [.replay] } }

theorem rebound_of_replay (h : c.listeners.recovery = [.replay]) : c.rebound = c := by
  unfold rebound
  rw [← h]

/-- Requests have nothing to do with recovery. -/
theorem requestCourse_rebound (c : Cache) (now : Millis) (asked : Request) :
    c.rebound.requestCourse now asked = c.requestCourse now asked := by
  cases asked <;> rfl

theorem act_rebound (c : Cache) (now : Millis) (asked : Request) :
    c.rebound.act now (.request asked) = (c.act now (.request asked)).rebound := by
  rw [act_request, act_request, requestCourse_rebound]
  rfl

/-! ### Rows and entries -/

theorem config_request (c : Cache) (now : Millis) (asked : Request) :
    (c.act now (.request asked)).config = c.config := by
  rw [act_request]
  rfl

/-- The cache does everything at once, and has rows only under keys that have entries. -/
structure Anchored (c : Cache) : Prop where
  prompt : c.rebound.Prompt
  rows : ∀ key, c.store.entries.find? key = none → c.backing.row? c.config.backend key = none

namespace Anchored

theorem persistent (h : c.Anchored) : c.config.persistent = true :=
  h.prompt.persisting.persistent

theorem direct (h : c.Anchored) : c.backing.Direct c.config.backend := h.prompt.direct

/-- Entries are under texts. -/
theorem named (h : c.Anchored) {key : Bytes} {e : Entry}
    (hfind : c.store.entries.find? key = some e) : ∃ text, key = Codec.encodeKey text := by
  refine h.prompt.named key (.inl ?_)
  show c.store.entries.find? key ≠ none
  rw [hfind]
  exact Option.some_ne_none e

theorem passage (h : c.Anchored) (now : Millis) (asked : Request) (key : Bytes) :
    Passage c.config now key asked.value? (c.timing now key asked) (c.store.entries.find? key)
      (c.backing.row? c.config.backend key) ((c.act now (.request asked)).store.entries.find? key)
      ((c.act now (.request asked)).backing.row? c.config.backend key) := by
  have hpassage := h.prompt.passage now asked key
  rw [act_rebound] at hpassage
  exact hpassage

/-- Every request keeps that. -/
theorem request (h : c.Anchored) (now : Millis) (asked : Request) :
    (c.act now (.request asked)).Anchored := by
  refine ⟨by rw [← act_rebound]; exact h.prompt.request now asked, fun key hnone => ?_⟩
  rw [config_request]
  exact (h.passage now asked key).row_eq_none (h.rows key) hnone

/-- So do requests one after another. -/
theorem requests (steps : List (Millis × Request)) : ∀ {c : Cache}, c.Anchored →
    (c.serveAll steps).2.Anchored ∧ (c.serveAll steps).2.config = c.config := by
  induction steps with
  | nil => exact fun h => ⟨h, rfl⟩
  | cons step rest ih =>
    intro c h
    obtain ⟨hrest, hconfig⟩ := ih (h.request step.1 step.2)
    exact ⟨hrest, hconfig.trans (config_request c step.1 step.2)⟩

/-- **Removals leave each key with its entry and its row, or with neither.** -/
theorem removals (steps : List (Millis × Request)) : ∀ {c : Cache}, c.Anchored →
    (∀ step ∈ steps, step.2.removes = true) → ∀ key,
      let c' := (c.serveAll steps).2
      c'.store.entries.find? key = c.store.entries.find? key ∧
          c'.backing.row? c.config.backend key = c.backing.row? c.config.backend key ∨
        c'.store.entries.find? key = none ∧ c'.backing.row? c.config.backend key = none := by
  induction steps with
  | nil => exact fun _ _ _ => .inl ⟨rfl, rfl⟩
  | cons step rest ih =>
    intro c h hremoves key c'
    have hremoved := hremoves _ List.mem_cons_self
    have hfirst := h.passage step.1 step.2 key
    rw [Request.value?_of_removes hremoved, timing_of_removes hremoved] at hfirst
    have hrest := ih (h.request step.1 step.2) (fun s hs => hremoves s (List.mem_cons_of_mem _ hs)) key
    rw [config_request] at hrest
    rcases hrest with ⟨hentry, hrow⟩ | hgone
    · rcases hfirst.kept_or_gone with ⟨hentry', hrow'⟩ | ⟨hentry', hrow'⟩
      · exact .inl ⟨hentry.trans hentry', hrow.trans hrow'⟩
      · exact .inr ⟨hentry.trans hentry', hrow.trans hrow'⟩
    · exact .inr hgone

/-- So the rows that removals leave follow from the entries that they leave. -/
theorem row?_removals (h : c.Anchored) {steps : List (Millis × Request)}
    (hremoves : ∀ step ∈ steps, step.2.removes = true) (key : Bytes) :
    (c.serveAll steps).2.backing.row? c.config.backend key =
      if ((c.serveAll steps).2.store.entries.find? key).isSome then
        c.backing.row? c.config.backend key
      else none := by
  rcases removals steps h hremoves key with ⟨hentry, hrow⟩ | ⟨hentry, hrow⟩
  · rw [hrow, hentry]
    cases hfind : c.store.entries.find? key with
    | none => exact h.rows key hfind
    | some e => rfl
  · rw [hrow, hentry]
    rfl

end Anchored

/-! ### Sessions that start with nothing -/

theorem Mirrored.anchored {strict : Prop} (h : c.Mirrored strict) : c.Anchored :=
  ⟨by rw [rebound_of_replay h.prompt.persisting.recovery]; exact h.prompt, fun key hnone => by
    have hkey := h.keys key
    rw [hnone] at hkey
    exact hkey.row_eq_none⟩

/-- At every moment of a session that starts with nothing, a key that has no entry has no row. If
the process is started again, this is so where rows are replayed and every value is read back as it
was given. -/
theorem anchored_session {config : Config} {listeners : Listeners} {backing : Backing}
    (hpersistent : config.persistent = true) (hdirect : backing.Direct config.backend)
    (hempty : ∀ key, backing.row? config.backend key = none) (steps : List (Millis × Action))
    (hrestart : (∃ step ∈ steps, step.2 = .restart) →
      listeners.recovery = [.replay] ∧ ∀ step ∈ steps, step.2.Faithful) :
    ((new config listeners backing).session steps).Anchored ∧
      ((new config listeners backing).session steps).config = config := by
  by_cases hany : ∃ step ∈ steps, step.2 = .restart
  · obtain ⟨hreplay, hfaithful⟩ := hrestart hany
    obtain ⟨hmirrored, hconfig⟩ :=
      (mirrored_new hpersistent hreplay hdirect hempty).run steps hfaithful
    exact ⟨hmirrored.anchored, hconfig⟩
  · -- Without restarts a session is requests and nothing else.
    have hrequests : ∃ asked : List (Millis × Request),
        steps = asked.map fun r => (r.1, .request r.2) := by
      clear hrestart
      induction steps with
      | nil => exact ⟨[], rfl⟩
      | cons step rest ih =>
        obtain ⟨asked, hasked⟩ := ih fun ⟨s, hs, hsame⟩ =>
          hany ⟨s, List.mem_cons_of_mem _ hs, hsame⟩
        obtain ⟨now, action⟩ := step
        cases action with
        | restart => exact absurd ⟨_, List.mem_cons_self, rfl⟩ hany
        | request r => exact ⟨(now, r) :: asked, by rw [hasked]; rfl⟩
    obtain ⟨asked, rfl⟩ := hrequests
    have hprompt : (new config { listeners with recovery := [.replay] } backing).Prompt :=
      prompt_new hpersistent rfl hdirect hempty
    have hstart : (new config listeners backing).Anchored := ⟨hprompt, fun key _ => hempty key⟩
    rw [← serveAll_session]
    exact hstart.requests asked

end Cache

end ExpiringCache
