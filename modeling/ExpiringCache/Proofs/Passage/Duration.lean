import ExpiringCache.Proofs.Encoding
import ExpiringCache.Proofs.Passage.Commands

/-!
# The passages of changes of TTL

After a change of TTL the key is looked at a second time, to judge it by the TTL now in force. A
worthy entry is recorded with its value and a row that ends when the entry does, and one that is
not worthy loses its row. An entry whose new TTL is over at once is collected by the second look
together with its row, and then there is nothing to record.
-/

namespace ExpiringCache

namespace Cache

variable {c : Cache} {now : Millis} {command : Command} {call : Invocation} {kind : ChangeKind}
  {text : String} {v : Json}

/-- The kinds of change that are about TTLs. -/
def AboutTtl (kind : ChangeKind) : Prop := kind = .replaceDuration ∨ kind = .resetDuration

/-- A call that has changed a TTL reads its key back, and asks for the change that follows. -/
theorem course_duration (h : c.Persisting) (hcall : command.invocation? = some call)
    (hkind : MethodTable.standardKind? call.method = some kind) (hduration : AboutTtl kind)
    (hkeys : call.keys = [text]) {t : Turn Bool}
    (ht : command.run c.config Codec.json now c.store = t.answering .flag) :
    c.course now command =
      if t.answer then
        ⟨(t.store.peek now (Codec.encodeKey text)).store,
          (t.course c.config).errands ++
            (((t.store.peek now (Codec.encodeKey text)).course c.config).errands ++
              changeErrands c.config.backend (c.durationChange? kind call text
                (Command.viewAnswer (t.store.peek now (Codec.encodeKey text)).answer)))⟩
      else t.course c.config := by
  have hmet : kind.expectation.isMet (Answer.flag t.answer).outcome = t.answer := by
    rcases hduration with rfl | rfl <;> rfl
  have hrecord : ∀ s : Store, { c with store := s }.recordChangeCourse now
      (Rule.ofKind kind c.config.backend) call (Answer.flag t.answer).outcome =
      { c with store := s }.recordDurationCourse now (Rule.ofKind kind c.config.backend) call := by
    intro s
    rcases hduration with rfl | rfl <;> rfl
  rw [← h.codec] at ht
  unfold course
  rw [hcall, ht]
  show Course.mk ({ c with store := t.store }.recordCourse now call
    (Answer.flag t.answer).outcome).store ((t.course c.config).errands ++
      ({ c with store := t.store }.recordCourse now call (Answer.flag t.answer).outcome).errands) = _
  rw [recordCourse_eq h, hkind]
  dsimp only
  rw [hmet, hrecord, recordDurationCourse, hkeys]
  cases t.answer with
  | false => exact congrArg (Course.mk t.store) (List.append_nil _)
  | true => rfl

/-! ### What is recorded -/

/-- An entry that is read back is recorded as it is now, or erased if it is not worthy. -/
theorem durationChange?_some (h : c.Persisting) (hkeys : call.keys = [text]) {e : Entry}
    (hvalue : Codec.decodeValue e.value = .ok (some v)) :
    c.durationChange? kind call text (Command.viewAnswer (some e)) =
      if c.config.criticalMillis ≤ e.ttl.millis then
        some
          { kind := kind
            keys := [Codec.encodeKey text]
            value := some v.printed
            ttl := some e.ttl }
      else some (Change.erase [Codec.encodeKey text]) := by
  rw [durationChange?_of_decoded h.changeCodec hvalue]
  simp [Config.isWorthy, Invocation.erasure, Invocation.byteKeys, hkeys]

/-- Nothing is recorded of an entry whose bytes are no value. -/
theorem durationChange?_unread {e : Entry} (hvalue : Codec.Unreadable e.value) :
    c.durationChange? kind call text (Command.viewAnswer (some e)) = none := by
  unfold Command.viewAnswer
  dsimp only
  cases hdecoded : Codec.decodeValue e.value with
  | error error => rfl
  | ok found =>
    cases found with
    | none => rfl
    | some old => exact absurd hdecoded (hvalue old)

/-- What a change of TTL leaves of a row ends when the TTL does. -/
theorem afterChange_duration (hduration : AboutTtl kind) (key : Bytes) (ttl : Duration)
    (row : Option Row) :
    afterChange now key row (some
        { kind := kind
          keys := [key]
          value := some v.printed
          ttl := some ttl }) = some (Row.rearm now v.printed ttl row) := by
  rcases hduration with rfl | rfl <;> cases row <;>
    simp [afterChange, Change.effect, Change.restarted, Row.restart, Row.rearm]

/-- A change of TTL is about its key only. -/
theorem durationChange?_elsewhere (h : c.Persisting) (hduration : AboutTtl kind)
    (hkeys : call.keys = [text]) (entry : Option Entry) {key : Bytes}
    (hkey : key ≠ Codec.encodeKey text) (row : Option Row) :
    afterChange now key row
      (c.durationChange? kind call text (Command.viewAnswer entry)) = row := by
  cases entry with
  | none => rfl
  | some e =>
    rcases Codec.readable_or_unreadable e.value with ⟨v, hvalue⟩ | hvalue
    · rw [durationChange?_some h hkeys hvalue]
      split
      · rcases hduration with rfl | rfl <;> simp [afterChange, Change.effect, hkey]
      · simp [afterChange, Change.effect, Change.erase, hkey]
    · rw [durationChange?_unread hvalue]
      rfl

/-! ### The key -/

namespace Persisting

variable {given : Option Json} {timing : Bytes → Timing}

/-- The second look at the key, and what is recorded of what it finds. -/
theorem passage_reread (h : c.Persisting) (hduration : AboutTtl kind) (hkeys : call.keys = [text])
    (e : Entry) (row : Option Row) (ttl : Duration) {s : Store}
    (hfind : s.entries.find? (Codec.encodeKey text) = some (e.replaceTtl now ttl))
    {α : Type} {t : Turn α} {next : Bytes → Option Entry → Option Entry}
    (hlook : s.Acts now (· = Codec.encodeKey text) next t) :
    Passage c.config now (Codec.encodeKey text) given (.changed ttl) (some e) row
      (s.live? now (Codec.encodeKey text))
      (afterChange now (Codec.encodeKey text)
        (if Codec.encodeKey text ∈ t.expired.map (·.1) then none else row)
        (c.durationChange? kind call text
          (Command.viewAnswer (s.live? now (Codec.encodeKey text))))) := by
  have hexpired := hlook.mem_expired (Codec.encodeKey text)
  have hdue : s.due now (Codec.encodeKey text) = [] ↔ _ := Store.due_eq_nil_iff_of_find? hfind
  rw [Store.live?_of_find? hfind]
  cases hover : (e.replaceTtl now ttl).isExpiredAt now with
  | false =>
    have hleft : now < Clock.after now ttl := Store.lt_expiresAt hover
    rw [if_neg Bool.false_ne_true, if_neg fun hmem => (hexpired.1 hmem).2 (hdue.2 hover)]
    rcases Codec.readable_or_unreadable e.value with ⟨v, hvalue⟩ | hvalue
    · have hafter : afterChange now (Codec.encodeKey text) row (c.durationChange? kind call text
          (Command.viewAnswer (some (e.replaceTtl now ttl)))) =
          if c.config.criticalMillis ≤ ttl.millis then some (Row.rearm now v.printed ttl row)
          else none := by
        rw [durationChange?_some h hkeys (e := e.replaceTtl now ttl) hvalue]
        by_cases hworthy : c.config.criticalMillis ≤ ttl.millis
        · rw [if_pos hworthy]
          exact (congrArg _ (if_pos hworthy)).trans (afterChange_duration hduration _ ttl row)
        · rw [if_neg hworthy]
          refine (congrArg _ (if_neg hworthy)).trans ?_
          simp [afterChange, Change.effect, Change.erase]
      rw [hafter]
      exact .changed v ttl e row hvalue hleft
    · rw [durationChange?_unread (e := e.replaceTtl now ttl) hvalue]
      exact .changedUnread ttl e row hvalue hleft
  | true =>
    -- The new TTL is over at once: the look has collected the entry, and nothing is recorded.
    have hover' : s.due now (Codec.encodeKey text) ≠ [] := fun hnil => by
      rw [hdue, hover] at hnil
      cases hnil
    rw [if_pos rfl, if_pos (hexpired.2 ⟨rfl, hover'⟩)]
    exact .ended ttl e row (Entry.isExpiredAt_iff.1 hover)

/-- A call that changes the TTL of its key. -/
theorem duration (h : c.Persisting) (hcall : command.invocation? = some call)
    (hkind : MethodTable.standardKind? call.method = some kind) (hduration : AboutTtl kind)
    (hkeys : call.keys = [text]) {ttl : Entry → Duration}
    (ht : command.run c.config Codec.json now c.store =
      (c.store.change now (Codec.encodeKey text) fun e => e.replaceTtl now (ttl e)).answering .flag)
    (hchanged : ∀ e, c.store.live? now (Codec.encodeKey text) = some e →
      timing (Codec.encodeKey text) = .changed (ttl e))
    (hnone : c.store.live? now (Codec.encodeKey text) = none → ∀ key, timing key = .kept)
    (hother : ∀ key, key ≠ Codec.encodeKey text → timing key = .kept) :
    c.Carries now given timing (c.course now command) := by
  generalize hturn : (c.store.change now (Codec.encodeKey text) fun e => e.replaceTtl now (ttl e)) =
    t at ht
  have hacts : c.store.Acts now (· = Codec.encodeKey text)
      (fun _ live => live.map fun e => e.replaceTtl now (ttl e)) t := hturn ▸ Store.change_acts _
  have hanswer : t.answer = (c.store.live? now (Codec.encodeKey text)).isSome :=
    hturn ▸ Store.change_answer _
  rw [course_duration h hcall hkind hduration hkeys ht, hanswer]
  cases hlive : c.store.live? now (Codec.encodeKey text) with
  | none =>
    rw [Option.isSome_none, if_neg (by decide), ← courseWith_none]
    refine h.carries_unchanged hacts (fun key row hon => ?_) fun key _ => hnone hlive key
    rw [hnone hlive, hon, hlive]
    exact .kept none row
  | some e =>
    rw [Option.isSome_some, if_pos rfl]
    have hpeek : t.store.Acts now _ _ (t.store.peek now (Codec.encodeKey text)) := Store.peek_acts
    have hfind : t.store.entries.find? (Codec.encodeKey text) = some (e.replaceTtl now (ttl e)) := by
      rw [hacts.inside _ rfl, hlive]
      rfl
    refine ⟨hpeek.policy.trans hacts.policy, fun key => ?_⟩
    rw [Errand.effects_append, Errand.effects_append, effects_change, Store.peek_answer,
      effects_course h.persistent, effects_course h.persistent]
    show Passage c.config now key given (timing key) _ _
      ((t.store.peek now (Codec.encodeKey text)).store.entries.find? key) _
    by_cases hkey : key = Codec.encodeKey text
    · -- The first look found the key live.
      obtain ⟨hentry, -⟩ := Store.live?_eq_some_iff.1 hlive
      have hexpired : Codec.encodeKey text ∉ t.expired.map (·.1) := fun hmem =>
        ((hacts.mem_expired _).1 hmem).2 (Store.due_eq_nil_of_live hlive)
      rw [hpeek.inside key hkey, hkey, hchanged e hlive, hentry, if_neg hexpired]
      exact h.passage_reread hduration hkeys e _ (ttl e) hfind hpeek
    · -- The row of another key is neither erased by a look nor changed by what is recorded.
      rw [if_neg fun hmem => hkey ((hpeek.mem_expired key).1 hmem).1,
        if_neg fun hmem => hkey ((hacts.mem_expired key).1 hmem).1,
        durationChange?_elsewhere h hduration hkeys _ hkey,
        hpeek.outside key hkey, hacts.outside key hkey, hother key hkey]
      exact .kept _ _

end Persisting

end Cache

end ExpiringCache
