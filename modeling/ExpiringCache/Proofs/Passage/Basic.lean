import ExpiringCache.Proofs.Command
import ExpiringCache.Proofs.Session
import ExpiringCache.Proofs.Threshold

/-!
# What a request does to one key

A request takes each key on one of few passages: from an entry and a row, if there are any, to what
is there afterwards. They are consequences of how commands are carried out and recorded, for caches
that record what they do at once, and everything that is known of whole sessions is read off them.

What a request does to the TTL of a key (`Timing`) can be told from the request, its answer and the
live entry of the key, without a look at rows (`Cache.timing`).
-/

namespace ExpiringCache

/-! ### Timing -/

/-- What a request does to the TTL of a key. -/
inductive Timing where
  /-- Nothing. -/
  | kept
  /-- It reads the key. -/
  | read
  /-- It writes the key with a TTL. -/
  | written (ttl : Duration)
  /-- It gives the key another TTL, or the one back that it was written with. -/
  | changed (ttl : Duration)
deriving DecidableEq

/-- What is done to a key by what is done under a name. -/
def Timing.under (timing : Timing) (text : String) (key : Bytes) : Timing :=
  if key = Codec.encodeKey text then timing else .kept

@[simp] theorem Timing.under_self (timing : Timing) (text : String) :
    timing.under text (Codec.encodeKey text) = timing := if_pos rfl

theorem Timing.under_of_ne {key : Bytes} {text : String} (h : key ≠ Codec.encodeKey text)
    (timing : Timing) : timing.under text key = .kept := if_neg h

/-- What is done to a key is what is done under its name. -/
theorem Timing.of_under {timing done : Timing} {text : String} {key : Bytes}
    (h : timing.under text key = done) (hdone : done ≠ .kept) : timing = done := by
  by_cases hkey : key = Codec.encodeKey text
  · exact (if_pos hkey).symm.trans h
  · exact absurd (h.symm.trans (Timing.under_of_ne hkey timing)) hdone

/-- What a command does to the TTL of a key, by its answer and the live entry of the key. -/
def Command.timing (config : Config) (key : Bytes) (live : Option Entry) (command : Command)
    (answer : Except CacheError Answer) : Timing :=
  match command, answer with
  | .set text _, .ok (.flag true) => Timing.under (.written config.defaultTtl) text key
  | .setWithTtl text _ lifetime, .ok (.flag true) => Timing.under (.written lifetime) text key
  | .setIfAbsent text _ lifetime, .ok (.flag true) =>
    Timing.under (.written (lifetime.getD config.defaultTtl)) text key
  | .replaceDuration text lifetime, .ok (.flag true) =>
    Timing.under (.changed lifetime) text key
  | .resetDuration text, .ok (.flag true) =>
    match live with
    | some e => Timing.under (.changed e.writtenTtl) text key
    | none => .kept
  | .get text, _ =>
    match live with
    | some _ => Timing.under .read text key
    | none => .kept
  | _, _ => .kept

/-- A command that changes a TTL replaces it by one that it is given, or goes back to the one that
the live entry was written with. -/
theorem Command.timing_changed {config : Config} {key : Bytes} {live : Option Entry}
    {command : Command} {answer : Except CacheError Answer} {ttl : Duration}
    (h : command.timing config key live answer = .changed ttl) :
    (∃ text, command = .replaceDuration text ttl) ∨ ∃ e, live = some e ∧ ttl = e.writtenTtl := by
  unfold Command.timing at h
  split at h
  case h_1 | h_2 | h_3 => cases Timing.of_under h nofun
  case h_4 text lifetime =>
    cases Timing.of_under h nofun
    exact .inl ⟨text, rfl⟩
  case h_5 text =>
    cases live with
    | none => cases h
    | some e =>
      cases Timing.of_under h nofun
      exact .inr ⟨e, rfl, rfl⟩
  case h_6 text =>
    cases live with
    | none => cases h
    | some e => cases Timing.of_under h nofun
  case h_7 => cases h

/-- What a request does to the TTL of a key. -/
def Cache.timing (c : Cache) (now : Millis) (key : Bytes) : Request → Timing
  | .call command =>
    command.timing c.config key (c.store.live? now key)
      (command.run c.config c.codec now c.store).answer
  | .sweep => .kept

/-! ### Passages -/

/-- The row of a key that is given a TTL: what was recorded of it with another end, or a new row. -/
def Row.rearm (now : Millis) (value : Bytes) (ttl : Duration) : Option Row → Row
  | some row => { row with expiresAt := Clock.after now ttl }
  | none => .fresh now value ttl

/-- What a request that comes with a value, if with any, does to the entry and the row of a key. -/
inductive Passage (config : Config) (now : Millis) (key : Bytes) (given : Option Json) :
    Timing → Option Entry → Option Row → Option Entry → Option Row → Prop where
  | kept (entry : Option Entry) (row : Option Row) :
    Passage config now key given .kept entry row entry row
  /-- The key is removed, or collected. -/
  | gone (entry : Option Entry) (row : Option Row) :
    Passage config now key given .kept entry row none none
  | read (e : Entry) (row : Option Row) :
    Passage config now key given .read (some e) row (some (e.touch now)) row
  /-- A write that is worthy is recorded; any other erases what was recorded. -/
  | written (v : Json) (ttl : Duration) (entry : Option Entry) (row : Option Row)
    (hgiven : given = some v) (hnamed : ∃ text, key = Codec.encodeKey text)
    (haccepted : Store.refusal? key v.printed = none) :
    Passage config now key given (.written ttl) entry row
      (some (Entry.fresh now v.printed ttl config.policy))
      (if config.criticalMillis ≤ ttl.millis then some (Row.fresh now v.printed ttl) else none)
  | revalued (v old : Json) (e : Entry) (row : Option Row) (hgiven : given = some v)
    (haccepted : Store.refusal? key v.printed = none)
    (hold : Codec.decodeValue e.value = .ok (some old)) :
    Passage config now key given .kept (some e) row (some (e.replaceValue v.printed))
      (row.map fun r => { r with value := v.printed })
  /-- What had no value to answer is given another one all the same, unrecorded. -/
  | revaluedUnread (v : Json) (e : Entry) (row : Option Row) (hgiven : given = some v)
    (haccepted : Store.refusal? key v.printed = none) (hold : Codec.Unreadable e.value) :
    Passage config now key given .kept (some e) row (some (e.replaceValue v.printed)) row
  | changed (v : Json) (ttl : Duration) (e : Entry) (row : Option Row)
    (hvalue : Codec.decodeValue e.value = .ok (some v)) (hleft : now < Clock.after now ttl) :
    Passage config now key given (.changed ttl) (some e) row (some (e.replaceTtl now ttl))
      (if config.criticalMillis ≤ ttl.millis then some (Row.rearm now v.printed ttl row) else none)
  /-- What has no value to record is given another TTL unrecorded. -/
  | changedUnread (ttl : Duration) (e : Entry) (row : Option Row)
    (hvalue : Codec.Unreadable e.value) (hleft : now < Clock.after now ttl) :
    Passage config now key given (.changed ttl) (some e) row (some (e.replaceTtl now ttl)) row
  /-- The new TTL is over at once, and the key is collected when it is read back. -/
  | ended (ttl : Duration) (e : Entry) (row : Option Row) (hover : Clock.after now ttl ≤ now) :
    Passage config now key given (.changed ttl) (some e) row none none

variable {config : Config} {now : Millis} {key : Bytes} {given : Option Json} {timing : Timing}
  {entry' : Option Entry} {row' : Option Row}

/-- What happens to a key that has just been collected happens to it with what was collected. -/
theorem Passage.of_collected (h : Passage config now key given timing none none entry' row')
    (entry : Option Entry) (row : Option Row) :
    Passage config now key given timing entry row entry' row' := by
  cases h with
  | kept => exact .gone entry row
  | gone => exact .gone entry row
  | written v ttl _ _ hgiven hnamed haccepted =>
    exact .written v ttl entry row hgiven hnamed haccepted

/-- A key gets an entry or a row only if it had one or is a text. -/
theorem Passage.named {entry : Option Entry} {row : Option Row}
    (h : Passage config now key given timing entry row entry' row')
    (hbefore : entry ≠ none ∨ row ≠ none → ∃ text, key = Codec.encodeKey text)
    (hafter : entry' ≠ none ∨ row' ≠ none) : ∃ text, key = Codec.encodeKey text := by
  cases h with
  | kept => exact hbefore hafter
  | gone => simp at hafter
  | written v ttl _ _ hgiven hnamed haccepted => exact hnamed
  | read | revalued | revaluedUnread | changed | changedUnread | ended =>
    exact hbefore (.inl (Option.some_ne_none _))

/-- What a write leaves. -/
theorem Passage.of_written {ttl : Duration} {entry : Option Entry} {row : Option Row}
    (h : Passage config now key given (.written ttl) entry row entry' row') :
    ∃ v, given = some v ∧ entry' = some (Entry.fresh now v.printed ttl config.policy) ∧
      row' = if config.criticalMillis ≤ ttl.millis then some (Row.fresh now v.printed ttl)
        else none := by
  cases h with
  | written v _ _ _ hgiven => exact ⟨v, hgiven, rfl, rfl⟩

/-- An entry that is given another TTL has it, unless that is over at once. -/
theorem Passage.entry_of_changed {ttl : Duration} {e : Entry} {row : Option Row}
    (h : Passage config now key given (.changed ttl) (some e) row entry' row') :
    entry' = if now < Clock.after now ttl then some (e.replaceTtl now ttl) else none := by
  cases h with
  | changed v _ _ _ hvalue hleft => exact (if_pos hleft).symm
  | changedUnread _ _ _ hvalue hleft => exact (if_pos hleft).symm
  | ended _ _ _ hover => exact (if_neg (Nat.not_lt.2 hover)).symm

/-- A TTL with time left is not recorded of an entry whose bytes stand for no value. -/
theorem Passage.row_of_changed_unread {ttl : Duration} {e : Entry} {row : Option Row}
    (h : Passage config now key given (.changed ttl) (some e) row entry' row')
    (hvalue : Codec.Unreadable e.value) (hleft : now < Clock.after now ttl) : row' = row := by
  cases h with
  | changed v _ _ _ hread => exact absurd hread (hvalue v)
  | changedUnread => rfl
  | ended _ _ _ hover => exact absurd hleft (Nat.not_lt.2 hover)

/-- The course takes each key on a passage, if what it asks for is done at once. -/
structure Cache.Carries (c : Cache) (now : Millis) (given : Option Json) (timing : Bytes → Timing)
    (course : Course) : Prop where
  policy : course.store.policy = c.store.policy
  keys : ∀ key, Passage c.config now key given (timing key) (c.store.entries.find? key)
    (c.backing.row? c.config.backend key) (course.store.entries.find? key)
    (Errand.effects now c.config.backend key course.errands
      (c.backing.row? c.config.backend key))

end ExpiringCache
