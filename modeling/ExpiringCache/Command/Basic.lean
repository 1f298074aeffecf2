import ExpiringCache.Codec
import ExpiringCache.Command.Answer
import ExpiringCache.Command.Method
import ExpiringCache.Config.Settings
import ExpiringCache.Store

/-!
# Commands

The commands on an expiring store, in terms of keys and JSON values. `Command.run` carries one out
at a reading of the clock. Values are written by a codec before the store is touched, and what is
read back may turn out not to be a value; a command that has removed entries answers them all the
same, with null for what cannot be read.
-/

namespace ExpiringCache

/-- A command with its arguments. -/
inductive Command where
  /-- Stores a value with the default TTL. -/
  | set (key : String) (value : Json)
  /-- Stores a value. -/
  | setWithTtl (key : String) (value : Json) (ttl : Duration)
  /-- Stores a value, with the default TTL unless one is given, if the key is not live. -/
  | setIfAbsent (key : String) (value : Json) (ttl : Option Duration)
  /-- The value of a key. -/
  | get (key : String)
  /-- Whether a key is live. -/
  | contains (key : String)
  /-- The time a key has left. -/
  | ttl (key : String)
  /-- Removes keys. -/
  | delete (keys : List String)
  /-- Removes the keys with a common beginning. -/
  | deleteSimilar (start : String)
  /-- Removes every key. -/
  | deleteAll
  /-- Sets the TTL of a key. -/
  | replaceDuration (key : String) (ttl : Duration)
  /-- Resets the TTL of a key. -/
  | resetDuration (key : String)
  /-- Swaps the value of a key. -/
  | replace (key : String) (value : Json)
  /-- The entry of a key, read without leaving a trace. -/
  | peek (key : String)

/-- What a command leads to: its answer or why it failed, and what became of the store. -/
abbrev Run := Turn (Except CacheError Answer)

namespace Turn

variable {α β : Type}

/-- A turn with its answer changed. -/
def map (f : α → β) (t : Turn α) : Turn β := ⟨f t.answer, t.expired, t.store⟩

/-- A turn that may be refused, as a run. -/
def toRun (answer : α → Answer) (t : Turn (Except Refusal α)) : Run :=
  t.map fun
    | .ok a => .ok (answer a)
    | .error refusal => .error (.invalidRequest refusal)

/-- A turn that always has an answer, as a run. -/
def answering (answer : α → Answer) (t : Turn α) : Run := t.map fun a => .ok (answer a)

end Turn

namespace Command

/-- Runs what needs a value in bytes, if the codec writes the value. -/
def withValue (codec : Codec) (store : Store) (value : Json) (run : Bytes → Run) : Run :=
  match codec.encodeValue value with
  | .ok bytes => run bytes
  | .error e => store.idle (.error (.codec e))

/-- The answer with the value that bytes stand for, if there are bytes. -/
def valueAnswer (bytes : Option Bytes) : Except CacheError Answer :=
  match bytes with
  | none => .ok (.value none)
  | some bytes =>
    match Codec.decodeValue bytes with
    | .ok value => .ok (.value value)
    | .error e => .error (.codec e)

/-- The answer with the view of an entry; an entry with an absent value is not shown. -/
def viewAnswer (entry : Option Entry) : Except CacheError Answer :=
  match entry with
  | none => .ok (.view none)
  | some e =>
    match Codec.decodeValue e.value with
    | .ok value => .ok (.view (value.map fun v => ⟨v, e.writtenTtl, e.ttl⟩))
    | .error error => .error (.codec error)

/-- A removed entry as it is answered: its key with replacements for what is no text, and its
value, or null. -/
def removedMember (entry : Bytes × Bytes) : String × Json :=
  let value :=
    match Codec.decodeValue entry.2 with
    | .ok (some value) => value
    | _ => .null
  (Utf8.repair entry.1, value)

/-- Removes keys one after another, and answers how many were live. -/
def removeAll (store : Store) (now : Millis) (keys : List Bytes) : Turn Nat :=
  keys.foldl (fun t key =>
    let next := t.store.remove now key
    ⟨t.answer + (if next.answer.isSome then 1 else 0), t.expired ++ next.expired, next.store⟩)
    (store.idle 0)

/-- Carries out a command. -/
def run (config : Config) (codec : Codec) (now : Millis) (store : Store) : Command → Run
  | .set key value =>
    withValue codec store value fun bytes =>
      (store.put now (Codec.encodeKey key) bytes config.defaultTtl).toRun fun _ => .flag true
  | .setWithTtl key value lifetime =>
    withValue codec store value fun bytes =>
      (store.put now (Codec.encodeKey key) bytes lifetime).toRun fun _ => .flag true
  | .setIfAbsent key value lifetime =>
    withValue codec store value fun bytes =>
      (store.putIfAbsent now (Codec.encodeKey key) bytes
        (lifetime.getD config.defaultTtl)).toRun .flag
  | .get key => (store.get now (Codec.encodeKey key)).map valueAnswer
  | .contains key => (store.contains now (Codec.encodeKey key)).answering .flag
  | .ttl key => (store.ttl now (Codec.encodeKey key)).answering .duration
  | .delete keys => (removeAll store now (keys.map Codec.encodeKey)).answering .count
  | .deleteSimilar start =>
    (store.removeWhere now fun key => key.startsWith (Codec.encodeKey start)).answering
      fun removed => .removed ((removed.map removedMember).foldr Json.addMember [])
  | .deleteAll => (store.clear now).answering fun live => .flag (0 < live)
  | .replaceDuration key lifetime =>
    (store.replaceTtl now (Codec.encodeKey key) lifetime).answering .flag
  | .resetDuration key => (store.resetTtl now (Codec.encodeKey key)).answering .flag
  | .replace key value =>
    withValue codec store value fun bytes =>
      (store.replace now (Codec.encodeKey key) bytes).map fun
        | .ok previous => valueAnswer previous
        | .error refusal => .error (.invalidRequest refusal)
  | .peek key => (store.peek now (Codec.encodeKey key)).map viewAnswer

end Command

end ExpiringCache
