import ExpiringCache.Listener.Catalog
import Mathlib.Data.List.Dedup

/-!
# The listeners of a history

Listeners are added one at a time, or bound by their names, many at once (`Registration`). Whatever
the history, each of the two lists has the listener of each identity that was added to it last, and
they stand in the order in which these were added (`lastOfEach`). The lists do not depend on each
other, and a binding with a name that is not in the catalog adds nothing to either of them
(`Listeners.registered`).
-/

namespace ExpiringCache

/-! ### The last of each identity -/

section LastOfEach

variable {α : Type} {identity : α → Identity}

/-- Of a list, what has no other of its identity behind it. -/
def lastOfEach (identity : α → Identity) : List α → List α
  | [] => []
  | l :: later =>
    if identity l ∈ later.map identity then lastOfEach identity later
    else l :: lastOfEach identity later

/-- One more at the end takes the place of those of its identity. -/
theorem lastOfEach_concat (list : List α) (last : α) :
    lastOfEach identity (list ++ [last]) =
      Listeners.enlist identity (lastOfEach identity list) last := by
  induction list with
  | nil => rfl
  | cons l later ih =>
    have hlater : identity l ∈ (later ++ [last]).map identity ↔
        identity l ∈ later.map identity ∨ identity l = identity last := by
      simp
    rw [List.cons_append, lastOfEach, lastOfEach, ih]
    by_cases hmem : identity l ∈ later.map identity
    · rw [if_pos (hlater.2 (.inl hmem)), if_pos hmem]
    · rw [if_neg hmem]
      by_cases hlast : identity l = identity last
      · rw [if_pos (hlater.2 (.inr hlast))]
        simp [Listeners.enlist, hlast]
      · rw [if_neg fun h => (hlater.1 h).elim hmem hlast]
        simp [Listeners.enlist, hlast]

theorem lastOfEach_append (list added : List α) :
    lastOfEach identity (list ++ added) =
      added.foldl (Listeners.enlist identity) (lastOfEach identity list) := by
  induction added generalizing list with
  | nil => rw [List.append_nil]; rfl
  | cons l rest ih =>
    calc lastOfEach identity (list ++ l :: rest)
        = lastOfEach identity ((list ++ [l]) ++ rest) := by rw [List.append_cons]
      _ = rest.foldl (Listeners.enlist identity) (lastOfEach identity (list ++ [l])) := ih _
      _ = (l :: rest).foldl (Listeners.enlist identity) (lastOfEach identity list) := by
          rw [lastOfEach_concat]; rfl

theorem map_lastOfEach (list : List α) :
    (lastOfEach identity list).map identity = (list.map identity).dedup := by
  induction list with
  | nil => rfl
  | cons l later ih =>
    rw [List.map_cons, lastOfEach]
    by_cases hmem : identity l ∈ later.map identity
    · rw [if_pos hmem, List.dedup_cons_of_mem hmem, ih]
    · rw [if_neg hmem, List.dedup_cons_of_notMem hmem, List.map_cons, ih]

/-- To add listeners once more leaves the identities that there are. -/
theorem map_lastOfEach_again (list : List α) {added again : List α}
    (h : again.map identity = added.map identity) :
    (lastOfEach identity ((list ++ added) ++ again)).map identity =
      (lastOfEach identity (list ++ added)).map identity := by
  have htwice : (added.map identity ++ added.map identity).dedup = (added.map identity).dedup := by
    rw [List.dedup_append]
    exact (List.subset_dedup _).union_eq_right
  rw [map_lastOfEach, map_lastOfEach, List.map_append, List.map_append, h, List.append_assoc,
    List.dedup_append, htwice, List.dedup_append]

end LastOfEach

/-! ### Registrations -/

namespace Catalog

/-- The first name that stands for nothing in a list. -/
def unknown? {α : Type} (known : List (String × α)) (names : List String) : Option String :=
  names.find? fun name => (known.lookup name).isNone

/-- What names stand for in a list. -/
def found {α : Type} (known : List (String × α)) (names : List String) : List α :=
  names.filterMap fun name => known.lookup name

/-- The first name that stands for nothing, expiration names first. -/
def firstUnknown? (c : Catalog) (expirationNames recoveryNames : List String) :
    Option (Occasion × String) :=
  match unknown? c.expiration expirationNames with
  | some name => some (.expiration, name)
  | none => (unknown? c.recovery recoveryNames).map (.recovery, ·)

end Catalog

/-- One way to register listeners. -/
inductive Registration where
  | expiration (listener : ExpirationListener)
  | recovery (listener : RecoveryListener)
  | binding (catalog : Catalog) (expirationNames recoveryNames : List String)

namespace Registration

/-- The expiration listeners that a registration adds, in order. -/
def expirationAdded : Registration → List ExpirationListener
  | .expiration l => [l]
  | .recovery _ => []
  | .binding c expirationNames recoveryNames =>
    if c.firstUnknown? expirationNames recoveryNames = none then
      Catalog.found c.expiration expirationNames
    else []

/-- The recovery listeners that a registration adds, in order. -/
def recoveryAdded : Registration → List RecoveryListener
  | .expiration _ => []
  | .recovery l => [l]
  | .binding c expirationNames recoveryNames =>
    if c.firstUnknown? expirationNames recoveryNames = none then
      Catalog.found c.recovery recoveryNames
    else []

end Registration

namespace Listeners

/-- The listeners after a registration. -/
def register (ls : Listeners) : Registration → Listeners
  | .expiration l => ls.addExpiration l
  | .recovery l => ls.addRecovery l
  | .binding c expirationNames recoveryNames => (c.bind ls expirationNames recoveryNames).2

/-- The listeners after a history. -/
def registerAll (ls : Listeners) (history : List Registration) : Listeners :=
  history.foldl register ls

theorem foldl_addExpiration (ls : Listeners) (added : List ExpirationListener) :
    added.foldl addExpiration ls =
      { ls with expiration := added.foldl (enlist ExpirationListener.identity) ls.expiration } := by
  induction added generalizing ls with
  | nil => rfl
  | cons l rest ih => exact ih (ls.addExpiration l)

theorem foldl_addRecovery (ls : Listeners) (added : List RecoveryListener) :
    added.foldl addRecovery ls =
      { ls with recovery := added.foldl (enlist RecoveryListener.identity) ls.recovery } := by
  induction added generalizing ls with
  | nil => rfl
  | cons l rest ih => exact ih (ls.addRecovery l)

end Listeners

/-! ### Bindings -/

namespace Catalog

theorem resolve_eq {α : Type} (known : List (String × α)) (names : List String) :
    resolve known names =
      match unknown? known names with
      | some name => .error name
      | none => .ok (found known names) := by
  induction names with
  | nil => rfl
  | cons name names ih =>
    rw [resolve, ih]
    cases hname : known.lookup name with
    | none =>
      have hunknown : unknown? known (name :: names) = some name :=
        List.find?_cons_of_pos (by rw [hname]; rfl)
      rw [hunknown]
    | some l =>
      have hunknown : unknown? known (name :: names) = unknown? known names :=
        List.find?_cons_of_neg (by rw [hname]; exact Bool.false_ne_true)
      have hfound : found known (name :: names) = l :: found known names :=
        List.filterMap_cons_some hname
      rw [hunknown, hfound]
      cases unknown? known names <;> rfl

/-- A binding fails at the first unknown name, and adds nothing; if there is none, it adds what the
names stand for. -/
theorem bind_eq (c : Catalog) (ls : Listeners) (expirationNames recoveryNames : List String) :
    c.bind ls expirationNames recoveryNames =
      match c.firstUnknown? expirationNames recoveryNames with
      | some (occasion, name) => (.error (.unbound occasion name), ls)
      | none =>
        (.ok (), (found c.recovery recoveryNames).foldl Listeners.addRecovery
          ((found c.expiration expirationNames).foldl Listeners.addExpiration ls)) := by
  rw [bind, resolve_eq, resolve_eq, firstUnknown?]
  cases unknown? c.expiration expirationNames with
  | some name => rfl
  | none => cases unknown? c.recovery recoveryNames <;> rfl

/-! ### Binding once more -/

section Congr

variable {α : Type} {identity : α → Identity} {known known' : List (String × α)}
  {names : List String}
  (h : ∀ name ∈ names, (known'.lookup name).map identity = (known.lookup name).map identity)

include h

theorem unknown?_congr : unknown? known' names = unknown? known names := by
  induction names with
  | nil => rfl
  | cons name names ih =>
    have hname : (known'.lookup name).isNone = (known.lookup name).isNone := by
      rw [← Option.isNone_map, h name List.mem_cons_self, Option.isNone_map]
    have hrest : unknown? known' names = unknown? known names :=
      ih fun later hlater => h later (List.mem_cons_of_mem name hlater)
    rw [unknown?, unknown?, List.find?_cons, List.find?_cons, hname]
    cases (known.lookup name).isNone with
    | true => rfl
    | false => exact hrest

theorem map_found_congr : (found known' names).map identity = (found known names).map identity := by
  rw [found, found, List.map_filterMap, List.map_filterMap]
  exact List.filterMap_congr h

end Congr

/-- In another catalog, names stand for listeners of the same identities, if for any. -/
structure Alike (again c : Catalog) (expirationNames recoveryNames : List String) : Prop where
  expiration : ∀ name ∈ expirationNames,
    (again.expiration.lookup name).map ExpirationListener.identity =
      (c.expiration.lookup name).map ExpirationListener.identity
  recovery : ∀ name ∈ recoveryNames,
    (again.recovery.lookup name).map RecoveryListener.identity =
      (c.recovery.lookup name).map RecoveryListener.identity

theorem Alike.refl (c : Catalog) (expirationNames recoveryNames : List String) :
    Alike c c expirationNames recoveryNames :=
  ⟨fun _ _ => rfl, fun _ _ => rfl⟩

variable {again c : Catalog} {expirationNames recoveryNames : List String}

theorem Alike.firstUnknown?_eq (h : Alike again c expirationNames recoveryNames) :
    again.firstUnknown? expirationNames recoveryNames =
      c.firstUnknown? expirationNames recoveryNames := by
  rw [firstUnknown?, unknown?_congr h.expiration, unknown?_congr h.recovery]
  rfl

theorem Alike.expirationAdded (h : Alike again c expirationNames recoveryNames) :
    (Registration.binding again expirationNames recoveryNames).expirationAdded.map
        ExpirationListener.identity =
      (Registration.binding c expirationNames recoveryNames).expirationAdded.map
        ExpirationListener.identity := by
  rw [Registration.expirationAdded, Registration.expirationAdded, h.firstUnknown?_eq]
  split
  · exact map_found_congr h.expiration
  · rfl

theorem Alike.recoveryAdded (h : Alike again c expirationNames recoveryNames) :
    (Registration.binding again expirationNames recoveryNames).recoveryAdded.map
        RecoveryListener.identity =
      (Registration.binding c expirationNames recoveryNames).recoveryAdded.map
        RecoveryListener.identity := by
  rw [Registration.recoveryAdded, Registration.recoveryAdded, h.firstUnknown?_eq]
  split
  · exact map_found_congr h.recovery
  · rfl

end Catalog

/-! ### Histories -/

/-- The lists hold the last of each identity that was added to them. -/
structure Listeners.Latest (ls : Listeners) (expiration : List ExpirationListener)
    (recovery : List RecoveryListener) : Prop where
  expiration : ls.expiration = lastOfEach ExpirationListener.identity expiration
  recovery : ls.recovery = lastOfEach RecoveryListener.identity recovery

namespace Listeners

variable {ls : Listeners} {expiration : List ExpirationListener}
  {recovery : List RecoveryListener}

theorem Latest.addAll (h : ls.Latest expiration recovery) (moreExpiration : List ExpirationListener)
    (moreRecovery : List RecoveryListener) :
    (moreRecovery.foldl addRecovery (moreExpiration.foldl addExpiration ls)).Latest
      (expiration ++ moreExpiration) (recovery ++ moreRecovery) := by
  rw [foldl_addRecovery, foldl_addExpiration]
  exact ⟨by rw [lastOfEach_append, ← h.expiration], by rw [lastOfEach_append, ← h.recovery]⟩

/-- **A step of a history.** -/
theorem Latest.register (h : ls.Latest expiration recovery) (r : Registration) :
    (ls.register r).Latest (expiration ++ r.expirationAdded) (recovery ++ r.recoveryAdded) := by
  cases r with
  | expiration l => exact h.addAll [l] []
  | recovery l => exact h.addAll [] [l]
  | binding c expirationNames recoveryNames =>
    rw [Listeners.register, Catalog.bind_eq, Registration.expirationAdded,
      Registration.recoveryAdded]
    cases c.firstUnknown? expirationNames recoveryNames with
    | some unknown =>
      rw [if_neg (Option.some_ne_none _), if_neg (Option.some_ne_none _)]
      exact h.addAll [] []
    | none =>
      rw [if_pos rfl, if_pos rfl]
      exact h.addAll _ _

/-- **A history.** -/
theorem Latest.registerAll (h : ls.Latest expiration recovery) (history : List Registration) :
    (ls.registerAll history).Latest
      (expiration ++ history.flatMap Registration.expirationAdded)
      (recovery ++ history.flatMap Registration.recoveryAdded) := by
  induction history generalizing ls expiration recovery with
  | nil => exact h.addAll [] []
  | cons r rest ih =>
    rw [List.flatMap_cons, List.flatMap_cons, ← List.append_assoc, ← List.append_assoc]
    exact ih (h.register r)

theorem registerAll_singly (ls : Listeners) (expiration : List ExpirationListener)
    (recovery : List RecoveryListener) :
    ls.registerAll (expiration.map .expiration ++ recovery.map .recovery) =
      recovery.foldl addRecovery (expiration.foldl addExpiration ls) := by
  rw [registerAll, List.foldl_append, List.foldl_map, List.foldl_map]
  rfl

/-- **Each list has what was added to it last, of each identity.** After any history of single
additions and of bindings with any catalogs:

* Each list consists of the last listener of each identity that was added to it, in the order in
  which these were added; a listener that is added to one list leaves the other as it is.
* A binding with an unknown name fails with the first of them, expiration names first, and leaves
  both lists as they are. Any other binding is the same as to add what its names stand for one by
  one, in order.
* To bind the same names once more, also if they now stand for other listeners of the same
  identities, leaves the identities in both lists, and their order, as after the first time. -/
theorem registered (history : List Registration) :
    let here := ({} : Listeners).registerAll history
    here.expiration = lastOfEach ExpirationListener.identity
      (history.flatMap Registration.expirationAdded) ∧
    here.recovery = lastOfEach RecoveryListener.identity
      (history.flatMap Registration.recoveryAdded) ∧
    (∀ l, (here.addExpiration l).recovery = here.recovery) ∧
    (∀ l, (here.addRecovery l).expiration = here.expiration) ∧
    ∀ (c : Catalog) (expirationNames recoveryNames : List String),
      (∀ occasion name, c.firstUnknown? expirationNames recoveryNames = some (occasion, name) →
        c.bind here expirationNames recoveryNames = (.error (.unbound occasion name), here)) ∧
      (c.firstUnknown? expirationNames recoveryNames = none →
        c.bind here expirationNames recoveryNames =
          (.ok (), here.registerAll
            ((Catalog.found c.expiration expirationNames).map .expiration ++
              (Catalog.found c.recovery recoveryNames).map .recovery))) ∧
      ∀ again : Catalog, again.Alike c expirationNames recoveryNames →
        let once := (c.bind here expirationNames recoveryNames).2
        let twice := (again.bind once expirationNames recoveryNames).2
        twice.expiration.map ExpirationListener.identity =
            once.expiration.map ExpirationListener.identity ∧
          twice.recovery.map RecoveryListener.identity =
            once.recovery.map RecoveryListener.identity := by
  intro here
  have hempty : ({} : Listeners).Latest [] [] := ⟨rfl, rfl⟩
  have hhere : here.Latest (history.flatMap Registration.expirationAdded)
      (history.flatMap Registration.recoveryAdded) := hempty.registerAll history
  refine ⟨hhere.expiration, hhere.recovery, fun _ => rfl, fun _ => rfl,
    fun c expirationNames recoveryNames => ⟨fun occasion name hnames => ?_, fun hnames => ?_,
      fun again halike => ?_⟩⟩
  · rw [Catalog.bind_eq, hnames]
  · rw [Catalog.bind_eq, hnames, registerAll_singly]
  · intro once twice
    have honce := hhere.register (.binding c expirationNames recoveryNames)
    have htwice := honce.register (.binding again expirationNames recoveryNames)
    exact ⟨htwice.expiration ▸ honce.expiration ▸ map_lastOfEach_again _ halike.expirationAdded,
      htwice.recovery ▸ honce.recovery ▸ map_lastOfEach_again _ halike.recoveryAdded⟩

/-- Of three listeners of one identity the one bound last is left, behind one of another identity that
was bound before it. A binding whose last name is unknown adds nothing. -/
theorem registered_unknown_last :
    let c : Catalog :=
      { expiration := [("log", .logging), ("first", .custom "a" .crashes),
          ("second", .custom "a" .succeeds)]
        recovery := [("replay", .replay)] }
    let history : List Registration :=
      [.expiration (.custom "a" .fails), .binding c ["first", "log", "second"] ["replay"],
        .binding c ["log"] ["replay", "lost"]]
    let here := ({} : Listeners).registerAll history
    here.expiration = [.logging, .custom "a" .succeeds] ∧ here.recovery = [.replay] ∧
      c.bind here ["log"] ["replay", "lost"] = (.error (.unbound .recovery "lost"), here) ∧
      ((c.bind (c.bind here ["log"] ["replay"]).2 ["log"] ["replay"]).2.expiration.map
        ExpirationListener.identity) = [.named "a", .builtIn] := by
  intro c history here
  obtain ⟨hexpiration, hrecovery, -, -, hbinding⟩ := registered history
  have hagain := (hbinding c ["log"] ["replay"]).2.2 c (.refl c _ _)
  exact ⟨hexpiration.trans (by decide), hrecovery.trans (by decide),
    (hbinding c ["log"] ["replay", "lost"]).1 .recovery "lost" (by decide),
    hagain.1.trans (by decide)⟩

end Listeners

end ExpiringCache
