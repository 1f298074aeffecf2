import ExpiringCache.Proofs.Store.Operation
import Mathlib.Data.List.Nodup

/-!
# Sweeps are not seen

A sweep collects what is expired and reports it. To callers it makes no difference whether and when
there are sweeps (`Store.sweeps_unseen`): an expired entry that is still in the store is to every
operation as if it were absent, and it is reported once, by the sweep or by whoever comes upon it.

Two histories that differ in sweeps only are compared with the history that has none. Between the
stores the relation is `Store.Beside`: they agree in what is live, and what each of them has
reported, together with what it still has to report, is the same. A sweep moves entries from the
one part to the other.
-/

namespace ExpiringCache

namespace Store

variable {α : Type} {s s' : Store} {now : Millis} {key value : Bytes} {on : Bytes → Prop}
  {next : Bytes → Option Entry → Option Entry} {t : Turn α}

/-! ### Counting reports -/

/-- How often an entry is to be reported with a value: once if it is expired and has that value. -/
def dueCount (now : Millis) (value : Bytes) (entry : Option Entry) : Nat :=
  if entry.any fun e => e.isExpiredAt now && e.value == value then 1 else 0

theorem mem_due_iff : (key, value) ∈ s.due now key ↔
    (s.entries.find? key).any (fun e => e.isExpiredAt now && e.value == value) = true := by
  simp [mem_due, Option.any_eq_true, eq_comm (a := value)]

/-- What a store has to report is counted by what its keys hold. -/
theorem count_allDue (s : Store) (now : Millis) (key value : Bytes) :
    (s.allDue now).count (key, value) = dueCount now value (s.entries.find? key) := by
  have hnodup : (s.allDue now).Nodup := List.Nodup.of_map _ (nodup_keys_allDue s now)
  rw [hnodup.count, dueCount]
  simp only [mem_allDue_iff, mem_due_iff]

/-- Nothing is to be reported of a live entry. -/
theorem dueCount_live (s : Store) (now : Millis) (key value : Bytes) :
    dueCount now value (s.live? now key) = 0 := by
  unfold dueCount
  cases hlive : s.live? now key with
  | none => rfl
  | some e => simp [(live?_eq_some_iff.1 hlive).2]

/-- As time goes on, those entries come to be reported that were live. -/
theorem dueCount_later {later : Millis} (hle : now ≤ later) :
    dueCount later value (s.entries.find? key) =
      dueCount now value (s.entries.find? key) + dueCount later value (s.live? now key) := by
  cases hfind : s.entries.find? key with
  | none => simp [live?, hfind, dueCount]
  | some e =>
    rw [live?_of_find? hfind]
    cases hexp : e.isExpiredAt now with
    | false => simp [dueCount, hexp]
    | true =>
      have hlater : e.isExpiredAt later = true :=
        Entry.isExpiredAt_iff.2 (Nat.le_trans (Entry.isExpiredAt_iff.1 hexp) hle)
      simp [dueCount, hexp, hlater]

/-- At a key that an operation looks at, it reports what was to be reported; what is to be reported
then follows from what was live. -/
theorem Acts.count_inside (h : s.Acts now on next t) (hnodup : (t.expired.map (·.1)).Nodup)
    (key value : Bytes) (hon : on key) :
    t.expired.count (key, value) + (t.store.allDue now).count (key, value) =
      (s.allDue now).count (key, value) + dueCount now value (next key (s.live? now key)) := by
  have hreported : t.expired.count (key, value) = (s.allDue now).count (key, value) := by
    rw [(List.Nodup.of_map _ hnodup).count,
      (List.Nodup.of_map _ (nodup_keys_allDue s now)).count]
    simp only [h.expired, hon, true_and, mem_allDue_iff]
  rw [hreported, count_allDue t.store, h.inside key hon]

/-- At any other key, an operation leaves what is to be reported. -/
theorem Acts.count_outside (h : s.Acts now on next t) (key value : Bytes) (hoff : ¬ on key) :
    t.expired.count (key, value) + (t.store.allDue now).count (key, value) =
      (s.allDue now).count (key, value) := by
  have hreported : t.expired.count (key, value) = 0 :=
    List.count_eq_zero.2 fun hmem => hoff ((h.expired _).1 hmem).1
  rw [hreported, count_allDue, count_allDue, h.outside key hoff, Nat.zero_add]

/-! ### Two stores beside each other -/

/-- Two stores that agree, with what each of them has reported: together with what it still has to
report, that is the same. -/
structure Beside (now : Millis) (s s' : Store) (r r' : List (Bytes × Bytes)) : Prop where
  agree : Agree now s s'
  count : ∀ key value, r.count (key, value) + (s.allDue now).count (key, value) =
    r'.count (key, value) + (s'.allDue now).count (key, value)

variable {r r' : List (Bytes × Bytes)}

theorem Beside.refl (now : Millis) (s : Store) (r : List (Bytes × Bytes)) : Beside now s s r r :=
  ⟨.refl now s, fun _ _ => rfl⟩

/-- Stores that are beside the same store are beside each other. -/
theorem Beside.join {s'' : Store} {r'' : List (Bytes × Bytes)} (h : Beside now s s'' r r'')
    (h' : Beside now s' s'' r' r'') : Beside now s s' r r' where
  agree := ⟨h.agree.policy.trans h'.agree.policy.symm, h.agree.reads.trans h'.agree.reads.symm,
    fun key => (h.agree.live? key).trans (h'.agree.live? key).symm⟩
  count key value := (h.count key value).trans (h'.count key value).symm

theorem Beside.later {later : Millis} (h : Beside now s s' r r') (hle : now ≤ later) :
    Beside later s s' r r' where
  agree := h.agree.later hle
  count key value := by
    have hnow := h.count key value
    rw [count_allDue, count_allDue] at hnow ⊢
    rw [dueCount_later hle, dueCount_later hle, h.agree.live? key]
    omega

/-- An operation on both stores, which is not a sweep: it is answered alike, and counts the same
reads. -/
theorem Beside.operate (h : Beside now s s' r r') {op : Operation} (hop : op.isSweep = false) :
    let t := s.operate now op
    let u := s'.operate now op
    t.answer = u.answer ∧ t.store.stats.reads = u.store.stats.reads ∧
      Beside now t.store u.store (r ++ t.expired) (r' ++ u.expired) := by
  intro t u
  obtain ⟨hanswer, hagree⟩ := h.agree.operate hop
  refine ⟨hanswer, hagree.reads, hagree, fun key value => ?_⟩
  have hacts : s.Acts now op.Looks (op.next s'.policy now) t := by
    rw [← h.agree.policy]
    exact operate_acts s now op
  have hacts' : s'.Acts now op.Looks (op.next s'.policy now) u := operate_acts s' now op
  have hcount := h.count key value
  rw [List.count_append, List.count_append]
  by_cases hon : op.Looks key
  · have hin := hacts.count_inside (nodup_operate_expired s now op) key value hon
    have hin' := hacts'.count_inside (nodup_operate_expired s' now op) key value hon
    rw [h.agree.live? key] at hin
    omega
  · have hout := hacts.count_outside key value hon
    have hout' := hacts'.count_outside key value hon
    omega

/-- A sweep of the one store and not of the other. -/
theorem Beside.sweep (h : Beside now s s' r r') :
    Beside now (s.sweep now).store s' (r ++ (s.sweep now).expired) r' := by
  have hacts : s.Acts now _ _ (s.sweep now) := sweep_acts
  refine ⟨⟨h.agree.policy, h.agree.reads, fun key => ?_⟩, fun key value => ?_⟩
  · -- What is live stays, and is live at the same reading.
    rw [← h.agree.live? key, Store.live?, hacts.inside key trivial, ← live?_later (Nat.le_refl now)]
  · have hcount := h.count key value
    have hin := hacts.count_inside (nodup_operate_expired s now .sweep) key value trivial
    rw [dueCount_live] at hin
    rw [List.count_append]
    omega

/-! ### Histories with and without sweeps -/

/-- What callers see of a history: of each operation that is not a sweep its answer, and the hits
and misses counted by then. -/
def seen (s : Store) : List (Millis × Operation) → List (Result × Nat × Nat)
  | [] => []
  | step :: rest =>
    let t := s.operate step.1 step.2
    if step.2.isSweep then t.store.seen rest
    else (t.answer, t.store.stats.reads) :: t.store.seen rest

/-- A history without its sweeps. -/
def withoutSweeps (steps : List (Millis × Operation)) : List (Millis × Operation) :=
  steps.filter fun step => !step.2.isSweep

/-- A history beside the same history without sweeps. A sweep is a step of the one store alone. -/
theorem Beside.history (steps : List (Millis × Operation)) :
    ∀ {s s' : Store} {r r' : List (Bytes × Bytes)} {start : Millis}, Beside start s s' r r' →
      (∀ step ∈ steps, start ≤ step.1) → steps.Pairwise (fun a b => a.1 ≤ b.1) →
      s.seen steps = s'.seen (withoutSweeps steps) ∧
        (s.after steps).stats.reads = (s'.after (withoutSweeps steps)).stats.reads ∧
        ∀ now, start ≤ now → (∀ step ∈ steps, step.1 ≤ now) →
          Beside now (s.after steps) (s'.after (withoutSweeps steps)) (r ++ s.reported steps)
            (r' ++ s'.reported (withoutSweeps steps)) := by
  induction steps with
  | nil =>
    intro s s' r r' start h _ _
    refine ⟨rfl, h.agree.reads, fun now hnow _ => ?_⟩
    simpa [withoutSweeps, after, reported] using h.later hnow
  | cons step rest ih =>
    intro s s' r r' start h hstart hordered
    obtain ⟨now, op⟩ := step
    obtain ⟨hrest, hordered'⟩ := List.pairwise_cons.1 hordered
    have hhere := h.later (hstart _ List.mem_cons_self)
    cases hop : op.isSweep with
    | true =>
      have heq : op = .sweep := by cases op <;> first | rfl | cases hop
      subst heq
      obtain ⟨hseen, hcounted, hafter⟩ := ih hhere.sweep hrest hordered'
      refine ⟨hseen, hcounted, fun later _ hlater => ?_⟩
      have hbeside := hafter later (hlater _ List.mem_cons_self) fun step hstep =>
        hlater step (List.mem_cons_of_mem _ hstep)
      rw [List.append_assoc] at hbeside
      exact hbeside
    | false =>
      have hwithout : withoutSweeps ((now, op) :: rest) = (now, op) :: withoutSweeps rest := by
        simp [withoutSweeps, hop]
      obtain ⟨hanswer, hreads, hbeside⟩ := hhere.operate hop
      obtain ⟨hseen, hcounted, hafter⟩ := ih hbeside hrest hordered'
      rw [hwithout]
      refine ⟨?_, hcounted, fun later _ hlater => ?_⟩
      · simp only [seen, hop, Bool.false_eq_true, if_false]
        rw [hanswer, hreads, hseen]
      · have hbeside' := hafter later (hlater _ List.mem_cons_self) fun step hstep =>
          hlater step (List.mem_cons_of_mem _ hstep)
        rw [List.append_assoc, List.append_assoc] at hbeside'
        exact hbeside'

/-- After a sweep, stores that are beside each other hold the same entries and have reported the
same. -/
theorem Beside.swept (h : Beside now s s' r r') :
    (s.sweep now).store.entries = (s'.sweep now).store.entries ∧
      (r ++ (s.sweep now).expired).Perm (r' ++ (s'.sweep now).expired) := by
  refine ⟨h.agree.living, List.perm_iff_count.2 fun entry => ?_⟩
  rw [List.count_append, List.count_append]
  exact h.count entry.1 entry.2

/-- **Sweeps are not seen.** Of two histories of a store at readings that do not go back, which are
the same but for sweeps, callers see the same: every other operation is answered alike, and hits
and misses are the same after each of them and in the end. And after one more sweep of both, at
a reading that does not go back either, they hold the same entries and have reported the same
entries as often. -/
theorem sweeps_unseen (s : Store) {xs ys : List (Millis × Operation)}
    (hxs : xs.Pairwise fun a b => a.1 ≤ b.1) (hys : ys.Pairwise fun a b => a.1 ≤ b.1)
    (hsame : withoutSweeps xs = withoutSweeps ys) :
    s.seen xs = s.seen ys ∧
      (s.after xs).stats.hits = (s.after ys).stats.hits ∧
      (s.after xs).stats.misses = (s.after ys).stats.misses ∧
      ∀ last, (∀ step ∈ xs, step.1 ≤ last) → (∀ step ∈ ys, step.1 ≤ last) →
        ((s.after xs).sweep last).store.entries = ((s.after ys).sweep last).store.entries ∧
        (s.reported xs ++ ((s.after xs).sweep last).expired).Perm
          (s.reported ys ++ ((s.after ys).sweep last).expired) := by
  have hstart : Beside 0 s s [] [] := .refl 0 s []
  obtain ⟨hseen, hreads, hx⟩ := Beside.history xs hstart (fun _ _ => Nat.zero_le _) hxs
  obtain ⟨hseen', hreads', hy⟩ := Beside.history ys hstart (fun _ _ => Nat.zero_le _) hys
  rw [hsame] at hseen hreads hx
  refine ⟨hseen.trans hseen'.symm, congrArg Prod.fst (hreads.trans hreads'.symm),
    congrArg Prod.snd (hreads.trans hreads'.symm), fun last hlast hlast' => ?_⟩
  exact ((hx last (Nat.zero_le _) hlast).join (hy last (Nat.zero_le _) hlast')).swept

/-- One history sweeps twice, the other one once and late. In the first the sweeps report both values
of the key, in the second the write and the sweep at the end do. -/
theorem sweeps_unseen_late :
    let s := Store.new .sinceAccess
    let xs : List (Millis × Operation) := [(0, .put [107] [49] (.ofSeconds 10)), (15000, .sweep),
      (20000, .put [107] [50] .zero), (20000, .sweep), (20000, .get [107])]
    let ys : List (Millis × Operation) := [(0, .put [107] [49] (.ofSeconds 10)),
      (20000, .put [107] [50] .zero), (20000, .get [107]), (25000, .sweep)]
    s.reported xs = [([107], [49]), ([107], [50])] ∧ s.seen xs = s.seen ys ∧
      ((s.after xs).sweep 25000).store.entries = ((s.after ys).sweep 25000).store.entries ∧
      (s.reported xs ++ ((s.after xs).sweep 25000).expired).Perm
        (s.reported ys ++ ((s.after ys).sweep 25000).expired) := by
  intro s xs ys
  have hxs : xs.Pairwise fun a b => a.1 ≤ b.1 := by decide
  have hys : ys.Pairwise fun a b => a.1 ≤ b.1 := by decide
  obtain ⟨hseen, -, -, hlast⟩ := sweeps_unseen s hxs hys rfl
  exact ⟨by decide +kernel, hseen, hlast 25000 (by decide) (by decide)⟩

end Store

end ExpiringCache
