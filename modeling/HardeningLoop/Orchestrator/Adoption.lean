import HardeningLoop.Lib.Lists
import HardeningLoop.Orchestrator.World
import Mathlib.Data.Prod.Lex

/-!
# The session a dispatch adopts

A dispatch first looks for a session that is tagged with the item: of those that may still work or that no row records,
the one that is active and newest is adopted; without one a session is created.

- `newestSession_iff`: which of the listed sessions is chosen;
- `fresh_work_iff`: no recorded session that is done is adopted exactly when the listing has no recorded session that is
  `running` and `finished` at once before or among the newest active ones.
-/

namespace HardeningLoop

open Rows (IsFirstMax)

/-- The sessions are compared by activity, then by age. -/
def SessionSnapshot.rank (snap : SessionSnapshot) : Bool ×ₗ Nat := toLex (snap.isActive, snap.createdAt)

theorem rank_lt (best snap : SessionSnapshot) :
    best.rank < snap.rank ↔
      (!best.isActive && snap.isActive ||
        best.isActive == snap.isActive && decide (snap.createdAt > best.createdAt)) = true := by
  rw [SessionSnapshot.rank, SessionSnapshot.rank, Prod.Lex.toLex_lt_toLex]
  cases best.isActive <;> cases snap.isActive <;> simp

/-- **Which session is chosen**: the first of the newest among the active ones, or among all when none is active. -/
theorem newestSession_iff {sessions : List SessionSnapshot} {snap : SessionSnapshot} :
    newestSession sessions = some snap ↔ IsFirstMax SessionSnapshot.rank sessions snap := by
  cases sessions with
  | nil =>
    refine iff_of_false (fun h => by cases h) ?_
    rintro ⟨l₁, l₂, hl, -⟩
    cases l₁ <;> cases hl
  | cons s rest =>
    have hnewest : newestSession (s :: rest) = some (Rows.firstMax SessionSnapshot.rank s rest) := by
      unfold newestSession Rows.firstMax
      simp only [rank_lt]
    rw [hnewest, Option.some.injEq]
    exact ⟨fun h => h ▸ Rows.isFirstMax_firstMax s rest, fun h => (Rows.isFirstMax_firstMax s rest).unique h⟩

/-- A tagged session that a dispatch may adopt: one that may still work, or that no row records. -/
def adoptableSession (db : Db) (wid : Nat) (snap : SessionSnapshot) : Bool :=
  snap.isActive || snap.sessionId ∉ db.knownSessions wid

/-- The session that the search for a tagged one adopts. -/
def adoptedSession (db : Db) (wid : Nat) (sessions : List SessionSnapshot) : Option SessionSnapshot :=
  newestSession (sessions.filter (adoptableSession db wid))

/-- What `_adopt_tagged_session` makes of a listing. -/
theorem adoptTagged_eq (env : Env) (tx : Tx) (wid : Nat) (recovering : Bool) (sessions : List SessionSnapshot) :
    adoptTagged env tx wid recovering (.ok sessions) = match adoptedSession tx.db wid sessions with
      | some snap =>
        ((recordSession env tx wid snap true).wi env wid .sessionAdopted snap.sessionId "controller", none)
      | none =>
        if recovering then (dispatchFailed env tx wid "dispatching_recovered:no_session_at_devin", none)
        else (tx,
          some (.creating wid ((tx.db.members wid).filterMap fun fid => (tx.db.findings.get? fid).map (fid, ·)))) :=
  rfl

/-- **The search of a dispatch gets fresh work**: it adopts no session that is on record for the item and done, and
without a session to adopt it goes on to create one. -/
def FreshWork (c : Controller) (s : Sys) (now : DateTime) (sessions : List SessionSnapshot) : Prop :=
  ∀ wid, s.flight = some (.adopting wid false) →
    match adoptedSession s.db wid sessions with
    | some snap => snap.sessionId ∈ s.db.knownSessions wid → snap.isDone = false
    | none => ∃ members, (exec c s (.adopt now (.ok sessions))).flight = some (.creating wid members)

/-- A session on record that Devin lists as `running` and `finished` is the first of the newest active ones. -/
def FinishedFirst (db : Db) (wid : Nat) (sessions : List SessionSnapshot) : Prop :=
  ∃ l₁ snap l₂, sessions = l₁ ++ snap :: l₂ ∧ snap.sessionId ∈ db.knownSessions wid ∧ snap.status = .running ∧
    snap.statusDetail = some .finished ∧ (∀ s ∈ l₁, s.isActive = true → s.createdAt < snap.createdAt) ∧
    ∀ s ∈ l₂, s.isActive = true → s.createdAt ≤ snap.createdAt

/-- A session that is done is active only as `running` and `finished`. -/
theorem active_done_iff (snap : SessionSnapshot) : snap.isActive = true ∧ snap.isDone = true ↔
    snap.status = .running ∧ snap.statusDetail = some .finished := by
  unfold SessionSnapshot.isActive SessionSnapshot.isDone SessionSnapshot.isResumableSuspension
  cases snap.status <;> simp

/-- A split of the sessions that pass a filter comes from a split of all. -/
theorem isFirstMax_filter {p : SessionSnapshot → Bool} {sessions : List SessionSnapshot} {snap : SessionSnapshot} :
    IsFirstMax SessionSnapshot.rank (sessions.filter p) snap ↔ ∃ l₁ l₂, sessions = l₁ ++ snap :: l₂ ∧ p snap = true ∧
      (∀ s ∈ l₁, p s = true → s.rank < snap.rank) ∧ ∀ s ∈ l₂, p s = true → s.rank ≤ snap.rank := by
  constructor
  · rintro ⟨l₁, l₂, hl, hbefore, hafter⟩
    obtain ⟨m₁, m₂, rfl, rfl, hm⟩ := List.filter_eq_append_iff.mp hl
    obtain ⟨k₁, k₂, rfl, hk₁, hp, rfl⟩ := List.filter_eq_cons_iff.mp hm
    refine ⟨m₁ ++ k₁, k₂, by rw [List.append_assoc], hp, fun s hs hps => ?_, fun s hs hps => ?_⟩
    · rcases List.mem_append.mp hs with hs | hs
      · exact hbefore s (List.mem_filter.mpr ⟨hs, hps⟩)
      · exact absurd hps (hk₁ s hs)
    · exact hafter s (List.mem_filter.mpr ⟨hs, hps⟩)
  · rintro ⟨l₁, l₂, rfl, hp, hbefore, hafter⟩
    refine ⟨l₁.filter p,
      l₂.filter p, by rw [List.filter_append, List.filter_cons_of_pos hp], fun s hs => ?_, fun s hs => ?_⟩
    · obtain ⟨hs, hps⟩ := List.mem_filter.mp hs
      exact hbefore s hs hps
    · obtain ⟨hs, hps⟩ := List.mem_filter.mp hs
      exact hafter s hs hps

/-- A session that is active is before the others by age alone. -/
theorem rank_of_active {snap s : SessionSnapshot} (h : snap.isActive = true) :
    (s.rank < snap.rank ↔ (s.isActive = true → s.createdAt < snap.createdAt)) ∧
      (s.rank ≤ snap.rank ↔ (s.isActive = true → s.createdAt ≤ snap.createdAt)) := by
  rw [SessionSnapshot.rank, SessionSnapshot.rank, Prod.Lex.toLex_lt_toLex, Prod.Lex.toLex_le_toLex, h]
  cases s.isActive <;> simp

theorem adopted_finished_iff (db : Db) (wid : Nat) (sessions : List SessionSnapshot) :
    (∃ snap, adoptedSession db wid sessions = some snap ∧ snap.sessionId ∈ db.knownSessions wid ∧ snap.isDone = true) ↔
      FinishedFirst db wid sessions := by
  constructor
  · rintro ⟨snap, hadopted, hknown, hdone⟩
    obtain ⟨l₁, l₂, hl, hp, hbefore, hafter⟩ := isFirstMax_filter.mp (newestSession_iff.mp hadopted)
    have hactive : snap.isActive = true := by simpa [adoptableSession, hknown] using hp
    obtain ⟨hstatus, hdetail⟩ := (active_done_iff snap).mp ⟨hactive, hdone⟩
    refine ⟨l₁, snap, l₂, hl, hknown, hstatus, hdetail, fun s hs hs' => ?_, fun s hs hs' => ?_⟩
    · exact (rank_of_active hactive).1.mp (hbefore s hs (by rw [adoptableSession, hs', Bool.true_or])) hs'
    · exact (rank_of_active hactive).2.mp (hafter s hs (by rw [adoptableSession, hs', Bool.true_or])) hs'
  · rintro ⟨l₁, snap, l₂, hl, hknown, hstatus, hdetail, hbefore, hafter⟩
    obtain ⟨hactive, hdone⟩ := (active_done_iff snap).mpr ⟨hstatus, hdetail⟩
    refine ⟨snap, newestSession_iff.mpr (isFirstMax_filter.mpr ⟨l₁, l₂, hl, ?_, fun s hs _ => ?_, fun s hs _ => ?_⟩),
      hknown, hdone⟩
    · rw [adoptableSession, hactive, Bool.true_or]
    · exact (rank_of_active hactive).1.mpr (hbefore s hs)
    · exact (rank_of_active hactive).2.mpr (hafter s hs)

/-- **The search of a dispatch gets fresh work exactly when no session on record that is `running` and `finished` is the
first of the newest active ones that Devin lists.** -/
theorem fresh_work_iff (c : Controller) (s : Sys) (now : DateTime) (sessions : List SessionSnapshot) :
    FreshWork c s now sessions ↔ ∀ wid, s.flight = some (.adopting wid false) → ¬ FinishedFirst s.db wid sessions := by
  unfold FreshWork
  refine forall₂_congr fun wid hflight => ?_
  rw [← adopted_finished_iff]
  cases hadopted : adoptedSession s.db wid sessions with
  | some snap =>
    simp only [Option.some.injEq, exists_eq_left', not_and, Bool.not_eq_true]
  | none =>
    refine iff_of_true ?_ (by simp)
    dsimp only [exec, stepAdopt]
    rw [hflight]
    dsimp only
    rw [adoptTagged_eq, hadopted]
    exact ⟨_, rfl⟩

/-- The session of the first item reports nothing and finishes; a human has the item retried, and it is dispatched
again. -/
def retriedTrace : List Action :=
  [sampleIngest "1" 10 (samplePair "CVE-1" "openssl" "1")] ++ sampleReserve 11 ++ sampleCreate 12 ++
  [.beginTick, .pollSession 13 1 "s1" { sampleSession with statusDetail := some .finished } {}, .stop, .beginTick,
    .pollHumanLabel 14 1 7 "open" [HumanLabel.retry.value], .stop, .beginTick, .next true none,
    .next true none, .group 15,
    .next true none, .next true none, .next true none, .dispatch 15 []]

/-- The finished session is adopted again, and its old result is read again. -/
theorem finished_adopted :
    let s := sampleState retriedTrace
    let a := Action.adopt 15 (.ok [{ sampleSession with statusDetail := some .finished }])
    Reachable sampleController s ∧
      ¬ FreshWork sampleController s 15 [{ sampleSession with statusDetail := some .finished }] ∧
      ((exec sampleController s a).db.workItems.get? 1).map (fun w => (w.state, w.activeSessionId)) =
        some (.sessionActive, some "s1") := by
  intro s a
  refine ⟨sampleState_reachable _, fun hfresh => ?_, by decide +kernel⟩
  have hflight : s.flight = some (.adopting 1 false) := by decide +kernel
  have hknown : "s1" ∈ s.db.knownSessions 1 := by decide +kernel
  exact (fresh_work_iff ..).mp hfresh 1 hflight ⟨[], _, [], rfl, hknown, rfl, rfl, by simp, by simp⟩

end HardeningLoop
