import Mathlib.Data.List.Perm.Subperm
import HardeningLoop.Orchestrator.Intake

/-!
# The session cap

Capacity is checked where an item is reserved. An item in `ready_for_human` takes no slot, and a new head or red checks
bring it back into the active states without a check.

- `exec_active`: a step adds at most one active item, and only by a reservation with a slot free, or by bringing an item
  back from `ready_for_human`;
- `capacity_run`: the cap holds in every run in which items come back only while a slot is free.
-/

namespace HardeningLoop

open Rows (Table)

/-- The item is in a state that takes a slot. -/
def Db.active (db : Db) (wid : Nat) : Prop := ∃ s, db.itemState wid = some s ∧ s ∈ activeWorkItemStates

/-- The step brings an item back from `ready_for_human` into the active states. -/
def Returns (c : Controller) (s : Sys) (a : Action) : Prop :=
  ∃ wid, s.db.itemState wid = some .readyForHuman ∧ (exec c s a).db.active wid

instance (db : Db) (wid : Nat) : Decidable (db.active wid) :=
  decidable_of_iff ((db.itemState wid).any fun s => s ∈ activeWorkItemStates) (by
    rw [Db.active, Option.any_eq_true]
    simp only [decide_eq_true_eq])

instance (c : Controller) (s : Sys) (a : Action) : Decidable (Returns c s a) :=
  decidable_of_iff (∃ wid ∈ s.db.workItems.ids, s.db.itemState wid = some .readyForHuman ∧
    (exec c s a).db.active wid) (by
    constructor
    · rintro ⟨wid, -, h⟩
      exact ⟨wid, h⟩
    · rintro ⟨wid, hs, ha⟩
      obtain ⟨w, hw, -⟩ := Option.map_eq_some_iff.mp hs
      exact ⟨wid, Table.mem_ids.mpr (by rw [hw]; rfl), hs, ha⟩)

section Counting

variable {db db' : Db}

theorem mem_activeItems {wid : Nat} :
    wid ∈ db.workItems.select (fun w => w.state ∈ activeWorkItemStates) ↔ db.active wid := by
  simp only [Table.mem_select, Db.active, Db.itemState, Option.map_eq_some_iff, decide_eq_true_eq]
  constructor
  · rintro ⟨w, hw, hs⟩
    exact ⟨w.state, ⟨w, hw, rfl⟩, hs⟩
  · rintro ⟨_, ⟨w, hw, rfl⟩, hs⟩
    exact ⟨w, hw, hs⟩

theorem activeSessionCount_le (h : ∀ wid, db'.active wid → db.active wid) :
    activeSessionCount db' ≤ activeSessionCount db :=
  (List.Nodup.subperm (Table.nodup_select _ _) fun _ hw => mem_activeItems.mpr (h _ (mem_activeItems.mp hw))).length_le

theorem activeSessionCount_le_succ {w : Nat} (h : ∀ wid, wid ≠ w → db'.active wid → db.active wid) :
    activeSessionCount db' ≤ activeSessionCount db + 1 := by
  have hsub : db'.workItems.select (fun w => w.state ∈ activeWorkItemStates) ⊆
      w :: db.workItems.select fun w => w.state ∈ activeWorkItemStates := by
    intro wid hw
    by_cases hwid : wid = w
    · exact hwid ▸ List.mem_cons_self
    · exact List.mem_cons_of_mem _ (mem_activeItems.mpr (h wid hwid (mem_activeItems.mp hw)))
  exact (List.Nodup.subperm (Table.nodup_select _ _) hsub).length_le

theorem active_congr (h : db'.workItems = db.workItems) {wid : Nat} : db'.active wid ↔ db.active wid := by
  rw [Db.active, Db.active, Db.itemState, Db.itemState, h]

end Counting

section Units

variable {env : Env} {S : Scope} {tx t : Tx} {wid : Nat}

/-- A unit that neither reserves an item nor acts on a head makes none active. -/
theorem Acts.active_back (hS : ∀ e, S.fires e → e ∉ .dispatchStarted :: headEvents) (h : Acts env S tx t)
    (ha : t.db.active wid) : tx.db.active wid := by
  obtain ⟨s', hs', hactive⟩ := ha
  refine h.state_back (· ∈ activeWorkItemStates) (fun _ => by decide) (fun s e s' he hn hs' => ?_) hs' hactive
  have hno : e ∉ .dispatchStarted :: headEvents := by
    rcases he with he | rfl
    · exact hS e he
    · decide
  rcases next_active hn hs' with hs | rfl | ⟨-, he⟩
  · exact hs
  · exact absurd List.mem_cons_self hno
  · refine absurd (List.mem_cons_of_mem _ ?_) hno
    revert he
    cases e <;> decide

/-- A unit that reserves no item makes one active only from `ready_for_human`. -/
theorem Acts.active_or_ready (hS : ¬ S.fires .dispatchStarted) (h : Acts env S tx t) (ha : t.db.active wid) :
    tx.db.active wid ∨ tx.db.itemState wid = some .readyForHuman := by
  have hback : ∀ s e s', S.fires e ∨ e = .blocked → nextWorkItemState s e = some s' →
      s' ∈ activeWorkItemStates ∨ s' = .readyForHuman → s ∈ activeWorkItemStates ∨ s = .readyForHuman := by
    intro s e s' he hn hp
    have hno : e ≠ .dispatchStarted := by
      rintro rfl
      rcases he with he | he
      · exact hS he
      · cases he
    rcases hp with hp | rfl
    · rcases next_active hn hp with hs | he | ⟨hs, -⟩
      · exact Or.inl hs
      · exact absurd he hno
      · exact Or.inr hs
    · rw [next_readyForHuman hn]
      exact Or.inl (by decide)
  obtain ⟨s', hs', hactive⟩ := ha
  obtain ⟨s, hs, hp⟩ := h.state_back _ (fun _ => by decide) hback hs' (Or.inl hactive)
  rcases hp with hp | rfl
  · exact Or.inl ⟨s, hs, hp⟩
  · exact Or.inr hs

/-- The other items stay as they are. -/
theorem Acts.active_of_ne (hins : ¬ S.inserts) (hw : ¬ S.items wid) (h : Acts env S tx t) (ha : t.db.active wid) :
    tx.db.active wid := by
  rw [Db.active, Db.itemState, h.item hins hw] at ha
  exact ha

end Units

section Steps

variable {c : Controller} {s : Sys}

/-- What a step can do to the number of active items. -/
def ActiveStep (c : Controller) (s : Sys) (a : Action) : Prop :=
  activeSessionCount (exec c s a).db ≤ activeSessionCount s.db ∨
    activeSessionCount (exec c s a).db ≤ activeSessionCount s.db + 1 ∧
      (activeSessionCount s.db < c.settings.maxConcurrentSessions ∨ Returns c s a)

theorem ActiveStep.of_eq {a : Action} (h : (exec c s a).db = s.db) : ActiveStep c s a := by
  left
  rw [h]

/-- A poll of one item. -/
theorem ActiveStep.of_poll {env : Env} {S : Scope} {tx : Tx} {a : Action} (h : Acts env S { db := s.db } tx)
    (hins : ¬ S.inserts) (hI : ¬ S.fires .dispatchStarted) {wid : Nat} (hitems : ∀ w, w ≠ wid → ¬ S.items w)
    (hdb : (exec c s a).db = tx.db) : ActiveStep c s a := by
  have hone : activeSessionCount (exec c s a).db ≤ activeSessionCount s.db + 1 := by
    refine activeSessionCount_le_succ fun w (hw : w ≠ wid) ha => ?_
    rw [hdb] at ha
    exact h.active_of_ne hins (hitems w hw) ha
  by_cases hreturn : Returns c s a
  · exact Or.inr ⟨hone, Or.inr hreturn⟩
  · left
    refine activeSessionCount_le fun w ha => ?_
    rw [hdb] at ha
    rcases h.active_or_ready hI ha with hactive | hready
    · exact hactive
    · exact absurd ⟨w, hready, by rw [hdb]; exact ha⟩ hreturn

/-- A reservation. -/
theorem ActiveStep.of_reservation {env : Env} {tx : Tx} {a : Action} {wid : Nat}
    (h : Acts env (.launching wid) { db := s.db } tx) (hdb : (exec c s a).db = tx.db)
    (hfree : activeSessionCount s.db < c.settings.maxConcurrentSessions) : ActiveStep c s a := by
  refine Or.inr ⟨activeSessionCount_le_succ fun w (hw : w ≠ wid) ha => ?_, Or.inl hfree⟩
  rw [hdb] at ha
  exact h.active_of_ne not_false hw ha

theorem dispatchCandidate_free (env : Env) (tx : Tx) (wid issue : Nat) (severity : Severity) (labels : List String) :
    activeSessionCount tx.db < env.settings.maxConcurrentSessions ∨
      (dispatchCandidate env tx wid issue severity labels).1 = tx := by
  unfold dispatchCandidate
  split
  · exact Or.inr rfl
  · split
    · exact Or.inr rfl
    · exact Or.inl (not_le.mp ‹_›)

theorem stepDispatch_active (env : Env) (labels : List String) (henv : env.settings = c.settings) {a : Action}
    (ha : (exec c s a).db = (stepDispatch env labels s).db) : ActiveStep c s a := by
  unfold stepDispatch at ha
  split at ha
  · rename_i wid issue severity targets _
    rcases dispatchCandidate_free env { db := s.db } wid issue severity labels with hfree | hsame
    · exact .of_reservation ((dispatchCandidate_acts env _ wid issue severity labels).widen
        (Scope.reservation_within_launching wid)) ha (henv ▸ hfree)
    · refine .of_eq (ha.trans ?_)
      dsimp only
      rw [hsame]
  · exact .of_eq ha

theorem launch_active (env : Env) (henv : env.settings = c.settings) {a : Action} (wid : Nat) (operator : String)
    (answers : LaunchAnswers) (ha : (exec c s a).db = (launch env { db := s.db } wid operator answers).1.db) :
    ActiveStep c s a := by
  rcases launch_checked env { db := s.db } wid operator answers with hchecked | ⟨hquiet, -⟩
  · exact .of_reservation (launch_acts env _ wid operator answers) ha (henv ▸ hchecked.2.1)
  · left
    refine activeSessionCount_le fun w hw => ?_
    rw [ha] at hw
    exact (active_congr hquiet.workItems).mp hw

/-- **A step adds at most one active item**, with a slot free or an item that comes back. -/
theorem exec_active (c : Controller) (s : Sys) (a : Action) : ActiveStep c s a := by
  have hrest (hS : a.scope = .unobserving) : ActiveStep c s a := by
    left
    refine activeSessionCount_le fun w ha => ?_
    have hback {env : Env} {tx : Tx} (h : Acts env a.scope { db := s.db } tx) (ha : tx.db.active w) :
        s.db.active w := by
      rw [hS] at h
      exact h.active_back (fun _ he => he) ha
    have hcommits := exec_commits c s a
    revert ha
    generalize (exec c s a).db = db' at hcommits
    intro ha
    cases hcommits with
    | units h => exact hback h ha
    | evaluation h rid => exact hback h ha
    | ingested h => exact (active_congr (ingestRun_ingested h).workItems).mp ha
  cases a with
  | dispatch now labels =>
    by_cases hflight : s.flight.isSome
    · exact .of_eq (by simp only [exec, hflight, if_true])
    · exact stepDispatch_active (c.env now) labels rfl (by simp only [exec, hflight, stepFree]; rfl)
  | launch now wid operator answers =>
    by_cases hflight : s.flight.isSome
    · exact .of_eq (by simp only [exec, hflight, if_true])
    · cases hphase : s.phase with
      | idle =>
        refine launch_active (c.env now) rfl wid operator answers ?_
        simp only [exec, hflight, stepFree, hphase]
        rfl
      | _ => exact .of_eq (by simp only [exec, hflight, stepFree, hphase]; rfl)
  | pollSession now wid sid snap answers =>
    by_cases hflight : s.flight.isSome
    · exact .of_eq (by simp only [exec, hflight, if_true])
    · have hpoll := pollSession_does (c.env now) wid sid snap answers { db := s.db }
      cases hphase : s.phase with
      | polling =>
        exact .of_poll hpoll not_false (fun hno => hno rfl) (fun _ hw => hw)
          (by simp only [exec, hflight, stepFree, hphase]; rfl)
      | settling =>
        exact .of_poll hpoll not_false (fun hno => hno rfl) (fun _ hw => hw)
          (by simp only [exec, hflight, stepFree, hphase]; rfl)
      | _ => exact .of_eq (by simp only [exec, hflight, stepFree, hphase]; rfl)
  | pollPullRequest now wid number pr checks answers =>
    by_cases hflight : s.flight.isSome
    · exact .of_eq (by simp only [exec, hflight, if_true])
    · have hpoll := pollPullRequest_does (c.env now) wid number pr checks answers { db := s.db }
      cases hphase : s.phase with
      | polling =>
        exact .of_poll hpoll not_false (fun hno => hno rfl) (fun _ hw => hw)
          (by simp only [exec, hflight, stepFree, hphase]; rfl)
      | _ => exact .of_eq (by simp only [exec, hflight, stepFree, hphase]; rfl)
  | _ => exact hrest rfl

/-- **The session cap holds** in every run in which items come back from `ready_for_human` only while a slot is free. -/
theorem capacity_run (c : Controller) (trace : List Action) (h : Machine.AllSteps (exec c)
    (fun s a => Returns c s a → activeSessionCount s.db < c.settings.maxConcurrentSessions) .initial trace) :
    activeSessionCount (Machine.run (exec c) .initial trace).db ≤ c.settings.maxConcurrentSessions := by
  refine Machine.AllSteps.invariant (fun s : Sys => activeSessionCount s.db ≤ c.settings.maxConcurrentSessions)
    (fun s a hs hreturn => ?_) (Nat.zero_le _) h
  rcases exec_active c s a with hle | ⟨hle, hfree⟩
  · exact hle.trans hs
  · have hfree : activeSessionCount s.db < c.settings.maxConcurrentSessions := hfree.elim id hreturn
    omega

end Steps

/-- A controller that runs one session at a time. -/
def singleSlot : Controller := { sampleController with settings := { maxConcurrentSessions := 1 } }

/-- One item waits for its merge, and a second one is reserved. -/
def slotTrace : List Action :=
  [sampleIngest "1" 10 (samplePair "CVE-1" "openssl" "1" ++ [sampleVuln .trivy "CVE-2" "zlib" "1"]), .beginTick,
    .next true none, .applyRun 11 linearCompare, .next true none, .group 11, .group 11, .next true none,
    .openIssue 11 (some []) (.ok sampleIssue), .openIssue 11 (some []) (.ok { sampleIssue with number := 8 }),
    .next true none, .next true none, .dispatch 11 []] ++ sampleCreate 12 ++ sampleOpen 13 "a" ++
  samplePoll 14 (samplePull "a") sampleGreen (sampleReview .completed "a") ++
  [.beginTick, .next true none, .next true none, .next true none, .next true none, .next true none,
   .dispatch 15 [], .stop]

/-- A new head of the first pull request makes two items active. -/
theorem capacity_exceeded :
    ∃ s, Reachable singleSlot s ∧ singleSlot.settings.maxConcurrentSessions < activeSessionCount s.db := by
  refine ⟨Machine.run (exec singleSlot) .initial (slotTrace ++ samplePoll 16 (samplePull "b") [] {}),
    Machine.Reachable.of_run _ _, ?_⟩
  decide +kernel

theorem capacity_run_slots : activeSessionCount (Machine.run (exec singleSlot) .initial slotTrace).db ≤ 1 := by
  refine capacity_run singleSlot slotTrace ?_
  decide +kernel

end HardeningLoop
