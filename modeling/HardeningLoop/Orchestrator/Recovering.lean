import HardeningLoop.Orchestrator.Cancelling

/-!
# No reservation is lost

A reservation is committed before Devin is asked for anything, so a crash leaves an item in `dispatching` that no
controller works on. Every tick recovers such items before it dispatches others.

- `Recovers`: the controller will get back to a reserved item: it is in flight, or the recovery of the tick has it on
  its list or is still to come;
- `exec_recoverable`: a step, a crash among them, leaves no reserved item that the controller does not get back to;
- `dispatching_recovers`: so none is reserved but the one in flight when the tick dispatches, or has only its sessions
  left.
-/

namespace HardeningLoop

open Rows (Table)

/-- The item whose reservation is in hand. -/
def Flight.holds : Flight → Option Nat
  | .adopting wid _ | .creating wid _ => some wid
  | .cancelling _ _ _ => none

/-- The recovery of the tick has the item on its list, or is still to come. -/
def Phase.recovers (wid : Nat) : Phase → Prop
  | .recovering stuck _ => wid ∈ stuck
  | .dispatching _ | .settling => False
  | _ => True

/-- The controller will get back to a reserved item. -/
def Recovers (s : Sys) (wid : Nat) : Prop := s.flight.bind Flight.holds = some wid ∨ s.phase.recovers wid

/-- Every reserved item is one that the controller will get back to. -/
def Recoverable (s : Sys) : Prop := ∀ wid, s.db.itemState wid = some .dispatching → Recovers s wid

section Units

variable {env : Env} {tx : Tx} {wid : Nat}

/-- An item whose dispatch failed is no longer reserved. -/
theorem dispatchFailed_leaves (hs : tx.db.itemState wid = some .dispatching) (reason : String) :
    (dispatchFailed env tx wid reason).db.itemState wid ≠ some .dispatching := by
  have h : At env tx wid .dispatching
    (tx.modifyItem wid fun w => { w with dispatchFailures := w.dispatchFailures + 1 }) :=
    (At.refl hs).edit wid fun _ => .stay rfl rfl
  unfold dispatchFailed
  dsimp only
  split
  · rw [(h.fire (show nextWorkItemState .dispatching .blocked = some .needsHuman from rfl) _ _).state]
    nofun
  · rw [(h.fire (show nextWorkItemState .dispatching .dispatchFailed = some .issueOpen from rfl) _ _).state]
    nofun

/-- A search that goes no further leaves the item unreserved. -/
theorem adoptTagged_leaves (hs : tx.db.itemState wid = some .dispatching) {recovering : Bool}
    {remote : Except String (List SessionSnapshot)} (h : (adoptTagged env tx wid recovering remote).2 = none) :
    (adoptTagged env tx wid recovering remote).1.db.itemState wid ≠ some .dispatching := by
  unfold adoptTagged at h ⊢
  dsimp only at h ⊢
  split
  · exact dispatchFailed_leaves hs _
  · split
    · rename_i snap _
      have hadopted : nextWorkItemState .dispatching .sessionAdopted = some .sessionActive := rfl
      rw [((recordSession_at hs snap true).fire hadopted _ _).state]
      nofun
    · split
      · exact dispatchFailed_leaves hs _
      · rename_i hnone hfresh
        simp only [hnone, hfresh] at h
        cases h

/-- So does an answer to the creation. -/
theorem createSession_leaves (hs : tx.db.itemState wid = some .dispatching) (members : List (Nat × Finding))
    (answer : Except String SessionSnapshot) (commented : Except String Unit) :
    (createSession env tx wid members answer commented).db.itemState wid ≠ some .dispatching := by
  cases answer with
  | error exc => exact dispatchFailed_leaves hs _
  | ok snap =>
    rw [(createSession_at hs members snap commented).state]
    nofun

/-- A candidate that is passed over keeps every item as it is. -/
theorem dispatchCandidate_passes {issue : Nat} {severity : Severity} {labels : List String}
    (h : (dispatchCandidate env tx wid issue severity labels).2 ≠ .reserved) :
    (dispatchCandidate env tx wid issue severity labels).1.db.workItems = tx.db.workItems := by
  unfold dispatchCandidate at h ⊢
  split at h
  · rename_i hskipped
    rw [if_pos hskipped]
  · rename_i hallowed
    rw [if_neg hallowed]
    split at h
    · rename_i hfull
      rw [if_pos hfull]
    · rename_i hroom
      rw [if_neg hroom]
      split at h
      · rfl
      · split at h
        · rename_i hcandidate
          rw [if_pos hcandidate]
        · rename_i item _ hcandidate
          rw [if_neg hcandidate]
          dsimp only at h ⊢
          split
          · rfl
          · rename_i hbudget
            rw [if_neg hbudget] at h
            exact absurd rfl h

end Units

section Steps

variable {c : Controller} {s : Sys}

/-- Only a dispatch or a launch reserves an item. -/
theorem exec_reserves {a : Action} (ha : ¬ a.scope.fires .dispatchStarted) {wid : Nat}
    (h : (exec c s a).db.itemState wid = some .dispatching) : s.db.itemState wid = some .dispatching := by
  have hcommits := exec_commits c s a
  revert h
  generalize (exec c s a).db = db' at hcommits
  intro h
  cases hcommits with
  | units hacts => exact hacts.reserved ha h
  | evaluation hacts rid => exact hacts.reserved ha h
  | ingested hrun =>
    rw [Db.itemState, (ingestRun_ingested hrun).workItems] at h
    exact h

/-- A phase that is done passes on to a list of what is reserved, or there is nothing left to recover. -/
theorem nextPhase_recovers (autoDispatch : Bool) (listed : Option (List Issue)) {wid : Nat} {phase : Phase}
    (hs : s.db.itemState wid = some .dispatching) (h : phase.recovers wid) :
    (nextPhase c s.db autoDispatch listed phase).recovers wid := by
  have hstuck : wid ∈ stuckItems s.db := by
    obtain ⟨item, hi, hstate⟩ := Option.map_eq_some_iff.mp hs
    exact Table.mem_select.mpr ⟨item, hi, beq_iff_eq.mpr hstate⟩
  cases phase with
  | idle => exact h
  | polling => trivial
  | applying pending =>
    cases pending with
    | nil =>
      have hgrouping : ∃ rid groups, nextPhase c s.db autoDispatch listed (.applying []) = .grouping rid groups := by
        dsimp only [nextPhase, beginGrouping]
        cases latestMainRun s.db with
        | none => exact ⟨_, _, rfl⟩
        | some rid => exact ⟨_, _, rfl⟩
      obtain ⟨rid, groups, hgrouping⟩ := hgrouping
      rw [hgrouping]
      trivial
    | cons rid pending => exact h
  | grouping rid groups =>
    cases groups with
    | nil =>
      dsimp only [nextPhase]
      split
      · trivial
      · exact hstuck
    | cons group groups => exact h
  | opening queued existing =>
    cases queued with
    | nil => exact hstuck
    | cons wid' queued => exact h
  | recovering stuck dispatching =>
    cases stuck with
    | nil => exact absurd h List.not_mem_nil
    | cons wid' stuck => exact h
  | dispatching targets => exact h.elim
  | settling => exact h.elim

/-- A step that reserves nothing, lands nothing and stays in a phase that recovers the same items. -/
theorem Recoverable.keeps {s' : Sys} (h : Recoverable s) (hback : ∀ wid, s'.db.itemState wid = some .dispatching →
    s.db.itemState wid = some .dispatching) (hflight : s'.flight = s.flight)
    (hphase : ∀ wid, s.db.itemState wid = some .dispatching → s.phase.recovers wid →
        s'.phase.recovers wid) : Recoverable s' := by
  intro wid hs
  rcases h wid (hback wid hs) with hin | hrecovers
  · exact .inl (hflight ▸ hin)
  · exact .inr (hphase wid (hback wid hs) hrecovers)

/-- A step of a controller that waits for no answer. -/
theorem stepFree_recoverable (h : Recoverable s) (hfree : s.flight = none) (a : Action)
    (hback : ∀ wid, ¬ a.scope.fires .dispatchStarted → (stepFree c s a).db.itemState wid = some .dispatching →
      s.db.itemState wid = some .dispatching) : Recoverable (stepFree c s a) := by
  have hphase (wid : Nat) (hs : s.db.itemState wid = some .dispatching) : s.phase.recovers wid := by
    refine (h wid hs).resolve_left ?_
    rw [hfree]
    nofun
  have hsame {s' : Sys} (hback : ∀ wid, s'.db.itemState wid = some .dispatching →
    s.db.itemState wid = some .dispatching)
      (hkept : s'.phase = s.phase) : Recoverable s' := fun wid hs => .inr (hkept ▸ hphase wid (hback wid hs))
  have hdone {s' : Sys} (hlater : ∀ wid, s'.phase.recovers wid) : Recoverable s' := fun wid _ => .inr (hlater wid)
  cases a with
  | beginTick =>
    dsimp only [stepFree]
    split
    · exact hdone fun _ => trivial
    · exact h
  | pollSession now wid sid snap answers =>
    refine hsame (fun w => hback w fun hno => hno rfl) ?_
    dsimp only [stepFree]
    split <;> rfl
  | pollPullRequest now wid number pr checks answers =>
    refine hsame (fun w => hback w fun hno => hno rfl) ?_
    dsimp only [stepFree]
    split <;> rfl
  | pollHumanLabel now wid number state labels =>
    refine hsame (fun w => hback w fun hno => hno List.mem_cons_self) ?_
    dsimp only [stepFree]
    split <;> rfl
  | next autoDispatch listed =>
    exact fun wid hs => .inr (nextPhase_recovers autoDispatch listed hs (hphase wid hs))
  | applyRun now compare =>
    dsimp only [stepFree]
    split
    · exact hdone fun _ => trivial
    · exact h
  | applyFailed =>
    dsimp only [stepFree]
    split
    · intro wid hs
      obtain ⟨item, hi, hstate⟩ := Option.map_eq_some_iff.mp hs
      exact .inr (Table.mem_select.mpr ⟨item, hi, beq_iff_eq.mpr hstate⟩)
    · exact h
  | group now =>
    dsimp only [stepFree]
    unfold stepGroup
    split
    · exact hdone fun _ => trivial
    · exact h
  | openIssue now relisted created =>
    dsimp only [stepFree]
    unfold stepOpen
    split
    · exact hdone fun _ => trivial
    · exact h
  | recover now =>
    have hback := fun w => hback w fun hno => hno List.mem_cons_self
    dsimp only [stepFree] at hback ⊢
    unfold stepRecover at hback ⊢
    split at hback
    · rename_i wid stuck dispatching hrecovering
      dsimp only at hback ⊢
      have hlisted {w : Nat} (hs : s.db.itemState w = some .dispatching) : w ∈ wid :: stuck := by
        have := hphase w hs
        rw [hrecovering] at this
        exact this
      split at hback
      · rename_i hstate
        rw [if_pos hstate]
        intro w hs
        rcases List.mem_cons.mp (hlisted (hback w hs)) with rfl | hmem
        · exact .inl rfl
        · exact .inr hmem
      · rename_i hstate
        rw [if_neg hstate]
        intro w hs
        rcases List.mem_cons.mp (hlisted hs) with rfl | hmem
        · exact absurd hs hstate
        · exact .inr hmem
    · exact h
  | dispatch now labels =>
    dsimp only [stepFree]
    unfold stepDispatch
    split
    · rename_i wid issue severity targets hdispatching
      have hnone (w : Nat) : s.db.itemState w ≠ some .dispatching := by
        intro hs
        have := hphase w hs
        rw [hdispatching] at this
        exact this
      intro w hs
      dsimp only at hs ⊢
      by_cases hreserved : (dispatchCandidate (c.env now) { db := s.db } wid issue severity labels).2 = .reserved
      · by_cases hw : w = wid
        · refine .inl ?_
          rw [hreserved, hw]
          rfl
        · have hacts := dispatchCandidate_acts (c.env now) { db := s.db } wid issue severity labels
          rw [Db.itemState, hacts.item not_false hw] at hs
          exact absurd hs (hnone w)
      · rw [Db.itemState, dispatchCandidate_passes hreserved] at hs
        exact absurd hs (hnone w)
    · exact h
  | launch now wid operator answers =>
    dsimp only [stepFree]
    split
    · rename_i hidle
      refine hdone fun w => ?_
      rw [show (_ : Sys).phase = s.phase from rfl, hidle]
      trivial
    · exact h
  | cancelRequest now wid operator =>
    dsimp only [stepFree]
    split
    · rename_i hidle
      refine hdone fun w => ?_
      rw [show (_ : Sys).phase = s.phase from rfl, hidle]
      trivial
    · exact h
  | ingest _ _ _ _ => exact h
  | adopt _ _ => exact h
  | create _ _ _ => exact h
  | cancelAnswer _ _ => exact h
  | stop => exact h

/-- An answer of Devin that ends the work on an item, which is no longer reserved. -/
theorem Recoverable.lands {s' : Sys} {wid : Nat} (h : Recoverable s) (hin : s.flight.bind Flight.holds = some wid)
    (hback : ∀ w, s'.db.itemState w = some .dispatching → s.db.itemState w = some .dispatching)
    (hleaves : s'.db.itemState wid ≠ some .dispatching) (hphase : s'.phase = s.phase) : Recoverable s' := by
  intro w hs
  rcases h w (hback w hs) with hother | hrecovers
  · cases hin.symm.trans hother
    exact absurd hs hleaves
  · exact .inr (hphase ▸ hrecovers)

/-- **A step** leaves no reserved item that the controller does not get back to. -/
theorem exec_recoverable (hI : InFlight s) (h : Recoverable s) (a : Action) : Recoverable (exec c s a) := by
  have hback (ha : ¬ a.scope.fires .dispatchStarted) (wid : Nat) :
      (exec c s a).db.itemState wid = some .dispatching → s.db.itemState wid = some .dispatching := exec_reserves ha
  cases a with
  | ingest run jobs upperBounds now =>
    have hback := hback fun hno => hno List.mem_cons_self
    dsimp only [exec] at hback ⊢
    split at hback
    · exact h.keeps hback rfl fun _ _ => id
    · exact h
  | stop => exact fun _ _ => .inr trivial
  | adopt now remote =>
    have hback := hback fun hno => hno List.mem_cons_self
    dsimp only [exec] at hback ⊢
    unfold stepAdopt at hback ⊢
    split at hback
    · rename_i wid recovering hflight
      have hin : s.flight.bind Flight.holds = some wid := by rw [hflight]; rfl
      have hs : s.db.itemState wid = some .dispatching := by
        rw [InFlight, hflight] at hI
        exact hI
      cases hnext : (adoptTagged (c.env now) { db := s.db } wid recovering remote).2 with
      | none => exact h.lands hin hback (adoptTagged_leaves hs hnext) rfl
      | some flight =>
        obtain ⟨-, -, members, rfl⟩ := adoptTagged_creating hnext
        intro w hw
        rcases h w (hback w hw) with hother | hrecovers
        · cases hin.symm.trans hother
          refine .inl ?_
          dsimp only
          rw [hnext]
          rfl
        · exact .inr hrecovers
    · exact h
  | create now answer commented =>
    have hback := hback fun hno => hno List.mem_cons_self
    dsimp only [exec] at hback ⊢
    unfold stepCreate at hback ⊢
    split at hback
    · rename_i wid members hflight
      have hin : s.flight.bind Flight.holds = some wid := by rw [hflight]; rfl
      have hs : s.db.itemState wid = some .dispatching := by
        rw [InFlight, hflight] at hI
        exact hI
      exact h.lands hin hback (createSession_leaves hs members answer commented) rfl
    · exact h
  | cancelAnswer now answer =>
    have hback := hback fun hno => hno List.mem_cons_self
    dsimp only [exec] at hback ⊢
    unfold stepCancel at hback ⊢
    split at hback
    · rename_i wid row operator hflight
      intro w hw
      refine .inr ((h w (hback w hw)).resolve_left ?_)
      rw [hflight]
      intro hnone
      cases hnone
    · exact h
  | _ =>
    dsimp only [exec] at hback ⊢
    by_cases hfree : s.flight.isSome = true
    · rw [if_pos hfree]
      exact h
    · rw [if_neg hfree] at hback ⊢
      exact stepFree_recoverable h (Option.not_isSome_iff_eq_none.mp hfree) _ fun wid hno => hback hno wid

end Steps

/-- **No reservation is lost.** In every state the controller can be in, an item is reserved only while it is in flight,
or while the recovery of the tick has it on its list or is still to come. -/
theorem dispatching_recovers {c : Controller} {s : Sys} (h : Reachable c s) (wid : Nat)
    (hs : s.db.itemState wid = some .dispatching) : Recovers s wid := by
  have hboth : InFlight s ∧ Recoverable s := by
    refine Machine.Reachable.invariant (fun s => InFlight s ∧ Recoverable s) ?_ ?_ h
    · exact ⟨.landed rfl, fun _ _ => .inr trivial⟩
    · rintro s a ⟨hI, hrecoverable⟩
      exact ⟨exec_inFlight hI a, exec_recoverable hI hrecoverable a⟩
  exact hboth.2 wid hs

/-- The process dies while Devin creates a session; the next tick goes on to its recovery. -/
def crashedTrace : List Action :=
  [sampleIngest "1" 10 (samplePair "CVE-1" "openssl" "1")] ++ sampleReserve 11 ++ [.adopt 12 (.ok []), .stop] ++
    [.beginTick, .next true none, .next true none, .next true none, .next true none]

/-- The item that the crash left is on the list. -/
theorem crashed_recovers : let s := sampleState crashedTrace
    s.db.itemState 1 = some .dispatching ∧ s.flight = none ∧ Recovers s 1 :=
  ⟨by decide +kernel, by
        decide +kernel, dispatching_recovers (sampleState_reachable crashedTrace) 1 (by decide +kernel)⟩

end HardeningLoop
