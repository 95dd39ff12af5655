import HardeningLoop.Orchestrator.Intake
import HardeningLoop.Orchestrator.Engine.Walks

/-!
# Every event is in the table

The engine fires an event only in a state that has an edge for it, but for one: a human label that accepts a resolution
is applied to an item in `failed`, which has no edge for `human_resolved`.

- `InFlight`: what the controller keeps in hand agrees with the state of the item;
- `exec_accepts`: a step that does not overlook a failed item fires along the table, and leaves it so;
- `accepted_run_iff`: a run refuses no event exactly when no step of it does that.
-/

namespace HardeningLoop

open Rows (Table)

/-- What the controller keeps in hand is about an item in the state it was left in. -/
def Flight.fits (db : Db) : Option Flight → Prop
  | some (.adopting wid _) | some (.creating wid _) => db.itemState wid = some .dispatching
  | some (.cancelling wid _ _) => db.itemState wid = some .sessionActive
  | none => True

def InFlight (s : Sys) : Prop := Flight.fits s.db s.flight

/-- A poll finds the acceptance of a resolution on the issue of an item that failed, and no retry label. -/
def Overlooks (s : Sys) : Action → Prop
  | .pollHumanLabel _ wid number issueState labels =>
    s.flight.isNone ∧ (match s.phase with | .polling => True | _ => False) ∧
      ∃ item, s.db.workItems.get? wid = some item ∧
      item.state = .failed ∧ item.issueNumber = some number ∧ issueState ≠ "closed" ∧
        HumanLabel.retry.value ∉ labels ∧ accepting item labels = true
  | _ => False

/-- A poll of labels leaves the item as it is, or takes it along an edge of what the human did. -/
def Heeded (c : Controller) (s : Sys) (a : Action) : Prop :=
  match a with
  | .pollHumanLabel _ wid _ _ _ => ∀ item, s.db.workItems.get? wid = some item →
    (exec c s a).db.workItems.get? wid = some item ∨
      ∃ e ∈ humanLabelEvents, (nextWorkItemState item.state e).isSome ∧
        (exec c s a).db.itemState wid = nextWorkItemState item.state e
  | _ => True

section Steps

variable {c : Controller} {s : Sys}

theorem InFlight.landed (h : s.flight = none) : InFlight s := by
  rw [InFlight, h]
  trivial

/-- A step that lands with nothing in hand. -/
theorem accepts_landed {env : Env} {tx : Tx} {s' : Sys} (h : Walk env { db := s.db } tx) (hdb : s'.db = tx.db)
    (hflight : s'.flight = none) : Accepts s.db s'.db ∧ InFlight s' := ⟨hdb ▸ h.accepted, .landed hflight⟩

theorem applyScanRun_accepts (env : Env) (cmp : Compare) (rid : Nat) (db : Db) :
    Accepts db (applyScanRun env cmp rid { db := db }).db := by
  unfold applyScanRun
  split
  · rename_i ev _
    split
    · exact .refl db
    · have h : Walk env { db := db } (drift env ev (regressions env cmp ev (closeItems env cmp ev { db := db }))) :=
        ((closeItems_walk cmp ev).trans (.of_acts (regressions_does env cmp ev _) fun _ => id)).trans (drift_walk ev)
      exact h.accepted
  · exact .refl db

theorem ingestRun_accepts {ext : External} {db db' : Db} {run : RunMeta} {jobs : List ScanJobEvidence}
    {upperBounds : List (String × String)} {ts : DateTime} {result : IngestResult}
    (h : ingestRun ext db run jobs upperBounds ts = .ok (db', result)) : Accepts db db' := by
  obtain ⟨l, hl, hall⟩ := (ingestRun_ingested h).events
  refine ⟨l, hl, fun e he => ?_⟩
  obtain ⟨-, -, htype⟩ := hall e he
  unfold Event.refuses
  simp [htype]

theorem stepFree_accepts {a : Action} (hfree : s.flight = none) (ha : ¬ Overlooks s a) :
    Accepts s.db (stepFree c s a).db ∧ InFlight (stepFree c s a) := by
  have hidle : Accepts s.db s.db ∧ InFlight s := ⟨.refl _, .landed hfree⟩
  cases a with
  | beginTick => dsimp only [stepFree]; split <;> exact ⟨.refl _, .landed hfree⟩
  | pollSession now wid sid snap answers =>
    dsimp only [stepFree]
    split
    · exact accepts_landed (pollSession_walk sid snap answers) rfl hfree
    · exact accepts_landed (pollSession_walk sid snap answers) rfl hfree
    · exact hidle
  | pollPullRequest now wid number pr checks answers =>
    dsimp only [stepFree]
    split
    · exact accepts_landed (pollPullRequest_walk number pr checks answers) rfl hfree
    · exact hidle
  | pollHumanLabel now wid number state labels =>
    dsimp only [stepFree]
    split
    · rename_i hphase
      refine accepts_landed (pollHumanLabel_heeds fun item hi hfailed hnumber hopen hretry => ?_).walk rfl hfree
      by_contra haccepting
      refine ha ⟨by rw [hfree]; rfl, by rw [hphase]; trivial, item, hi, hfailed, hnumber, hopen, hretry, ?_⟩
      exact Bool.not_eq_false _ ▸ haccepting
    · exact hidle
  | next autoDispatch listed => exact ⟨.refl _, .landed hfree⟩
  | applyRun now compare =>
    dsimp only [stepFree]
    split
    · exact ⟨applyScanRun_accepts _ compare _ _, .landed hfree⟩
    · exact hidle
  | applyFailed => dsimp only [stepFree]; split <;> exact ⟨.refl _, .landed hfree⟩
  | group now =>
    dsimp only [stepFree]
    unfold stepGroup
    split
    · exact accepts_landed (.of_acts (groupFindings_does (c.env now) _ _ _ _ _) fun _ => id) rfl hfree
    · exact hidle
  | openIssue now relisted created =>
    dsimp only [stepFree]
    unfold stepOpen
    split
    · dsimp only
      split
      · exact accepts_landed (openIssue_walk ‹_› _ _ _) rfl hfree
      · exact ⟨.refl _, .landed hfree⟩
    · exact hidle
  | recover now =>
    dsimp only [stepFree]
    unfold stepRecover
    split
    · rename_i wid _ _ _
      dsimp only
      split
      · rename_i hs
        have h : At (c.env now) { db := s.db } wid .dispatching (recover (c.env now) { db := s.db } wid) :=
          At.log (.refl hs) _ _ _ _ (by decide)
        exact ⟨h.walk.accepted, h.state⟩
      · exact ⟨.refl _, .landed hfree⟩
    · exact hidle
  | dispatch now labels =>
    dsimp only [stepFree]
    unfold stepDispatch
    split
    · rename_i wid issue severity targets _
      obtain ⟨hwalk, hreserved⟩ := dispatchCandidate_walk (c.env now) { db := s.db } wid issue severity labels
      refine ⟨hwalk.accepted, ?_⟩
      show Flight.fits (dispatchCandidate (c.env now) { db := s.db } wid issue severity labels).1.db
        (if (dispatchCandidate (c.env now) { db := s.db } wid issue severity labels).2 = .reserved
          then some (.adopting wid false) else none)
      split
      · exact hreserved ‹_›
      · trivial
    · exact hidle
  | launch now wid operator answers =>
    dsimp only [stepFree]
    split
    · obtain ⟨hwalk, hreserved⟩ := launch_walk (c.env now) { db := s.db } wid operator answers
      refine ⟨hwalk.accepted, ?_⟩
      show Flight.fits _ (if _ then _ else none)
      split
      · exact hreserved ‹_›
      · trivial
    · exact hidle
  | cancelRequest now wid operator =>
    dsimp only [stepFree]
    split
    · obtain ⟨hwalk, hcancels⟩ := cancelRequest_walk (c.env now) { db := s.db } wid operator
      refine ⟨hwalk.accepted, ?_⟩
      show Flight.fits _ (cancelRequest (c.env now) { db := s.db } wid operator).2
      cases hflight : (cancelRequest (c.env now) { db := s.db } wid operator).2 with
      | none => trivial
      | some flight =>
        obtain ⟨⟨row, rfl⟩, hactive⟩ := hcancels flight hflight
        exact hactive
    · exact hidle
  | ingest _ _ _ _ => exact hidle
  | adopt _ _ => exact hidle
  | create _ _ _ => exact hidle
  | cancelAnswer _ _ => exact hidle
  | stop => exact hidle

/-- **A step fires along the table**, unless it overlooks that an item failed. -/
theorem exec_accepts {a : Action} (hI : InFlight s) (ha : ¬ Overlooks s a) :
    Accepts s.db (exec c s a).db ∧ InFlight (exec c s a) := by
  cases a with
  | ingest run jobs upperBounds now =>
    dsimp only [exec]
    split
    · rename_i db' result h
      refine ⟨ingestRun_accepts h, ?_⟩
      have hsame : db'.workItems = s.db.workItems := (ingestRun_ingested h).workItems
      unfold InFlight Flight.fits at hI ⊢
      simp only [Db.itemState, hsame]
      exact hI
    · exact ⟨.refl _, hI⟩
  | stop => exact ⟨.refl _, .landed rfl⟩
  | adopt now remote =>
    dsimp only [exec]
    unfold stepAdopt
    split
    · rename_i wid recovering hflight
      have hs : s.db.itemState wid = some .dispatching := by
        rw [InFlight, hflight] at hI
        exact hI
      refine ⟨(adoptTagged_walk hs recovering remote).accepted, ?_⟩
      show Flight.fits _ (adoptTagged (c.env now) { db := s.db } wid recovering remote).2
      cases hnext : (adoptTagged (c.env now) { db := s.db } wid recovering remote).2 with
      | none => trivial
      | some flight =>
        obtain ⟨hsame, -, members, rfl⟩ := adoptTagged_creating hnext
        show (adoptTagged (c.env now) { db := s.db } wid recovering remote).1.db.itemState wid = some .dispatching
        rw [hsame]
        exact hs
    · exact ⟨.refl _, hI⟩
  | create now answer commented =>
    dsimp only [exec]
    unfold stepCreate
    split
    · rename_i wid members hflight
      have hs : s.db.itemState wid = some .dispatching := by
        rw [InFlight, hflight] at hI
        exact hI
      exact accepts_landed (createSession_walk hs members answer commented) rfl rfl
    · exact ⟨.refl _, hI⟩
  | cancelAnswer now answer =>
    dsimp only [exec]
    unfold stepCancel
    split
    · rename_i wid row operator hflight
      have hs : s.db.itemState wid = some .sessionActive := by
        rw [InFlight, hflight] at hI
        exact hI
      exact accepts_landed (cancelAnswer_walk hs row operator answer) rfl rfl
    · exact ⟨.refl _, hI⟩
  | _ =>
    dsimp only [exec]
    split
    · exact ⟨.refl _, hI⟩
    · exact stepFree_accepts (Option.not_isSome_iff_eq_none.mp ‹_›) ha

theorem exec_heeds {a : Action} (ha : ¬ Overlooks s a) : Heeded c s a := by
  cases a with
  | pollHumanLabel now wid number state labels =>
    intro item hi
    dsimp only [exec, stepFree]
    split
    · exact Or.inl hi
    · rename_i hflight
      split
      · rename_i hphase
        have h : Heeds (c.env now) wid { db := s.db }
          (pollHumanLabel (c.env now) wid number state labels { db := s.db }) := by
          refine pollHumanLabel_heeds fun item hi hfailed hnumber hopen hretry => ?_
          by_contra haccepting
          refine ha ⟨by simpa using hflight, by rw [hphase]; trivial, item, hi, hfailed, hnumber, hopen, hretry, ?_⟩
          exact Bool.not_eq_false _ ▸ haccepting
        rcases h with hsame | ⟨e, he, st, st', hst, hn, hat⟩
        · left
          simp only [Sys.commit, hsame]
          exact hi
        · right
          have hstate : item.state = st := by
            rw [Db.itemState, hi, Option.map_some, Option.some.injEq] at hst
            exact hst
          subst hstate
          exact ⟨e, he, by rw [hn]; rfl, hn ▸ hat.state⟩
      · exact Or.inl hi
  | _ => trivial

theorem resolve_refuses {env : Env} {tx : Tx} {wid : Nat} {item : WorkItem} (hi : tx.db.workItems.get? wid = some item)
    (hfailed : item.state = .failed) (label : HumanLabel) : ¬ Accepts tx.db (resolve env tx wid label).db := by
  rintro ⟨l, hl, hall⟩
  have hrow : (tx.modifyItem wid fun w => { w with humanResolution := some label.value }).db.workItems.get? wid =
      some { item with humanResolution := some label.value } := by
    simp only [Tx.modifyItem, Table.get?_modify_self, hi, Option.map_some]
  have hlog : (resolve env tx wid label).db.events = tx.db.events ++
      Tx.wiLog env wid .humanResolved label.value "human" { item with humanResolution := some label.value } := by
    rw [resolve, Tx.wi_db, hrow, Option.elim]
    rfl
  rw [hlog, List.append_cancel_left_eq] at hl
  have hnone : nextWorkItemState item.state .humanResolved = none := by
    rw [hfailed]
    rfl
  have hentry := hall (⟨env.now, "controller", .workItem, wid, .log "invalid_transition", some item.state.value,
    some item.state.value, some (Tx.invalidText item.state.value WorkItemEvent.humanResolved.value label.value), []⟩)
    (by rw [← hl]; simp only [Tx.wiLog, hnone]; exact List.mem_cons_self)
  cases hentry

theorem overlooks_refuses {a : Action} (h : Overlooks s a) : ¬ Accepts s.db (exec c s a).db := by
  cases a with
  | pollHumanLabel now wid number state labels =>
    obtain ⟨hflight, hphase, item, hi, hfailed, hnumber, hopen, hretry, haccepting⟩ := h
    have hpolling : s.phase = .polling := by
      revert hphase
      cases s.phase <;> simp
    have hgo : (item.state ∉ humanLabelStates || item.issueNumber ≠ some number : Bool) = false := by
      simp [hfailed, hnumber, humanLabelStates]
    have hattention : item.state ∈ humanAttentionStates := by
      rw [hfailed]
      decide
    have hexec : (exec c s (.pollHumanLabel now wid number state labels)).db =
        (applyLabels (c.env now) { db := s.db } wid item number labels).db := by
      simp only [exec, stepFree, Option.isNone_iff_eq_none.mp hflight, Option.isSome_none, Bool.false_eq_true, if_false,
        hpolling, Sys.commit]
      unfold pollHumanLabel
      simp only [hi, hgo, hopen, hattention, Bool.false_eq_true, if_false, if_true]
    rw [hexec]
    unfold applyLabels
    rw [if_neg hretry]
    unfold accepting at haccepting
    simp only [Bool.and_eq_true, Bool.or_eq_true, decide_eq_true_eq] at haccepting
    obtain ⟨hlabel, hnone⟩ := haccepting
    split
    · exact resolve_refuses hi hfailed _
    · rename_i hno
      split
      · exact resolve_refuses hi hfailed _
      · rename_i hno'
        simp only [Bool.and_eq_true, decide_eq_true_eq, hnone, and_true] at hno hno'
        exact absurd hlabel (not_or.mpr ⟨hno, hno'⟩)
  | _ => exact h.elim

/-- **A run fires along the table, and makes the transition of every human decision it consumes, exactly when** no step
finds the acceptance of a resolution on an item that failed. -/
theorem accepted_run_iff (c : Controller) (trace : List Action) :
    Machine.AllSteps (exec c) (fun s a => Accepts s.db (exec c s a).db ∧ Heeded c s a) .initial trace ↔
      Machine.AllSteps (exec c) (fun s a => ¬ Overlooks s a) .initial trace := by
  constructor
  · refine Machine.AllSteps.imp_invariant (fun _ => True) (fun _ _ _ _ => trivial) (fun s a _ h ho => ?_) trivial
    exact overlooks_refuses ho h.1
  · refine Machine.AllSteps.imp_invariant InFlight (fun s a hI ha => (exec_accepts hI ha).2)
      (fun s a hI ha => ?_) trivial
    exact ⟨(exec_accepts hI ha).1, exec_heeds ha⟩

end Steps

/-- A controller that never asks a session to fix its checks. -/
def noRetries : Controller := { sampleController with settings := { retriesPerWorkItem := 0 } }

/-- A package without a fix: the checks of its item's pull request are red, so the item failed; then a human approves
the disposition. -/
def overlookedTrace : List Action :=
  let unfixed (v : RawVuln) : RawVuln := { v with fixedVersions := [], fixState := "not-fixed" }
  [sampleIngest "1" 10 ((samplePair "CVE-1" "openssl" "1").map unfixed)] ++ sampleReserve 11 ++ sampleCreate 12 ++
    sampleOpen 13 "a" ++ samplePoll 14 (samplePull "a") sampleRed {} ++
      [.beginTick, .pollHumanLabel 15 1 7 "open" [HumanLabel.dispositionApproved.value]]

/-- The event has no edge: it is recorded as invalid, and the resolution is kept although the item stays in `failed`. -/
theorem resolution_refused :
    let s := Machine.run (exec noRetries) .initial overlookedTrace
    Reachable noRetries s ∧ (∃ e ∈ s.db.events, e.refuses = true) ∧ ∃ item, s.db.workItems.get? 1 = some item ∧
      item.state = .failed ∧ item.humanResolution = some HumanLabel.dispositionApproved.value := by
  intro s
  have hevents : s.db.events.any Event.refuses = true := by decide +kernel
  have hitem : (s.db.workItems.get? 1).any (fun item => item.state == .failed &&
      item.humanResolution == some HumanLabel.dispositionApproved.value) = true := by decide +kernel
  obtain ⟨item, hi, hall⟩ := (Option.any_eq_true ..).mp hitem
  simp only [Bool.and_eq_true, beq_iff_eq] at hall
  exact ⟨Machine.Reachable.of_run _ _, List.any_eq_true.mp hevents, item, hi, hall⟩

end HardeningLoop
