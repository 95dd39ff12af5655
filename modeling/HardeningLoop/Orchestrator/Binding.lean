import HardeningLoop.Orchestrator.Intake
import HardeningLoop.Orchestrator.Transactions

/-!
# The issues of work items

An item gets its issue on GitHub by `_open_issue`: an open issue of the item's title that no item is bound to is
adopted, else one is created. The listing is taken once in a tick, and GitHub keeps an issue whose transaction was lost.

- `adoptable`: the issue an item adopts; `opening`: the item a step opens an issue for, and the listing it goes by;
- `exec_bindStep`: a step binds the issue it adopts or creates, and no other;
- `Fork`: the controller and the issues of the repository; a crash loses the transaction and keeps the issue;
- `binding_run_iff`: no issue is bound twice, and in every state of a run none is created beside an unbound one of the
  title, exactly when no item goes by a listed issue that was bound since while another of the title is unbound.
-/

namespace HardeningLoop

open Rows (Table)

/-- The issue of a work item. -/
def Db.issueOf (db : Db) (wid : Nat) : Option Nat := (db.workItems.get? wid).bind WorkItem.issueNumber

/-- Some item is bound to the issue. -/
def Db.Bound (db : Db) (number : Nat) : Prop := ∃ wid, db.issueOf wid = some number

/-- No issue is bound to two items. -/
def BoundOnce (db : Db) : Prop := ∀ i j n, db.issueOf i = some n → db.issueOf j = some n → i = j

/-- The check of `_issue_bound`. -/
theorem issueBound_iff (db : Db) (number : Nat) :
    (db.workItems.first fun w => w.issueNumber == some number).isNone = true ↔ ¬ db.Bound number := by
  constructor
  · rintro hnone ⟨wid, hwid⟩
    obtain ⟨item, hitem, hnumber⟩ := Option.bind_eq_some_iff.mp hwid
    have hmiss := Table.first_eq_none (Option.isNone_iff_eq_none.mp hnone) hitem
    rw [hnumber, beq_self_eq_true] at hmiss
    cases hmiss
  · intro hfree
    rw [Option.isNone_iff_eq_none]
    cases hfirst : db.workItems.first fun w => w.issueNumber == some number with
    | none => rfl
    | some wid =>
      obtain ⟨item, hitem, hnumber⟩ := Table.first_eq_some hfirst
      refine absurd ⟨wid, ?_⟩ hfree
      rw [Db.issueOf, hitem]
      exact eq_of_beq hnumber

/-! ## The listing -/

/-- The first issue of each title, the others being dropped. -/
theorem get?_byTitle (title : String) : ∀ (issues : List Issue) (byTitle : List (String × Issue)),
    Dict.get? (issues.foldl (fun byTitle i => if (Dict.get? byTitle i.title).isSome then byTitle
      else Dict.set byTitle i.title i) byTitle) title =
      (Dict.get? byTitle title).or (issues.find? fun i => i.title == title)
  | [], byTitle => by simp
  | i :: issues, byTitle => by
    rw [List.foldl_cons, get?_byTitle title issues, List.find?_cons]
    by_cases htitle : i.title = title
    · rw [htitle, beq_self_eq_true]
      cases hget : Dict.get? byTitle title with
      | some found =>
        simp only [Option.isSome_some, if_true, hget]
        rfl
      | none =>
        simp only [Option.isSome_none, Bool.false_eq_true, if_false, Dict.get?_set, if_true]
        rfl
    · have hne : (i.title == title) = false := beq_eq_false_iff_ne.mpr htitle
      rw [hne]
      dsimp only
      split
      · rfl
      · rw [Dict.get?_set, if_neg (Ne.symm htitle)]

/-- What a listing has for a title: an unbound issue of the title, if there is one. -/
theorem openControllerIssues_get? {db : Db} {issues : List Issue} {byTitle : List (String × Issue)}
    (h : openControllerIssues db (some issues) = some byTitle) (title : String) :
    match Dict.get? byTitle title with
    | some i => i ∈ issues ∧ i.title = title ∧ ¬ db.Bound i.number
    | none => ∀ i ∈ issues, i.title = title → db.Bound i.number := by
  simp only [openControllerIssues, Option.map_some, Option.some.injEq] at h
  rw [← h, get?_byTitle]
  simp only [Dict.get?, Option.none_or]
  cases hfind : List.find? (fun i : Issue => i.title == title) _ with
  | some i =>
    have hmem := List.mem_of_find?_eq_some hfind
    rw [List.mem_insertionSort, List.mem_filter] at hmem
    have htitle : (i.title == title) = true := List.find?_some (p := fun i : Issue => i.title == title) hfind
    exact ⟨hmem.1, eq_of_beq htitle, (issueBound_iff db i.number).mp hmem.2⟩
  | none =>
    intro i hi htitle
    by_contra hfree
    have hmiss := List.find?_eq_none.mp hfind i
    rw [List.mem_insertionSort, List.mem_filter] at hmiss
    exact hmiss ⟨hi, (issueBound_iff db i.number).mpr hfree⟩ (beq_iff_eq.mpr htitle)

/-- The issue an item adopts: the listed one of its title, unless it was bound since. -/
def adoptable (db : Db) (existing : Option (List (String × Issue))) (relisted : Option (List Issue)) (item : WorkItem) :
    Option Issue :=
  let listing := match existing with
    | some byTitle => some byTitle
    | none => openControllerIssues db relisted
  (listing.bind (Dict.get? · (issueTitle item))).filter fun i =>
    (db.workItems.first fun w => w.issueNumber == some i.number).isNone

theorem adoptable_free {db : Db} {existing : Option (List (String × Issue))} {relisted : Option (List Issue)}
    {item : WorkItem}
    {issue : Issue} (h : adoptable db existing relisted item = some issue) : ¬ db.Bound issue.number :=
  (issueBound_iff db issue.number).mp (Option.filter_eq_some_iff.mp h).2

/-! ## What a unit binds -/

section Units

variable {env : Env} {S : Scope} {tx t : Tx}

/-- The same items are bound to the same issues, and the queued ones were queued or are new. -/
structure SameIssues (db db' : Db) : Prop where
  issues : ∀ wid, db'.issueOf wid = db.issueOf wid
  queued : ∀ wid, db'.itemState wid = some .queued → db.itemState wid = some .queued ∨ db.workItems.get? wid = none
  there : ∀ wid, db'.workItems.get? wid = none → db.workItems.get? wid = none

theorem SameIssues.of_workItems {db db' : Db} (h : db'.workItems = db.workItems) : SameIssues db db' := by
  refine ⟨fun wid => ?_, fun wid hq => Or.inl ?_, fun wid hnone => ?_⟩
  · rw [Db.issueOf, Db.issueOf, h]
  · rw [Db.itemState, h] at hq
    exact hq
  · rw [h] at hnone
    exact hnone

theorem SameIssues.refl (db : Db) : SameIssues db db := .of_workItems rfl

theorem SameIssues.trans {db db' db'' : Db} (h : SameIssues db db') (h' : SameIssues db' db'') :
    SameIssues db db'' := by
  refine ⟨fun wid => (h'.issues wid).trans (h.issues wid), fun wid hq => ?_, fun wid hnone =>
    h.there wid (h'.there wid hnone)⟩
  rcases h'.queued wid hq with hq | hnone
  · exact h.queued wid hq
  · exact Or.inr (h.there wid hnone)

theorem Tx.wiRow_issueNumber (event : WorkItemEvent) (reason : String) (item : WorkItem) :
    (wiRow env event reason item).issueNumber = item.issueNumber := by
  unfold wiRow
  split
  · rfl
  · split
    · split <;> rfl
    · rfl

/-- An edit of an item that keeps its issue and queues nothing. -/
theorem modifyItem_sameIssues {w : Nat} {f : WorkItem → WorkItem} (hf : ∀ item, (f item).issueNumber = item.issueNumber)
    (hq : ∀ item, (f item).state = .queued → item.state = .queued) : SameIssues t.db (t.modifyItem w f).db := by
  refine ⟨fun wid => ?_, fun wid hqueued => Or.inl ?_, fun wid hnone => ?_⟩
  · simp only [Db.issueOf, Tx.modifyItem, Table.get?_modify]
    split
    · cases t.db.workItems.get? wid with
      | none => rfl
      | some item => exact hf item
    · rfl
  · simp only [Db.itemState, Tx.modifyItem, Table.get?_modify] at hqueued ⊢
    split at hqueued
    · rw [Option.map_map] at hqueued
      obtain ⟨item, hitem, hstate⟩ := Option.map_eq_some_iff.mp hqueued
      rw [hitem, Option.map_some, hq item hstate]
    · exact hqueued
  · simp only [Tx.modifyItem, Table.get?_modify] at hnone
    split at hnone
    · exact Option.map_eq_none_iff.mp hnone
    · exact hnone

/-- An item is queued only from the start. -/
theorem next_queued {s : WorkItemState} {e : WorkItemEvent} (h : nextWorkItemState s e = some .queued) :
    s = .queued := by
  have hall : ∀ row ∈ workItemTransitions, row.2 = WorkItemState.queued → row.1.1 = .queued := by decide
  exact hall _ (mem_of_lookup h) rfl

theorem wi_sameIssues (wid : Nat) (event : WorkItemEvent) (reason actor : String) :
    SameIssues t.db (t.wi env wid event reason actor).db := by
  have hrow : SameIssues t.db (t.modifyItem wid (Tx.wiRow env event reason)).db := by
    refine modifyItem_sameIssues (fun item => Tx.wiRow_issueNumber event reason item) fun item hq => ?_
    rcases Tx.wiRow_state env event reason item with h | h | h
    · exact next_queued (h.symm.trans (congrArg some hq))
    · exact next_queued (h.symm.trans (congrArg some hq))
    · exact h.symm.trans hq
  exact hrow.trans (.of_workItems (by rw [Tx.wi_db]; rfl))

/-- Only a unit that opens an issue binds one. -/
theorem Acts.sameIssues (hb : ¬ S.deeds .bind) (h : Acts env S tx t) : SameIssues tx.db t.db := by
  induction h with
  | refl => exact .refl _
  | quiet _ hq ih => exact ih.trans (.of_workItems hq.workItems)
  | editItem _ _ hf ih =>
    exact ih.trans (modifyItem_sameIssues (fun w => (hf w).issue.resolve_left hb) fun w hq => (hf w).state ▸ hq)
  | editPull _ _ _ _ _ ih => exact ih.trans (.of_workItems rfl)
  | insertPull _ _ _ _ ih => exact ih.trans (.of_workItems rfl)
  | @insertItem t _ _ item hi ih =>
    refine ih.trans ⟨fun wid => ?_, fun wid hq => ?_, fun wid hnone => ?_⟩
    · simp only [Db.issueOf, Tx.insertItem, Table.get?_insert]
      split
      · rename_i hid
        rw [hid, Table.get?_nextId]
        exact hi.issueNumber
      · rfl
    · by_cases hid : wid = t.db.workItems.nextId
      · exact Or.inr (hid ▸ Table.get?_nextId _)
      · simp only [Db.itemState, Tx.insertItem, Table.get?_insert, if_neg hid] at hq
        exact Or.inl hq
    · simp only [Tx.insertItem, Table.get?_insert] at hnone
      split at hnone
      · cases hnone
      · exact hnone
  | wi _ _ _ reason actor ih => exact ih.trans (wi_sameIssues _ _ reason actor)
  | findingFrom _ _ _ _ _ _ _ ih => exact ih.trans (.of_workItems (by rw [Tx.findingFrom_db]))
  | own _ _ _ ih => exact ih.trans (.of_workItems rfl)

variable {wid : Nat} {item : WorkItem} {existing : Option (List (String × Issue))} {relisted : Option (List Issue)}
  {created : Except String Issue}

/-- The issue is bound to the item, which leaves the queue, and no other binding changes. -/
structure Binds (db db' : Db) (wid number : Nat) : Prop where
  issues : ∀ k, db'.issueOf k = if k = wid then some number else db.issueOf k
  queued : ∀ k, db'.itemState k = some .queued → k ≠ wid ∧ (db.itemState k = some .queued ∨ db.workItems.get? k = none)
  there : ∀ k, db'.workItems.get? k = none → db.workItems.get? k = none

theorem Binds.trans {db db' db'' : Db} {wid n : Nat} (h : Binds db db' wid n) (h' : SameIssues db' db'') :
    Binds db db'' wid n := by
  refine ⟨fun k => (h'.issues k).trans (h.issues k), fun k hq => ?_, fun k hnone => h.there k (h'.there k hnone)⟩
  rcases h'.queued k hq with hq | hnone
  · exact h.queued k hq
  · refine ⟨?_, Or.inr (h.there k hnone)⟩
    rintro rfl
    have hissue := h.issues k
    rw [Db.issueOf, hnone, if_pos rfl] at hissue
    cases hissue

theorem bindIssue_binds (hi : tx.db.workItems.get? wid = some item) (hq : item.state = .queued) (issue : Issue)
    (reason : String) :
    Binds tx.db (bindIssue env tx wid issue reason).db wid issue.number := by
  have hrow (k : Nat) : (bindIssue env tx wid issue reason).db.workItems.get? k = if k = wid then some
      (Tx.wiRow env .issueCreated reason { item with issueNumber := some issue.number, issueUrl := some issue.url
                                                     issueOpenedAt := some env.now }) else tx.db.workItems.get? k := by
    rw [bindIssue, Tx.wi_db]
    simp only [Tx.modifyItem, Table.get?_modify]
    split
    · rename_i hk
      rw [hk, hi]
      rfl
    · rfl
  refine ⟨fun k => ?_, fun k hqueued => ?_, fun k hnone => ?_⟩
  · rw [Db.issueOf, hrow]
    split
    · exact Tx.wiRow_issueNumber ..
    · rfl
  · rw [Db.itemState, hrow] at hqueued
    split at hqueued
    · rw [Option.map_some, Option.some.injEq, Tx.wiRow] at hqueued
      simp only [hq] at hqueued
      cases hqueued
    · rename_i hk
      exact ⟨hk, Or.inl hqueued⟩
  · rw [hrow] at hnone
    split at hnone
    · cases hnone
    · exact hnone

/-- **What `_open_issue` binds**: the adopted issue, else the created one, else nothing. -/
theorem openIssue_binds (hi : tx.db.workItems.get? wid = some item) (hq : item.state = .queued) :
    match (adoptable tx.db existing relisted item).or created.toOption with
    | some issue => Binds tx.db (openIssue env tx wid existing relisted created).1.db wid issue.number
    | none => SameIssues tx.db (openIssue env tx wid existing relisted created).1.db := by
  unfold openIssue
  rw [hi]
  dsimp only
  cases hadopted : adoptable tx.db existing relisted item with
  | some issue =>
    have hbinds := @bindIssue_binds env tx wid item hi hq issue ("adopted existing " ++ issue.url)
    cases existing with
    | none | some byTitle =>
      dsimp only [adoptable] at hadopted
      dsimp only
      rw [hadopted]
      exact hbinds
  | none =>
    cases existing with
    | none | some byTitle =>
      dsimp only [adoptable] at hadopted
      dsimp only
      rw [hadopted]
      cases created with
      | error exc => exact .of_workItems rfl
      | ok issue => exact @bindIssue_binds env (tx.answered _) wid item hi hq issue _

end Units

/-! ## What a step binds -/

/-- What `_open_issue` is called with. -/
structure Opening where
  wid : Nat
  item : WorkItem
  existing : Option (List (String × Issue))
  relisted : Option (List Issue)
  created : Except String Issue

/-- The issue it adopts. -/
def Opening.adopts (o : Opening) (db : Db) : Option Issue := adoptable db o.existing o.relisted o.item

/-- The launch of the item opens its issue. -/
def launchOpens (settings : Settings) (db : Db) (item : WorkItem) : Bool :=
  item.state = .queued && launchPreview settings (launchFigures db) item.state item.acuCap = (some .launch, none)

/-- The call of `_open_issue` in a step. -/
def opening (c : Controller) (s : Sys) : Action → Option Opening
  | .openIssue _ relisted created =>
    match s.flight, s.phase with
    | none, .opening (wid :: _) existing =>
      ((s.db.workItems.get? wid).filter fun item => item.state = .queued).map fun item =>
        ⟨wid, item, existing, relisted, created⟩
    | _, _ => none
  | .launch _ wid _ answers =>
    match s.flight, s.phase with
    | none, .idle => ((s.db.workItems.get? wid).filter (launchOpens c.settings s.db)).map fun item =>
        ⟨wid, item, none, answers.listed, answers.created⟩
    | _, _ => none
  | _ => none

/-- What a step does to the bindings. -/
inductive BindStep (db db' : Db) : Option Opening → Prop
  | keeps (h : SameIssues db db') : BindStep db db' none
  | opens {o : Opening} (h : match (o.adopts db).or o.created.toOption with
      | some issue => Binds db db' o.wid issue.number
      | none => SameIssues db db') : BindStep db db' (some o)

section Steps

variable {env : Env} {c : Controller} {s : Sys}

/-- A launch that opens no issue binds none, and one that does binds it before the reservation. -/
theorem launch_binds (tx : Tx) (wid : Nat) (operator : String) (answers : LaunchAnswers) :
    match (tx.db.workItems.get? wid).filter (launchOpens env.settings tx.db) with
    | some _ => SameIssues (openIssue env tx wid none answers.listed answers.created).1.db
        (launch env tx wid operator answers).1.db
    | none => SameIssues tx.db (launch env tx wid operator answers).1.db := by
  unfold launch
  cases hi : tx.db.workItems.get? wid with
  | none => exact .refl _
  | some item =>
    rw [Option.filter_some]
    dsimp only
    have hreserve (t : Tx) (issue : Nat) (item : WorkItem) :
        SameIssues t.db (launchReserve env t wid issue item operator answers).1.db :=
      (launchReserve_acts env t wid issue item operator answers).sameIssues not_false
    have hopens : launchOpens env.settings tx.db item = (decide (item.state = .queued) &&
        decide (launchPreview env.settings (launchFigures tx.db) item.state item.acuCap = (some .launch, none))) := rfl
    have hrefused (block : Option LaunchBlock) : SameIssues tx.db (tx.log env wid "operator_launch_refused" item.state
        (block.elim "ineligible" LaunchBlock.value ++ "; operator=" ++ operator) "operator").db := .of_workItems rfl
    rw [hopens]
    generalize hpreview : launchPreview env.settings (launchFigures tx.db) item.state item.acuCap = preview
    obtain ⟨planned, block⟩ := preview
    cases planned with
    | none =>
      have hno : (none, block) ≠ (some LaunchAction.launch, none) := fun h => by cases h
      rw [decide_eq_false hno, Bool.and_false]
      exact hrefused block
    | some action =>
      cases block with
      | some block =>
        have hno : (some action, some block) ≠ (some LaunchAction.launch, none) := fun h => by cases h
        rw [decide_eq_false hno, Bool.and_false]
        exact hrefused (some block)
      | none =>
        obtain ⟨hfor, -⟩ := launchPreview_eq_some hpreview
        by_cases hq : item.state = .queued
        · rw [hq] at hfor
          cases hfor
          rw [decide_eq_true hq, decide_eq_true rfl, Bool.and_self, if_pos rfl]
          dsimp only
          have hnew : LaunchAction.launch ≠ .relaunch := by decide
          rw [if_neg hnew, hi, Option.map_some, Option.getD_some, if_pos hq]
          split
          · exact .refl _
          · split
            · exact .refl _
            · split
              · exact hreserve _ _ _
              · exact .refl _
        · rw [decide_eq_false hq, Bool.false_and, if_neg Bool.false_ne_true]
          dsimp only
          generalize htx : (if action = .relaunch then relaunch env tx wid item operator else tx) = t
          have ht : OnRetries env wid tx t := by
            rw [← htx]
            split
            · exact relaunch_does env tx wid item operator
            · exact .refl
          have hissues : SameIssues tx.db t.db := ht.sameIssues (show Deed.bind ≠ .retry by decide)
          have hstate : ((t.db.workItems.get? wid).map WorkItem.state).getD item.state ≠ .queued := by
            intro hqueued
            cases ht' : t.db.workItems.get? wid with
            | none =>
              rw [ht'] at hqueued
              exact hq hqueued
            | some item' =>
              rw [ht', Option.map_some, Option.getD_some] at hqueued
              rcases hissues.queued wid (by rw [Db.itemState, ht', Option.map_some, hqueued]) with h | h
              · rw [Db.itemState, hi, Option.map_some, Option.some.injEq] at h
                exact hq h
              · rw [hi] at h
                cases h
          rw [if_neg hstate]
          refine hissues.trans ?_
          split
          · exact .refl _
          · split
            · exact .refl _
            · split
              · exact hreserve t _ _
              · exact .refl _

theorem Commits.sameIssues {S : Scope} {db db' : Db} (h : Commits c S db db') (hb : ¬ S.deeds .bind) :
    SameIssues db db' := by
  cases h with
  | units h => exact h.sameIssues hb
  | evaluation h rid => exact (h.sameIssues hb).trans (.of_workItems rfl)
  | ingested h => exact .of_workItems (ingestRun_ingested h).workItems

theorem stepOpen_bindStep (now : DateTime) (relisted : Option (List Issue)) (created : Except String Issue)
    (hfree : s.flight = none) : BindStep s.db (stepOpen (c.env now) relisted created s).db
      (opening c s (.openIssue now relisted created)) := by
  unfold stepOpen opening
  rw [hfree]
  dsimp only
  cases hphase : s.phase with
  | opening queued existing =>
    cases queued with
    | nil => exact .keeps (.refl _)
    | cons wid queued =>
      dsimp only
      cases hi : s.db.workItems.get? wid with
      | none =>
        have hno : s.db.itemState wid ≠ some .queued := by
          rw [Db.itemState, hi]
          exact fun h => by cases h
        rw [if_neg hno]
        exact .keeps (.refl _)
      | some item =>
        have hstate : s.db.itemState wid = some item.state := by rw [Db.itemState, hi, Option.map_some]
        rw [Option.filter_some, hstate]
        by_cases hq : item.state = .queued
        · rw [if_pos (congrArg some hq), if_pos (decide_eq_true hq)]
          exact .opens (@openIssue_binds (c.env now) { db := s.db } wid item existing relisted created hi hq)
        · rw [if_neg fun h => hq (Option.some.inj h), if_neg (by simpa using hq)]
          exact .keeps (.refl _)
  | _ => exact .keeps (.refl _)

/-- A step binds the issue it adopts or creates, and no other. -/
theorem exec_bindStep (c : Controller) (s : Sys) (a : Action) : BindStep s.db (exec c s a).db (opening c s a) := by
  have hother (hb : ¬ a.licence.deeds .bind) : SameIssues s.db (exec c s a).db :=
    (exec_commits_licensed c s a).sameIssues hb
  cases a with
  | openIssue now relisted created =>
    dsimp only [exec, stepFree]
    cases hflight : s.flight with
    | some flight =>
      simp only [Option.isSome_some, if_true, opening, hflight]
      exact .keeps (.refl _)
    | none => exact stepOpen_bindStep now relisted created hflight
  | launch now wid operator answers =>
    dsimp only [exec, stepFree, opening]
    cases hflight : s.flight with
    | some flight => exact .keeps (.refl _)
    | none =>
      cases hphase : s.phase with
      | idle =>
        have hbinds := @launch_binds (c.env now) { db := s.db } wid operator answers
        dsimp only at hbinds
        rw [show (c.env now).settings = c.settings from rfl] at hbinds
        cases hopens : (s.db.workItems.get? wid).filter (launchOpens c.settings s.db) with
        | none =>
          rw [hopens] at hbinds
          exact .keeps hbinds
        | some item =>
          rw [hopens] at hbinds
          obtain ⟨hi, hlaunch⟩ := Option.filter_eq_some_iff.mp hopens
          simp only [launchOpens, Bool.and_eq_true, decide_eq_true_eq] at hlaunch
          have hopen :=
            @openIssue_binds (c.env now) { db := s.db } wid item none answers.listed answers.created hi hlaunch.1
          refine .opens ?_
          show match (adoptable s.db none answers.listed item).or answers.created.toOption with
            | some issue => Binds s.db _ wid issue.number
            | none => SameIssues s.db _
          revert hopen
          dsimp only
          cases (adoptable s.db none answers.listed item).or answers.created.toOption with
          | some issue => exact fun hopen => hopen.trans hbinds
          | none => exact fun hopen => hopen.trans hbinds
      | _ => exact .keeps (.refl _)
  | applyRun now compare =>
    refine .keeps (hother ?_)
    show ¬ Deed.bind ∈ [Deed.settle, .reopen]
    decide
  | pollPullRequest now wid number pr checks answers =>
    refine .keeps (hother ?_)
    show ¬ Deed.bind ∈ [Deed.settle, .retry]
    decide
  | _ => exact .keeps (hother fun h => by cases h)

end Steps

/-! ## The controller and the issues of the repository -/

/-- The title `create_issue` is called with in a step. -/
def asked (c : Controller) (s : Sys) (a : Action) : Option String :=
  (opening c s a).bind fun o => if (o.adopts s.db).isNone then some (issueTitle o.item) else none

/-- The issue that GitHub has after the call. -/
def createdIssue (c : Controller) (s : Sys) (a : Action) : Option Issue :=
  (opening c s a).bind fun o =>
    if (o.adopts s.db).isNone then
      o.created.toOption.map fun i => { i with title := issueTitle o.item, state := "open" }
    else none

/-- The controller, and the issues of the repository that carry its label. -/
structure Fork where
  sys : Sys
  issues : List Issue

inductive Move where
  | act (a : Action)
  /-- The step's transaction is lost after GitHub has answered it. -/
  | crash (a : Action)
  /-- An issue is closed; one that an item is bound to may be reopened. -/
  | setState (number : Nat) (state : String)

namespace Fork

variable (f : Fork)

/-- `find_issues`: the open issues with the label. -/
def listing : List Issue := f.issues.filter fun i => i.state == "open"

/-- A created issue has a new number. -/
def fresh : Except String Issue → Bool
  | .ok issue => f.issues.all fun i => i.number != issue.number
  | .error _ => true

/-- GitHub may answer the step so: listings are complete, numbers are new. -/
def answers : Action → Bool
  | .next _ listed => listed == some f.listing
  | .openIssue _ relisted created => relisted == some f.listing && f.fresh created
  | .launch _ _ _ answers => answers.listed == some f.listing && f.fresh answers.created
  | _ => true

/-- A move; one that GitHub cannot answer so changes nothing. -/
def exec (c : Controller) (f : Fork) : Move → Fork
  | .act a =>
    if f.answers a then ⟨HardeningLoop.exec c f.sys a, f.issues ++ (createdIssue c f.sys a).toList⟩ else f
  | .crash a =>
    if f.answers a then ⟨HardeningLoop.exec c f.sys .stop, f.issues ++ (createdIssue c f.sys a).toList⟩ else f
  | .setState number state =>
    if state = "open" && (f.sys.db.workItems.first fun w => w.issueNumber == some number).isNone then f
    else { f with issues := f.issues.map fun i => if i.number = number then { i with state := state } else i }

/-- The step of a move that GitHub answers. -/
def step : Move → Option Action
  | .act a | .crash a => if f.answers a then some a else none
  | .setState .. => none

theorem step_act {a : Action} (h : f.answers a = true) : f.step (.act a) = some a := if_pos h

end Fork

/-- The open issues of a title are all bound. -/
def AllBound (f : Fork) (title : String) : Prop :=
  ∀ i ∈ f.issues, i.state = "open" → i.title = title → f.sys.db.Bound i.number

/-- **Issue binding**: after the move no issue is bound twice, and an issue is created only when all open ones of the
title are bound. -/
def BindsIssues (c : Controller) (f : Fork) (m : Move) : Prop :=
  BoundOnce (f.exec c m).sys.db ∧ ∀ a title, f.step m = some a → asked c f.sys a = some title → AllBound f title

/-- Where the listed issue of an item's title was bound since the listing, no other of the title is unbound. -/
def ListedLast (c : Controller) (f : Fork) (m : Move) : Prop :=
  ∀ a o, f.step m = some a → opening c f.sys a = some o → ∀ byTitle i, o.existing = some byTitle →
    Dict.get? byTitle (issueTitle o.item) = some i → f.sys.db.Bound i.number → AllBound f (issueTitle o.item)

/-- What is known of a listing that a tick goes by: an issue it has not is bound by now. -/
structure Listed (f : Fork) (byTitle : List (String × Issue)) : Prop where
  there : ∀ title i, Dict.get? byTitle title = some i → ∃ j ∈ f.issues, j.number = i.number
  missing : ∀ title, Dict.get? byTitle title = none → AllBound f title

/-- What holds of the issues in every state of a run. -/
structure Fork.Kept (f : Fork) : Prop where
  once : BoundOnce f.sys.db
  there : ∀ n, f.sys.db.Bound n → ∃ i ∈ f.issues, i.number = n
  queued : ∀ wid, f.sys.db.itemState wid = some .queued → f.sys.db.issueOf wid = none
  listed : ∀ queued existing, f.sys.phase = .opening queued existing → ∃ byTitle, existing = some byTitle ∧
    Listed f byTitle

section Runs

variable {c : Controller} {f : Fork} {m : Move} {a : Action}

/-- Where an opening comes from: the next queued item of a tick, or a launch. -/
theorem opening_spec {s : Sys} {o : Opening} (h : opening c s a = some o) :
    s.db.workItems.get? o.wid = some o.item ∧ o.item.state = .queued ∧
      ((∃ now queued, a = .openIssue now o.relisted o.created ∧ s.phase = .opening (o.wid :: queued) o.existing) ∨
        ∃ now operator answers, a = .launch now o.wid operator answers ∧ answers.listed = o.relisted ∧
          answers.created = o.created ∧ o.existing = none) := by
  cases a with
  | openIssue now relisted created =>
    dsimp only [opening] at h
    split at h
    · rename_i wid queued existing _ hphase
      obtain ⟨item, hitem, rfl⟩ := Option.map_eq_some_iff.mp h
      obtain ⟨hi, hq⟩ := Option.filter_eq_some_iff.mp hitem
      exact ⟨hi, of_decide_eq_true hq, Or.inl ⟨now, queued, rfl, hphase⟩⟩
    · cases h
  | launch now wid operator answers =>
    dsimp only [opening] at h
    split at h
    · obtain ⟨item, hitem, rfl⟩ := Option.map_eq_some_iff.mp h
      obtain ⟨hi, hopens⟩ := Option.filter_eq_some_iff.mp hitem
      simp only [launchOpens, Bool.and_eq_true, decide_eq_true_eq] at hopens
      exact ⟨hi, hopens.1, Or.inr ⟨now, operator, answers, rfl, rfl, rfl, rfl⟩⟩
    · cases h
  | _ => cases h

/-- What an item goes by that adopts nothing. -/
theorem adoptable_none {db : Db} {existing : Option (List (String × Issue))} {relisted : Option (List Issue)}
    {item : WorkItem} {byTitle : List (String × Issue)}
    (hlisting : (match existing with | some byTitle => some byTitle | none => openControllerIssues db relisted) = some
    byTitle) :
    adoptable db existing relisted item = none ↔
      ∀ i, Dict.get? byTitle (issueTitle item) = some i → db.Bound i.number := by
  have hadopts : adoptable db existing relisted item = (Dict.get? byTitle (issueTitle item)).filter fun i =>
      (db.workItems.first fun w => w.issueNumber == some i.number).isNone := by
    simp only [adoptable]
    rw [hlisting, Option.bind_some]
  rw [hadopts, Option.filter_eq_none_iff]
  constructor
  · intro h i hget
    by_contra hfree
    exact h i hget ((issueBound_iff db i.number).mpr hfree)
  · exact fun h i hget hfree => (issueBound_iff db i.number).mp hfree (h i hget)

/-- In every state of a run the two conditions on a step agree. -/
theorem asked_iff (hk : f.Kept) {o : Opening} (ha : f.answers a = true) (ho : opening c f.sys a = some o) :
    (∀ title, asked c f.sys a = some title → AllBound f title) ↔
      ∀ byTitle i, o.existing = some byTitle → Dict.get? byTitle (issueTitle o.item) = some i →
      f.sys.db.Bound i.number →
        AllBound f (issueTitle o.item) := by
  have hasked : asked c f.sys a = if (o.adopts f.sys.db).isNone then some (issueTitle o.item) else none := by
    rw [asked, ho]
    rfl
  obtain ⟨-, -, ⟨now, queued, rfl, hphase⟩ | ⟨now, operator, answers, rfl, hlisted, -, hexisting⟩⟩ := opening_spec ho
  · obtain ⟨byTitle, hexisting, hlisted⟩ := hk.listed _ _ hphase
    have hnone : o.adopts f.sys.db = none ↔ _ :=
      @adoptable_none f.sys.db o.existing o.relisted o.item byTitle (by rw [hexisting])
    constructor
    · intro h byTitle' i hexisting' hget hbound
      cases hexisting.symm.trans hexisting'
      refine h _ ?_
      rw [hasked, hnone.mpr]
      · rfl
      · intro i' hget'
        cases hget.symm.trans hget'
        exact hbound
    · intro h title htitle
      rw [hasked] at htitle
      split at htitle
      · rename_i hno
        cases htitle
        cases hget : Dict.get? byTitle (issueTitle o.item) with
        | none => exact hlisted.missing _ hget
        | some i => exact h byTitle i hexisting hget (hnone.mp (Option.isNone_iff_eq_none.mp hno) i hget)
      · cases htitle
  · -- a launch lists the issues itself
    simp only [Fork.answers, Bool.and_eq_true, beq_iff_eq] at ha
    have hrelisted : o.relisted = some f.listing := hlisted.symm.trans ha.1
    refine iff_of_true (fun title htitle => ?_) fun byTitle i hsome => ?_
    · rw [hasked] at htitle
      split at htitle
      · rename_i hno
        cases htitle
        obtain ⟨byTitle, hbyTitle⟩ : ∃ byTitle, openControllerIssues f.sys.db (some f.listing) = some byTitle :=
          ⟨_, rfl⟩
        have hnone := (@adoptable_none f.sys.db o.existing o.relisted o.item byTitle
          (by rw [hexisting, hrelisted]; exact hbyTitle)).mp (Option.isNone_iff_eq_none.mp hno)
        have hlist := openControllerIssues_get? hbyTitle (issueTitle o.item)
        intro i hi hopen htitle
        cases hget : Dict.get? byTitle (issueTitle o.item) with
        | none =>
          rw [hget] at hlist
          exact hlist i (List.mem_filter.mpr ⟨hi, beq_iff_eq.mpr hopen⟩) htitle
        | some j =>
          rw [hget] at hlist
          exact absurd (hnone j hget) hlist.2.2
      · cases htitle
    · rw [hexisting] at hsome
      cases hsome

/-- An adopted issue is one of the repository. -/
theorem adopted_there (hk : f.Kept) {o : Opening} (ha : f.answers a = true) (ho : opening c f.sys a = some o)
    {issue : Issue} (h : o.adopts f.sys.db = some issue) : ∃ j ∈ f.issues, j.number = issue.number := by
  obtain ⟨hbind, -⟩ := Option.filter_eq_some_iff.mp h
  obtain ⟨byTitle, hlisting, hget⟩ := Option.bind_eq_some_iff.mp hbind
  obtain ⟨-, -, ⟨now, queued, rfl, hphase⟩ | ⟨now, operator, answers, rfl, hlisted, -, hexisting⟩⟩ := opening_spec ho
  · obtain ⟨byTitle', hexisting, hlisted⟩ := hk.listed _ _ hphase
    rw [hexisting] at hlisting
    cases hlisting
    exact hlisted.there _ _ hget
  · simp only [Fork.answers, Bool.and_eq_true, beq_iff_eq] at ha
    rw [hexisting, ← hlisted, ha.1] at hlisting
    have hlist := openControllerIssues_get? hlisting (issueTitle o.item)
    rw [hget] at hlist
    exact ⟨issue, (List.mem_filter.mp hlist.1).1, rfl⟩

/-- A created issue is new. -/
theorem created_fresh (hk : f.Kept) {o : Opening} (ha : f.answers a = true) (ho : opening c f.sys a = some o)
    {issue : Issue} (h : o.created = .ok issue) : ¬ f.sys.db.Bound issue.number := by
  have hfresh : f.fresh (.ok issue) = true := by
    obtain ⟨-, -, ⟨now, queued, rfl, -⟩ | ⟨now, operator, answers, rfl, -, hcreated, -⟩⟩ := opening_spec ho
    · simp only [Fork.answers, Bool.and_eq_true] at ha
      exact h ▸ ha.2
    · simp only [Fork.answers, Bool.and_eq_true] at ha
      rw [hcreated, h] at ha
      exact ha.2
  intro hbound
  obtain ⟨i, hi, hnumber⟩ := hk.there _ hbound
  have hne := List.all_eq_true.mp hfresh i hi
  rw [hnumber, bne_self_eq_false] at hne
  cases hne

/-- **What a step of the controller binds**: one new issue at most, which the repository has and no item had; and every
issue that it creates. -/
theorem exec_binds (hk : f.Kept) (ha : f.answers a = true) :
    (SameIssues f.sys.db (exec c f.sys a).db ∧ createdIssue c f.sys a = none) ∨
      ∃ wid n, Binds f.sys.db (exec c f.sys a).db wid n ∧ f.sys.db.itemState wid = some .queued ∧ ¬ f.sys.db.Bound n ∧
        (∃ j ∈ f.issues ++ (createdIssue c f.sys a).toList, j.number = n) ∧
        ∀ j ∈ (createdIssue c f.sys a).toList, j.number = n := by
  have hstep := exec_bindStep c f.sys a
  cases hopening : opening c f.sys a with
  | none =>
    rw [hopening] at hstep
    cases hstep with
    | keeps h => exact Or.inl ⟨h, by rw [createdIssue, hopening]; rfl⟩
  | some o =>
    have hcreated : createdIssue c f.sys a = if (o.adopts f.sys.db).isNone then
        o.created.toOption.map fun i => { i with title := issueTitle o.item, state := "open" } else none := by
      rw [createdIssue, hopening]
      rfl
    rw [hopening] at hstep
    cases hstep with
    | opens h =>
      obtain ⟨hi, hq, -⟩ := opening_spec hopening
      have hstate : f.sys.db.itemState o.wid = some .queued := by rw [Db.itemState, hi, Option.map_some, hq]
      rw [hcreated]
      cases hadopts : o.adopts f.sys.db with
      | some issue =>
        rw [hadopts] at h
        obtain ⟨j, hj, hnumber⟩ := adopted_there hk ha hopening hadopts
        exact Or.inr ⟨o.wid, issue.number, h, hstate, adoptable_free hadopts, ⟨j, List.mem_append_left _ hj, hnumber⟩,
          fun j hj => by cases hj⟩
      | none =>
        rw [hadopts] at h
        cases hresult : o.created with
        | error exc =>
          rw [hresult] at h
          exact Or.inl ⟨h, rfl⟩
        | ok issue =>
          rw [hresult] at h
          refine Or.inr ⟨o.wid, issue.number, h, hstate, created_fresh hk ha hopening hresult, ?_, fun j hj => ?_⟩
          · exact ⟨_, List.mem_append_right _ (List.mem_singleton_self _), rfl⟩
          · rw [List.mem_singleton.mp hj]

/-- A step comes into the opening of issues with the listing it is given. -/
theorem exec_opening {s : Sys} {queued : List Nat} {existing : Option (List (String × Issue))}
    (h : (exec c s a).phase = .opening queued existing) : (∃ queued, s.phase = .opening queued existing) ∨
      ∃ autoDispatch listed, a = .next autoDispatch listed ∧ existing = openControllerIssues s.db listed ∧
        (exec c s a).db = s.db := by
  cases a with
  | next autoDispatch listed =>
    dsimp only [exec, stepFree] at h ⊢
    cases hflight : s.flight with
    | some flight =>
      rw [hflight] at h
      exact Or.inl ⟨queued, h⟩
    | none =>
      rw [hflight, if_neg (by decide)] at h
      rw [if_neg (by decide)]
      dsimp only at h
      cases hphase : s.phase with
      | grouping rid groups =>
        cases groups with
        | nil =>
          rw [hphase, nextPhase] at h
          split at h
          · cases h
            exact Or.inr ⟨autoDispatch, listed, rfl, rfl, rfl⟩
          · cases h
        | cons group groups =>
          rw [hphase] at h
          cases h
      | opening queued' existing' =>
        cases queued' with
        | nil =>
          rw [hphase] at h
          cases h
        | cons wid queued' =>
          rw [hphase] at h
          cases h
          exact Or.inl ⟨_, rfl⟩
      | applying pending =>
        cases pending with
        | nil =>
          rw [hphase, nextPhase, beginGrouping] at h
          split at h <;> cases h
        | cons rid pending =>
          rw [hphase] at h
          cases h
      | recovering stuck dispatching =>
        rw [hphase] at h
        cases stuck with
        | nil => cases dispatching <;> cases h
        | cons wid stuck => cases h
      | dispatching targets =>
        rw [hphase] at h
        cases targets with
        | nil => cases h
        | cons target targets => cases h
      | _ =>
        rw [hphase] at h
        cases h
  | openIssue now relisted created =>
    dsimp only [exec, stepFree, stepOpen] at h
    split at h
    · exact Or.inl ⟨queued, h⟩
    · split at h
      · rename_i hphase
        cases h
        exact Or.inl ⟨_, hphase⟩
      · exact Or.inl ⟨queued, h⟩
  | stop => cases h
  | _ =>
    -- the other steps keep the phase, or come into one of another kind
    dsimp only [exec, stepFree, stepGroup, stepRecover, stepDispatch, stepAdopt, stepCreate, stepCancel] at h
    repeat' split at h
    all_goals first
      | exact Or.inl ⟨queued, h⟩
      | cases h

theorem SameIssues.bound {db db' : Db} (h : SameIssues db db') (n : Nat) : db'.Bound n ↔ db.Bound n := by
  simp only [Db.Bound, h.issues]

/-- The binding of an item that had no issue. -/
theorem Binds.bound {db db' : Db} {wid n : Nat} (h : Binds db db' wid n) (hnone : db.issueOf wid = none) (k : Nat) :
    db'.Bound k ↔ db.Bound k ∨ k = n := by
  constructor
  · rintro ⟨w, hw⟩
    rw [h.issues] at hw
    split at hw
    · exact Or.inr (Option.some.inj hw).symm
    · exact Or.inl ⟨w, hw⟩
  · rintro (⟨w, hw⟩ | rfl)
    · refine ⟨w, ?_⟩
      rw [h.issues, if_neg]
      · exact hw
      · rintro rfl
        rw [hnone] at hw
        cases hw
    · exact ⟨wid, by rw [h.issues, if_pos rfl]⟩

theorem Binds.once {db db' : Db} {wid n : Nat} (h : Binds db db' wid n) (hfree : ¬ db.Bound n) (hex : BoundOnce db) :
    BoundOnce db' := by
  intro i j k hi hj
  rw [h.issues] at hi hj
  split at hi
  · rename_i hiw
    split at hj
    · rename_i hjw
      exact hiw.trans hjw.symm
    · cases hi
      exact absurd ⟨j, hj⟩ hfree
  · split at hj
    · cases hj
      exact absurd ⟨i, hi⟩ hfree
    · exact hex i j k hi hj

/-- What a step leaves bound, and what the repository has then. -/
structure Grows (f : Fork) (db' : Db) (issues : List Issue) : Prop where
  once : BoundOnce db'
  bound : ∀ n, f.sys.db.Bound n → db'.Bound n
  there : ∀ n, db'.Bound n → ∃ i ∈ f.issues ++ issues, i.number = n
  created : ∀ i ∈ issues, db'.Bound i.number
  queued : ∀ wid, db'.itemState wid = some .queued → db'.issueOf wid = none

theorem exec_grows (hk : f.Kept) (ha : f.answers a = true) :
    Grows f (exec c f.sys a).db (createdIssue c f.sys a).toList := by
  have habsent {wid : Nat} (h : f.sys.db.workItems.get? wid = none) : f.sys.db.issueOf wid = none := by
    rw [Db.issueOf, h]
    rfl
  rcases @exec_binds c f a hk ha with ⟨hsame, hnone⟩ | ⟨wid, n, hbinds, hq, hfree, hthere, hcreated⟩
  · rw [hnone]
    refine ⟨fun i j k hi hj => ?_, fun n h => (hsame.bound n).mpr h, fun n h => ?_, fun i hi => (by cases hi),
      fun w hw => ?_⟩
    · rw [hsame.issues] at hi hj
      exact hk.once i j k hi hj
    · obtain ⟨i, hi, hnumber⟩ := hk.there n ((hsame.bound n).mp h)
      exact ⟨i, List.mem_append_left _ hi, hnumber⟩
    · rw [hsame.issues]
      exact (hsame.queued w hw).elim (hk.queued w) habsent
  · have hbound := hbinds.bound (hk.queued wid hq)
    refine ⟨hbinds.once hfree hk.once, fun k h => (hbound k).mpr (Or.inl h), fun k h => ?_, fun i hi => ?_,
      fun w hw => ?_⟩
    · rcases (hbound k).mp h with h | rfl
      · obtain ⟨i, hi, hnumber⟩ := hk.there k h
        exact ⟨i, List.mem_append_left _ hi, hnumber⟩
      · exact hthere
    · exact (hbound _).mpr (Or.inr (hcreated i hi))
    · obtain ⟨hne, hbefore⟩ := hbinds.queued w hw
      rw [hbinds.issues, if_neg hne]
      exact hbefore.elim (hk.queued w) habsent

/-- A listing stays good while issues are only created with an item. -/
theorem Listed.grows {byTitle : List (String × Issue)} {sys : Sys} {issues : List Issue} (h : Listed f byTitle)
    (hg : Grows f sys.db issues) : Listed ⟨sys, f.issues ++ issues⟩ byTitle := by
  constructor
  · intro title i hget
    obtain ⟨j, hj, hnumber⟩ := h.there title i hget
    exact ⟨j, List.mem_append_left _ hj, hnumber⟩
  · intro title hget i hi hopen htitle
    rcases List.mem_append.mp hi with hi | hi
    · exact hg.bound _ (h.missing title hget i hi hopen htitle)
    · exact hg.created i hi

theorem kept_act (hk : f.Kept) (ha : f.answers a = true) :
    Fork.Kept ⟨exec c f.sys a, f.issues ++ (createdIssue c f.sys a).toList⟩ := by
  have hg := @exec_grows c f a hk ha
  refine ⟨hg.once, hg.there, hg.queued, fun queued existing hphase => ?_⟩
  rcases exec_opening hphase with ⟨queued', hbefore⟩ | ⟨autoDispatch, listed, rfl, hexisting, hdb⟩
  · obtain ⟨byTitle, hexisting, hlisted⟩ := hk.listed queued' existing hbefore
    exact ⟨byTitle, hexisting, hlisted.grows hg⟩
  · simp only [Fork.answers, beq_iff_eq] at ha
    obtain ⟨byTitle, hbyTitle⟩ : ∃ byTitle, openControllerIssues f.sys.db (some f.listing) = some byTitle := ⟨_, rfl⟩
    refine ⟨byTitle, by rw [hexisting, ha, hbyTitle], ?_⟩
    have hlist := openControllerIssues_get? hbyTitle
    have hlisted : Listed f byTitle := by
      constructor
      · intro title i hget
        have hi := hlist title
        rw [hget] at hi
        exact ⟨i, (List.mem_filter.mp hi.1).1, rfl⟩
      · intro title hget i hi hopen htitle
        have hall := hlist title
        rw [hget] at hall
        exact hall i (List.mem_filter.mpr ⟨hi, beq_iff_eq.mpr hopen⟩) htitle
    exact hlisted.grows hg

theorem kept_crash (hk : f.Kept) (issues : List Issue) : Fork.Kept ⟨exec c f.sys .stop, f.issues ++ issues⟩ := by
  refine ⟨hk.once, fun n hn => ?_, hk.queued, fun queued existing hphase => by cases hphase⟩
  obtain ⟨i, hi, hnumber⟩ := hk.there n hn
  exact ⟨i, List.mem_append_left _ hi, hnumber⟩

theorem kept_setState (hk : f.Kept) {number : Nat} {state : String} (h : state = "open" → f.sys.db.Bound number) :
    Fork.Kept
    { f with issues := f.issues.map fun i => if i.number = number then { i with state := state } else i } := by
  have hthere {n : Nat} (h : ∃ i ∈ f.issues, i.number = n) :
      ∃ i ∈ f.issues.map fun i : Issue => if i.number = number then { i with state := state } else i, i.number = n := by
    obtain ⟨i, hi, hnumber⟩ := h
    refine ⟨_, List.mem_map_of_mem hi, ?_⟩
    split <;> exact hnumber
  refine ⟨hk.once, fun n hn => hthere (hk.there n hn), hk.queued, fun queued existing hphase => ?_⟩
  obtain ⟨byTitle, hexisting, hlisted⟩ := hk.listed queued existing hphase
  refine ⟨byTitle, hexisting, fun title i hget => hthere (hlisted.there title i hget),
    fun title hget j hj hopen htitle => ?_⟩
  obtain ⟨i, hi, rfl⟩ := List.mem_map.mp hj
  split at hopen
  · rename_i hnumber
    rw [if_pos hnumber]
    rw [hnumber]
    exact h hopen
  · rename_i hnumber
    rw [if_neg hnumber] at htitle ⊢
    exact hlisted.missing title hget i hi hopen htitle

theorem exec_kept (hk : f.Kept) : (f.exec c m).Kept := by
  cases m with
  | act a =>
    dsimp only [Fork.exec]
    split
    · rename_i ha
      exact kept_act hk ha
    · exact hk
  | crash a =>
    dsimp only [Fork.exec]
    split
    · exact kept_crash hk _
    · exact hk
  | setState number state =>
    dsimp only [Fork.exec]
    split
    · exact hk
    · rename_i hno
      refine kept_setState hk fun hopen => ?_
      by_contra hfree
      refine hno ?_
      rw [hopen, decide_eq_true rfl, Bool.true_and]
      exact (issueBound_iff ..).mpr hfree

theorem bindsIssues_iff (hk : f.Kept) : BindsIssues c f m ↔ ListedLast c f m := by
  have hanswers {a : Action} (h : f.step m = some a) : f.answers a = true := by
    cases m with
    | setState number state => cases h
    | act a' | crash a' =>
      dsimp only [Fork.step] at h
      split at h
      · rename_i ha
        cases h
        exact ha
      · cases h
  unfold BindsIssues ListedLast
  rw [and_iff_right (exec_kept hk).once]
  constructor
  · intro h a o hstep ho
    exact (asked_iff hk (hanswers hstep) ho).mp fun title => h a title hstep
  · intro h a title hstep hasked
    obtain ⟨o, ho, -⟩ := Option.bind_eq_some_iff.mp hasked
    exact (asked_iff hk (hanswers hstep) ho).mpr (h a o hstep ho) title hasked

/-- The controller before its first run, in a repository with these issues. -/
def Fork.initial (issues : List Issue) : Fork := ⟨.initial, issues⟩

theorem kept_initial (issues : List Issue) : (Fork.initial issues).Kept := by
  have hnone (wid : Nat) : (Fork.initial issues).sys.db.issueOf wid = none := by
    rw [Db.issueOf, show (Fork.initial issues).sys.db.workItems.get? wid = none from Table.get?_empty wid]
    rfl
  refine ⟨fun i _ n h => ?_, ?_, fun wid _ => hnone wid, fun _ _ h => by cases h⟩
  · rw [hnone i] at h
    cases h
  · rintro n ⟨wid, h⟩
    rw [hnone wid] at h
    cases h

/-- **Issues are bound once and created only beside bound ones, through a whole run, exactly when no item of a tick goes
by a listed issue that was bound since while another open issue of its title is unbound.** -/
theorem binding_run_iff (c : Controller) (issues : List Issue) (tr : List Move) :
    Machine.AllSteps (Fork.exec c) (BindsIssues c) (.initial issues) tr ↔
      Machine.AllSteps (Fork.exec c) (ListedLast c) (.initial issues) tr :=
  Machine.AllSteps.congr_invariant Fork.Kept (fun _ _ hk _ => exec_kept hk) (fun _ _ hk => bindsIssues_iff hk)
    (kept_initial issues)

end Runs

/-- A package without a fix that both scanners report, in two ecosystems. -/
def sampleUnfixed (ecosystem : Ecosystem) (layer : Layer) (h : layer = layerFor ecosystem) : List RawVuln :=
  (samplePair "CVE-1" "zlib" "1").map fun v =>
    { v with fixedVersions := [], fixState := "affected", ecosystem := ecosystem, layer := layer, layer_eq := h }

/-- Two open issues of one title, which an earlier database left behind. -/
def leftIssues : List Issue :=
  [5, 6].map fun n => { number := n, url := "https://github.com/Hunter-1298/superset/issues/" ++ toString n
                        title := "[hardening-loop] Reachability analysis / OpenVEX for zlib: CVE-1" }

/-- Two items of that title are opened in one tick, up to the second. -/
def leftTrace : List Move :=
  [sampleIngest "1" 10 (sampleUnfixed .deb .os rfl ++ sampleUnfixed .npm .binary rfl), .beginTick,
   .next true (some leftIssues),
    .applyRun 11 linearCompare, .next true (some leftIssues), .group 11, .group 11, .next true (some leftIssues),
    .openIssue 11 (some leftIssues) (.ok sampleIssue)].map .act

/-- The second item creates issue 7, and issue 6 has its title. -/
theorem issue_duplicated :
    let f := Machine.run (Fork.exec sampleController) (Fork.initial leftIssues) leftTrace
    let m := Move.act (.openIssue 11 (some leftIssues) (.ok sampleIssue))
    ¬ BindsIssues sampleController f m ∧ (f.exec sampleController m).sys.db.issueOf 1 = some 5 ∧
      (f.exec sampleController m).sys.db.issueOf 2 = some 7 := by
  intro f m
  refine ⟨fun hbinds => ?_, by decide +kernel, by decide +kernel⟩
  have hasked : asked sampleController f.sys (.openIssue 11 (some leftIssues) (.ok sampleIssue)) =
      some "[hardening-loop] Reachability analysis / OpenVEX for zlib: CVE-1" := by decide +kernel
  have hanswers : f.step m = some (.openIssue 11 (some leftIssues) (.ok sampleIssue)) := f.step_act (by decide +kernel)
  have hleft : (f.issues.any fun i => i.number == 6 && i.state == "open" &&
      i.title == "[hardening-loop] Reachability analysis / OpenVEX for zlib: CVE-1") = true := by decide +kernel
  have hfree : (f.sys.db.workItems.first fun w => w.issueNumber == some 6).isNone = true := by decide +kernel
  obtain ⟨i, hi, hsame⟩ := List.any_eq_true.mp hleft
  simp only [Bool.and_eq_true, beq_iff_eq] at hsame
  have hbound := hbinds.2 _ _ hanswers hasked i hi hsame.1.2 hsame.2
  rw [hsame.1.1] at hbound
  exact (issueBound_iff ..).mp hfree hbound

end HardeningLoop
