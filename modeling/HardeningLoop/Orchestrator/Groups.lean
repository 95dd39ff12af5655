import Mathlib.Data.List.Perm.Subperm
import HardeningLoop.Orchestrator.Intake
import HardeningLoop.Orchestrator.Transactions

/-!
# The items of a group

A group of findings is worked on by the item of its key, and when that is closed by a regression item, whose key has a
suffix. The lookup of `create_work_items` asks for the exact key of the group.

- `regressionKey_spec`: the search for a free suffix ends, with the first that is free;
- `groupFindings_workItems`: what a group does to the work items;
- `oneLive_run_iff`: a group has one live item in every state of a run exactly when no group that finds no item of its
  key, or a closed one, has a live sibling.
-/

namespace HardeningLoop

open Rows (Table)

/-! ## Keys -/

/-- A key without its regression suffix. -/
def baseKey (key : String) : String :=
  match key.toList.reverse.dropWhile Char.isDigit with
  | 'r' :: '#' :: base => if key.toList.getLast?.any Char.isDigit then String.ofList base.reverse else key
  | _ => key

section Keys

variable {key : String}

/-- The key of the `n`-th regression item. -/
def suffixed (key : String) (n : Nat) : String := key ++ "#r" ++ toString n

theorem toList_suffixed (key : String) (n : Nat) :
    (suffixed key n).toList = key.toList ++ ['#', 'r'] ++ Nat.toDigits 10 n := by
  show (key ++ "#r" ++ Nat.repr n).toList = _
  rw [String.toList_append, String.toList_append, Nat.toList_repr]
  rfl

theorem baseKey_suffixed (key : String) (n : Nat) : baseKey (suffixed key n) = key := by
  have hdigit : ∀ c ∈ Nat.toDigits 10 n, c.isDigit = true := fun c hc =>
    Nat.isDigit_of_mem_toDigits (by decide) (by decide) hc
  have hrest : (suffixed key n).toList.reverse.dropWhile Char.isDigit = 'r' :: '#' :: key.toList.reverse := by
    rw [toList_suffixed, List.reverse_append, List.dropWhile_append_of_pos]
    · simp
    · exact fun c hc => hdigit c (List.mem_reverse.mp hc)
  have hlast : (suffixed key n).toList.getLast?.any Char.isDigit = true := by
    rw [toList_suffixed, List.getLast?_append_of_ne_nil _ Nat.toDigits_ne_nil]
    obtain ⟨c, hc⟩ := Option.isSome_iff_exists.mp (List.getLast?_isSome.mpr (Nat.toDigits_ne_nil (n := n) (b := 10)))
    rw [hc]
    exact hdigit c (List.mem_of_getLast? hc)
  unfold baseKey
  simp only [hrest]
  rw [if_pos hlast, List.reverse_reverse, String.ofList_toList]

theorem suffixed_injective (key : String) : Function.Injective (suffixed key) := by
  intro m n h
  have hdigits : Nat.toDigits 10 m = Nat.toDigits 10 n := by
    refine List.append_cancel_left ((toList_suffixed key m).symm.trans ?_)
    rw [h, toList_suffixed]
  calc m = Nat.ofDigitChars 10 (Nat.toDigits 10 m) 0 := Nat.ofDigitChars_ten_toDigits.symm
    _ = Nat.ofDigitChars 10 (Nat.toDigits 10 n) 0 := by rw [hdigits]
    _ = n := Nat.ofDigitChars_ten_toDigits

/-- **The search for a free suffix ends**: there are more candidates than items. -/
theorem regressionKey_spec (db : Db) (key : String) : ∃ n, regressionKey db key = suffixed key n ∧
    ∀ i w, db.workItems.get? i = some w → w.groupKey ≠ regressionKey db key := by
  set candidates := (List.range' 1 (db.workItems.size + 1)).map (suffixed key) with hcandidates
  have hkey : regressionKey db key =
      (candidates.find? fun k => (db.workItems.first fun w => w.groupKey == k).isNone).getD key := rfl
  cases hfind : candidates.find? fun k => (db.workItems.first fun w => w.groupKey == k).isNone with
  | some k =>
    rw [hkey, hfind, Option.getD_some]
    obtain ⟨n, -, hn⟩ := List.mem_map.mp (List.mem_of_find?_eq_some hfind)
    refine ⟨n, hn.symm, fun i w hw hk => ?_⟩
    have hfree := List.find?_some hfind
    rw [Option.isNone_iff_eq_none] at hfree
    have hno := Table.first_eq_none hfree hw
    simp [hk] at hno
  | none =>
    have hnd : candidates.Nodup := (List.nodup_range' ..).map (suffixed_injective key)
    have hsub : candidates ⊆ db.workItems.rows.map WorkItem.groupKey := by
      intro k hk
      have htaken := List.find?_eq_none.mp hfind k hk
      cases hfirst : db.workItems.first fun w => w.groupKey == k with
      | none => simp [hfirst] at htaken
      | some i =>
        obtain ⟨w, hw, hwk⟩ := Table.first_eq_some hfirst
        exact List.mem_map.mpr ⟨w, Table.mem_rows hw, eq_of_beq hwk⟩
    have hle := (List.subperm_of_subset hnd hsub).length_le
    rw [hcandidates, List.length_map, List.length_map, List.length_range'] at hle
    exact absurd hle (Nat.not_succ_le_self _)

end Keys

/-! ## What a group does to the work items -/

/-- The item of exactly this kind and key. -/
def Db.groupItem (db : Db) (kind : Kind) (key : String) : Option Nat :=
  db.workItems.first fun w => w.kind == kind && w.groupKey == key && w.sourceBranch == remediationBranch

/-- The key of the new item a group gets: it finds no item, or a closed one. -/
def Db.newKey (db : Db) (kind : Kind) (key : String) : Option String :=
  match db.groupItem kind key with
  | none => some key
  | some wid =>
    if (db.workItems.get? wid).any fun w => w.state ∈ terminalWorkItemStates then some (regressionKey db key) else none

section Grouping

variable {env : Env} {tx : Tx}

theorem workItemForGroup_eq (kind : Kind) (key : String) (members : List Finding) :
    workItemForGroup env tx kind key members =
      match tx.db.newKey kind key with
      | some key' => createItem env tx kind key' members (tx.db.groupItem kind key)
      | none => (tx, (tx.db.groupItem kind key).getD 0, false) := by
  unfold workItemForGroup Db.newKey Db.groupItem
  dsimp only
  cases tx.db.workItems.first _ with
  | none => rfl
  | some wid =>
    dsimp only
    split <;> rfl

theorem joinItem_workItems (wid : Nat) (groupKey : String) (t : Tx) (fid : Nat) :
    (joinItem env wid groupKey t fid).db.workItems = t.db.workItems := by
  unfold joinItem Tx.finding
  split
  · rfl
  · rw [Tx.findingFrom_db]
    rfl

/-- A group whose members are still there gets the item it finds, or a new one. -/
theorem groupFindings_workItems (rid : Nat) (kind : Kind) (key : String) (ids : List Nat) :
    (groupFindings env rid kind key ids tx).db.workItems =
      if groupMembers tx.db rid ids = [] then tx.db.workItems
      else match tx.db.newKey kind key with
        | some key' => tx.db.workItems.insert (newWorkItem env kind key' ((groupMembers tx.db rid ids).map Prod.snd)
            (tx.db.groupItem kind key))
        | none => tx.db.workItems := by
  unfold groupFindings
  dsimp only
  split
  · rfl
  · rw [Rows.foldl_frame (fun t : Tx => t.db.workItems) fun t fid _ => joinItem_workItems _ _ t fid]
    have hjoined (t : Tx) (wid : Nat) (joining : List Finding) :
        (membersJoined env t wid joining).db.workItems = t.db.workItems :=
      (membersJoined_does env t wid joining).workItems id fun _ h => h
    rw [workItemForGroup_eq]
    cases tx.db.newKey kind key with
    | none =>
      dsimp only
      split
      · exact hjoined ..
      · rfl
    | some key' => rfl

end Grouping

/-! ## Live items -/

/-- The item is neither verified nor abandoned. -/
def WorkItem.live (w : WorkItem) : Prop := w.state ∉ terminalWorkItemStates

/-- No live item has this kind and base key. -/
def NoLive (items : Table WorkItem) (kind : Kind) (base : String) : Prop :=
  ∀ i w, items.get? i = some w → w.live → w.kind = kind → baseKey w.groupKey ≠ base

/-- Of each kind and base key at most one item is live. -/
def OneLive (items : Table WorkItem) : Prop :=
  ∀ i j w w', items.get? i = some w → items.get? j = some w' → w.live → w'.live → w.kind = w'.kind →
    baseKey w.groupKey = baseKey w'.groupKey → i = j

section Live

variable {items : Table WorkItem}

theorem oneLive_insert {item : WorkItem} (hlive : item.live) :
    OneLive (items.insert item) ↔ OneLive items ∧ NoLive items item.kind (baseKey item.groupKey) := by
  constructor
  · intro h
    refine ⟨fun i j w w' hw hw' => ?_, fun i w hw hl hk hb => ?_⟩
    · exact h i j w w' (Table.get?_insert_of_some _ hw) (Table.get?_insert_of_some _ hw')
    · have hi := h i items.nextId w item (Table.get?_insert_of_some _ hw) (Table.get?_insert_self ..) hl hlive hk hb
      rw [hi, Table.get?_nextId] at hw
      cases hw
  · rintro ⟨hone, hno⟩ i j w w' hw hw' hl hl' hk hb
    rw [Table.get?_insert] at hw hw'
    split at hw <;> split at hw'
    · rename_i hi hj
      rw [hi, hj]
    · cases hw
      exact absurd hb.symm (hno j w' hw' hl' hk.symm)
    · cases hw'
      exact absurd hb (hno i w hw hl hk)
    · exact hone i j w w' hw hw' hl hl' hk hb

theorem oneLive_empty : OneLive .empty := by
  intro i _ w _ hw
  rw [Table.get?_empty] at hw
  cases hw

theorem newWorkItem_live (env : Env) (kind : Kind) (key : String) (members : List Finding) (regressionOf : Option Nat) :
    (newWorkItem env kind key members regressionOf).live := by
  show WorkItemState.queued ∉ terminalWorkItemStates
  decide

/-- A terminal state has no way out. -/
theorem next_of_terminal {s s' : WorkItemState} {e : WorkItemEvent} (h : nextWorkItemState s e = some s') :
    s ∉ terminalWorkItemStates := by
  have hall : ∀ row ∈ workItemTransitions, row.1.1 ∉ terminalWorkItemStates := by decide
  exact hall _ (mem_of_lookup h)

/-- An item that is live after a unit without insertions was live before, with the same kind and key. -/
theorem Acts.live_back {env : Env} {S : Scope} {tx t : Tx} (h : Acts env S tx t) (hins : ¬ S.inserts) {i : Nat}
    {w' : WorkItem} (hw' : t.db.workItems.get? i = some w') (hl : w'.live) :
    ∃ w, tx.db.workItems.get? i = some w ∧ w.live ∧ w'.core = w.core := by
  obtain ⟨w, hw⟩ := h.item_back hins hw'
  obtain ⟨w'', hw'', hcore⟩ := h.itemCore hw
  cases hw'.symm.trans hw''
  have hs' : t.db.itemState i = some w'.state := by rw [Db.itemState, hw', Option.map_some]
  obtain ⟨s, hs, hlive⟩ := h.state_back (· ∉ terminalWorkItemStates) (fun hi => absurd hi hins)
    (fun _ _ _ _ hn _ => next_of_terminal hn) hs' hl
  rw [Db.itemState, hw, Option.map_some, Option.some.injEq] at hs
  rw [← hs] at hlive
  exact ⟨w, hw, hlive, hcore⟩

theorem Acts.oneLive {env : Env} {S : Scope} {tx t : Tx} (h : Acts env S tx t) (hins : ¬ S.inserts)
    (hone : OneLive tx.db.workItems) : OneLive t.db.workItems := by
  intro i j w w' hw hw' hl hl' hk hb
  obtain ⟨w₀, hw₀, hl₀, hc⟩ := h.live_back hins hw hl
  obtain ⟨w₀', hw₀', hl₀', hc'⟩ := h.live_back hins hw' hl'
  simp only [WorkItem.core, Prod.mk.injEq] at hc hc'
  refine hone i j w₀ w₀' hw₀ hw₀' hl₀ hl₀' ?_ ?_
  · rw [← hc.1, ← hc'.1, hk]
  · rw [← hc.2.1, ← hc'.2.1, hb]

end Live

/-! ## Runs -/

/-- A group of the step that finds no item of its key, or a closed one, has no live sibling. -/
def FindsLive (s : Sys) (a : Action) : Prop :=
  ∀ now rid kind key ids groups, a = .group now → s.flight = none →
    s.phase = .grouping rid (((kind, key), ids) :: groups) → groupMembers s.db rid ids ≠ [] →
      match s.db.groupItem kind key with
      | none => NoLive s.db.workItems kind (baseKey key)
      | some wid => ∀ w ∈ s.db.workItems.get? wid, w.state ∈ terminalWorkItemStates → NoLive s.db.workItems kind key

section Runs

variable {c : Controller} {s : Sys}

/-- A new item is for the base key of the group, or for the group of the closed item. -/
theorem newKey_noLive {db : Db} {kind : Kind} {key key' : String} (h : db.newKey kind key = some key') :
    NoLive db.workItems kind (baseKey key') ↔
      match db.groupItem kind key with
      | none => NoLive db.workItems kind (baseKey key)
      | some wid => ∀ w ∈ db.workItems.get? wid, w.state ∈ terminalWorkItemStates → NoLive db.workItems kind key := by
  unfold Db.newKey at h
  cases hitem : db.groupItem kind key with
  | none =>
    rw [hitem] at h
    cases h
    rfl
  | some wid =>
    rw [hitem] at h
    dsimp only at h ⊢
    split at h
    · rename_i hclosed
      cases h
      obtain ⟨n, hn, -⟩ := regressionKey_spec db key
      rw [hn, baseKey_suffixed]
      obtain ⟨w, hw, hstate⟩ := (Option.any_eq_true ..).mp hclosed
      rw [hw]
      simp only [Option.mem_some, forall_eq']
      exact ⟨fun hno _ => hno, fun hno => hno (of_decide_eq_true hstate)⟩
    · cases h

/-- The step of a group. -/
theorem groupFindings_oneLive {env : Env} {rid : Nat} {kind : Kind} {key : String} {ids : List Nat} {db : Db}
    (hone : OneLive db.workItems) : OneLive (groupFindings env rid kind key ids { db := db }).db.workItems ↔
      (groupMembers db rid ids ≠ [] →
        match db.groupItem kind key with
        | none => NoLive db.workItems kind (baseKey key)
        | some wid =>
          ∀ w ∈ db.workItems.get? wid, w.state ∈ terminalWorkItemStates → NoLive db.workItems kind key) := by
  rw [groupFindings_workItems]
  by_cases hmembers : groupMembers db rid ids = []
  · rw [if_pos hmembers]
    exact iff_of_true hone fun h => absurd hmembers h
  · rw [if_neg hmembers]
    cases hkey : db.newKey kind key with
    | some key' =>
      dsimp only
      rw [oneLive_insert (newWorkItem_live _ _ _ _ _), and_iff_right hone]
      exact (newKey_noLive hkey).trans ⟨fun h _ => h, fun h => h hmembers⟩
    | none =>
      refine iff_of_true hone fun _ => ?_
      unfold Db.newKey at hkey
      cases hitem : db.groupItem kind key with
      | none =>
        rw [hitem] at hkey
        cases hkey
      | some wid =>
        rw [hitem] at hkey
        dsimp only at hkey ⊢
        split at hkey
        · cases hkey
        · rename_i hlive
          intro w hw hstate
          refine absurd ?_ hlive
          rw [show db.workItems.get? wid = some w from hw, Option.any_some]
          exact decide_eq_true hstate

/-- A step of `create_work_items`: the next group of the listing, if there is one. -/
theorem exec_group (c : Controller) (s : Sys) (now : DateTime) :
    (∃ rid kind key ids groups, s.flight = none ∧ s.phase = .grouping rid (((kind, key), ids) :: groups) ∧
      (exec c s (.group now)).db = (groupFindings (c.env now) rid kind key ids { db := s.db }).db) ∨
    (exec c s (.group now)).db = s.db ∧
      ∀ rid kind key ids groups, s.flight = none → s.phase ≠ .grouping rid (((kind, key), ids) :: groups) := by
  cases hflight : s.flight with
  | some flight =>
    refine Or.inr ⟨?_, fun _ _ _ _ _ hnone => by cases hnone⟩
    dsimp only [exec]
    rw [hflight]
    rfl
  | none =>
    have hstep : exec c s (.group now) = stepGroup (c.env now) s := by
      dsimp only [exec]
      rw [hflight]
      rfl
    rw [hstep]
    unfold stepGroup
    split
    · rename_i rid kind key ids groups hphase
      exact Or.inl ⟨rid, kind, key, ids, groups, rfl, hphase, rfl⟩
    · rename_i hno
      exact Or.inr ⟨rfl, fun rid kind key ids groups _ => hno rid kind key ids groups⟩

theorem Commits.oneLive {S : Scope} {db db' : Db} (h : Commits c S db db') (hins : ¬ S.inserts)
    (hone : OneLive db.workItems) : OneLive db'.workItems := by
  cases h with
  | units h => exact h.oneLive hins hone
  | evaluation h rid => exact h.oneLive hins hone
  | ingested h => exact (ingestRun_ingested h).workItems ▸ hone

/-- The step keeps the groups to one live item exactly when its group finds it. -/
theorem exec_oneLive_iff {a : Action} (hone : OneLive s.db.workItems) :
    OneLive (exec c s a).db.workItems ↔ FindsLive s a := by
  have hother (hno : ∀ now, a ≠ .group now) (hins : ¬ a.licence.inserts) :
      OneLive (exec c s a).db.workItems ↔ FindsLive s a := by
    refine iff_of_true ((exec_commits_licensed c s a).oneLive hins hone) ?_
    intro now rid kind key ids groups ha
    exact absurd ha (hno now)
  cases a with
  | group now =>
    rcases exec_group c s now with ⟨rid, kind, key, ids, groups, hflight, hphase, hdb⟩ | ⟨hdb, hno⟩
    · rw [hdb]
      refine (groupFindings_oneLive hone).trans ⟨fun h => ?_, fun h => h now rid kind key ids groups rfl hflight hphase⟩
      intro now' rid' kind' key' ids' groups' _ _ hphase'
      cases hphase.symm.trans hphase'
      exact h
    · rw [hdb]
      refine iff_of_true hone ?_
      intro now' rid kind key ids groups _ hflight hphase
      exact absurd hphase (hno rid kind key ids groups hflight)
  | _ => exact hother nofun id

/-- **Of each kind and base key at most one item is live after every step of a run exactly when no group of the run that
finds no item of its key, or a closed one, has a live sibling.** -/
theorem oneLive_run_iff (c : Controller) (tr : List Action) :
    Machine.AllSteps (exec c) (fun s a => OneLive (exec c s a).db.workItems) .initial tr ↔
      Machine.AllSteps (exec c) FindsLive .initial tr :=
  Machine.AllSteps.congr_invariant (fun s => OneLive s.db.workItems) (fun _ _ h ha => (exec_oneLive_iff h).mpr ha)
    (fun _ _ h => exec_oneLive_iff h) oneLive_empty

end Runs

/-- A tick that applies a run and makes the first group. -/
def sampleGroup (now : DateTime) : List Action :=
  [.beginTick, .next true none, .applyRun now linearCompare, .next true none, .group now, .stop]

/-- A tick that applies a run, groups its findings and opens the issue of the first work item. -/
def sampleFile (now : DateTime) : List Action :=
  [.beginTick, .next true none, .applyRun now linearCompare, .next true none, .group now, .next true none,
    .openIssue now (some []) (.ok sampleIssue), .stop]

/-- A tick in which a human has closed the issue of the first item. -/
def sampleAbandon (now : DateTime) : List Action := [.beginTick, .pollHumanLabel now 1 7 "closed" [], .stop]

/-- A human closes the issue of the first item; each of two later scans finds one more vulnerability of the package. -/
def siblingTrace : List Action :=
  let first := samplePair "CVE-1" "openssl" "1"
  let second := samplePair "CVE-2" "openssl" "1"
  [sampleIngest "1" 10 first] ++ sampleFile 11 ++ sampleAbandon 12 ++
    [sampleIngest "2" 20 (first ++ second)] ++ sampleGroup 21 ++
    [sampleIngest "3" 30 (first ++ second ++ samplePair "CVE-3" "openssl" "1")] ++ sampleGroup 31

/-- The closed item is found for both, and the second gets a regression item beside the live one of the first. -/
theorem siblings_live :
    let s := sampleState siblingTrace
    Reachable sampleController s ∧ ¬ OneLive s.db.workItems ∧ ∃ w w', s.db.workItems.get? 2 = some w ∧
      s.db.workItems.get? 3 = some w' ∧ w.groupKey = "container:os-packages#r1" ∧
      w'.groupKey = "container:os-packages#r2" ∧ w.state = .queued ∧ w'.state = .queued := by
  intro s
  have hsecond : (s.db.workItems.get? 2).any (fun w => w.kind == .containerHardening &&
      w.groupKey == "container:os-packages#r1" && w.state == .queued) = true := by decide +kernel
  have hthird : (s.db.workItems.get? 3).any (fun w => w.kind == .containerHardening &&
      w.groupKey == "container:os-packages#r2" && w.state == .queued) = true := by decide +kernel
  obtain ⟨w, hw, hall⟩ := (Option.any_eq_true ..).mp hsecond
  obtain ⟨w', hw', hall'⟩ := (Option.any_eq_true ..).mp hthird
  simp only [Bool.and_eq_true, beq_iff_eq] at hall hall'
  have hkey : baseKey "container:os-packages#r1" = baseKey "container:os-packages#r2" := by decide +kernel
  refine ⟨sampleState_reachable _, fun hone => ?_, w, w', hw, hw', hall.1.2, hall'.1.2, hall.2, hall'.2⟩
  have hsame := hone 2 3 w w' hw hw' (by rw [WorkItem.live, hall.2]; decide) (by rw [WorkItem.live, hall'.2]; decide)
    (by rw [hall.1.1, hall'.1.1]) (by rw [hall.1.2, hall'.1.2, hkey])
  cases hsame

end HardeningLoop
