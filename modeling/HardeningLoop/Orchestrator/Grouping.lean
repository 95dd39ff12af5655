import HardeningLoop.Orchestrator.Audit
import HardeningLoop.Orchestrator.Priority

/-!
# What grouping leaves out

`create_work_items` puts the open and regressed findings that the latest scan shows into buckets, one for each group,
and gives each bucket to an item: to the live one of the group, or to a new one. Only a finding that joins the item
changes its state.

- `run_groups`: the loop is what the steps of a controller come to;
- `mem_groupBuckets`: each finding is in the bucket of its group, and in no other;
- `createWorkItems_finding`: what the whole loop does to one finding;
- `create_groups_iff`: every finding ends up grouped exactly when none is in the live item of its group already.
-/

namespace HardeningLoop

open Rows (Table)

/-! ## The loop -/

/-- A group, as the transaction that is committed for it. -/
def commitGroup (env : Env) (rid : Nat) (db : Db) (group : (Kind × String) × List Nat) : Db :=
  (groupFindings env rid group.1.1 group.1.2 group.2 { db := db }).db

/-- `create_work_items`, when no call raises. -/
def createWorkItems (env : Env) (db : Db) : Db :=
  match latestMainRun db with
  | none => db
  | some rid => (groupBuckets db rid).foldl (commitGroup env rid) db

/-- The steps of a controller that makes the groups one by one come to the same. -/
theorem run_groups (c : Controller) (now : DateTime) (rid : Nat) :
    ∀ (groups : List ((Kind × String) × List Nat)) (s : Sys),
    s.flight = none → s.phase = .grouping rid groups →
      (Machine.run (exec c) s (List.replicate groups.length (.group now))).db =
        groups.foldl (commitGroup (c.env now) rid) s.db
  | [], s, _, _ => rfl
  | ((kind, key), ids) :: groups, s, hflight, hphase => by
    have hstep : exec c s (.group now) =
        { s.commit (groupFindings (c.env now) rid kind key ids) with phase := .grouping rid groups } := by
      show (if s.flight.isSome then s else stepGroup (c.env now) s) = _
      rw [hflight, if_neg (by decide)]
      unfold stepGroup
      rw [hphase]
    show (Machine.run (exec c) (exec c s (.group now)) (List.replicate groups.length (.group now))).db = _
    rw [hstep]
    exact run_groups c now rid groups _ hflight rfl

/-! ## Buckets -/

section Buckets

variable {db : Db} {rid : Nat}

/-- The finding is one that `create_work_items` reads for a group. -/
structure Eligible (db : Db) (rid fid : Nat) (f : Finding) (kind : Kind) (key : String) : Prop where
  row : db.findings.get? fid = some f
  shown : f.lastSeenRunId = rid
  state : f.state ∈ groupableStates
  group : groupOf f = some (kind, key)

/-- The findings that are read, each with its group. -/
def groupedIds (db : Db) (rid : Nat) : List ((Kind × String) × Nat) :=
  (db.findings.select fun f => f.lastSeenRunId == rid && f.kind.isSome && f.state ∈ groupableStates).filterMap
    fun fid =>
    ((db.findings.get? fid).bind groupOf).map fun group => (group, fid)

theorem mem_groupedIds {fid : Nat} {kind : Kind} {key : String} :
    ((kind, key), fid) ∈ groupedIds db rid ↔ ∃ f, Eligible db rid fid f kind key := by
  unfold groupedIds
  rw [List.mem_filterMap]
  constructor
  · rintro ⟨i, hi, hgroup⟩
    obtain ⟨group, hbind, heq⟩ := Option.map_eq_some_iff.mp hgroup
    cases heq
    obtain ⟨f, hf, hgroup⟩ := Option.bind_eq_some_iff.mp hbind
    obtain ⟨f', hf', hsel⟩ := Table.mem_select.mp hi
    rw [hf] at hf'
    cases hf'
    simp only [Bool.and_eq_true, beq_iff_eq, decide_eq_true_eq] at hsel
    exact ⟨f, hf, hsel.1.1, hsel.2, hgroup⟩
  · rintro ⟨f, h⟩
    have hkind : f.kind.isSome = true := by
      have hgroup := h.group
      unfold groupOf at hgroup
      obtain ⟨k, hk, -⟩ := Option.map_eq_some_iff.mp hgroup
      rw [hk]
      rfl
    refine ⟨fid, Table.mem_select.mpr ⟨f, h.row, ?_⟩, ?_⟩
    · simp only [Bool.and_eq_true, beq_iff_eq, decide_eq_true_eq]
      exact ⟨⟨h.shown, hkind⟩, h.state⟩
    · rw [h.row, Option.bind_some, h.group]
      rfl

/-- The buckets, before they are sorted, are the dictionary that the findings fill. -/
theorem groupBuckets_perm : (groupBuckets db rid).Perm
    (Dict.fill Prod.fst (fun o p => o.getD [] ++ [p.2]) [] (groupedIds db rid)) := by
  refine (List.perm_insertionSort _ _).trans (List.Perm.of_eq ?_)
  unfold Dict.fill groupedIds
  rw [List.foldl_filterMap]
  congr 1
  funext buckets fid
  cases (db.findings.get? fid).bind groupOf with
  | none => rfl
  | some group => rfl

theorem nodup_groupBuckets : ((groupBuckets db rid).map Prod.fst).Nodup :=
  (groupBuckets_perm.map Prod.fst).nodup_iff.mpr (Dict.nodup_keys_fill _ _ (d := []) List.nodup_nil _)

/-- **The bucket of a group** holds the findings of the group. -/
theorem mem_groupBuckets {kind : Kind} {key : String} {ids : List Nat} (h : ((kind, key), ids) ∈ groupBuckets db rid)
    {fid : Nat} : fid ∈ ids ↔ ∃ f, Eligible db rid fid f kind key := by
  have hmem := groupBuckets_perm.mem_iff.mp h
  have hget := Dict.get?_of_mem (Dict.nodup_keys_fill _ _ (d := []) List.nodup_nil _) hmem
  have hfold (l : List ((Kind × String) × Nat)) (o : Option (List Nat)) (ids : List Nat)
      (h : l.foldl (fun o p => some (o.getD [] ++ [p.2])) o = some ids) : ids = o.getD [] ++ l.map Prod.snd := by
    induction l generalizing o with
    | nil =>
      rw [show o = some ids from h]
      exact (List.append_nil _).symm
    | cons p l ih =>
      rw [ih _ h, Option.getD_some, List.map_cons, List.append_assoc, List.singleton_append]
  rw [Dict.get?_fill] at hget
  rw [hfold _ _ _ hget, ← mem_groupedIds]
  simp only [Dict.get?, Option.getD_none, List.nil_append, List.mem_map, List.mem_filter, decide_eq_true_eq]
  constructor
  · rintro ⟨⟨group, i⟩, ⟨hp, rfl⟩, rfl⟩
    exact hp
  · exact fun hp => ⟨_, ⟨hp, rfl⟩, rfl⟩

/-- A finding that is read has a bucket. -/
theorem exists_bucket {fid : Nat} {f : Finding} {kind : Kind} {key : String} (h : Eligible db rid fid f kind key) :
    ∃ ids, ((kind, key), ids) ∈ groupBuckets db rid ∧ fid ∈ ids := by
  have hpair := mem_groupedIds.mpr ⟨f, h⟩
  have hkey :
      (kind, key) ∈ (Dict.fill Prod.fst (fun o p => o.getD [] ++ [p.2]) [] (groupedIds db rid)).map Prod.fst := by
    rw [← Dict.get?_isSome, Dict.get?_fill]
    have hne : (groupedIds db rid).filter (·.1 = (kind, key)) ≠ [] :=
      List.ne_nil_of_mem (List.mem_filter.mpr ⟨hpair, by simp⟩)
    obtain ⟨p, l, hl⟩ := List.exists_cons_of_ne_nil hne
    rw [hl, List.foldl_cons]
    exact Rows.foldl_invariant (fun o : Option (List Nat) => o.isSome = true) (fun _ _ _ _ => rfl) rfl
  obtain ⟨⟨group, ids⟩, hmem, rfl⟩ := List.mem_map.mp hkey
  have hbucket := groupBuckets_perm.mem_iff.mpr hmem
  exact ⟨ids, hbucket, (mem_groupBuckets hbucket).mpr ⟨f, h⟩⟩

end Buckets

/-! ## A group and one finding -/

section Group

variable {env : Env} {db : Db} {rid : Nat} {kind : Kind} {key : String} {ids : List Nat}

/-- A finding that joins an item is grouped. -/
theorem joined_state {wid : Nat} {f : Finding} (h : f.state ∈ groupableStates ∨ f.state = .grouped) :
    (joined env wid f).state = .grouped := by
  have hstate : (Finding.giveTo (some wid) f).state = f.state := rfl
  unfold joined Tx.findingRow
  cases hnext : nextFindingState f.state .grouped with
  | some after =>
    have hgrouped : after = .grouped := by
      revert hnext
      cases f.state <;> cases after <;> decide
    rw [hgrouped]
    rfl
  | none =>
    rcases h with h | h
    · have hgroups : ∀ s ∈ groupableStates, nextFindingState s .grouped ≠ none := by decide
      exact absurd hnext (hgroups _ h)
    · exact hstate.trans h

theorem joinItems_state {wid k : Nat} {groupKey : String} : ∀ (ids : List Nat) {t : Tx} {f : Finding},
    t.db.findings.get? k = some f → f.state ∈ groupableStates ∨ f.state = .grouped → k ∈ ids →
      ∃ f', (ids.foldl (joinItem env wid groupKey) t).db.findings.get? k = some f' ∧ f'.state = .grouped := by
  intro ids
  induction ids with
  | nil => exact fun _ _ hk => absurd hk List.not_mem_nil
  | cons fid ids ih =>
    intro t f hf hstate hk
    rw [List.foldl_cons]
    have hrow := @joinItem_row env wid groupKey t fid k
    by_cases hhead : k = fid
    · rw [if_pos hhead, hf, Option.map_some] at hrow
      by_cases hrest : k ∈ ids
      · exact ih hrow (.inr (joined_state hstate)) hrest
      · obtain ⟨f', hf', -, -, -, hout⟩ := @joinItems_row env wid groupKey k ids _ _ hrow
        exact ⟨f', hf', by rw [hout hrest, joined_state hstate]⟩
    · rw [if_neg hhead] at hrow
      exact ih (hrow.trans hf) hstate ((List.mem_cons.mp hk).resolve_left hhead)

/-- A finding of another group. -/
theorem commitGroup_other {group : (Kind × String) × List Nat} {fid : Nat} {f : Finding} (hno : fid ∉ group.2)
    (hf : db.findings.get? fid = some f) : (commitGroup env rid db group).findings.get? fid = some f := by
  unfold commitGroup
  by_cases hne : groupMembers db rid group.2 = []
  · rw [show groupFindings env rid group.1.1 group.1.2 group.2 { db := db } = { db := db } from if_pos hne]
    exact hf
  · obtain ⟨f', hf', -, -, -, hout⟩ := @groupFindings_row env db rid group.1.1 group.1.2 group.2 hne fid f hf
    rw [hf', hout fun hmem => hno (mem_groupMembers.mp hmem).1]

/-- The items that are there stay, and a group keeps its item. -/
structure ItemsStay (db db' : Db) : Prop where
  row : ∀ i w, db.workItems.get? i = some w → db'.workItems.get? i = some w
  item : ∀ kind key wid, db.groupItem kind key = some wid → db'.groupItem kind key = some wid

theorem ItemsStay.refl (db : Db) : ItemsStay db db := ⟨fun _ _ h => h, fun _ _ _ h => h⟩

theorem ItemsStay.trans {db' db'' : Db} (h : ItemsStay db db') (h' : ItemsStay db' db'') : ItemsStay db db'' :=
  ⟨fun i w hw => h'.row i w (h.row i w hw), fun kind key wid hitem => h'.item kind key wid (h.item kind key wid hitem)⟩

/-- An item that was there is the item of its group only if it was before. -/
theorem ItemsStay.back {db' : Db} (h : ItemsStay db db') {wid : Nat} {w : WorkItem}
    (hw : db.workItems.get? wid = some w)
    (hitem : db'.groupItem kind key = some wid) : db.groupItem kind key = some wid := by
  obtain ⟨w', hw', hmatch⟩ := Table.first_eq_some hitem
  rw [h.row wid w hw] at hw'
  cases hw'
  cases hbefore : db.groupItem kind key with
  | none =>
    have hno := Table.first_eq_none hbefore hw
    rw [hno] at hmatch
    cases hmatch
  | some wid' =>
    rw [h.item kind key wid' hbefore] at hitem
    exact hitem

theorem commitGroup_items (group : (Kind × String) × List Nat) : ItemsStay db (commitGroup env rid db group) := by
  have hitems := @groupFindings_workItems env { db := db } rid group.1.1 group.1.2 group.2
  have hinsert (item : WorkItem) {db' : Db} (h : db'.workItems = db.workItems.insert item) : ItemsStay db db' := by
    refine ⟨fun i w hw => ?_, fun kind key wid hitem => ?_⟩
    · rw [h]
      exact Table.get?_insert_of_some _ hw
    · unfold Db.groupItem at hitem ⊢
      rw [h, Table.first_insert, hitem]
      rfl
  have hsame {db' : Db} (h : db'.workItems = db.workItems) : ItemsStay db db' := by
    refine ⟨fun i w hw => h ▸ hw, fun kind key wid hitem => ?_⟩
    unfold Db.groupItem at hitem ⊢
    rw [h]
    exact hitem
  split at hitems
  · exact hsame hitems
  · split at hitems
    · exact hinsert _ hitems
    · exact hsame hitems

/-- The finding is grouped, in a live item of the kind that has the key, or the key with a regression suffix. -/
def GroupedIn (db : Db) (fid : Nat) (kind : Kind) (key : String) : Prop :=
  ∃ f wid w, db.findings.get? fid = some f ∧ f.state = .grouped ∧ f.workItemId = some wid ∧
    db.workItems.get? wid = some w ∧ w.live ∧ w.kind = kind ∧ (w.groupKey = key ∨ ∃ n, w.groupKey = suffixed key n)

/-- The live item of the group has the finding already. -/
def InLiveItem (db : Db) (f : Finding) (kind : Kind) (key : String) : Prop :=
  ∃ wid w, db.groupItem kind key = some wid ∧ db.workItems.get? wid = some w ∧ w.live ∧ f.workItemId = some wid

/-- **The group of a finding**: it groups the finding, unless the live item has it; then it leaves it as it is. -/
theorem commitGroup_finding {fid : Nat} {f : Finding} (h : Eligible db rid fid f kind key) (hid : fid ∈ ids)
    (hthere : ∀ wid, f.workItemId = some wid → ∃ w, db.workItems.get? wid = some w) :
    (InLiveItem db f kind key → (commitGroup env rid db ((kind, key), ids)).findings.get? fid = some f) ∧
    (¬ InLiveItem db f kind key → GroupedIn (commitGroup env rid db ((kind, key), ids)) fid kind key) := by
  have hmem : (fid, f) ∈ groupMembers db rid ids := mem_groupMembers.mpr ⟨hid, h.row, h.shown, h.state⟩
  have hne : groupMembers db rid ids ≠ [] := List.ne_nil_of_mem hmem
  obtain ⟨t, groupKey, ht, hloop⟩ := @groupFindings_loop env db rid kind key ids hne
  have hitems := @groupFindings_workItems env { db := db } rid kind key ids
  rw [if_neg hne] at hitems
  have hjoining := @mem_groupJoining db rid ids (db.groupTarget kind key) fid f h.row
  have hgrouped (howner : f.workItemId ≠ some (db.groupTarget kind key)) :
      ∃ f', (commitGroup env rid db ((kind, key), ids)).findings.get? fid = some f' ∧ f'.state = .grouped ∧
        f'.workItemId = some (db.groupTarget kind key) := by
    obtain ⟨f', hf', hstate⟩ := @joinItems_state env (db.groupTarget kind key) fid groupKey _ t f (ht fid f h.row)
      (.inl h.state) (hjoining.mpr ⟨hmem, howner⟩)
    obtain ⟨f'', hf'', -, -, hin, -⟩ := @groupFindings_row env db rid kind key ids hne fid f h.row
    rw [← hloop] at hf'
    cases hf'.symm.trans hf''
    exact ⟨f', hf', hstate, hin hmem⟩
  constructor
  · rintro ⟨wid, w, hitem, hw, hlive, howner⟩
    have hkey : db.newKey kind key = none := by
      cases hkey : db.newKey kind key with
      | none => rfl
      | some key' => exact absurd hlive (groupItem_of_newKey_some hkey hitem hw)
    have htarget : db.groupTarget kind key = wid := by rw [Db.groupTarget, hkey, hitem, Option.getD_some]
    obtain ⟨f', hf', -, -, -, hout⟩ := @joinItems_row env (db.groupTarget kind key) groupKey fid
      (groupJoining db rid ids (db.groupTarget kind key)) t f (ht fid f h.row)
    rw [hout fun hj => (hjoining.mp hj).2 (htarget.symm ▸ howner), ← hloop] at hf'
    exact hf'
  · intro hno
    cases hkey : db.newKey kind key with
    | none =>
      obtain ⟨wid, w, hitem, hw, hlive⟩ := groupItem_of_newKey hkey
      have htarget : db.groupTarget kind key = wid := by rw [Db.groupTarget, hkey, hitem, Option.getD_some]
      obtain ⟨f', hf', hstate, howner⟩ := hgrouped fun howner => hno ⟨wid, w, hitem, hw, hlive, htarget ▸ howner⟩
      obtain ⟨w', hw', hmatch⟩ := Table.first_eq_some hitem
      cases hw.symm.trans hw'
      simp only [Bool.and_eq_true, beq_iff_eq] at hmatch
      rw [hkey] at hitems
      have hrow : (commitGroup env rid db ((kind, key), ids)).workItems.get? wid = some w := by
        rw [show (commitGroup env rid db ((kind, key), ids)).workItems = _ from hitems]
        exact hw
      exact ⟨f', wid, w, hf', hstate, htarget ▸ howner, hrow, hlive, hmatch.1.1, .inl hmatch.1.2⟩
    | some key' =>
      have htarget : db.groupTarget kind key = db.workItems.nextId := by rw [Db.groupTarget, hkey]
      obtain ⟨f', hf', hstate, howner⟩ := hgrouped fun howner => by
        obtain ⟨w, hw⟩ := hthere _ howner
        rw [htarget, Table.get?_nextId] at hw
        cases hw
      rw [hkey] at hitems
      have hrow : (commitGroup env rid db ((kind, key), ids)).workItems.get? db.workItems.nextId =
          some (newWorkItem env kind key' ((groupMembers db rid ids).map Prod.snd) (db.groupItem kind key)) := by
        rw [show (commitGroup env rid db ((kind, key), ids)).workItems = _ from hitems]
        exact Table.get?_insert_self ..
      refine ⟨f', _, _, hf', hstate, htarget ▸ howner, hrow, newWorkItem_live env kind key' _ _, rfl, ?_⟩
      show key' = key ∨ ∃ n, key' = suffixed key n
      unfold Db.newKey at hkey
      split at hkey
      · cases hkey
        exact .inl rfl
      · split at hkey
        · cases hkey
          obtain ⟨n, hn, -⟩ := regressionKey_spec db key
          exact .inr ⟨n, hn⟩
        · cases hkey

end Group

/-! ## The whole loop -/

section Loop

variable {env : Env} {db : Db} {rid : Nat}

theorem foldl_items (groups : List ((Kind × String) × List Nat)) :
    ItemsStay db (groups.foldl (commitGroup env rid) db) :=
  Rows.foldl_invariant (fun db' => ItemsStay db db') (fun _ group _ h => h.trans (commitGroup_items group)) (.refl db)

theorem foldl_others {groups : List ((Kind × String) × List Nat)} {fid : Nat} {f : Finding}
    (hno : ∀ group ∈ groups, fid ∉ group.2) (hf : db.findings.get? fid = some f) :
    (groups.foldl (commitGroup env rid) db).findings.get? fid = some f :=
  Rows.foldl_invariant (fun db' : Db => db'.findings.get? fid = some f)
    (fun _ group hgroup h => commitGroup_other (hno group hgroup) h) hf

/-- The bucket of a finding, and the others, which do not have it. -/
theorem split_buckets {fid : Nat} {f : Finding} {kind : Kind} {key : String} (h : Eligible db rid fid f kind key) :
    ∃ before ids after, groupBuckets db rid = before ++ ((kind, key), ids) :: after ∧ fid ∈ ids ∧
      ∀ group ∈ before ++ after, fid ∉ group.2 := by
  obtain ⟨ids, hbucket, hid⟩ := exists_bucket h
  obtain ⟨before, after, hsplit⟩ := List.append_of_mem hbucket
  refine ⟨before, ids, after, hsplit, hid, ?_⟩
  rintro ⟨⟨kind', key'⟩, ids'⟩ hgroup hid'
  have hmem : ((kind', key'), ids') ∈ groupBuckets db rid := by
    rw [hsplit]
    exact List.mem_append.mpr ((List.mem_append.mp hgroup).imp id (List.mem_cons_of_mem _))
  obtain ⟨f', h'⟩ := (mem_groupBuckets hmem).mp hid'
  -- the other bucket would be of the same group
  cases h.row.symm.trans h'.row
  cases h.group.symm.trans h'.group
  have hnd := @nodup_groupBuckets db rid
  rw [hsplit, List.map_append, List.map_cons] at hnd
  have hout := (List.nodup_middle.mp hnd)
  rw [← List.map_append] at hout
  exact (List.nodup_cons.mp hout).1 (List.mem_map.mpr ⟨_, hgroup, rfl⟩)

theorem InLiveItem.of_stay {db' : Db} {f : Finding} {kind : Kind} {key : String} (h : ItemsStay db db')
    (hthere : ∀ wid, f.workItemId = some wid → ∃ w, db.workItems.get? wid = some w) :
    InLiveItem db' f kind key ↔ InLiveItem db f kind key := by
  constructor
  · rintro ⟨wid, w, hitem, hw, hlive, howner⟩
    obtain ⟨w₀, hw₀⟩ := hthere wid howner
    have hsame := h.row wid w₀ hw₀
    rw [hw, Option.some.injEq] at hsame
    exact ⟨wid, w₀, h.back hw₀ hitem, hw₀, hsame ▸ hlive, howner⟩
  · rintro ⟨wid, w, hitem, hw, hlive, howner⟩
    exact ⟨wid, w, h.item _ _ _ hitem, h.row _ _ hw, hlive, howner⟩

theorem GroupedIn.of_stay {db' : Db} {fid : Nat} {kind : Kind} {key : String} (h : GroupedIn db fid kind key)
    (hstay : ItemsStay db db') (hrow : ∀ f, db.findings.get? fid = some f → db'.findings.get? fid = some f) :
    GroupedIn db' fid kind key := by
  obtain ⟨f, wid, w, hf, hstate, howner, hw, hrest⟩ := h
  exact ⟨f, wid, w, hrow f hf, hstate, howner, hstay.row wid w hw, hrest⟩

/-- **What the loop does to a finding** that it reads. -/
theorem createWorkItems_finding (hrun : latestMainRun db = some rid) {fid : Nat} {f : Finding}
    {kind : Kind} {key : String}
    (h : Eligible db rid fid f kind key)
    (hthere : ∀ wid, f.workItemId = some wid → ∃ w, db.workItems.get? wid = some w) :
    GroupedIn (createWorkItems env db) fid kind key ↔ ¬ InLiveItem db f kind key := by
  obtain ⟨before, ids, after, hsplit, hid, hothers⟩ := split_buckets h
  have hstay := @foldl_items env db rid before
  have hrow := @foldl_others env db rid before fid f (fun group hg => hothers group (List.mem_append_left _ hg)) h.row
  have hthere' (wid : Nat) (howner : f.workItemId = some wid) :
      ∃ w, (before.foldl (commitGroup env rid) db).workItems.get? wid = some w := by
    obtain ⟨w, hw⟩ := hthere wid howner
    exact ⟨w, hstay.row wid w hw⟩
  have hgroup := @commitGroup_finding env _ rid kind key ids fid f ⟨hrow, h.shown, h.state, h.group⟩ hid hthere'
  rw [InLiveItem.of_stay hstay hthere] at hgroup
  have hafter (f' : Finding) (hf' : (commitGroup env rid (before.foldl (commitGroup env rid) db)
      ((kind, key), ids)).findings.get? fid = some f') : (createWorkItems env db).findings.get? fid = some f' := by
    rw [createWorkItems, hrun]
    dsimp only
    rw [hsplit, List.foldl_append, List.foldl_cons]
    exact foldl_others (fun group hg => hothers group (List.mem_append_right _ hg)) hf'
  have hitems : ItemsStay (commitGroup env rid (before.foldl (commitGroup env rid) db) ((kind, key), ids))
      (createWorkItems env db) := by
    rw [createWorkItems, hrun]
    dsimp only
    rw [hsplit, List.foldl_append, List.foldl_cons]
    exact foldl_items after
  constructor
  · rintro ⟨f', wid, w, hf', hstate, -⟩ hin
    rw [hafter f (hgroup.1 hin)] at hf'
    cases hf'
    have hnever : ∀ s ∈ groupableStates, s ≠ FindingState.grouped := by decide
    exact hnever _ h.state hstate
  · exact fun hno => (hgroup.2 hno).of_stay hitems hafter

end Loop

theorem Reachable.ownersThere {c : Controller} {s : Sys} (h : Reachable c s) : OwnersThere s.db := by
  refine h.invariant (fun s => OwnersThere s.db) ?_ fun s a ho => exec_ownersThere ho
  intro fid f wid hf
  rw [show Sys.initial.db.findings.get? fid = none from Table.get?_empty fid] at hf
  cases hf

/-- **Grouping leaves nothing out** exactly when no finding that it reads is in the live item of its group already. -/
theorem create_groups_iff {c : Controller} {s : Sys} (h : Reachable c s) (env : Env) :
    (∀ rid fid f kind key, latestMainRun s.db = some rid → Eligible s.db rid fid f kind key →
      GroupedIn (createWorkItems env s.db) fid kind key) ↔
    ∀ rid fid f kind key, latestMainRun s.db = some rid → Eligible s.db rid fid f kind key →
      ¬ InLiveItem s.db f kind key := by
  have hone {rid fid : Nat} {f : Finding} {kind : Kind} {key : String} (hrun : latestMainRun s.db = some rid)
      (hf : Eligible s.db rid fid f kind key) :=
    @createWorkItems_finding env s.db rid hrun fid f kind key hf fun wid howner => h.ownersThere fid f wid hf.row howner
  constructor
  · exact fun hall rid fid f kind key hrun hf => (hone hrun hf).mp (hall rid fid f kind key hrun hf)
  · exact fun hall rid fid f kind key hrun hf => (hone hrun hf).mpr (hall rid fid f kind key hrun hf)

/-- A state and a finding that is read for its group. -/
theorem eligible_of_any {db : Db} {rid fid : Nat} {kind : Kind} {key : String}
    (h : (db.findings.get? fid).any (fun f => f.lastSeenRunId == rid && decide (f.state ∈ groupableStates) &&
      groupOf f == some (kind, key)) = true) : ∃ f, Eligible db rid fid f kind key := by
  obtain ⟨f, hf, hall⟩ := (Option.any_eq_true ..).mp h
  simp only [Bool.and_eq_true, beq_iff_eq, decide_eq_true_eq] at hall
  exact ⟨f, hf, hall.1.1, hall.1.2, hall.2⟩

/-- The first finding of a fresh database is grouped. -/
theorem first_finding_grouped : GroupedIn (createWorkItems (sampleController.env 11)
    (sampleState [sampleIngest "1" 10 (samplePair "CVE-1" "openssl" "1")]).db) 1 .containerHardening
      "container:os-packages" := by
  obtain ⟨f, hf⟩ : ∃ f, Eligible (sampleState [sampleIngest "1" 10 (samplePair "CVE-1" "openssl" "1")]).db 1 1 f
      .containerHardening "container:os-packages" := eligible_of_any (by decide +kernel)
  refine (create_groups_iff (sampleState_reachable _) _).mpr ?_ 1 1 f _ _ (by decide +kernel) hf
  rintro rid fid g kind key - - ⟨wid, w, -, hw, -⟩
  have hno : (sampleState [sampleIngest "1" 10 (samplePair "CVE-1" "openssl" "1")]).db.workItems = .empty := by
    decide +kernel
  rw [hno, Table.get?_empty] at hw
  cases hw

/-- A member of the reserved item is reported without its fix, and with it again. -/
def resetTrace : List Action :=
  [sampleIngest "1" 10 (samplePair "CVE-1" "openssl" "1")] ++ sampleReserve 11 ++ [.stop, unfixedIngest] ++
    sampleApply 14 ++ [sampleIngest "3" 20 (samplePair "CVE-1" "openssl" "1")]

/-- The scan opens the finding again, and grouping leaves it open. -/
theorem reset_left_open : ¬ ∀ s, Reachable sampleController s → ∀ rid fid f kind key, latestMainRun s.db = some rid →
    Eligible s.db rid fid f kind key → GroupedIn (createWorkItems (sampleController.env 21) s.db) fid kind key := by
  intro hall
  obtain ⟨f, hf⟩ : ∃ f, Eligible (sampleState resetTrace).db 3 1 f .containerHardening "container:os-packages" :=
    eligible_of_any (by decide +kernel)
  obtain ⟨g, wid, w, hg, hstate, -⟩ := hall _ (sampleState_reachable resetTrace) 3 1 f _ _ (by decide +kernel) hf
  have hopen : (createWorkItems (sampleController.env 21) (sampleState resetTrace).db).findingState
    1 = some .«open» := by
    decide +kernel
  rw [Db.findingState, hg, Option.map_some, hstate] at hopen
  cases hopen

end HardeningLoop
