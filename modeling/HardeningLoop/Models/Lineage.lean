import HardeningLoop.Lib.Forest
import HardeningLoop.Models.Tables
import Mathlib.Data.List.Sort

/-!
# Work-item lineage

A finding that regresses is re-homed on a new work item that points back at the original; the original no longer owns
the finding. `regressionDescendants` walks down from an item to all that regressed from it, `membersWithLineage` walks
up from the owner of each finding.

When each item regressed from an older one (`Lineage`) the links are a forest, so both walks end, and they describe one
relation (`lineage_closure`).
-/

namespace HardeningLoop

/-! ## The helpers -/

/-- The items that have an id and regressed from another, each by the two ids. -/
def regressionLinks (items : List (Option Nat × WorkItem)) : List (Nat × Nat) :=
  items.filterMap fun w => w.1.bind fun id => w.2.regressionOfWorkItemId.map (id, ·)

/-- `children.get(id, [])`. -/
def childrenOf (items : List (Option Nat × WorkItem)) (id : Nat) : List Nat :=
  (Dict.get? (Dict.fill Prod.snd (fun ids link => ids.getD [] ++ [link.1]) [] (regressionLinks items)) id).getD []

/-- `regression_descendants`, when its loop ends within the fuel. -/
def regressionDescendants (fuel : Nat) (items : List (Option Nat × WorkItem)) (rootId : Nat) : Option (List Nat) :=
  (Forest.drain (childrenOf items) fuel (childrenOf items rootId) []).map (List.insertionSort (· ≤ ·))

/-- `parent.get(id)`. -/
def parentOf (items : List (Option Nat × WorkItem)) (id : Nat) : Option Nat :=
  Dict.get? (Dict.fill Prod.fst (fun _ link => link.2) [] (regressionLinks items)) id

/-- The findings that are listed under an id. -/
def membersOf (out : List (Nat × List (Nat × Finding))) (id : Nat) : List (Nat × Finding) := (Dict.get? out id).getD []

/-- `out[id].append(f)` for each id on the way up. -/
def listUnder (out : List (Nat × List (Nat × Finding))) (f : Nat × Finding) (ids : List Nat) :
    List (Nat × List (Nat × Finding)) :=
  ids.foldl (fun out id => Dict.set out id (membersOf out id ++ [f])) out

/-- `members_with_lineage`, when its loops end within the fuel. -/
def membersWithLineage (fuel : Nat) (items : List (Option Nat × WorkItem)) (findings : List (Nat × Finding)) :
    Option (List (Nat × List (Nat × Finding))) :=
  findings.foldlM (fun out f => (Forest.climb (parentOf items) fuel [] f.2.workItemId).map (listUnder out f)) []

/-! ## The forest -/

/-- Work items with distinct ids, each of which regressed from an older one if from any. -/
structure Lineage where
  items : List (Option Nat × WorkItem)
  distinct : (items.filterMap Prod.fst).Nodup
  older : ∀ {id w p}, (some id, w) ∈ items → w.regressionOfWorkItemId = some p → p < id

/-- An item points back at another. -/
def RegressedFrom (items : List (Option Nat × WorkItem)) (id p : Nat) : Prop :=
  ∃ w, (some id, w) ∈ items ∧ w.regressionOfWorkItemId = some p

section Links

variable {items : List (Option Nat × WorkItem)}

theorem mem_regressionLinks {id p : Nat} : (id, p) ∈ regressionLinks items ↔ RegressedFrom items id p := by
  rw [regressionLinks, List.mem_filterMap]
  constructor
  · rintro ⟨⟨own, w⟩, hw, hlink⟩
    obtain ⟨id', rfl, hlink⟩ := Option.bind_eq_some_iff.mp hlink
    obtain ⟨p', hp, hpair⟩ := Option.map_eq_some_iff.mp hlink
    cases hpair
    exact ⟨w, hw, hp⟩
  · rintro ⟨w, hw, hp⟩
    exact ⟨(some id, w), hw, by simp [hp]⟩

/-- The ids of the links are ids of the items, in their order. -/
theorem regressionLinks_sublist : ((regressionLinks items).map Prod.fst).Sublist (items.filterMap Prod.fst) := by
  induction items with
  | nil => exact .slnil
  | cons w items ih =>
    obtain ⟨own, w⟩ := w
    cases own with
    | none => simpa [regressionLinks] using ih
    | some id =>
      cases hp : w.regressionOfWorkItemId with
      | none => simpa [regressionLinks, hp] using ih.cons id
      | some p => simpa [regressionLinks, hp] using ih.cons_cons id

theorem childrenOf_eq (id : Nat) : childrenOf items id = ((regressionLinks items).filter (·.2 = id)).map Prod.fst := by
  have happend (links : List (Nat × Nat)) (ids : Option (List Nat)) :
      (links.foldl (fun o link => some (o.getD [] ++ [link.1])) ids).getD [] = ids.getD [] ++ links.map Prod.fst := by
    induction links generalizing ids with
    | nil => simp
    | cons link links ih => simp [ih]
  rw [childrenOf, Dict.get?_fill, happend]
  rfl

theorem mem_childrenOf {id p : Nat} : id ∈ childrenOf items p ↔ RegressedFrom items id p := by
  rw [childrenOf_eq, List.mem_map, ← mem_regressionLinks]
  constructor
  · rintro ⟨⟨id', p'⟩, hlink, rfl⟩
    obtain ⟨hlink, hp⟩ := List.mem_filter.mp hlink
    exact of_decide_eq_true hp ▸ hlink
  · intro hlink
    exact ⟨(id, p), List.mem_filter.mpr ⟨hlink, decide_eq_true rfl⟩, rfl⟩

end Links

namespace Lineage

variable (L : Lineage)

theorem nodup_links : ((regressionLinks L.items).map Prod.fst).Nodup := L.distinct.sublist regressionLinks_sublist

theorem parentOf_eq_some {id p : Nat} : parentOf L.items id = some p ↔ RegressedFrom L.items id p := by
  rw [parentOf, Dict.get?_fill_distinct Prod.fst Prod.snd L.nodup_links, ← mem_regressionLinks]
  constructor
  · rintro ⟨⟨id', p'⟩, hlink, rfl, rfl⟩
    exact hlink
  · intro hlink
    exact ⟨(id, p), hlink, rfl, rfl⟩

/-- Every link is to a smaller id. -/
theorem parent_lt {id p : Nat} (h : parentOf L.items id = some p) : p < id := by
  obtain ⟨w, hw, hp⟩ := L.parentOf_eq_some.mp h
  exact L.older hw hp

/-- The items as a forest, in which an id is its own depth. -/
def forest : Forest Nat where
  parent := parentOf L.items
  children := childrenOf L.items
  mem_children := mem_childrenOf.trans L.parentOf_eq_some.symm
  nodup_children id := by
    rw [childrenOf_eq]
    exact L.nodup_links.sublist (List.filter_sublist.map _)
  depth := id
  depth_lt := L.parent_lt
  height := ((regressionLinks L.items).map Prod.fst).max?.getD 0
  depth_le h := by
    apply List.le_max?_getD_of_mem
    exact List.mem_map_of_mem (mem_regressionLinks.mpr (L.parentOf_eq_some.mp h))

theorem link_iff {id p : Nat} : L.forest.Link id p ↔ RegressedFrom L.items id p := L.parentOf_eq_some

/-- Distinct ids that are linked are no more than the items. -/
theorem length_le {ids : List Nat} (hnd : ids.Nodup) (hlinked : ∀ id ∈ ids, (parentOf L.items id).isSome) :
    ids.length ≤ L.items.length := by
  have hsub : ids ⊆ L.items.filterMap Prod.fst := by
    intro id hid
    obtain ⟨p, hp⟩ := Option.isSome_iff_exists.mp (hlinked id hid)
    obtain ⟨w, hw, -⟩ := L.parentOf_eq_some.mp hp
    exact List.mem_filterMap.mpr ⟨(some id, w), hw, rfl⟩
  exact (List.subperm_of_subset hnd hsub).length_le.trans (List.length_filterMap_le _ _)

/-- The ids below an item, in order. -/
def descendants (rootId : Nat) : List Nat := (L.forest.below rootId).insertionSort (· ≤ ·)

/-- **Down.** The loop ends, and returns what is below the root. -/
theorem regressionDescendants_eq {fuel : Nat} (hfuel : L.items.length ≤ fuel) (rootId : Nat) :
    regressionDescendants fuel L.items rootId = some (L.descendants rootId) := by
  have hbelow : (childrenOf L.items rootId).flatMap L.forest.tree = L.forest.below rootId :=
    (L.forest.below_eq rootId).symm
  have hlinked : ∀ id ∈ L.forest.below rootId, (parentOf L.items id).isSome := by
    intro id hid
    obtain ⟨p, hlink, -⟩ := Relation.TransGen.head'_iff.mp (Forest.mem_below.mp hid)
    exact Option.isSome_iff_exists.mpr ⟨p, hlink⟩
  have hlength := L.length_le (Forest.nodup_below rootId) hlinked
  obtain ⟨out, hout, hperm⟩ := @Forest.drain_perm _ L.forest (childrenOf L.items rootId) [] fuel
    (by rw [hbelow]; omega)
  rw [hbelow, List.nil_append] at hperm
  have hdrain : Forest.drain (childrenOf L.items) fuel (childrenOf L.items rootId) [] = some out := hout
  have hsorted : ((out.insertionSort (· ≤ ·)).Perm ((L.forest.below rootId).insertionSort (· ≤ ·))) :=
    (List.perm_insertionSort _ out).trans (hperm.trans (List.perm_insertionSort _ _).symm)
  rw [regressionDescendants, hdrain, Option.map_some, descendants,
    hsorted.eq_of_sortedLE List.sortedLE_insertionSort List.sortedLE_insertionSort]

theorem mem_descendants {id rootId : Nat} :
    id ∈ L.descendants rootId ↔ Relation.TransGen (RegressedFrom L.items) id rootId := by
  have hlink : L.forest.Link = RegressedFrom L.items := by
    funext id p
    exact propext L.link_iff
  rw [descendants, (List.perm_insertionSort _ _).mem_iff, Forest.mem_below, hlink]

/-- They are in order, each once. -/
theorem descendants_increasing (rootId : Nat) : (L.descendants rootId).Pairwise (· < ·) := by
  have hnodup : (L.descendants rootId).Nodup := (List.perm_insertionSort _ _).nodup_iff.mpr (Forest.nodup_below rootId)
  refine (List.Pairwise.and (List.pairwise_insertionSort (· ≤ ·) _) hnodup).imp ?_
  rintro a b ⟨hle, hne⟩
  omega

/-! ### Up -/

/-- The ids a finding is listed under. -/
def listedUnder (f : Nat × Finding) : List Nat := f.2.workItemId.elim [] L.forest.above

theorem mem_listedUnder {f : Nat × Finding} {id : Nat} :
    id ∈ L.listedUnder f ↔ ∃ owner, f.2.workItemId = some owner ∧ (owner = id ∨ owner ∈ L.descendants id) := by
  have hlink : L.forest.Link = RegressedFrom L.items := by
    funext id p
    exact propext L.link_iff
  rw [listedUnder]
  cases f.2.workItemId with
  | none => simp
  | some owner =>
    rw [Option.elim_some, Forest.mem_above, Relation.reflTransGen_iff_eq_or_transGen, hlink]
    simp [mem_descendants, eq_comm]

theorem climb_listedUnder {fuel : Nat} (hfuel : L.items.length < fuel) (f : Nat × Finding) :
    Forest.climb (parentOf L.items) fuel [] f.2.workItemId = some (L.listedUnder f) := by
  rw [listedUnder]
  cases f.2.workItemId with
  | none => cases fuel <;> rfl
  | some owner =>
    have hlength := Forest.length_above (F := L.forest) owner
    have hlinked :=
      L.length_le ((Forest.nodup_above (F := L.forest) owner).filter _) fun id hid => (List.mem_filter.mp hid).2
    have henough : (L.forest.above owner).length ≤ fuel := by
      rw [hlength]
      exact Nat.succ_le_of_lt (Nat.lt_of_le_of_lt hlinked hfuel)
    exact L.forest.climb_eq (fun id _ => List.not_mem_nil) henough

end Lineage

/-- A finding is listed once more under each of distinct ids. -/
theorem membersOf_listUnder {ids : List Nat} (hnd : ids.Nodup) (out : List (Nat × List (Nat × Finding)))
    (f : Nat × Finding)
    (id : Nat) : membersOf (listUnder out f ids) id = membersOf out id ++ if id ∈ ids then [f] else [] := by
  induction ids generalizing out with
  | nil => simp [listUnder]
  | cons i ids ih =>
    obtain ⟨hi, hnd⟩ := List.nodup_cons.mp hnd
    rw [listUnder, List.foldl_cons]
    show membersOf (listUnder (Dict.set out i (membersOf out i ++ [f])) f ids) id = _
    rw [ih hnd, membersOf, Dict.get?_set]
    by_cases hid : id = i
    · subst hid
      rw [if_pos rfl, if_neg hi, if_pos List.mem_cons_self, Option.getD_some, List.append_nil]
    · rw [if_neg hid]
      simp only [List.mem_cons, hid, false_or, membersOf]

namespace Lineage

variable (L : Lineage)

/-- What the loop returns. -/
def members (findings : List (Nat × Finding)) : List (Nat × List (Nat × Finding)) :=
  findings.foldl (fun out f => listUnder out f (L.listedUnder f)) []

/-- **Up.** The loops end, and list each finding under its owner and what that regressed from. -/
theorem membersWithLineage_eq {fuel : Nat} (hfuel : L.items.length < fuel) (findings : List (Nat × Finding)) :
    membersWithLineage fuel L.items findings = some (L.members findings) := by
  rw [membersWithLineage, members]
  generalize ([] : List (Nat × List (Nat × Finding))) = out
  induction findings generalizing out with
  | nil => rfl
  | cons f findings ih =>
    rw [List.foldlM_cons, List.foldl_cons, L.climb_listedUnder hfuel, Option.map_some]
    exact ih _

theorem membersOf_members (findings : List (Nat × Finding)) (id : Nat) :
    membersOf (L.members findings) id = findings.filter fun f => id ∈ L.listedUnder f := by
  have hnodup (f : Nat × Finding) : (L.listedUnder f).Nodup := by
    rw [listedUnder]
    cases f.2.workItemId with
    | none => exact List.nodup_nil
    | some owner => exact Forest.nodup_above owner
  have hfold (out : List (Nat × List (Nat × Finding))) :
      membersOf (findings.foldl (fun out f => listUnder out f (L.listedUnder f)) out) id =
        membersOf out id ++ findings.filter fun f => id ∈ L.listedUnder f := by
    induction findings generalizing out with
    | nil => simp
    | cons f findings ih =>
      rw [List.foldl_cons, ih, membersOf_listUnder (hnodup f)]
      by_cases hid : id ∈ L.listedUnder f <;> simp [hid]
  rw [members, hfold]
  rfl

end Lineage

/-! ## One relation -/

/-- What the two helpers return of a lineage and of findings: `descendants` and `out`. -/
structure DescribesLineage (L : Lineage) (findings : List (Nat × Finding)) (descendants : Nat → List Nat)
    (out : List (Nat × List (Nat × Finding))) : Prop where
  down : ∀ rootId fuel, L.items.length ≤ fuel → regressionDescendants fuel L.items rootId = some (descendants rootId)
  sorted : ∀ rootId, (descendants rootId).Pairwise (· < ·)
  closed : ∀ rootId id, id ∈ descendants rootId ↔ Relation.TransGen (RegressedFrom L.items) id rootId
  up : ∀ fuel, L.items.length < fuel → membersWithLineage fuel L.items findings = some out
  once : ∀ id, (membersOf out id).Nodup
  members : ∀ id f, f ∈ membersOf out id ↔
    f ∈ findings ∧ ∃ owner, f.2.workItemId = some owner ∧ (owner = id ∨ owner ∈ descendants id)

/-- **Lineage closure.** Both helpers return, and what is listed under an item is owned by it or by one of its
descendants. -/
theorem lineage_closure (L : Lineage) {findings : List (Nat × Finding)} (hdistinct : findings.Nodup) :
    ∃ descendants out, DescribesLineage L findings descendants out := by
  refine ⟨L.descendants, L.members findings, ?_⟩
  constructor
  · intro rootId fuel hfuel
    exact L.regressionDescendants_eq hfuel rootId
  · exact L.descendants_increasing
  · intro rootId id
    exact L.mem_descendants
  · intro fuel hfuel
    exact L.membersWithLineage_eq hfuel findings
  · intro id
    rw [L.membersOf_members]
    exact hdistinct.filter _
  · intro id f
    rw [L.membersOf_members, List.mem_filter, decide_eq_true_iff, L.mem_listedUnder]

def chainItem (regressedFrom : Option Nat) : WorkItem :=
  { kind := .dependencyUpgrade, groupKey := "pypi:cryptography", title := "Upgrade cryptography", severity := .high
    risk := .normal, acuCap := Kind.dependencyUpgrade.acuCap, regressionOfWorkItemId := regressedFrom, createdAt := 0
    updatedAt := 0 }

/-- Items 2 and 5 regressed from item 1, item 7 from item 2, and an item is not stored yet. -/
def chainLineage : Lineage where
  items := [(some 1, chainItem none), (some 5, chainItem (some 1)), (some 2, chainItem (some 1)),
    (none, chainItem (some 7)),
    (some 7, chainItem (some 2))]
  distinct := by decide
  older := by
    intro id w p hw hp
    simp only [List.mem_cons, List.not_mem_nil, Prod.mk.injEq, Option.some.injEq, reduceCtorEq, false_and,
      false_or, or_false] at hw
    rcases hw with ⟨rfl, rfl⟩ | ⟨rfl, rfl⟩ | ⟨rfl, rfl⟩ | ⟨rfl, rfl⟩ <;> cases hp <;> decide

def chainFinding (owner : Option Nat) : Finding :=
  { dedupeKey := "", vulnId := "CVE-1", layer := .python, firstSeenRunId := 1, lastSeenRunId := 1, workItemId := owner
    createdAt := 0, updatedAt := 0 }

def chainFindings : List (Nat × Finding) :=
  [(1, chainFinding (some 7)), (2, chainFinding (some 1)), (3, chainFinding none)]

theorem chain_closure : regressionDescendants 5 chainLineage.items 1 = some [2, 5, 7] ∧
    (membersWithLineage 6 chainLineage.items chainFindings).map (fun out => [1, 2, 5, 7].map fun id =>
      (membersOf out id).map Prod.fst) = some [[1, 2], [1], [], [1]] ∧
    ∃ descendants out, DescribesLineage chainLineage chainFindings descendants out :=
  ⟨by decide, by decide, lineage_closure chainLineage (by decide)⟩

end HardeningLoop
