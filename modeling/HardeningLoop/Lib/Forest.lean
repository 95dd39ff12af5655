import Mathlib.Data.List.Perm.Subperm
import Mathlib.Data.List.Nodup
import Mathlib.Logic.Relation

/-!
# Walks over a forest

A forest is given twice: by the parent of each node and by its children. A node is linked to its parent, and a link
leads to a node of less depth, so it closes no circle (`Forest`).

A loop goes up from a node until there is no parent (`climb`), and a loop goes down with a queue that grows by the
children of each node it takes (`drain`). Nothing in the loops bounds them: both take fuel and return when it was
enough.

- `climb_eq`: going up, every node above the first is met, each once;
- `drain_perm`: going down, every node below those in the queue is met, each once;
- `mem_above`, `mem_below`: above and below are the same relation read both ways.
-/

universe u

/-- A forest of finite height. -/
structure Forest (α : Type u) where
  parent : α → Option α
  children : α → List α
  mem_children : ∀ {a b}, b ∈ children a ↔ parent b = some a
  nodup_children : ∀ a, (children a).Nodup
  depth : α → Nat
  depth_lt : ∀ {a b}, parent b = some a → depth a < depth b
  height : Nat
  depth_le : ∀ {a b}, parent b = some a → depth b ≤ height

namespace Forest

variable {α : Type u}

/-! ## Loops -/

/-- From a node up, until there is no parent or a node is met again. -/
def climb [DecidableEq α] (parent : α → Option α) : Nat → List α → Option α → Option (List α)
  | _, _, none => some []
  | 0, _, some _ => none
  | fuel + 1, seen, some a =>
    if a ∈ seen then some [] else (climb parent fuel (a :: seen) (parent a)).map (a :: ·)

/-- From the front of a queue, with the children of each node added at its end. -/
def drain (children : α → List α) : Nat → List α → List α → Option (List α)
  | _, [], out => some out
  | 0, _ :: _, _ => none
  | fuel + 1, a :: queue, out => drain children fuel (queue ++ children a) (out ++ [a])

/-! ## Above and below -/

variable (F : Forest α)

/-- A node and its parent. -/
def Link (a b : α) : Prop := F.parent a = some b

/-- A node and the nodes above it. -/
def above (a : α) : List α :=
  a :: match _h : F.parent a with
    | none => []
    | some b => above b
termination_by F.depth a
decreasing_by exact F.depth_lt ‹_›

/-- The nodes below a node. -/
def below (a : α) : List α := (F.children a).attach.flatMap fun b => b.1 :: below b.1
termination_by F.height - F.depth a
decreasing_by
  have hparent := F.mem_children.mp b.2
  have hlt := F.depth_lt hparent
  have hle := F.depth_le hparent
  omega

/-- A node and the nodes below it. -/
def tree (a : α) : List α := a :: F.below a

theorem above_root {a : α} (h : F.parent a = none) : F.above a = [a] := by
  rw [above]
  split
  · rfl
  · rename_i b hb
    rw [h] at hb
    cases hb

theorem above_link {a b : α} (h : F.parent a = some b) : F.above a = a :: F.above b := by
  rw [above]
  split
  · rename_i hb
    rw [h] at hb
    cases hb
  · rename_i c hc
    rw [h] at hc
    cases hc
    rfl

theorem below_eq (a : α) : F.below a = (F.children a).flatMap F.tree := by
  rw [below]
  show (F.children a).attach.flatMap (fun b => F.tree b.1) = _
  rw [← List.flatMap_map, List.attach_map_subtype_val]

variable {F}

theorem depth_le_of_links {a b : α} (h : Relation.ReflTransGen F.Link a b) : F.depth b ≤ F.depth a := by
  induction h with
  | refl => exact Nat.le_refl _
  | tail _ hlink ih =>
    have hlt := F.depth_lt hlink
    omega

theorem depth_lt_of_links {a b : α} (h : Relation.TransGen F.Link a b) : F.depth b < F.depth a := by
  obtain ⟨c, hlinks, hlink⟩ := Relation.TransGen.tail'_iff.mp h
  have hlt := F.depth_lt hlink
  have hle := depth_le_of_links hlinks
  omega

/-- A node has one parent. -/
theorem link_unique : Relator.RightUnique F.Link := by
  intro a b c hb hc
  exact Option.some.inj (hb.symm.trans hc)

theorem mem_above {a b : α} : b ∈ F.above a ↔ Relation.ReflTransGen F.Link a b := by
  induction hd : F.depth a using Nat.strongRecOn generalizing a with
  | ind d ih =>
    cases hparent : F.parent a with
    | none =>
      rw [F.above_root hparent, List.mem_singleton, Relation.ReflTransGen.cases_head_iff]
      constructor
      · intro h
        exact Or.inl h.symm
      · rintro (rfl | ⟨c, hlink, -⟩)
        · rfl
        · rw [Link, hparent] at hlink
          cases hlink
    | some c =>
      rw [F.above_link hparent, List.mem_cons, ih (F.depth c) (hd ▸ F.depth_lt hparent) rfl]
      constructor
      · rintro (rfl | h)
        · exact .refl
        · exact .head hparent h
      · intro h
        rcases Relation.ReflTransGen.cases_head_iff.mp h with rfl | ⟨c', hlink, h⟩
        · exact Or.inl rfl
        · cases link_unique hlink hparent
          exact Or.inr h

theorem nodup_above (a : α) : (F.above a).Nodup := by
  induction hd : F.depth a using Nat.strongRecOn generalizing a with
  | ind d ih =>
    cases hparent : F.parent a with
    | none =>
      rw [F.above_root hparent]
      exact List.nodup_singleton a
    | some b =>
      rw [F.above_link hparent, List.nodup_cons, mem_above]
      have hlt := F.depth_lt hparent
      refine ⟨fun h => ?_, ih (F.depth b) (hd ▸ hlt) b rfl⟩
      have hle := depth_le_of_links h
      omega

/-- All but the last of the nodes met on the way up have a parent. -/
theorem length_above (a : α) : (F.above a).length = ((F.above a).filter fun b => (F.parent b).isSome).length + 1 := by
  induction hd : F.depth a using Nat.strongRecOn generalizing a with
  | ind d ih =>
    cases hparent : F.parent a with
    | none => simp [F.above_root hparent, hparent]
    | some b =>
      rw [F.above_link hparent, List.filter_cons_of_pos (by simp [hparent]), List.length_cons, List.length_cons,
        ih (F.depth b) (hd ▸ F.depth_lt hparent) b rfl]

theorem mem_tree {a b : α} : b ∈ F.tree a ↔ Relation.ReflTransGen F.Link b a := by
  induction hd : F.height - F.depth a using Nat.strongRecOn generalizing a with
  | ind d ih =>
    rw [tree, List.mem_cons, below_eq, List.mem_flatMap, Relation.ReflTransGen.cases_tail_iff, eq_comm]
    refine or_congr Iff.rfl (exists_congr fun c => ?_)
    constructor
    · rintro ⟨hc, hb⟩
      have hparent := F.mem_children.mp hc
      have hlt := F.depth_lt hparent
      have hle := F.depth_le hparent
      exact ⟨(ih (F.height - F.depth c) (by omega) rfl).mp hb, hparent⟩
    · rintro ⟨hb, hparent⟩
      have hlt := F.depth_lt hparent
      have hle := F.depth_le hparent
      exact ⟨F.mem_children.mpr hparent, (ih (F.height - F.depth c) (by omega) rfl).mpr hb⟩

theorem mem_below {a b : α} : b ∈ F.below a ↔ Relation.TransGen F.Link b a := by
  rw [below_eq, List.mem_flatMap, Relation.TransGen.tail'_iff]
  refine exists_congr fun c => ?_
  rw [F.mem_children, mem_tree, and_comm, Link]

/-- What is below two nodes is below one of them that is below the other. -/
theorem disjoint_tree {a b c : α} (hb : F.parent b = some a) (hc : F.parent c = some a) (hne : b ≠ c) :
    (F.tree b).Disjoint (F.tree c) := by
  have hapart {b c : α} (hb : F.parent b = some a) (hc : F.parent c = some a) (hne : b ≠ c) :
      ¬ Relation.ReflTransGen F.Link b c := by
    intro h
    rcases Relation.ReflTransGen.cases_head_iff.mp h with rfl | ⟨d, hlink, hd⟩
    · exact hne rfl
    · cases link_unique hlink hb
      have hlt := F.depth_lt hc
      have hle := depth_le_of_links hd
      omega
  intro d hdb hdc
  rcases Relation.ReflTransGen.total_of_right_unique link_unique (mem_tree.mp hdb) (mem_tree.mp hdc) with h | h
  · exact hapart hb hc hne h
  · exact hapart hc hb hne.symm h

theorem nodup_below (a : α) : (F.below a).Nodup := by
  induction hd : F.height - F.depth a using Nat.strongRecOn generalizing a with
  | ind d ih =>
    rw [below_eq, List.nodup_flatMap]
    constructor
    · intro b hb
      have hparent := F.mem_children.mp hb
      have hlt := F.depth_lt hparent
      have hle := F.depth_le hparent
      rw [tree, List.nodup_cons, mem_below]
      exact ⟨fun h => Nat.lt_irrefl _ (depth_lt_of_links h), ih (F.height - F.depth b) (by omega) b rfl⟩
    · refine (F.nodup_children a).imp_of_mem fun hb hc hne => ?_
      exact disjoint_tree (F.mem_children.mp hb) (F.mem_children.mp hc) hne

/-! ## What the loops return -/

/-- **Up.** The loop returns the node and all above it when it has fuel for each of them. -/
theorem climb_eq [DecidableEq α] {a : α} {seen : List α} {fuel : Nat} (hseen : ∀ b ∈ F.above a, b ∉ seen)
    (hfuel : (F.above a).length ≤ fuel) : climb F.parent fuel seen (some a) = some (F.above a) := by
  induction fuel generalizing a seen with
  | zero =>
    have hpos : 0 < (F.above a).length := List.length_pos_of_mem (mem_above.mpr .refl)
    omega
  | succ fuel ih =>
    have hnew := hseen a (mem_above.mpr .refl)
    rw [climb, if_neg hnew]
    cases hparent : F.parent a with
    | none =>
      rw [F.above_root hparent]
      cases fuel <;> rfl
    | some b =>
      have habove := F.above_link hparent
      have hnodup := nodup_above a (F := F)
      rw [habove] at hfuel hseen hnodup
      rw [ih (fun c hc => ?_) (Nat.le_of_succ_le_succ hfuel), habove, Option.map_some]
      rw [List.mem_cons, not_or]
      exact ⟨fun h => (List.nodup_cons.mp hnodup).1 (h ▸ hc), hseen c (List.mem_cons_of_mem _ hc)⟩

/-- **Down.** The loop returns all the nodes of the queue and those below them when it has fuel for each of them. -/
theorem drain_perm {queue out : List α} {fuel : Nat} (hfuel : (queue.flatMap F.tree).length ≤ fuel) :
    ∃ out', drain F.children fuel queue out = some out' ∧ out'.Perm (out ++ queue.flatMap F.tree) := by
  induction fuel generalizing queue out with
  | zero =>
    cases queue with
    | nil => exact ⟨out, rfl, by rw [List.flatMap_nil, List.append_nil]⟩
    | cons a queue => simp [tree] at hfuel
  | succ fuel ih =>
    cases queue with
    | nil => exact ⟨out, rfl, by rw [List.flatMap_nil, List.append_nil]⟩
    | cons a queue =>
      have hnext : (queue ++ F.children a).flatMap F.tree = queue.flatMap F.tree ++ F.below a := by
        rw [List.flatMap_append, ← below_eq]
      have hlength : ((queue ++ F.children a).flatMap F.tree).length ≤ fuel := by
        rw [hnext, List.length_append]
        rw [List.flatMap_cons, tree, List.length_append, List.length_cons] at hfuel
        omega
      obtain ⟨out', hout, hperm⟩ := @ih (queue ++ F.children a) (out ++ [a]) hlength
      refine ⟨out', hout, hperm.trans ?_⟩
      rw [hnext, List.flatMap_cons, tree, List.append_assoc, List.singleton_append, List.cons_append]
      exact ((@List.perm_append_comm _ (queue.flatMap F.tree) (F.below a)).cons a).append_left out

end Forest
