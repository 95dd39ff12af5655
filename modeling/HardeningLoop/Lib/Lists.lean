import Mathlib.Algebra.BigOperators.Group.List.Basic
import Mathlib.Algebra.Order.BigOperators.Group.List

/-!
# Facts about lists

- `one_lt_length_filterMap`: a partial map is defined at two places of a list;
- `map_modify_of_eq`, `mem_modify`: a write at one place of a list;
- `sum_map_le_sum_map`: the sum over one list is at most the sum over another one that has an entry for each key;
- `firstMax`: the first of the elements with the greatest key (`isFirstMax_firstMax`, `IsFirstMax.unique`);
- `getLast?_filter_eq_some_iff`: the last element that a predicate selects from a list in increasing order.
-/

namespace Rows

universe u v w

variable {α : Type u} {β : Type v}

section Places

variable (f : α → Option β)

theorem length_filterMap_pos (l : List α) :
    0 < (l.filterMap f).length ↔ ∃ (j : Nat) (b : α), l[j]? = some b ∧ (f b).isSome := by
  rw [List.length_pos_iff_exists_mem]
  constructor
  · rintro ⟨c, hc⟩
    obtain ⟨b, hb, hf⟩ := List.mem_filterMap.mp hc
    obtain ⟨j, hj⟩ := List.mem_iff_getElem?.mp hb
    exact ⟨j, b, hj, by rw [hf]; rfl⟩
  · rintro ⟨j, b, hj, hf⟩
    obtain ⟨c, hc⟩ := Option.isSome_iff_exists.mp hf
    exact ⟨c, List.mem_filterMap.mpr ⟨b, List.mem_iff_getElem?.mpr ⟨j, hj⟩, hc⟩⟩

theorem one_lt_length_filterMap (l : List α) :
    1 < (l.filterMap f).length ↔
      ∃ (i j : Nat) (a b : α), i < j ∧ l[i]? = some a ∧ (f a).isSome ∧ l[j]? = some b ∧ (f b).isSome := by
  induction l with
  | nil => simp
  | cons x l ih =>
    have htail : 1 < (l.filterMap f).length → ∃ (i j : Nat) (a b : α), i < j ∧ (x :: l)[i]? = some a ∧ (f a).isSome ∧
        (x :: l)[j]? = some b ∧ (f b).isSome := by
      intro h
      obtain ⟨i, j, a, b, hij, ha, hfa, hb, hfb⟩ := ih.mp h
      exact ⟨i + 1, j + 1, a, b, Nat.succ_lt_succ hij, ha, hfa, hb, hfb⟩
    cases hx : f x with
    | none =>
      rw [List.filterMap_cons_none hx]
      refine ⟨htail, ?_⟩
      rintro ⟨i, j, a, b, hij, ha, hfa, hb, hfb⟩
      obtain ⟨j, rfl⟩ := Nat.exists_eq_succ_of_ne_zero (Nat.ne_of_gt (Nat.lt_of_le_of_lt (Nat.zero_le _) hij))
      cases i with
      | zero =>
        cases ha
        rw [hx] at hfa
        cases hfa
      | succ i => exact ih.mpr ⟨i, j, a, b, Nat.lt_of_succ_lt_succ hij, ha, hfa, hb, hfb⟩
    | some c =>
      rw [List.filterMap_cons_some hx, List.length_cons, Nat.lt_add_left_iff_pos, length_filterMap_pos]
      constructor
      · rintro ⟨j, b, hb, hfb⟩
        exact ⟨0, j + 1, x, b, Nat.succ_pos j, rfl, by rw [hx]; rfl, hb, hfb⟩
      · rintro ⟨i, j, a, b, hij, ha, hfa, hb, hfb⟩
        obtain ⟨j, rfl⟩ := Nat.exists_eq_succ_of_ne_zero (Nat.ne_of_gt (Nat.lt_of_le_of_lt (Nat.zero_le _) hij))
        exact ⟨j, b, hb, hfb⟩

end Places

/-- A write that a view does not see. -/
theorem map_modify_of_eq {l : List α} {i : Nat} {f : α → α} {g : α → β} (h : ∀ a, l[i]? = some a → g (f a) = g a) :
    (l.modify i f).map g = l.map g := by
  apply List.ext_getElem?
  intro j
  simp only [List.getElem?_map, List.getElem?_modify]
  by_cases hij : i = j
  · subst hij
    cases hl : l[i]? with
    | none => rfl
    | some a => simp [h a hl]
  · simp [hij]

theorem mem_modify {l : List α} {i : Nat} {f : α → α} {b : α} (hb : b ∈ l.modify i f) :
    b ∈ l ∨ ∃ a, l[i]? = some a ∧ b = f a := by
  obtain ⟨j, hj⟩ := List.mem_iff_getElem?.mp hb
  rw [List.getElem?_modify] at hj
  by_cases hij : i = j
  · subst hij
    simp only [if_true] at hj
    obtain ⟨a, ha, rfl⟩ := Option.map_eq_some_iff.mp hj
    exact Or.inr ⟨a, ha, rfl⟩
  · left
    refine List.mem_iff_getElem?.mpr ⟨j, ?_⟩
    simpa [hij] using hj

section Sums

variable {κ : Type w} {γ : Type*} [AddCommMonoid γ]

theorem sum_map_filter (p : α → Bool) (f : α → γ) (l : List α) :
    ((l.filter p).map f).sum = (l.map fun a => if p a then f a else 0).sum := by
  induction l with
  | nil => rfl
  | cons a l ih =>
    by_cases hp : p a = true
    · rw [List.filter_cons_of_pos hp, List.map_cons, List.sum_cons, List.map_cons, List.sum_cons, if_pos hp, ih]
    · rw [List.filter_cons_of_neg hp, List.map_cons, List.sum_cons, if_neg hp, zero_add, ih]

/-- A sum in two parts. -/
theorem sum_map_filter_add (p : α → Bool) (f : α → γ) (l : List α) :
    ((l.filter p).map f).sum + ((l.filter fun a => !p a).map f).sum = (l.map f).sum := by
  rw [sum_map_filter, sum_map_filter, ← List.sum_map_add]
  congr 2
  funext a
  cases p a <;> simp

variable [PartialOrder γ] [IsOrderedAddMonoid γ]

/-- Every entry of the first list has one of its key in the second list that is no smaller. -/
theorem sum_map_le_sum_map (key : α → κ) (key' : β → κ) (f : α → γ) (g : β → γ) (l : List α) (l' : List β)
    (hnodup : (l.map key).Nodup) (hnonneg : ∀ b ∈ l', 0 ≤ g b) (hle : ∀ a ∈ l, ∃ b ∈ l', key' b = key a ∧ f a ≤ g b) :
    (l.map f).sum ≤ (l'.map g).sum := by
  induction l generalizing l' with
  | nil =>
    refine List.sum_nonneg fun x hx => ?_
    obtain ⟨b, hb, rfl⟩ := List.mem_map.mp hx
    exact hnonneg b hb
  | cons a l ih =>
    obtain ⟨hnot, hnodup⟩ := List.nodup_cons.mp hnodup
    obtain ⟨b, hb, hkey, hfg⟩ := hle a List.mem_cons_self
    obtain ⟨s, t, rfl⟩ := List.append_of_mem hb
    have hrest : (l.map f).sum ≤ ((s ++ t).map g).sum := by
      refine ih (s ++ t) hnodup (fun b hb => hnonneg b ?_) fun a' ha' => ?_
      · rw [List.mem_append] at hb
        rw [List.mem_append, List.mem_cons]
        exact hb.imp_right Or.inr
      · obtain ⟨b', hb', hkey', hfg'⟩ := hle a' (List.mem_cons_of_mem a ha')
        have hne : b' ≠ b := by
          rintro rfl
          exact hnot (List.mem_map.mpr ⟨a', ha', hkey'.symm.trans hkey⟩)
        refine ⟨b', ?_, hkey', hfg'⟩
        rw [List.mem_append, List.mem_cons] at hb'
        rw [List.mem_append]
        exact hb'.imp_right fun h => h.resolve_left hne
    calc ((a :: l).map f).sum = f a + (l.map f).sum := by rw [List.map_cons, List.sum_cons]
      _ ≤ g b + ((s ++ t).map g).sum := add_le_add hfg hrest
      _ = ((s ++ b :: t).map g).sum := by
        simp only [List.map_append, List.map_cons, List.sum_append, List.sum_cons]
        exact add_left_comm _ _ _

end Sums

section Greatest

variable {κ : Type w} [LinearOrder κ] (key : α → κ)

/-- The first element of a list whose key is the greatest. -/
def firstMax (a : α) (l : List α) : α := l.foldl (fun best b => if key best < key b then b else best) a

/-- The element is the first of the greatest: keys before it are smaller, and keys after it are not greater. -/
def IsFirstMax (l : List α) (m : α) : Prop :=
  ∃ l₁ l₂, l = l₁ ++ m :: l₂ ∧ (∀ x ∈ l₁, key x < key m) ∧ ∀ x ∈ l₂, key x ≤ key m

variable {key}

theorem firstMax_cons (a b : α) (l : List α) :
    firstMax key a (b :: l) = if key a < key b then firstMax key b l else firstMax key a l := by
  rw [firstMax, List.foldl_cons]
  split <;> rfl

theorem IsFirstMax.cons_lt {a b m : α} {l : List α} (h : IsFirstMax key (b :: l) m) (hlt : key a < key b) :
    IsFirstMax key (a :: b :: l) m := by
  obtain ⟨l₁, l₂, hl, hbefore, hafter⟩ := h
  refine ⟨a :: l₁, l₂, congrArg (a :: ·) hl, fun x hx => ?_, hafter⟩
  rcases List.mem_cons.mp hx with hx | hx
  · rw [hx]
    cases l₁ with
    | nil => exact (List.cons.inj hl).1 ▸ hlt
    | cons c l₁ => exact hlt.trans ((List.cons.inj hl).1 ▸ hbefore c List.mem_cons_self)
  · exact hbefore x hx

theorem IsFirstMax.cons_ge {a b m : α} {l : List α} (h : IsFirstMax key (a :: l) m) (hge : key b ≤ key a) :
    IsFirstMax key (a :: b :: l) m := by
  obtain ⟨l₁, l₂, hl, hbefore, hafter⟩ := h
  cases l₁ with
  | nil =>
    obtain ⟨rfl, rfl⟩ := List.cons.inj hl
    refine ⟨[], b :: l, rfl, by simp, fun x hx => ?_⟩
    rcases List.mem_cons.mp hx with rfl | hx
    · exact hge
    · exact hafter x hx
  | cons c l₁ =>
    obtain ⟨rfl, htail⟩ := List.cons.inj hl
    refine ⟨a :: b :: l₁, l₂, congrArg (a :: b :: ·) htail, fun x hx => ?_, hafter⟩
    rcases List.mem_cons.mp hx with rfl | hx
    · exact hbefore x List.mem_cons_self
    · rcases List.mem_cons.mp hx with rfl | hx
      · exact hge.trans_lt (hbefore a List.mem_cons_self)
      · exact hbefore x (List.mem_cons_of_mem _ hx)

theorem isFirstMax_firstMax (a : α) (l : List α) : IsFirstMax key (a :: l) (firstMax key a l) := by
  induction l generalizing a with
  | nil => exact ⟨[], [], rfl, by simp, by simp⟩
  | cons b l ih =>
    rw [firstMax_cons]
    split
    · rename_i hlt
      exact (ih b).cons_lt hlt
    · rename_i hge
      exact (ih a).cons_ge (not_lt.mp hge)

theorem IsFirstMax.mem {l : List α} {m : α} (h : IsFirstMax key l m) : m ∈ l := by
  obtain ⟨l₁, l₂, rfl, -, -⟩ := h
  exact List.mem_append_right _ List.mem_cons_self

theorem IsFirstMax.le {l : List α} {m : α} (h : IsFirstMax key l m) {x : α} (hx : x ∈ l) : key x ≤ key m := by
  obtain ⟨l₁, l₂, rfl, hbefore, hafter⟩ := h
  rcases List.mem_append.mp hx with hx | hx
  · exact (hbefore x hx).le
  · rcases List.mem_cons.mp hx with rfl | hx
    · exact le_refl _
    · exact hafter x hx

/-- There is one first of the greatest. -/
theorem IsFirstMax.unique {l : List α} {m m' : α} (h : IsFirstMax key l m) (h' : IsFirstMax key l m') : m = m' := by
  obtain ⟨l₁, l₂, rfl, hbefore, hafter⟩ := h
  obtain ⟨l₁', l₂', hl, hbefore', hafter'⟩ := h'
  rcases List.append_eq_append_iff.mp hl with ⟨l, rfl, htail⟩ | ⟨l, rfl, htail⟩
  · cases l with
    | nil => exact (List.cons.inj htail).1
    | cons b l =>
      obtain ⟨rfl, rfl⟩ := List.cons.inj htail
      have hlt : key m < key m' := hbefore' m (List.mem_append_right _ List.mem_cons_self)
      exact absurd hlt (not_lt.mpr (hafter m' (List.mem_append_right _ List.mem_cons_self)))
  · cases l with
    | nil => exact (List.cons.inj htail).1.symm
    | cons b l =>
      obtain ⟨rfl, rfl⟩ := List.cons.inj htail
      have hlt : key m' < key m := hbefore m' (List.mem_append_right _ List.mem_cons_self)
      exact absurd hlt (not_lt.mpr (hafter' m (List.mem_append_right _ List.mem_cons_self)))

/-- The last element of a list in increasing order is its greatest. -/
theorem getLast?_eq_some_iff {l : List α} (hl : l.Pairwise fun a b => key a < key b) {a : α} :
    l.getLast? = some a ↔ a ∈ l ∧ ∀ b ∈ l, key b ≤ key a := by
  rcases List.eq_nil_or_concat l with rfl | ⟨init, z, rfl⟩
  · simp
  · rw [List.concat_eq_append] at hl ⊢
    have hlt : ∀ b ∈ init, key b < key z := fun b hb =>
      (List.pairwise_append.mp hl).2.2 b hb z List.mem_cons_self
    rw [List.getLast?_concat, Option.some.injEq]
    constructor
    · rintro rfl
      refine ⟨by simp, fun b hb => ?_⟩
      rcases List.mem_append.mp hb with hb | hb
      · exact (hlt b hb).le
      · rw [List.mem_singleton.mp hb]
    · rintro ⟨ha, hmax⟩
      rcases List.mem_append.mp ha with ha | ha
      · exact absurd (hmax z (by simp)) (hlt a ha).not_ge
      · exact (List.mem_singleton.mp ha).symm

/-- The last of the elements that a predicate selects is the greatest of them. -/
theorem getLast?_filter_eq_some_iff {l : List α} (hl : l.Pairwise fun a b => key a < key b) {p : α → Bool} {a : α} :
    (l.filter p).getLast? = some a ↔ (a ∈ l ∧ p a = true) ∧ ∀ b ∈ l, p b = true → key b ≤ key a := by
  rw [getLast?_eq_some_iff (hl.filter p)]
  simp only [List.mem_filter, and_imp]

end Greatest

end Rows
