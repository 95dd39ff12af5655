import Mathlib.Data.List.Basic
import Mathlib.Data.List.Range
import Mathlib.Data.List.Nodup

/-!
# Tables with automatic ids

A table of a relational store as the list of its rows in insertion order. The store numbers rows from `1` and never
deletes one, so the row with id `i + 1` is the one at position `i` (`Table.get?`), and the next id is one more than
the number of rows.

- reading: `get?`, the ids of the rows a predicate selects (`select`, `mem_select`), and the first of them (`first`);
- writing: `insert` and `modify`, each with its effect on every id (`get?_insert`, `get?_modify`);
- `Table.map` is a view of every row; a write that a view does not see commutes with it (`map_modify_of_eq`).
-/

namespace Rows

universe u v

/-- The rows of a table, in the order they were inserted. -/
structure Table (ρ : Type u) where
  rows : List ρ
  deriving DecidableEq, Repr

namespace Table

variable {ρ : Type u} {α : Type v}

/-- No rows. -/
def empty : Table ρ := ⟨[]⟩

/-- The number of rows, which is the greatest id. -/
def size (t : Table ρ) : Nat := t.rows.length

/-- The row with a given id. -/
def get? (t : Table ρ) : Nat → Option ρ
  | 0 => none
  | i + 1 => t.rows[i]?

/-- The id the next inserted row gets. -/
def nextId (t : Table ρ) : Nat := t.rows.length + 1

/-- Insert a row under the next id. -/
def insert (t : Table ρ) (r : ρ) : Table ρ := ⟨t.rows ++ [r]⟩

/-- Rewrite the row with a given id, if there is one. -/
def modify (t : Table ρ) (i : Nat) (f : ρ → ρ) : Table ρ :=
  match i with
  | 0 => t
  | i + 1 => ⟨t.rows.modify i f⟩

/-- The ids in use, in increasing order. -/
def ids (t : Table ρ) : List Nat := List.range' 1 t.rows.length

/-- The ids of the rows a predicate selects, in increasing order. -/
def select (t : Table ρ) (p : ρ → Bool) : List Nat := t.ids.filter fun i => (t.get? i).any p

/-- The first id whose row a predicate selects. -/
def first (t : Table ρ) (p : ρ → Bool) : Option Nat := (t.select p).head?

/-- A view of every row. -/
def map (t : Table ρ) (g : ρ → α) : Table α := ⟨t.rows.map g⟩

/-! ## Reading -/

@[simp] theorem get?_zero (t : Table ρ) : t.get? 0 = none := rfl

@[simp] theorem get?_empty (i : Nat) : (empty : Table ρ).get? i = none := by cases i <;> rfl

theorem get?_map (t : Table ρ) (g : ρ → α) (i : Nat) : (t.map g).get? i = (t.get? i).map g := by
  cases i with
  | zero => rfl
  | succ i => simp [get?, map]

/-- Two tables with the same rows under every id are the same. -/
theorem ext_get? {t t' : Table ρ} (h : ∀ i, t.get? i = t'.get? i) : t = t' := by
  obtain ⟨l⟩ := t
  obtain ⟨l'⟩ := t'
  congr 1
  exact List.ext_getElem? fun i => h (i + 1)

theorem lt_of_get? {t : Table ρ} {i : Nat} {r : ρ} (h : t.get? i = some r) : 1 ≤ i ∧ i ≤ t.size := by
  cases i with
  | zero => cases h
  | succ i =>
    have := (List.getElem?_eq_some_iff.mp h).1
    exact ⟨Nat.succ_le_succ (Nat.zero_le i), this⟩

theorem get?_isSome {t : Table ρ} {i : Nat} : (t.get? i).isSome ↔ 1 ≤ i ∧ i ≤ t.size := by
  cases i with
  | zero => simp
  | succ i =>
    have h : (t.get? (i + 1)).isSome ↔ i < t.rows.length := by simp [get?]
    rw [h]
    unfold size
    omega

theorem mem_rows {t : Table ρ} {i : Nat} {r : ρ} (h : t.get? i = some r) : r ∈ t.rows := by
  cases i with
  | zero => cases h
  | succ i => exact List.mem_of_getElem? h

theorem mem_ids {t : Table ρ} {i : Nat} : i ∈ t.ids ↔ (t.get? i).isSome := by
  rw [get?_isSome]
  simp only [ids, List.mem_range'_1, size]
  omega

theorem mem_select {t : Table ρ} {p : ρ → Bool} {i : Nat} :
    i ∈ t.select p ↔ ∃ r, t.get? i = some r ∧ p r = true := by
  simp only [select, List.mem_filter, mem_ids, Option.any_eq_true]
  constructor
  · rintro ⟨_, r, hr, hp⟩; exact ⟨r, hr, hp⟩
  · rintro ⟨r, hr, hp⟩; exact ⟨by simp [hr], r, hr, hp⟩

theorem nodup_select (t : Table ρ) (p : ρ → Bool) : (t.select p).Nodup :=
  List.Nodup.filter _ (List.nodup_range' ..)

theorem select_congr {t t' : Table ρ} {p q : ρ → Bool} (hs : t.size = t'.size)
    (h : ∀ i, (t.get? i).any p = (t'.get? i).any q) : t.select p = t'.select q := by
  simp only [size] at hs
  simp only [select, ids, hs, h]

theorem first_eq_some {t : Table ρ} {p : ρ → Bool} {i : Nat} (h : t.first p = some i) :
    ∃ r, t.get? i = some r ∧ p r = true :=
  mem_select.mp (List.mem_of_mem_head? h)

theorem first_eq_none {t : Table ρ} {p : ρ → Bool} (h : t.first p = none) {i : Nat} {r : ρ}
    (hr : t.get? i = some r) : p r = false := by
  have hnil : t.select p = [] := List.head?_eq_none_iff.mp h
  by_contra hp
  have : i ∈ t.select p := mem_select.mpr ⟨r, hr, by simpa using hp⟩
  rw [hnil] at this
  cases this

/-! ## Writing -/

@[simp] theorem size_insert (t : Table ρ) (r : ρ) : (t.insert r).size = t.size + 1 := by simp [size, insert]

@[simp] theorem size_modify (t : Table ρ) (i : Nat) (f : ρ → ρ) : (t.modify i f).size = t.size := by
  cases i <;> simp [size, modify]

@[simp] theorem size_map (t : Table ρ) (g : ρ → α) : (t.map g).size = t.size := by simp [size, map]

theorem get?_modify (t : Table ρ) (i j : Nat) (f : ρ → ρ) :
    (t.modify i f).get? j = if j = i then (t.get? j).map f else t.get? j := by
  cases i with
  | zero =>
    cases j with
    | zero => simp [modify]
    | succ j => simp [modify]
  | succ i =>
    cases j with
    | zero => simp [get?]
    | succ j =>
      simp only [get?, modify, List.getElem?_modify, Nat.add_right_cancel_iff]
      by_cases h : j = i
      · subst h; simp
      · simp [h, Ne.symm h]

@[simp] theorem get?_modify_self (t : Table ρ) (i : Nat) (f : ρ → ρ) :
    (t.modify i f).get? i = (t.get? i).map f := by rw [get?_modify, if_pos rfl]

theorem get?_modify_of_ne {t : Table ρ} {i j : Nat} (f : ρ → ρ) (h : j ≠ i) : (t.modify i f).get? j = t.get? j := by
  rw [get?_modify, if_neg h]

theorem modify_of_none {t : Table ρ} {i : Nat} (f : ρ → ρ) (h : t.get? i = none) : t.modify i f = t :=
  ext_get? fun j => by
    rw [get?_modify]
    split
    · rename_i hj; rw [hj, h]; rfl
    · rfl

/-- A write depends only on what it makes of the row. -/
theorem modify_congr {t : Table ρ} {i : Nat} {f g : ρ → ρ} (h : ∀ r, t.get? i = some r → f r = g r) :
    t.modify i f = t.modify i g :=
  ext_get? fun j => by
    rw [get?_modify, get?_modify]
    split
    · rename_i hj
      cases hr : t.get? j with
      | none => rfl
      | some r => exact congrArg some (h r (hj ▸ hr))
    · rfl

theorem modify_eq_self {t : Table ρ} {i : Nat} {f : ρ → ρ} (h : ∀ r, t.get? i = some r → f r = r) : t.modify i f = t :=
  ext_get? fun j => by
    rw [get?_modify]
    split
    · rename_i hj
      cases hr : t.get? j with
      | none => rfl
      | some r => exact congrArg some (h r (hj ▸ hr))
    · rfl

theorem modify_modify (t : Table ρ) (i : Nat) (f g : ρ → ρ) : (t.modify i f).modify i g = t.modify i (g ∘ f) :=
  ext_get? fun j => by
    rw [get?_modify, get?_modify, get?_modify]
    split
    · rw [Option.map_map]
    · rfl

theorem get?_insert (t : Table ρ) (r : ρ) (i : Nat) :
    (t.insert r).get? i = if i = t.nextId then some r else t.get? i := by
  cases i with
  | zero => simp [nextId]
  | succ i =>
    simp only [get?, insert, nextId, Nat.add_right_cancel_iff]
    by_cases h : i = t.rows.length
    · subst h; simp
    · rw [if_neg h]
      rcases Nat.lt_or_gt_of_ne h with h | h
      · rw [List.getElem?_append_left h]
      · rw [List.getElem?_eq_none (by simp; omega), List.getElem?_eq_none (by omega)]

@[simp] theorem get?_insert_self (t : Table ρ) (r : ρ) : (t.insert r).get? t.nextId = some r := by
  rw [get?_insert, if_pos rfl]

@[simp] theorem get?_nextId (t : Table ρ) : t.get? t.nextId = none := by simp [get?, nextId]

/-- An insert keeps every row that is there. -/
theorem get?_insert_of_some {t : Table ρ} {i : Nat} {r : ρ} (r' : ρ) (h : t.get? i = some r) :
    (t.insert r').get? i = some r := by
  rw [get?_insert, if_neg]
  · exact h
  · rintro rfl; simp at h

/-! ## Writes and the first row of a kind -/

theorem select_insert (t : Table ρ) (r : ρ) (p : ρ → Bool) :
    (t.insert r).select p = t.select p ++ if p r then [t.nextId] else [] := by
  have hids : (t.insert r).ids = t.ids ++ [t.nextId] := by
    simp [ids, insert, nextId, List.range'_concat, Nat.add_comm]
  have hold : t.ids.filter (fun i => ((t.insert r).get? i).any p) = t.select p := by
    refine List.filter_congr fun i hi => ?_
    obtain ⟨r', hr'⟩ := Option.isSome_iff_exists.mp (mem_ids.mp hi)
    rw [get?_insert_of_some r hr', hr']
  rw [select, hids, List.filter_append, hold]
  by_cases hp : p r <;> simp [hp]

/-- A new row is the first of its kind only when there was none. -/
theorem first_insert (t : Table ρ) (r : ρ) (p : ρ → Bool) :
    (t.insert r).first p = (t.first p).or (if p r then some t.nextId else none) := by
  rw [first, select_insert, List.head?_append, first]
  by_cases hp : p r <;> simp [hp]

/-- A write that keeps the kind of every row. -/
theorem first_modify {t : Table ρ} (i : Nat) {f : ρ → ρ} {p : ρ → Bool} (h : ∀ r, p (f r) = p r) :
    (t.modify i f).first p = t.first p := by
  have hselect : (t.modify i f).select p = t.select p := by
    refine select_congr (size_modify ..) fun j => ?_
    rw [get?_modify]
    split
    · rw [Option.any_map]
      exact congrFun (congrArg Option.any (funext h)) _
    · rfl
  rw [first, first, hselect]

/-! ## Views -/

theorem first_map (t : Table ρ) (g : ρ → α) (p : α → Bool) : (t.map g).first p = t.first fun r => p (g r) := by
  have hany (i : Nat) : ((t.map g).get? i).any p = (t.get? i).any fun r => p (g r) := by
    rw [get?_map, Option.any_map]
  have hids : (t.map g).ids = t.ids := by simp only [ids, map, List.length_map]
  simp only [first, select, hany, hids]

/-- A write that a view does not see. -/
theorem map_modify_of_eq {t : Table ρ} {i : Nat} {f : ρ → ρ} {g : ρ → α} (h : ∀ r, g (f r) = g r) :
    (t.modify i f).map g = t.map g := by
  cases i with
  | zero => rfl
  | succ i =>
    simp only [map, modify, mk.injEq]
    apply List.ext_getElem?
    intro j
    simp only [List.getElem?_map, List.getElem?_modify]
    cases t.rows[j]? with
    | none => rfl
    | some r => by_cases hij : i = j <;> simp [hij, h]

theorem map_insert (t : Table ρ) (r : ρ) (g : ρ → α) : (t.insert r).map g = (t.map g).insert (g r) := by
  simp [map, insert]

end Table

end Rows
