import Mathlib.Data.List.Nodup

/-!
# Dictionaries in insertion order

A dictionary as the list of its items: setting a key that is there rewrites its value in place, setting a new one
appends it, so iteration is in insertion order.
-/

namespace Dict

universe u v

variable {κ : Type u} {α : Type v} [DecidableEq κ]

/-- The value under a key. -/
def get? : List (κ × α) → κ → Option α
  | [], _ => none
  | (k', a) :: d, k => if k = k' then some a else get? d k

/-- Set the value under a key. -/
def set : List (κ × α) → κ → α → List (κ × α)
  | [], k, a => [(k, a)]
  | (k', a') :: d, k, a => if k = k' then (k', a) :: d else (k', a') :: set d k a

/-- The values, in insertion order. -/
def values (d : List (κ × α)) : List α := d.map Prod.snd

theorem get?_set (d : List (κ × α)) (k j : κ) (a : α) : get? (set d k a) j = if j = k then some a else get? d j := by
  induction d with
  | nil => rfl
  | cons kv d ih =>
    obtain ⟨k', a'⟩ := kv
    by_cases hk : k = k'
    · subst hk
      by_cases h : j = k <;> simp [set, get?, h]
    · by_cases h : j = k'
      · have hjk : ¬ j = k := fun e => hk (e.symm.trans h)
        simp [set, get?, hk, h, Ne.symm hk]
      · simp [set, get?, hk, h, ih]

theorem mem_set {d : List (κ × α)} {k : κ} {a : α} {kv : κ × α} (h : kv ∈ set d k a) : kv ∈ d ∨ kv = (k, a) := by
  induction d with
  | nil => exact Or.inr (List.mem_singleton.mp h)
  | cons kv' d ih =>
    obtain ⟨k', a'⟩ := kv'
    simp only [set] at h
    split at h
    · rename_i hk
      rcases List.mem_cons.mp h with rfl | h
      · exact Or.inr (by rw [hk])
      · exact Or.inl (List.mem_cons_of_mem _ h)
    · rcases List.mem_cons.mp h with rfl | h
      · exact Or.inl List.mem_cons_self
      · exact (ih h).imp_left (List.mem_cons_of_mem _)

/-- The keys, in insertion order. -/
theorem keys_set (d : List (κ × α)) (k : κ) (a : α) :
    (set d k a).map Prod.fst = if k ∈ d.map Prod.fst then d.map Prod.fst else d.map Prod.fst ++ [k] := by
  induction d with
  | nil => rfl
  | cons kv d ih =>
    obtain ⟨k', a'⟩ := kv
    by_cases hk : k = k'
    · simp [set, hk]
    · rw [set, if_neg hk, List.map_cons, ih]
      by_cases hmem : k ∈ d.map Prod.fst <;> simp [hmem, hk]

theorem mem_keys_set {d : List (κ × α)} {k j : κ} {a : α} :
    j ∈ (set d k a).map Prod.fst ↔ j ∈ d.map Prod.fst ∨ j = k := by
  rw [keys_set]
  split
  · rename_i hk
    exact ⟨Or.inl, fun h => h.elim id fun e => e ▸ hk⟩
  · rw [List.mem_append, List.mem_singleton]

/-- Setting keys one by one keeps them apart. -/
theorem nodup_keys_set {d : List (κ × α)} (h : (d.map Prod.fst).Nodup) (k : κ) (a : α) :
    ((set d k a).map Prod.fst).Nodup := by
  rw [keys_set]
  split
  · exact h
  · rename_i hk
    exact List.Nodup.append h (List.nodup_singleton k) (by simpa using hk)

theorem mem_of_get? {d : List (κ × α)} {k : κ} {a : α} (h : get? d k = some a) : (k, a) ∈ d := by
  induction d with
  | nil => cases h
  | cons kv d ih =>
    obtain ⟨k', a'⟩ := kv
    simp only [get?] at h
    split at h
    · rename_i hk
      cases h
      exact hk ▸ List.mem_cons_self
    · exact List.mem_cons_of_mem _ (ih h)

theorem get?_of_mem {d : List (κ × α)} (hnd : (d.map Prod.fst).Nodup) {k : κ} {a : α} (h : (k, a) ∈ d) :
    get? d k = some a := by
  induction d with
  | nil => cases h
  | cons kv d ih =>
    obtain ⟨k', a'⟩ := kv
    rw [List.map_cons, List.nodup_cons] at hnd
    rcases List.mem_cons.mp h with heq | h
    · cases heq
      exact if_pos rfl
    · have hne : k ≠ k' := by
        intro heq
        exact hnd.1 (heq ▸ List.mem_map.mpr ⟨(k, a), h, rfl⟩)
      rw [get?, if_neg hne]
      exact ih hnd.2 h

theorem get?_isSome {d : List (κ × α)} {k : κ} : (get? d k).isSome ↔ k ∈ d.map Prod.fst := by
  induction d with
  | nil => simp [get?]
  | cons kv d ih =>
    obtain ⟨k', a'⟩ := kv
    by_cases hk : k = k'
    · simp [get?, hk]
    · simp [get?, hk, ih]

/-! ## Filling a dictionary from a list -/

section Fill

variable {ρ : Type*} (key : ρ → κ) (up : Option α → ρ → α)

/-- Each record rewrites the value under its key. -/
def fill (d : List (κ × α)) (l : List ρ) : List (κ × α) := l.foldl (fun d r => set d (key r) (up (get? d (key r)) r)) d

/-- What ends up under a key depends on the records of that key alone. -/
theorem get?_fill (d : List (κ × α)) (l : List ρ) (k : κ) :
    get? (fill key up d l) k = (l.filter (key · = k)).foldl (fun o r => some (up o r)) (get? d k) := by
  unfold fill
  induction l generalizing d with
  | nil => rfl
  | cons r l ih =>
    rw [List.foldl_cons, ih, get?_set]
    by_cases hk : key r = k
    · rw [List.filter_cons_of_pos (by simpa using hk), if_pos hk.symm, List.foldl_cons, hk]
    · rw [List.filter_cons_of_neg (by simpa using hk), if_neg (Ne.symm hk)]

theorem nodup_keys_fill {d : List (κ × α)} (h : (d.map Prod.fst).Nodup) (l : List ρ) :
    ((fill key up d l).map Prod.fst).Nodup := by
  unfold fill
  induction l generalizing d with
  | nil => exact h
  | cons r l ih => exact ih (nodup_keys_set h _ _)

theorem mem_keys_fill {d : List (κ × α)} {l : List ρ} {k : κ} :
    k ∈ (fill key up d l).map Prod.fst ↔ k ∈ d.map Prod.fst ∨ ∃ r ∈ l, key r = k := by
  unfold fill
  induction l generalizing d with
  | nil => simp
  | cons r l ih =>
    rw [List.foldl_cons, ih, mem_keys_set, @eq_comm _ k, or_assoc]
    simp only [List.mem_cons, exists_eq_or_imp]

/-- When the old value does not matter, the last record of a key decides. -/
theorem get?_fill_const (g : ρ → α) (d : List (κ × α)) (l : List ρ) (k : κ) :
    get? (fill key (fun _ => g) d l) k = ((l.filter (key · = k)).getLast?.map g).or (get? d k) := by
  rw [get?_fill]
  rcases List.eq_nil_or_concat (l.filter (key · = k)) with hrs | ⟨rs, r, hrs⟩
  · rw [hrs]
    rfl
  · rw [hrs, List.concat_eq_append, List.foldl_append, List.getLast?_concat]
    rfl

/-- Records of different keys are all there. -/
theorem get?_fill_distinct (g : ρ → α) {l : List ρ} (hnd : (l.map key).Nodup) {k : κ} {a : α} :
    get? (fill key (fun _ => g) [] l) k = some a ↔ ∃ r ∈ l, key r = k ∧ g r = a := by
  rw [get?_fill_const, get?, Option.or_none, Option.map_eq_some_iff]
  constructor
  · rintro ⟨r, hlast, hg⟩
    obtain ⟨hr, hkey⟩ := List.mem_filter.mp (List.mem_of_getLast? hlast)
    exact ⟨r, hr, of_decide_eq_true hkey, hg⟩
  · rintro ⟨r, hr, hkey, hg⟩
    have hmem : r ∈ l.filter (key · = k) := List.mem_filter.mpr ⟨hr, decide_eq_true hkey⟩
    obtain ⟨last, hlast⟩ := Option.ne_none_iff_exists'.mp (mt List.getLast?_eq_none_iff.mp (List.ne_nil_of_mem hmem))
    obtain ⟨hl, hlkey⟩ := List.mem_filter.mp (List.mem_of_getLast? hlast)
    cases List.inj_on_of_nodup_map hnd hl hr ((of_decide_eq_true hlkey).trans hkey.symm)
    exact ⟨r, hlast, hg⟩

end Fill

/-- Setting a key to the value it has. -/
theorem set_get? {d : List (κ × α)} {k : κ} {a : α} (h : get? d k = some a) : set d k a = d := by
  induction d with
  | nil => cases h
  | cons kv d ih =>
    obtain ⟨k', a'⟩ := kv
    simp only [get?] at h
    by_cases hk : k = k'
    · rw [if_pos hk] at h
      cases h
      rw [set, if_pos hk]
    · rw [if_neg hk] at h
      rw [set, if_neg hk, ih h]

/-- A counter counts. -/
theorem get?_counter (l : List κ) (k : κ) :
    (get? (fill id (fun o _ => o.getD 0 + 1) [] l) k).getD 0 = l.count k := by
  have hcount (l : List κ) (o : Option Nat) :
      (l.foldl (fun o _ => some (o.getD 0 + 1)) o).getD 0 = o.getD 0 + l.length := by
    induction l generalizing o with
    | nil => rfl
    | cons a l ih =>
      rw [List.foldl_cons, ih, Option.getD_some, List.length_cons]
      omega
  rw [get?_fill, hcount, List.count, List.countP_eq_length_filter]
  simp only [get?, Option.getD_none, Nat.zero_add]
  rfl

/-- Items of one key are one item. -/
theorem keys_foldl_set {ρ : Type*} (key : ρ → κ) (up : List (κ × α) → ρ → α) {l : List ρ} {k : κ} (hne : l ≠ [])
    (hkey : ∀ r ∈ l, key r = k) : (l.foldl (fun d r => set d (key r) (up d r)) []).map Prod.fst = [k] := by
  have hkeep (l : List ρ) (hkey : ∀ r ∈ l, key r = k) (d : List (κ × α)) (hd : d.map Prod.fst = [k]) :
      (l.foldl (fun d r => set d (key r) (up d r)) d).map Prod.fst = [k] := by
    induction l generalizing d with
    | nil => exact hd
    | cons r l ih =>
      apply ih fun r' hr' => hkey r' (List.mem_cons_of_mem _ hr')
      rw [keys_set, hkey r List.mem_cons_self, hd, if_pos (List.mem_singleton_self k)]
  cases l with
  | nil => exact absurd rfl hne
  | cons r l =>
    apply hkeep l fun r' hr' => hkey r' (List.mem_cons_of_mem _ hr')
    rw [keys_set, hkey r List.mem_cons_self]
    rfl

end Dict
