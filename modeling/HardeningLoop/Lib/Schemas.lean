import Mathlib.Data.List.Nodup
import Mathlib.Data.List.Basic

/-!
# Schemas that change step by step

A schema is the list of the columns of its tables. A change adds a column to a table or gives one another name; it is
refused where the table or the column is missing, or the new name is taken.

- `Between made coming s`: of a list of changes, the schema has seen those that are made and none of those that are
  coming;
- `Between.applyAll`: then the next changes go through, one after another;
- `Between.refuses`: and a change that is made is refused;
- `Between.extend`: other tables are no matter;
- `Covers target coming s`: the tables that are there have the columns of a target schema, but for those that are
  coming. Changes that take none of them away keep that (`Covers.applyAll`), and so do new tables that are whole
  (`Covers.extend`).
-/

namespace Columns

universe u v

variable {τ : Type u} {κ : Type v} [DecidableEq τ] [DecidableEq κ]

inductive Change (τ : Type u) (κ : Type v) where
  | add (table : τ) (column : κ)
  | rename (table : τ) (old new : κ)
  deriving DecidableEq

namespace Change

/-- The column that is there after the change. -/
def gains : Change τ κ → τ × κ
  | add t c => (t, c)
  | rename t _ new => (t, new)

/-- The column that is not there any more. -/
def loses : Change τ κ → Option (τ × κ)
  | add _ _ => none
  | rename t old _ => some (t, old)

/-- What a change is made of is there. -/
def Applies (s : List (τ × κ)) : Change τ κ → Prop
  | add t _ => t ∈ s.map Prod.fst
  | rename t old _ => (t, old) ∈ s

instance instDecidableApplies (s : List (τ × κ)) : (c : Change τ κ) → Decidable (c.Applies s)
  | add t _ => inferInstanceAs (Decidable (t ∈ s.map Prod.fst))
  | rename t old _ => inferInstanceAs (Decidable ((t, old) ∈ s))

/-- The columns after the change, for one that applies. -/
def columns (s : List (τ × κ)) : Change τ κ → List (τ × κ)
  | add t c => s ++ [(t, c)]
  | rename t old new => s.map fun x => if x = (t, old) then (t, new) else x

/-- `ALTER TABLE`. -/
def apply (s : List (τ × κ)) (c : Change τ κ) : Option (List (τ × κ)) :=
  if c.Applies s ∧ c.gains ∉ s then some (c.columns s) else none

variable {c : Change τ κ} {s s' : List (τ × κ)}

theorem apply_of_gains (h : c.gains ∈ s) : c.apply s = none := if_neg fun hc => hc.2 h

theorem mem_columns (ha : c.Applies s) {x : τ × κ} : x ∈ c.columns s ↔ x ∈ s ∧ c.loses ≠ some x ∨ x = c.gains := by
  cases c with
  | add t col => simp [columns, gains, loses]
  | rename t old new =>
    have hold : (t, old) ∈ s := ha
    simp only [columns, gains, loses, List.mem_map, ne_eq, Option.some.injEq]
    constructor
    · rintro ⟨y, hy, rfl⟩
      split
      · exact .inr rfl
      · rename_i hne
        exact .inl ⟨hy, fun h => hne h.symm⟩
    · rintro (⟨hx, hne⟩ | rfl)
      · exact ⟨x, hx, if_neg fun h => hne h.symm⟩
      · exact ⟨(t, old), hold, if_pos rfl⟩

/-- Tables are there to stay. -/
theorem table_mem_columns {t : τ} (h : t ∈ s.map Prod.fst) : t ∈ (c.columns s).map Prod.fst := by
  obtain ⟨x, hx, rfl⟩ := List.mem_map.mp h
  cases c with
  | add t col => exact List.mem_map.mpr ⟨x, List.mem_append_left _ hx, rfl⟩
  | rename t old new =>
    refine List.mem_map.mpr ⟨_, List.mem_map_of_mem hx, ?_⟩
    split
    · rename_i hold
      rw [hold]
    · rfl

omit [DecidableEq τ] [DecidableEq κ] in
/-- A change is of a table that is there. -/
theorem gains_table (ha : c.Applies s) : c.gains.1 ∈ s.map Prod.fst := by
  cases c with
  | add t col => exact ha
  | rename t old new => exact List.mem_map.mpr ⟨(t, old), ha, rfl⟩

theorem table_mem_columns_iff (ha : c.Applies s) {t : τ} : t ∈ (c.columns s).map Prod.fst ↔ t ∈ s.map Prod.fst := by
  refine ⟨fun h => ?_, table_mem_columns⟩
  obtain ⟨x, hx, rfl⟩ := List.mem_map.mp h
  rcases (mem_columns ha).mp hx with ⟨hx, -⟩ | rfl
  · exact List.mem_map_of_mem hx
  · exact gains_table ha

end Change

/-- The changes of a transaction, one after another. -/
def applyAll (s : List (τ × κ)) (changes : List (Change τ κ)) : Option (List (τ × κ)) := changes.foldlM Change.apply s

/-- No column is added twice or lost twice, and none is lost that is added. -/
structure Distinct (changes : List (Change τ κ)) : Prop where
  gains : (changes.map Change.gains).Nodup
  loses : (changes.filterMap Change.loses).Nodup
  apart : ∀ c ∈ changes, ∀ c' ∈ changes, c.loses ≠ some c'.gains

/-- The schema has seen the changes that are made, and none of those that are coming. -/
structure Between (made coming : List (Change τ κ)) (s : List (τ × κ)) : Prop where
  gained : ∀ c ∈ made, c.gains ∈ s
  lost : ∀ c ∈ made, ∀ x, c.loses = some x → x ∉ s
  lacking : ∀ c ∈ coming, c.gains ∉ s
  applies : ∀ c ∈ coming, c.Applies s

section Steps

variable {made coming cs : List (Change τ κ)} {c : Change τ κ} {s : List (τ × κ)}

/-- **A change that was made is refused.** -/
theorem Between.refuses (h : Between made coming s) (hc : c ∈ made) : applyAll s (c :: cs) = none := by
  rw [applyAll, List.foldlM_cons, Change.apply_of_gains (h.gained c hc)]
  rfl

/-- **The next change goes through.** -/
theorem Between.apply (hd : Distinct (made ++ c :: coming)) (h : Between made (c :: coming) s) :
    c.apply s = some (c.columns s) ∧ Between (made ++ [c]) coming (c.columns s) := by
  have ha := h.applies c List.mem_cons_self
  have hin : c ∈ made ++ c :: coming := List.mem_append_right _ List.mem_cons_self
  have hmade {c' : Change τ κ} (h' : c' ∈ made) : c' ∈ made ++ c :: coming := List.mem_append_left _ h'
  have hcoming {c' : Change τ κ} (h' : c' ∈ coming) : c' ∈ made ++ c :: coming :=
    List.mem_append_right _ (List.mem_cons_of_mem _ h')
  refine ⟨if_pos ⟨ha, h.lacking c List.mem_cons_self⟩, ?_, ?_, ?_, ?_⟩
  · intro c' hc'
    rw [Change.mem_columns ha]
    rcases List.mem_append.mp hc' with hc' | hc'
    · exact .inl ⟨h.gained c' hc', hd.apart c hin c' (hmade hc')⟩
    · exact .inr (congrArg Change.gains (List.mem_singleton.mp hc'))
  · intro c' hc' x hx
    rw [Change.mem_columns ha, not_or, not_and, not_not]
    rcases List.mem_append.mp hc' with hc' | hc'
    · refine ⟨fun hxs => absurd hxs (h.lost c' hc' x hx), ?_⟩
      rintro rfl
      exact hd.apart c' (hmade hc') c hin hx
    · rw [List.mem_singleton.mp hc'] at hx
      refine ⟨fun _ => hx, ?_⟩
      rintro rfl
      exact hd.apart c hin c hin hx
  · intro c' hc'
    rw [Change.mem_columns ha, not_or, not_and]
    refine ⟨fun hs => absurd hs (h.lacking c' (List.mem_cons_of_mem _ hc')), fun hsame => ?_⟩
    -- the change itself is not to come again
    have hnodup := hd.gains
    rw [List.map_append, List.map_cons] at hnodup
    have hno := (List.nodup_cons.mp (List.Nodup.of_append_right hnodup)).1
    exact hno (hsame ▸ List.mem_map_of_mem hc')
  · intro c' hc'
    have happlies := h.applies c' (List.mem_cons_of_mem _ hc')
    cases c' with
    | add t col => exact Change.table_mem_columns happlies
    | rename t old new =>
      refine (Change.mem_columns ha).mpr (.inl ⟨happlies, fun hlost => ?_⟩)
      have hnodup := hd.loses
      rw [List.filterMap_append, List.filterMap_cons_some hlost] at hnodup
      have hno := (List.nodup_cons.mp (List.Nodup.of_append_right hnodup)).1
      exact hno (List.mem_filterMap.mpr ⟨.rename t old new, hc', rfl⟩)

/-- **The next changes go through**, one after another. -/
theorem Between.applyAll (hd : Distinct (made ++ (cs ++ coming))) (h : Between made (cs ++ coming) s) :
    ∃ s', applyAll s cs = some s' ∧ Between (made ++ cs) coming s' := by
  induction cs generalizing made s with
  | nil => exact ⟨s, rfl, by rwa [List.append_nil]⟩
  | cons c cs ih =>
    obtain ⟨happly, hnext⟩ := Between.apply hd h
    rw [List.cons_append, List.append_cons] at hd
    obtain ⟨s', hs', hbetween⟩ := ih hd hnext
    refine ⟨s', ?_, by rwa [← List.append_cons] at hbetween⟩
    rw [Columns.applyAll, List.foldlM_cons, happly]
    exact hs'

omit [DecidableEq τ] [DecidableEq κ] in
/-- Columns of other tables are no matter. -/
theorem Between.extend (h : Between made coming s) {other : List (τ × κ)} (ho : ∀ x ∈ other, x.1 ∉ s.map Prod.fst) :
    Between made coming (s ++ other) := by
  have hno {x : τ × κ} (hx : x ∉ s) (ht : x.1 ∈ s.map Prod.fst) : x ∉ s ++ other := by
    intro hmem
    rcases List.mem_append.mp hmem with hmem | hmem
    · exact hx hmem
    · exact ho x hmem ht
  refine ⟨fun c hc => List.mem_append_left _ (h.gained c hc), fun c hc x hx => ?_, fun c hc => ?_, fun c hc => ?_⟩
  · have hgained := List.mem_map_of_mem (f := Prod.fst) (h.gained c hc)
    refine hno (h.lost c hc x hx) ?_
    cases c with
    | add t col => cases hx
    | rename t old new =>
      obtain rfl := Option.some.inj hx
      exact hgained
  · refine hno (h.lacking c hc) ?_
    have happlies := h.applies c hc
    cases c with
    | add t col => exact happlies
    | rename t old new => exact List.mem_map.mpr ⟨(t, old), happlies, rfl⟩
  · have happlies := h.applies c hc
    cases c with
    | add t col =>
      rw [Change.Applies, List.map_append]
      exact List.mem_append_left _ happlies
    | rename t old new => exact List.mem_append_left _ happlies

end Steps

/-! ## The schema that is to be reached -/

/-- The tables that are there have the columns of the target, but for those that are coming. -/
def Covers (target : List (τ × κ)) (coming : List (Change τ κ)) (s : List (τ × κ)) : Prop :=
  ∀ x ∈ target, x.1 ∈ s.map Prod.fst → x ∈ s ∨ x ∈ coming.map Change.gains

section Covers

variable {coming cs : List (Change τ κ)} {s s' target : List (τ × κ)}

theorem applyAll_cons_eq_some {c : Change τ κ} (h : applyAll s (c :: cs) = some s') :
    c.Applies s ∧ applyAll (c.columns s) cs = some s' := by
  rw [applyAll, List.foldlM_cons] at h
  obtain ⟨s₁, hc, hrest⟩ := Option.bind_eq_some_iff.mp h
  unfold Change.apply at hc
  split at hc
  · rename_i happlies
    obtain rfl := Option.some.inj hc
    exact ⟨happlies.1, hrest⟩
  · cases hc

/-- The changes make no table and take none away. -/
theorem applyAll_tables (h : applyAll s cs = some s') {t : τ} : t ∈ s'.map Prod.fst ↔ t ∈ s.map Prod.fst := by
  induction cs generalizing s with
  | nil => rw [Option.some.inj h]
  | cons c cs ih =>
    obtain ⟨happlies, hrest⟩ := applyAll_cons_eq_some h
    rw [ih hrest, Change.table_mem_columns_iff happlies]

/-- A column that no change takes away stays. -/
theorem mem_applyAll (h : applyAll s cs = some s') {x : τ × κ} (hx : x ∈ s) (hno : ∀ c ∈ cs, c.loses ≠ some x) :
    x ∈ s' := by
  induction cs generalizing s with
  | nil => rwa [← Option.some.inj h]
  | cons c cs ih =>
    obtain ⟨happlies, hrest⟩ := applyAll_cons_eq_some h
    refine ih hrest ?_ fun c' hc' => hno c' (List.mem_cons_of_mem _ hc')
    exact (Change.mem_columns happlies).mpr (.inl ⟨hx, hno c List.mem_cons_self⟩)

/-- The columns that the changes make are there afterwards, unless one of them takes it away. -/
theorem gains_mem_applyAll (h : applyAll s cs = some s') {c : Change τ κ} (hc : c ∈ cs)
    (hno : ∀ c' ∈ cs, c'.loses ≠ some c.gains) : c.gains ∈ s' := by
  induction cs generalizing s with
  | nil => cases hc
  | cons c' cs ih =>
    obtain ⟨happlies, hrest⟩ := applyAll_cons_eq_some h
    have hlater : ∀ c'' ∈ cs, c''.loses ≠ some c.gains := fun c'' hc'' => hno c'' (List.mem_cons_of_mem _ hc'')
    rcases List.mem_cons.mp hc with rfl | hc
    · exact mem_applyAll hrest ((Change.mem_columns happlies).mpr (.inr rfl)) hlater
    · exact ih hrest hc hlater

/-- **The next changes bring the schema nearer to the target.** -/
theorem Covers.applyAll (h : Covers target (cs ++ coming) s) (hs : applyAll s cs = some s')
    (hno : ∀ c ∈ cs, ∀ x ∈ target, c.loses ≠ some x) : Covers target coming s' := by
  intro x hx htable
  rcases h x hx ((applyAll_tables hs).mp htable) with hmem | hcoming
  · exact .inl (mem_applyAll hs hmem fun c hc => hno c hc x hx)
  · rw [List.map_append, List.mem_append] at hcoming
    rcases hcoming with hgained | hlater
    · obtain ⟨c, hc, rfl⟩ := List.mem_map.mp hgained
      exact .inl (gains_mem_applyAll hs hc fun c' hc' => hno c' hc' _ hx)
    · exact .inr hlater

omit [DecidableEq κ] in
/-- New tables that are whole are no matter. -/
theorem Covers.extend (h : Covers target coming s) {other : List (τ × κ)}
    (ho : ∀ x ∈ target, x.1 ∉ s.map Prod.fst → x ∈ other) : Covers target coming (s ++ other) := by
  intro x hx _
  by_cases htable : x.1 ∈ s.map Prod.fst
  · exact (h x hx htable).imp_left (List.mem_append_left _)
  · exact .inl (List.mem_append_right _ (ho x hx htable))

omit [DecidableEq τ] [DecidableEq κ] in
/-- **Nothing is missing** of a schema that has the tables of the target, when no change is coming. -/
theorem Covers.all (h : Covers target [] s) (ht : ∀ x ∈ target, x.1 ∈ s.map Prod.fst) : target ⊆ s :=
  fun x hx => (h x hx (ht x hx)).resolve_right List.not_mem_nil

end Covers

end Columns
