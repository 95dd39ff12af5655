import HardeningLoop.Lib.Dict
import Mathlib.Data.List.Perm.Subperm

/-!
# Reconciling a remote store with specifications

Specifications are to be mirrored by assets of a remote store. A row remembers the asset of a specification; without one
that is there, the asset with the label of the specification is taken, and without that one is created. What is there
and what is remembered is read once, at the start; the writes follow one specification after the other.

- `locate`, `plan`: the asset of a specification, and the writes of a pass over a list of specifications;
- `plan_placed`: where the assets of a pass come from; nothing is created for a specification that has an asset;
- `nodup_ids_iff`: the specifications get different assets exactly when no two of them `Clash`;
- `Office.performed`, `plan_again`: what a pass leaves behind, and that another pass then writes nothing remote.
-/

namespace Reconcile

variable {σ κ τ α ρ β : Type*} [DecidableEq κ] [DecidableEq α] [DecidableEq β]

/-- What a pass does for a specification. -/
inductive Verb where
  | created | updated | unchanged
  deriving DecidableEq, Repr

/-- Specifications `σ` under slugs `κ`, rows `τ`, and assets `ρ` under ids `α`, with labels `β`. -/
structure Scheme (σ κ τ α ρ β : Type*) where
  slug : σ → κ
  label : σ → β
  labelOf : ρ → β
  agrees : ρ → σ → Bool
  /-- What the remote store makes of a specification. -/
  content : α → σ → ρ
  idOf : τ → α
  row : Option τ → σ → Verb → α → τ
  agrees_content : ∀ id s, agrees (content id s) s = true
  idOf_row : ∀ t s verb id, idOf (row t s verb id) = id

/-- A specification with its asset. -/
structure Done (σ α : Type*) where
  spec : σ
  verb : Verb
  id : α

inductive Write (κ τ α ρ : Type*) where
  | create (id : α) (asset : ρ)
  | update (id : α) (asset : ρ)
  | keep (slug : κ) (row : τ)

/-- The write is one at the remote store. -/
def Write.isRemote : Write κ τ α ρ → Bool
  | .create .. | .update .. => true
  | .keep .. => false

/-- The remote store and the rows. -/
structure Office (κ τ α ρ : Type*) where
  remote : List (α × ρ)
  rows : List (κ × τ)
  distinct : (remote.map Prod.fst).Nodup

namespace Office

def put (o : Office κ τ α ρ) (id : α) (asset : ρ) : Office κ τ α ρ :=
  { o with remote := Dict.set o.remote id asset, distinct := Dict.nodup_keys_set o.distinct id asset }

def apply (o : Office κ τ α ρ) : Write κ τ α ρ → Office κ τ α ρ
  | .create id asset => o.put id asset
  | .update id asset => o.put id asset
  | .keep slug row => { o with rows := Dict.set o.rows slug row }

def applyAll (o : Office κ τ α ρ) (ws : List (Write κ τ α ρ)) : Office κ τ α ρ := ws.foldl apply o

end Office

section Plan

variable (sch : Scheme σ κ τ α ρ β) (fresh : List α → α) (o : Office κ τ α ρ)

/-- The id that the row of a specification remembers, if its asset is there. -/
def recorded (s : σ) : Option α :=
  ((Dict.get? o.rows (sch.slug s)).map sch.idOf).filter fun id => (Dict.get? o.remote id).isSome

/-- The assets with the label of a specification. -/
def labelled (s : σ) : List (α × ρ) := o.remote.filter fun a => sch.labelOf a.2 = sch.label s

/-- The asset of a specification; several of its label are an error. -/
def locate (s : σ) : Except (List (α × ρ)) (Option (α × ρ)) :=
  match (Dict.get? o.rows (sch.slug s)).bind fun t => (Dict.get? o.remote (sch.idOf t)).map (sch.idOf t, ·) with
  | some a => .ok (some a)
  | none =>
    match labelled sch o s with
    | [] => .ok none
    | [a] => .ok (some a)
    | extras => .error extras

/-- What is done for a specification with this asset; a new one gets an id that is not known yet. -/
def settle (known : List α) (s : σ) : Option (α × ρ) → Done σ α
  | none => ⟨s, .created, fresh known⟩
  | some a => ⟨s, if sch.agrees a.2 s then .unchanged else .updated, a.1⟩

/-- The remote write for a specification, and the write of its row. -/
def writes (d : Done σ α) : List (Write κ τ α ρ) :=
  (match d.verb with
    | .created => [.create d.id (sch.content d.id d.spec)]
    | .updated => [.update d.id (sch.content d.id d.spec)]
    | .unchanged => []) ++
  [.keep (sch.slug d.spec) (sch.row (Dict.get? o.rows (sch.slug d.spec)) d.spec d.verb d.id)]

/-- A pass over the specifications: its writes, and what it did unless it stopped at a specification. -/
def plan : List α → List σ → List (Write κ τ α ρ) × Except (σ × List (α × ρ)) (List (Done σ α))
  | _, [] => ([], .ok [])
  | known, s :: rest =>
    match locate sch o s with
    | .error extras => ([], .error (s, extras))
    | .ok a =>
      let d := settle sch fresh known s a
      let (ws, result) := plan (d.id :: known) rest
      (writes sch o d ++ ws, result.map (d :: ·))

/-- Two specifications that come to the same asset: both rows remember it, one row remembers the asset that has the
label of the other, or none remembers an asset and both have the label of one. -/
def Clash (s s' : σ) : Prop :=
  (recorded sch o s).isSome ∧ recorded sch o s = recorded sch o s' ∨
  recorded sch o s' = none ∧ (∃ a ∈ labelled sch o s', recorded sch o s = some a.1) ∨
  recorded sch o s = none ∧ (∃ a ∈ labelled sch o s, recorded sch o s' = some a.1) ∨
  recorded sch o s = none ∧ recorded sch o s' = none ∧ sch.label s = sch.label s' ∧ labelled sch o s ≠ []

end Plan

/-! ## Where the assets come from -/

section Placed

variable {sch : Scheme σ κ τ α ρ β} {fresh : List α → α} {o : Office κ τ α ρ} {known : List α} {s : σ} {specs : List σ}
  {d d' : Done σ α} {ds : List (Done σ α)}

omit [DecidableEq β] in
theorem mem_of_recorded {id : α} (h : recorded sch o s = some id) : id ∈ o.remote.map Prod.fst :=
  Dict.get?_isSome.mp (Option.filter_eq_some_iff.mp h).2

omit [DecidableEq κ] [DecidableEq α] in
theorem mem_of_labelled {a : α × ρ} (h : a ∈ labelled sch o s) : a.1 ∈ o.remote.map Prod.fst :=
  List.mem_map_of_mem (List.mem_filter.mp h).1

/-- The asset of a specification: the recorded one, the one of its label, or none. -/
theorem locate_eq_ok {a : Option (α × ρ)} (h : locate sch o s = .ok a) :
    (∃ r, a = some r ∧ recorded sch o s = some r.1 ∧ Dict.get? o.remote r.1 = some r.2) ∨
    recorded sch o s = none ∧ ((∃ r, a = some r ∧ labelled sch o s = [r]) ∨ a = none ∧ labelled sch o s = []) := by
  unfold locate at h
  unfold recorded
  split at h
  · rename_i r hrow
    cases h
    obtain ⟨t, ht, hr⟩ := Option.bind_eq_some_iff.mp hrow
    obtain ⟨asset, hasset, rfl⟩ := Option.map_eq_some_iff.mp hr
    refine .inl ⟨_, rfl, ?_, hasset⟩
    rw [ht, Option.map_some, Option.filter_some, hasset, Option.isSome_some, if_pos rfl]
  · rename_i hrow
    have hnone :
        ((Dict.get? o.rows (sch.slug s)).map sch.idOf).filter (fun id => (Dict.get? o.remote id).isSome) = none := by
      cases ht : Dict.get? o.rows (sch.slug s) with
      | none => rfl
      | some t =>
        rw [ht, Option.bind_some, Option.map_eq_none_iff] at hrow
        rw [Option.map_some, Option.filter_some, hrow]
        rfl
    refine .inr ⟨hnone, ?_⟩
    split at h
    · rename_i hl
      cases h
      exact .inr ⟨rfl, hl⟩
    · rename_i r hl
      cases h
      exact .inl ⟨r, rfl, hl⟩
    · cases h

theorem plan_cons : plan sch fresh o known (s :: specs) = match locate sch o s with
    | .error extras => ([], .error (s, extras))
    | .ok a =>
      (writes sch o (settle sch fresh known s a) ++
          (plan sch fresh o ((settle sch fresh known s a).id :: known) specs).1,
        (plan sch fresh o ((settle sch fresh known s a).id :: known) specs).2.map (settle sch fresh known s a :: ·)) :=
          rfl

/-- A pass that did not stop did so at none of its specifications. -/
theorem plan_cons_ok (h : (plan sch fresh o known (s :: specs)).2 = .ok ds) :
    ∃ a ds', locate sch o s = .ok a ∧ ds = settle sch fresh known s a :: ds' ∧
      (plan sch fresh o ((settle sch fresh known s a).id :: known) specs).2 = .ok ds' ∧
      (plan sch fresh o known (s :: specs)).1 = writes sch o (settle sch fresh known s a) ++
        (plan sch fresh o ((settle sch fresh known s a).id :: known) specs).1 := by
  rw [plan_cons] at h ⊢
  cases ha : locate sch o s with
  | error extras =>
    rw [ha] at h
    cases h
  | ok a =>
    rw [ha] at h
    dsimp only at h ⊢
    cases hrest : (plan sch fresh o ((settle sch fresh known s a).id :: known) specs).2 with
    | error e =>
      rw [hrest] at h
      cases h
    | ok ds' =>
      rw [hrest] at h
      cases h
      exact ⟨a, ds', rfl, rfl, hrest, rfl⟩

/-- Where the asset of a specification comes from. -/
inductive Placed (sch : Scheme σ κ τ α ρ β) (o : Office κ τ α ρ) (known : List α) (d : Done σ α) : Prop
  | recorded (hrow : recorded sch o d.spec = some d.id) (hverb : d.verb ≠ .created)
  | labelled (hrow : recorded sch o d.spec = none) (a : α × ρ) (ha : labelled sch o d.spec = [a]) (hid : a.1 = d.id)
      (hverb : d.verb ≠ .created)
  | created (hrow : recorded sch o d.spec = none) (hnone : labelled sch o d.spec = []) (hnew : d.id ∉ known)

theorem settle_placed (hfresh : ∀ l, fresh l ∉ l) {a : Option (α × ρ)} (h : locate sch o s = .ok a) :
    Placed sch o known (settle sch fresh known s a) ∧ (settle sch fresh known s a).spec = s := by
  have hkept (r : α × ρ) : (if sch.agrees r.2 s then Verb.unchanged else .updated) ≠ .created := by
    split <;> exact fun hv => by cases hv
  rcases locate_eq_ok h with ⟨r, rfl, hrow, -⟩ | ⟨hrow, ⟨r, rfl, hl⟩ | ⟨rfl, hl⟩⟩
  · exact ⟨.recorded hrow (hkept r), rfl⟩
  · exact ⟨.labelled hrow r hl rfl (hkept r), rfl⟩
  · exact ⟨.created hrow hl (hfresh known), rfl⟩

theorem Placed.mono {known' : List α} (h : Placed sch o known' d) (hsub : known ⊆ known') : Placed sch o known d := by
  cases h with
  | recorded hrow hverb => exact .recorded hrow hverb
  | labelled hrow a ha hid hverb => exact .labelled hrow a ha hid hverb
  | created hrow hnone hnew => exact .created hrow hnone fun hmem => hnew (hsub hmem)

/-- **Where the assets of a pass come from.** One for each specification; what is created was not known. -/
theorem plan_placed (hfresh : ∀ l, fresh l ∉ l) (h : (plan sch fresh o known specs).2 = .ok ds) :
    ds.map Done.spec = specs ∧ ∀ d ∈ ds, Placed sch o known d := by
  induction specs generalizing known ds with
  | nil =>
    cases h
    exact ⟨rfl, fun d hd => absurd hd List.not_mem_nil⟩
  | cons s specs ih =>
    obtain ⟨a, ds', ha, rfl, hrest, -⟩ := plan_cons_ok h
    obtain ⟨hplaced, hspec⟩ := @settle_placed _ _ _ _ _ _ _ _ _ sch fresh o known s hfresh a ha
    obtain ⟨hspecs, hall⟩ := ih hrest
    refine ⟨by rw [List.map_cons, hspecs, hspec], fun d hd => ?_⟩
    rcases List.mem_cons.mp hd with rfl | hd
    · exact hplaced
    · exact (hall d hd).mono (List.subset_cons_self _ _)

/-- An asset that a later specification gets is the asset of an earlier one exactly when the two clash. -/
theorem placed_clash (hd : Placed sch o known d) (hd' : Placed sch o (d.id :: known) d')
    (hknown : o.remote.map Prod.fst ⊆ known) : d'.id = d.id ↔ Clash sch o d.spec d'.spec := by
  have hlabelled (hlabel : sch.label d.spec = sch.label d'.spec) : labelled sch o d.spec = labelled sch o d'.spec := by
    unfold labelled
    rw [hlabel]
  unfold Clash
  cases hd with
  | recorded hrow _ =>
    rw [hrow]
    cases hd' with
    | recorded hrow' _ =>
      rw [hrow', eq_comm]
      simp
    | labelled hrow' a ha hid _ =>
      rw [hrow', ha, eq_comm, ← hid]
      simp
    | created hrow' hnone hnew =>
      rw [hrow', hnone]
      refine iff_of_false (fun h => hnew (h ▸ List.mem_cons_self)) ?_
      simp
  | labelled hrow a ha hid _ =>
    rw [hrow, ha]
    cases hd' with
    | recorded hrow' _ =>
      rw [hrow']
      simp [← hid]
    | labelled hrow' a' ha' hid' _ =>
      rw [hrow', ha']
      have hmem : a ∈ labelled sch o d.spec := ha ▸ List.mem_cons_self
      have hmem' : a' ∈ labelled sch o d'.spec := ha' ▸ List.mem_cons_self
      have hiff : d'.id = d.id ↔ sch.label d.spec = sch.label d'.spec := by
        constructor
        · intro h
          have hget := Dict.get?_of_mem o.distinct (List.mem_filter.mp hmem).1
          have hget' := Dict.get?_of_mem o.distinct (List.mem_filter.mp hmem').1
          rw [show a'.1 = a.1 from hid'.trans (h.trans hid.symm), hget] at hget'
          have hlabel := of_decide_eq_true (List.mem_filter.mp hmem).2
          have hlabel' := of_decide_eq_true (List.mem_filter.mp hmem').2
          rw [← hlabel, ← hlabel', Option.some.inj hget']
        · intro h
          have heq := hlabelled h
          rw [ha, ha'] at heq
          rw [← hid, ← hid', (List.cons.inj heq).1]
      simp [hiff]
    | created hrow' hnone hnew =>
      rw [hrow']
      refine iff_of_false (fun h => hnew (h ▸ List.mem_cons_self)) ?_
      rintro (⟨h, -⟩ | ⟨-, b, hb, -⟩ | ⟨-, b, -, h⟩ | ⟨-, -, h, -⟩)
      · cases h
      · rw [hnone] at hb
        cases hb
      · cases h
      · have heq := hlabelled h
        rw [ha, hnone] at heq
        cases heq
  | created hrow hnone hnew =>
    rw [hrow, hnone]
    refine iff_of_false ?_ (by simp)
    cases hd' with
    | recorded hrow' _ => exact fun h => hnew (hknown (h ▸ mem_of_recorded hrow'))
    | labelled hrow' a ha hid _ =>
      exact fun h => hnew (hknown (h ▸ hid ▸ mem_of_labelled (ha ▸ List.mem_cons_self)))
    | created _ _ hnew' => exact fun h => hnew' (h ▸ List.mem_cons_self)

/-- **The specifications of a pass get different assets** exactly when no two of them clash. -/
theorem nodup_ids_iff (hfresh : ∀ l, fresh l ∉ l) (hknown : o.remote.map Prod.fst ⊆ known)
    (h : (plan sch fresh o known specs).2 = .ok ds) :
    (ds.map Done.id).Nodup ↔ specs.Pairwise fun s s' => ¬ Clash sch o s s' := by
  induction specs generalizing known ds with
  | nil =>
    cases h
    exact iff_of_true List.nodup_nil .nil
  | cons s specs ih =>
    obtain ⟨a, ds', ha, rfl, hrest, -⟩ := plan_cons_ok h
    obtain ⟨hplaced, hspec⟩ := @settle_placed _ _ _ _ _ _ _ _ _ sch fresh o known s hfresh a ha
    obtain ⟨hspecs, hall⟩ := plan_placed hfresh hrest
    rw [List.map_cons, List.nodup_cons, List.pairwise_cons,
      ih (List.Subset.trans hknown (List.subset_cons_self _ _)) hrest]
    refine and_congr_left' ?_
    have hone {d' : Done σ α} (hd' : d' ∈ ds') : d'.id = (settle sch fresh known s a).id ↔ Clash sch o s d'.spec := by
      have hiff := placed_clash hplaced (hall d' hd') hknown
      rwa [hspec] at hiff
    rw [← hspecs]
    simp only [List.mem_map, not_exists, not_and, forall_exists_index, and_imp, forall_apply_eq_imp_iff₂]
    exact forall₂_congr fun d' hd' => not_congr (hone hd')

end Placed

/-! ## What a pass leaves behind -/

/-- The row of a specification remembers an asset that agrees with it. -/
def Settled (sch : Scheme σ κ τ α ρ β) (o : Office κ τ α ρ) (s : σ) : Prop :=
  ∃ t asset, Dict.get? o.rows (sch.slug s) = some t ∧ Dict.get? o.remote (sch.idOf t) = some asset ∧
    sch.agrees asset s = true

section Performed

variable {sch : Scheme σ κ τ α ρ β} {fresh : List α → α} {o o' : Office κ τ α ρ} {known : List α} {s : σ}
  {specs : List σ} {d : Done σ α} {ds : List (Done σ α)}

theorem applyAll_append (ws ws' : List (Write κ τ α ρ)) : o.applyAll (ws ++ ws') = (o.applyAll ws).applyAll ws' :=
  List.foldl_append

omit [DecidableEq β] in
/-- The row of a specification is written last, and no other row. -/
theorem rows_writes (d : Done σ α) : (o'.applyAll (writes sch o d)).rows =
    Dict.set o'.rows (sch.slug d.spec) (sch.row (Dict.get? o.rows (sch.slug d.spec)) d.spec d.verb d.id) := by
  unfold writes
  cases d.verb <;> rfl

omit [DecidableEq β] in
/-- The asset of a specification is written, and no other one. -/
theorem remote_writes (d : Done σ α) : (o'.applyAll (writes sch o d)).remote =
    if d.verb = .unchanged then o'.remote else Dict.set o'.remote d.id (sch.content d.id d.spec) := by
  unfold writes
  cases d.verb <;> rfl

/-- What is left unchanged agrees. -/
theorem settle_unchanged {a : Option (α × ρ)} (h : locate sch o s = .ok a)
    (hv : (settle sch fresh known s a).verb = .unchanged) :
    ∃ asset, Dict.get? o.remote (settle sch fresh known s a).id = some asset ∧ sch.agrees asset s = true := by
  have hagrees {r : α × ρ} (hr : a = some r) (hget : Dict.get? o.remote r.1 = some r.2) :
      ∃ asset, Dict.get? o.remote (settle sch fresh known s a).id = some asset ∧ sch.agrees asset s = true := by
    subst hr
    refine ⟨r.2, hget, ?_⟩
    by_contra hno
    rw [settle, if_neg hno] at hv
    cases hv
  rcases locate_eq_ok h with ⟨r, hr, -, hget⟩ | ⟨-, ⟨r, hr, hl⟩ | ⟨rfl, -⟩⟩
  · exact hagrees hr hget
  · have hmem : r ∈ labelled sch o s := hl ▸ List.mem_cons_self
    exact hagrees hr (Dict.get?_of_mem o.distinct (List.mem_filter.mp hmem).1)
  · cases hv

/-- **What a pass leaves behind**, where it gives the specifications different assets: every specification is settled,
and other assets and rows are as before. -/
theorem Office.performed (hslugs : (specs.map sch.slug).Nodup) (h : (plan sch fresh o known specs).2 = .ok ds)
    (hspecs : ds.map Done.spec = specs) (hids : (ds.map Done.id).Nodup)
    (hsame : ∀ d ∈ ds, Dict.get? o'.remote d.id = Dict.get? o.remote d.id) :
    (∀ id ∉ ds.map Done.id, Dict.get? (o'.applyAll (plan sch fresh o known specs).1).remote id =
      Dict.get? o'.remote id) ∧
    (∀ k ∉ specs.map sch.slug, Dict.get? (o'.applyAll (plan sch fresh o known specs).1).rows k = Dict.get? o'.rows k) ∧
    ∀ d ∈ ds, Settled sch (o'.applyAll (plan sch fresh o known specs).1) d.spec := by
  induction specs generalizing known ds o' with
  | nil =>
    cases h
    exact ⟨fun _ _ => rfl, fun _ _ => rfl, fun d hd => absurd hd List.not_mem_nil⟩
  | cons s specs ih =>
    obtain ⟨a, ds', ha, rfl, hrest, hws⟩ := plan_cons_ok h
    set d₀ := settle sch fresh known s a with hd₀
    have hunchanged := @settle_unchanged _ _ _ _ _ _ _ _ _ sch fresh o known s a ha
    rw [← hd₀] at hunchanged
    rw [List.map_cons, List.cons.injEq] at hspecs
    obtain ⟨hspec, hspecs⟩ := hspecs
    rw [List.map_cons, List.nodup_cons] at hslugs hids
    rw [hws, applyAll_append]
    set o₁ := o'.applyAll (writes sch o d₀) with ho₁
    have hother {id : α} (hne : id ≠ d₀.id) : Dict.get? o₁.remote id = Dict.get? o'.remote id := by
      rw [ho₁, remote_writes]
      split
      · rfl
      · rw [Dict.get?_set, if_neg hne]
    have hsame₁ : ∀ d ∈ ds', Dict.get? o₁.remote d.id = Dict.get? o.remote d.id := by
      intro d hd
      rw [hother fun heq => hids.1 (heq ▸ List.mem_map_of_mem hd)]
      exact hsame d (List.mem_cons_of_mem _ hd)
    obtain ⟨hremote, hrows, hsettled⟩ := ih hslugs.2 hrest hspecs hids.2 hsame₁
    refine ⟨fun id hid => ?_, fun k hk => ?_, fun d hd => ?_⟩
    · rw [List.map_cons, List.mem_cons, not_or] at hid
      rw [hremote id hid.2, hother hid.1]
    · rw [List.map_cons, List.mem_cons, not_or] at hk
      rw [hrows k hk.2, ho₁, rows_writes, Dict.get?_set, if_neg (hspec ▸ hk.1)]
    · rcases List.mem_cons.mp hd with heq | hd
      · -- the rest of the pass touches neither the row nor the asset of the first specification
        rw [heq]
        refine ⟨sch.row (Dict.get? o.rows (sch.slug d₀.spec)) d₀.spec d₀.verb d₀.id,
          if d₀.verb = .unchanged then (Dict.get? o.remote d₀.id).getD (sch.content d₀.id d₀.spec) else
          sch.content d₀.id d₀.spec,
          ?_, ?_, ?_⟩
        · rw [hspec, hrows _ hslugs.1, ho₁, rows_writes, Dict.get?_set, hspec, if_pos rfl]
        · rw [sch.idOf_row, hremote _ hids.1, ho₁, remote_writes]
          split
          · rename_i hv
            obtain ⟨asset, hget, -⟩ := hunchanged hv
            rw [hsame d₀ List.mem_cons_self, hget]
            rfl
          · rw [Dict.get?_set, if_pos rfl]
        · split
          · rename_i hv
            obtain ⟨asset, hget, hagrees⟩ := hunchanged hv
            rw [hget, hspec]
            exact hagrees
          · exact sch.agrees_content ..
      · exact hsettled d hd

/-- **Another pass** over settled specifications stops at none of them and writes nothing at the remote store. -/
theorem plan_again (hsettled : ∀ s ∈ specs, Settled sch o s) (known : List α) :
    (∃ ds, (plan sch fresh o known specs).2 = .ok ds) ∧ ∀ w ∈ (plan sch fresh o known specs).1, w.isRemote = false := by
  induction specs generalizing known with
  | nil => exact ⟨⟨[], rfl⟩, fun w hw => absurd hw List.not_mem_nil⟩
  | cons s specs ih =>
    obtain ⟨t, asset, hrow, hasset, hagrees⟩ := hsettled s List.mem_cons_self
    have hlocate : locate sch o s = .ok (some (sch.idOf t, asset)) := by
      unfold locate
      rw [hrow, Option.bind_some, hasset]
      rfl
    have hsettle : settle sch fresh known s (some (sch.idOf t, asset)) = ⟨s, .unchanged, sch.idOf t⟩ := by
      rw [settle, if_pos hagrees]
    obtain ⟨⟨ds, hds⟩, hall⟩ := ih (fun s' hs' => hsettled s' (List.mem_cons_of_mem _ hs')) (sch.idOf t :: known)
    rw [plan_cons, hlocate]
    dsimp only
    rw [hsettle]
    refine ⟨⟨_, by rw [hds]; rfl⟩, fun w hw => ?_⟩
    rcases List.mem_append.mp hw with hw | hw
    · rw [List.mem_singleton.mp (show w ∈ [_] from hw)]
      rfl
    · exact hall w hw

end Performed

end Reconcile
