import Mathlib.Data.List.Nodup

/-!
# Loops that write row by row

A loop over a list of keys is a left fold. Rules for it:

- `foldl_invariant`: what every step keeps, the loop keeps (`foldl_frame` for a view that no step changes);
- `foldl_owned`: when the step for key `a` rewrites just the rows that `a` owns, and no other step changes what it
  reads, the loop rewrites each row that some key of the list owns, once, and from what was there at the start;
- `foldl_rows`: the case where key `a` owns row `a`;
- `foldl_emits`: under the same condition, what the steps emit is what they would emit at the start.
-/

namespace Rows

universe u v w x

variable {σ : Type u} {α : Type v} {κ : Type w} {ρ : Type x}

/-- The keys of a loop over a set. -/
theorem nodup_eraseDups [BEq α] [LawfulBEq α] : ∀ l : List α, l.eraseDups.Nodup
  | [] => by simp
  | a :: l => by
    rw [List.eraseDups_cons, List.nodup_cons]
    exact ⟨by simp, nodup_eraseDups _⟩
termination_by l => l.length
decreasing_by exact Nat.lt_succ_of_le (List.length_filter_le _ l)

/-- What every step keeps, the loop keeps. -/
theorem foldl_invariant (P : σ → Prop) {f : σ → α → σ} {l : List α} (h : ∀ s, ∀ a ∈ l, P s → P (f s a)) {s : σ}
    (hs : P s) : P (l.foldl f s) := by
  induction l generalizing s with
  | nil => exact hs
  | cons a l ih =>
    exact ih (fun s b hb => h s b (List.mem_cons_of_mem _ hb)) (h s a List.mem_cons_self hs)

/-- A view that no step changes. -/
theorem foldl_frame {β : Type w} (view : σ → β) {f : σ → α → σ} {l : List α}
    (h : ∀ s, ∀ a ∈ l, view (f s a) = view s) (s : σ) : view (l.foldl f s) = view s :=
  foldl_invariant (fun s' => view s' = view s) (fun s' a ha hs => (h s' a ha).trans hs) rfl

/-! ## Steps that read only what no other step writes -/

section Local

variable (agree : σ → α → Prop) {f : σ → α → σ} {l : List α}

/-- A step for `a` keeps what the other keys read. -/
def Keeps (f : σ → α → σ) (l : List α) : Prop :=
  ∀ s, ∀ a ∈ l, ∀ b ∈ l, a ≠ b → agree s a → agree s b → agree (f s a) b

variable {agree}

theorem Keeps.tail {a : α} (h : Keeps agree f (a :: l)) : Keeps agree f l :=
  fun s b hb c hc => h s b (List.mem_cons_of_mem _ hb) c (List.mem_cons_of_mem _ hc)

/-- After the step for the first key the others still read what they read at the start. -/
theorem Keeps.head {a : α} (h : Keeps agree f (a :: l)) (ha : a ∉ l) {s : σ} (hs : ∀ b ∈ a :: l, agree s b) :
    ∀ b ∈ l, agree (f s a) b :=
  fun b hb => h s a List.mem_cons_self b (List.mem_cons_of_mem _ hb) (fun e => ha (e ▸ hb)) (hs a List.mem_cons_self)
    (hs b (List.mem_cons_of_mem _ hb))

/-- A loop whose steps rewrite disjoint sets of rows. `view` reads a row of the state, `owns a k` says that key `a` owns
row `k`, and `upd a k` is what happens to it; `agree s a` says that `a` reads in `s` what it reads at the start. -/
theorem foldl_owned (view : σ → κ → ρ) (owns : α → κ → Prop) (upd : α → κ → ρ → ρ) (hnd : l.Nodup)
    (hkeeps : Keeps agree f l) (hdisj : ∀ a ∈ l, ∀ b ∈ l, ∀ k, owns a k → owns b k → a = b)
    (howned : ∀ s, ∀ a ∈ l, agree s a → ∀ k, owns a k → view (f s a) k = upd a k (view s k))
    (hframe : ∀ s, ∀ a ∈ l, agree s a → ∀ k, ¬ owns a k → view (f s a) k = view s k) {s : σ}
    (hs : ∀ a ∈ l, agree s a) (k : κ) :
    (∀ a ∈ l, owns a k → view (l.foldl f s) k = upd a k (view s k)) ∧
      ((∀ a ∈ l, ¬ owns a k) → view (l.foldl f s) k = view s k) := by
  induction l generalizing s with
  | nil => exact ⟨fun _ h => (List.not_mem_nil h).elim, fun _ => rfl⟩
  | cons a l ih =>
    obtain ⟨ha, hnd'⟩ := List.nodup_cons.mp hnd
    have hagree := hs a List.mem_cons_self
    obtain ⟨hown', hfree'⟩ := ih hnd' hkeeps.tail
      (fun b hb c hc => hdisj b (List.mem_cons_of_mem _ hb) c (List.mem_cons_of_mem _ hc))
      (fun s b hb => howned s b (List.mem_cons_of_mem _ hb)) (fun s b hb => hframe s b (List.mem_cons_of_mem _ hb))
      (hkeeps.head ha hs)
    rw [List.foldl_cons]
    refine ⟨fun b hb hbk => ?_, fun hno => ?_⟩
    · rcases List.mem_cons.mp hb with rfl | hb
      · have hno : ∀ c ∈ l, ¬ owns c k := fun c hc hck =>
          ha (hdisj b List.mem_cons_self c (List.mem_cons_of_mem _ hc) k hbk hck ▸ hc)
        rw [hfree' hno, howned s b List.mem_cons_self hagree k hbk]
      · have hak : ¬ owns a k := fun hak =>
          ha (hdisj a List.mem_cons_self b (List.mem_cons_of_mem _ hb) k hak hbk ▸ hb)
        rw [hown' b hb hbk, hframe s a List.mem_cons_self hagree k hak]
    · rw [hfree' fun b hb => hno b (List.mem_cons_of_mem _ hb),
        hframe s a List.mem_cons_self hagree k (hno a List.mem_cons_self)]

/-- A loop whose step for a key rewrites the row of that key. -/
theorem foldl_rows [DecidableEq α] (view : σ → α → ρ) (upd : α → ρ → ρ) (hnd : l.Nodup) (hkeeps : Keeps agree f l)
    (howned : ∀ s, ∀ a ∈ l, agree s a → view (f s a) a = upd a (view s a))
    (hframe : ∀ s, ∀ a ∈ l, agree s a → ∀ k, k ≠ a → view (f s a) k = view s k) {s : σ} (hs : ∀ a ∈ l, agree s a)
    (k : α) : view (l.foldl f s) k = if k ∈ l then upd k (view s k) else view s k := by
  obtain ⟨hown, hfree⟩ := foldl_owned view (fun a k => k = a) (fun a _ => upd a) hnd hkeeps
    (fun a _ b _ k h₁ h₂ => h₁.symm.trans h₂) (fun s a ha hsa k hk => by subst hk; exact howned s k ha hsa) hframe hs k
  split
  · rename_i hk; exact hown k hk rfl
  · rename_i hk
    exact hfree fun a ha hka => hk (hka ▸ ha)

/-- What the steps emit is what they would emit at the start. -/
theorem foldl_emits {β : Type w} (out : σ → List β) (emit : α → List β) (hnd : l.Nodup) (hkeeps : Keeps agree f l)
    (hemit : ∀ s, ∀ a ∈ l, agree s a → out (f s a) = out s ++ emit a) {s : σ} (hs : ∀ a ∈ l, agree s a) :
    out (l.foldl f s) = out s ++ l.flatMap emit := by
  induction l generalizing s with
  | nil => simp
  | cons a l ih =>
    obtain ⟨ha, hnd'⟩ := List.nodup_cons.mp hnd
    rw [List.foldl_cons, ih hnd' hkeeps.tail (fun s b hb => hemit s b (List.mem_cons_of_mem _ hb)) (hkeeps.head ha hs),
      hemit s a List.mem_cons_self (hs a List.mem_cons_self), List.flatMap_cons, List.append_assoc]

end Local

end Rows
