import Mathlib.Logic.Function.Iterate

/-!
# Work that is begun again

A process works in steps on a state that outlives it; when it dies, another one starts from the beginning.

- `Recovers`: each step brings the process nearer to its end, and a process that starts anew comes by where the last one
  was;
- `Recovers.ends`: a process comes to its end;
- `Recovers.run_cuts`: however many processes died before it, it ends as one that was never cut short.
-/

namespace Restart

universe u v

variable {σ : Type u} {π : Type v} (step : σ × π → σ × π) (start : π)

/-- What a process leaves that dies after `k` steps. -/
def cut (d : σ) (k : Nat) : σ := (step^[k] (d, start)).1

/-- `Inv` is kept, `left` counts the steps to the end, and a new start comes by the same place. -/
structure Recovers (Inv : σ × π → Prop) (left : σ × π → Nat) : Prop where
  keeps : ∀ s, Inv s → Inv (step s)
  nearer : ∀ s, Inv s → left s ≠ 0 → left (step s) < left s
  rests : ∀ s, Inv s → left s = 0 → step s = s
  restarts : ∀ d p, Inv (d, p) → Inv (d, start) ∧ ∃ k j, step^[k] (d, start) = step^[j] (d, p)

namespace Recovers

variable {step start} {Inv : σ × π → Prop} {left : σ × π → Nat} {s : σ × π}

theorem keeps_all (h : Recovers step start Inv left) (hs : Inv s) (k : Nat) : Inv (step^[k] s) := by
  induction k generalizing s with
  | zero => exact hs
  | succ k ih =>
    rw [Function.iterate_succ_apply]
    exact ih (h.keeps s hs)

/-- **A process comes to its end.** -/
theorem ends (h : Recovers step start Inv left) {n : Nat} (hs : Inv s) (hn : left s ≤ n) : left (step^[n] s) = 0 := by
  induction n generalizing s with
  | zero => exact Nat.le_zero.mp hn
  | succ n ih =>
    rw [Function.iterate_succ_apply]
    refine ih (h.keeps s hs) ?_
    by_cases hzero : left s = 0
    · rw [h.rests s hs hzero, hzero]
      exact Nat.zero_le n
    · exact Nat.le_of_lt_succ (Nat.lt_of_lt_of_le (h.nearer s hs hzero) hn)

/-- More steps make no difference then. -/
theorem run_more (h : Recovers step start Inv left) {n : Nat} (hs : Inv s) (hn : left s ≤ n) (k : Nat) :
    step^[n + k] s = step^[n] s := by
  rw [Nat.add_comm, Function.iterate_add_apply]
  exact Function.iterate_fixed (h.rests _ (h.keeps_all hs n) (h.ends hs hn)) k

/-- A process after one that died ends as that one would have. -/
theorem run_cut (h : Recovers step start Inv left) {n : Nat} (hn : ∀ d, Inv (d, start) → left (d, start) ≤ n) {d : σ}
    (hd : Inv (d, start)) (k : Nat) :
    Inv (cut step start d k, start) ∧ step^[n] (cut step start d k, start) = step^[n] (d, start) := by
  obtain ⟨hstart, i, j, hmeet⟩ := h.restarts _ _ (h.keeps_all hd k)
  refine ⟨hstart, ?_⟩
  calc step^[n] (cut step start d k, start)
      = step^[n + i] (cut step start d k, start) := (h.run_more hstart (hn _ hstart) i).symm
    _ = step^[n] (step^[j] (step^[k] (d, start))) := by
        rw [Function.iterate_add_apply]
        exact congrArg _ hmeet
    _ = step^[n + (j + k)] (d, start) := by rw [Function.iterate_add_apply, Function.iterate_add_apply]
    _ = step^[n] (d, start) := h.run_more hd (hn d hd) _

/-- **However often it is cut short**, the work ends as in one go. -/
theorem run_cuts (h : Recovers step start Inv left) {n : Nat} (hn : ∀ d, Inv (d, start) → left (d, start) ≤ n) {d : σ}
    (hd : Inv (d, start)) (cuts : List Nat) :
    step^[n] (cuts.foldl (cut step start) d, start) = step^[n] (d, start) := by
  induction cuts generalizing d with
  | nil => rfl
  | cons k cuts ih =>
    obtain ⟨hcut, hsame⟩ := h.run_cut hn hd k
    exact (ih hcut).trans hsame

end Recovers

end Restart
