import Mathlib.Data.List.Basic

/-!
# Machines and their runs

A machine is a function `exec` from a state and an action to the next state; an action that does not apply leaves the
state as it is. A run is a list of actions.

- `Reachable`: the states of runs from an initial state, with the invariant rule (`Reachable.invariant`);
- `AllSteps P s tr`: every step of the run `tr` from `s` satisfies `P`, a predicate on the state before the step and the
  action; `AllSteps.imp_invariant` is the rule for "in every run whose steps all satisfy `P`, every step satisfies `Q`".
-/

namespace Machine

universe u v

variable {σ : Type u} {α : Type v} (exec : σ → α → σ)

/-- The state a run ends in. -/
def run (s : σ) (tr : List α) : σ := tr.foldl exec s

@[simp] theorem run_nil (s : σ) : run exec s [] = s := rfl

@[simp] theorem run_cons (s : σ) (a : α) (tr : List α) : run exec s (a :: tr) = run exec (exec s a) tr := rfl

theorem run_append (s : σ) (tr tr' : List α) : run exec s (tr ++ tr') = run exec (run exec s tr) tr' :=
  List.foldl_append

/-- The states some run from `init` ends in. -/
def Reachable (init s : σ) : Prop := ∃ tr, run exec init tr = s

variable {exec}

theorem Reachable.refl (init : σ) : Reachable exec init init := ⟨[], rfl⟩

theorem Reachable.of_run (init : σ) (tr : List α) : Reachable exec init (run exec init tr) := ⟨tr, rfl⟩

theorem Reachable.step {init s : σ} (h : Reachable exec init s) (a : α) : Reachable exec init (exec s a) := by
  obtain ⟨tr, rfl⟩ := h
  exact ⟨tr ++ [a], run_append exec init tr [a]⟩

theorem run_invariant (P : σ → Prop) (hstep : ∀ s a, P s → P (exec s a)) {s : σ} (hs : P s) (tr : List α) :
    P (run exec s tr) := by
  induction tr generalizing s with
  | nil => exact hs
  | cons a tr ih => exact ih (hstep s a hs)

/-- What the actions that are `ok` keep, a run of them keeps. -/
theorem run_invariant_of {ok : α → Prop} (P : σ → Prop) (hstep : ∀ s a, ok a → P s → P (exec s a)) {s : σ} (hs : P s)
    {tr : List α} (htr : ∀ a ∈ tr, ok a) : P (run exec s tr) := by
  induction tr generalizing s with
  | nil => exact hs
  | cons a tr ih =>
    exact ih (hstep s a (htr a List.mem_cons_self) hs) fun b hb => htr b (List.mem_cons_of_mem _ hb)

/-- **The invariant rule.** What holds initially and is kept by every step holds in every reachable state. -/
theorem Reachable.invariant {init s : σ} (P : σ → Prop) (h0 : P init) (hstep : ∀ s a, P s → P (exec s a))
    (h : Reachable exec init s) : P s := by
  obtain ⟨tr, rfl⟩ := h
  exact run_invariant P hstep h0 tr

/-! ## Runs whose steps all satisfy a predicate -/

variable (exec)

/-- Every step of the run satisfies `P`. -/
def AllSteps (P : σ → α → Prop) : σ → List α → Prop
  | _, [] => True
  | s, a :: tr => P s a ∧ AllSteps P (exec s a) tr

instance instDecidableAllSteps {P : σ → α → Prop} [∀ s a, Decidable (P s a)] :
    ∀ (s : σ) (tr : List α), Decidable (AllSteps exec P s tr)
  | _, [] => .isTrue trivial
  | s, a :: tr =>
    have : Decidable (AllSteps exec P (exec s a) tr) := instDecidableAllSteps (exec s a) tr
    inferInstanceAs (Decidable (P s a ∧ AllSteps exec P (exec s a) tr))

variable {exec}

/-- **The rule for conditioned runs.** `I` holds initially and every step that satisfies `P` keeps it; if a step from an
`I`-state that satisfies `P` also satisfies `Q`, then in every run whose steps satisfy `P` all steps satisfy `Q`. -/
theorem AllSteps.imp_invariant {P Q : σ → α → Prop} (I : σ → Prop)
    (hI : ∀ s a, I s → P s a → I (exec s a)) (hQ : ∀ s a, I s → P s a → Q s a) :
    ∀ {s : σ} {tr : List α}, I s → AllSteps exec P s tr → AllSteps exec Q s tr
  | _, [], _, _ => trivial
  | s, a :: _, hs, h => ⟨hQ s a hs h.1, AllSteps.imp_invariant I hI hQ (hI s a hs h.1) h.2⟩

/-- What a conditioned step keeps holds at the end of a run whose steps all satisfy the condition. -/
theorem AllSteps.invariant {P : σ → α → Prop} (I : σ → Prop) (hI : ∀ s a, I s → P s a → I (exec s a)) :
    ∀ {s : σ} {tr : List α}, I s → AllSteps exec P s tr → I (run exec s tr)
  | _, [], hs, _ => hs
  | s, a :: tr, hs, h =>
    have hrest : I (run exec (exec s a) tr) := AllSteps.invariant I hI (hI s a hs h.1) h.2
    hrest

/-- **What every step of a run decides.** Of the actions that are `ok`, in the states where `J` holds, `F` holds after a
step exactly when it held before and the step satisfies `P`: so it holds at the end of a run exactly when it held at the
start and all steps satisfy `P`. -/
theorem AllSteps.run_iff {P : σ → α → Prop} {ok : α → Prop} {J F : σ → Prop} (hJ : ∀ s a, ok a → J s → J (exec s a))
    (hF : ∀ s a, ok a → J s → (F (exec s a) ↔ F s ∧ P s a)) :
    ∀ {s : σ} {tr : List α}, (∀ a ∈ tr, ok a) → J s → (F (run exec s tr) ↔ F s ∧ AllSteps exec P s tr)
  | s, [], _, _ => by simp [AllSteps]
  | s, a :: tr, htr, hs => by
    have ha : ok a := htr a List.mem_cons_self
    have hrest : F (run exec (exec s a) tr) ↔ F (exec s a) ∧ AllSteps exec P (exec s a) tr :=
      AllSteps.run_iff hJ hF (fun b hb => htr b (List.mem_cons_of_mem _ hb)) (hJ s a ha hs)
    rw [run_cons, hrest, hF s a ha hs, AllSteps, and_assoc]

/-- **Two predicates of the same runs.** `I` holds initially and is kept by the steps that satisfy `P`; where `I` holds,
a step satisfies `Q` exactly when it satisfies `P`. -/
theorem AllSteps.congr_invariant {P Q : σ → α → Prop} (I : σ → Prop) (hI : ∀ s a, I s → P s a → I (exec s a))
    (hPQ : ∀ s a, I s → (Q s a ↔ P s a)) :
    ∀ {s : σ} {tr : List α}, I s → (AllSteps exec Q s tr ↔ AllSteps exec P s tr)
  | _, [], _ => Iff.rfl
  | s, a :: tr, hs => by
    have hrest (h : P s a) : AllSteps exec Q (exec s a) tr ↔ AllSteps exec P (exec s a) tr :=
      AllSteps.congr_invariant I hI hPQ (hI s a hs h)
    constructor
    · rintro ⟨hq, htr⟩
      have hp : P s a := (hPQ s a hs).mp hq
      exact ⟨hp, (hrest hp).mp htr⟩
    · rintro ⟨hp, htr⟩
      exact ⟨(hPQ s a hs).mpr hp, (hrest hp).mpr htr⟩

/-- **What is lost for good.** If a property that no step restores holds at the end of a run, every step of the run kept
it. -/
theorem AllSteps.of_run {P : σ → α → Prop} (F : σ → Prop) (hback : ∀ s a, F (exec s a) → F s)
    (hP : ∀ s a, F (exec s a) → P s a) : ∀ {s : σ} {tr : List α}, F (run exec s tr) → F s ∧ AllSteps exec P s tr
  | _, [], h => ⟨h, trivial⟩
  | s, a :: tr, h =>
    have hrest : F (exec s a) ∧ AllSteps exec P (exec s a) tr := AllSteps.of_run F hback hP h
    ⟨hback s a hrest.1, hP s a hrest.1, hrest.2⟩

end Machine
