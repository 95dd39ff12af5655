import Mathlib.Data.List.Induction

/-!
# Acting once on what stands

A log of readings: each has a key and the value that was read, and the reader acted on some of them. A value stands for
a key while every reading of the key shows it.

- `standing`: the value that was acted on and has stood since (`standing_eq_some`);
- `OnceStanding`: no value is acted on twice while it stands; `onceStanding_concat`: how the next reading keeps that.
-/

namespace Readings

universe u v w

variable {ε : Type u} {κ : Type v} {β : Type w} [DecidableEq κ] [DecidableEq β] (key : ε → κ) (value : ε → β)
  (acted : ε → Bool)

/-- What one more reading makes of the value that stands for a key. -/
def stand (k : κ) (st : Option β) (e : ε) : Option β :=
  if key e ≠ k then st else if acted e then some (value e) else st.filter (· = value e)

/-- The value of a key that was acted on and has stood since. -/
def standing (k : κ) (l : List ε) : Option β := l.foldl (stand key value acted k) none

/-- Between two readings of a key that were acted on for the same value, another value was read. -/
def OnceStanding (l : List ε) : Prop :=
  ∀ l₁ e m e' l₂, l = l₁ ++ e :: (m ++ e' :: l₂) → key e = key e' → acted e = true → acted e' = true →
    value e = value e' → ∃ x ∈ m, key x = key e ∧ value x ≠ value e

variable {key value acted}

theorem standing_concat (k : κ) (l : List ε) (e : ε) :
    standing key value acted k (l ++ [e]) = stand key value acted k (standing key value acted k l) e := by
  simp [standing]

/-- **What stands**: the value of the last reading that was acted on, when all readings since show it. -/
theorem standing_eq_some {k : κ} {v : β} {l : List ε} : standing key value acted k l = some v ↔
    ∃ l₁ e m, l = l₁ ++ e :: m ∧ key e = k ∧ acted e = true ∧ value e = v ∧ ∀ x ∈ m, key x = k → value x = v := by
  induction l using List.reverseRecOn with
  | nil =>
    refine iff_of_false (fun h => by cases h) ?_
    rintro ⟨l₁, e, m, h, -⟩
    cases l₁ <;> cases h
  | append_singleton l e ih =>
    rw [standing_concat]
    unfold stand
    constructor
    · intro h
      split at h
      · rename_i hkey
        obtain ⟨l₁, e', m, rfl, hk, ha, hv, hm⟩ := ih.mp h
        refine ⟨l₁, e', m ++ [e], by simp, hk, ha, hv, fun x hx hxk => ?_⟩
        rcases List.mem_append.mp hx with hx | hx
        · exact hm x hx hxk
        · exact absurd (List.mem_singleton.mp hx ▸ hxk) hkey
      · rename_i hkey
        split at h
        · rename_i hacted
          exact ⟨l, e, [], rfl, not_not.mp hkey, hacted, Option.some.inj h, by simp⟩
        · obtain ⟨hst, hv⟩ := Option.filter_eq_some_iff.mp h
          obtain ⟨l₁, e', m, rfl, hk, ha, hv', hm⟩ := ih.mp hst
          refine ⟨l₁, e', m ++ [e], by simp, hk, ha, hv', fun x hx hxk => ?_⟩
          rcases List.mem_append.mp hx with hx | hx
          · exact hm x hx hxk
          · rw [List.mem_singleton.mp hx]
            exact (of_decide_eq_true hv).symm
    · rintro ⟨l₁, e', m, hl, hk, ha, hv, hm⟩
      rcases m.eq_nil_or_concat with rfl | ⟨m, e'', hm'⟩
      · obtain ⟨rfl, hlast⟩ := List.append_inj' hl rfl
        obtain rfl := (List.cons.inj hlast).1
        rw [if_neg (not_not.mpr hk), if_pos ha, hv]
      · rw [List.concat_eq_append] at hm'
        subst hm'
        have hsplit : l ++ [e] = (l₁ ++ e' :: m) ++ [e''] := by simp [hl]
        obtain ⟨rfl, hlast⟩ := List.append_inj' hsplit rfl
        obtain rfl := (List.cons.inj hlast).1
        have hst : standing key value acted k (l₁ ++ e' :: m) = some v :=
          ih.mpr ⟨l₁, e', m, rfl, hk, ha, hv, fun x hx => hm x (List.mem_append_left _ hx)⟩
        split
        · exact hst
        · rename_i hkey
          have hvalue : value e = v := hm e (List.mem_append_right _ List.mem_cons_self) (not_not.mp hkey)
          split
          · rw [hvalue]
          · rw [hst, Option.filter_some, hvalue]
            simp

/-- **The next reading** is acted on for a value that does not stand. -/
theorem onceStanding_concat {l : List ε} {e : ε} : OnceStanding key value acted (l ++ [e]) ↔
    OnceStanding key value acted l ∧ (acted e = true → standing key value acted (key e) l ≠ some (value e)) := by
  constructor
  · refine fun h => ⟨fun l₁ d m d' l₂ hl => ?_, fun ha hst => ?_⟩
    · exact h l₁ d m d' (l₂ ++ [e]) (by simp [hl])
    · obtain ⟨l₁, d, m, rfl, hk, hd, hv, hm⟩ := standing_eq_some.mp hst
      obtain ⟨x, hx, hxk, hxv⟩ := h l₁ d m e [] (by simp) hk hd ha hv
      exact hxv ((hm x hx (hxk.trans hk)).trans hv.symm)
  · rintro ⟨hold, hnew⟩ l₁ d m d' l₂ hl hk hd hd' hv
    rcases l₂.eq_nil_or_concat with rfl | ⟨l₂, e'', hl₂⟩
    · have hsplit : l ++ [e] = (l₁ ++ d :: m) ++ [d'] := by simp [hl]
      obtain ⟨rfl, hlast⟩ := List.append_inj' hsplit rfl
      obtain rfl := (List.cons.inj hlast).1
      by_contra hno
      refine hnew hd' (standing_eq_some.mpr ⟨l₁, d, m, rfl, hk, hd, hv, fun x hx hxk => ?_⟩)
      by_contra hxv
      exact hno ⟨x, hx, hxk.trans hk.symm, fun h => hxv (h.trans hv)⟩
    · rw [List.concat_eq_append] at hl₂
      subst hl₂
      have hsplit : l ++ [e] = (l₁ ++ d :: (m ++ d' :: l₂)) ++ [e''] := by simp [hl]
      obtain ⟨rfl, -⟩ := List.append_inj' hsplit rfl
      exact hold l₁ d m d' l₂ rfl hk hd hd' hv

end Readings
