import Mathlib.Data.List.Basic

/-!
# Replacing what matches

A matcher says of a list whether it begins with a match, and how long that is. `splice` goes through a list, leftmost
match first, and puts a mark in the place of each; of a match it may keep the first elements.

The mark is a name between two brackets, and the statements are about words that have no bracket:

- `infix_splice`: no word is in the result that was neither in the list nor in the name of the mark;
- `not_infix_splice`: a word at which there is always a match is not in the result.

Several matchers one after the other go over each other's marks. `infix_splices` and `not_infix_splices` say the same of
them.
-/

namespace Splice

universe u

variable {α : Type u}

/-- A match of `more + 1` elements, of which the first `kept` stay. -/
structure Match where
  more : Nat
  kept : Nat := 0

/-- The result for a list, after the elements that a match still covers. -/
def spliceFrom (m : List α → Option Match) (mark : List α) : Nat → List α → List α
  | _, [] => []
  | covered + 1, _ :: rest => spliceFrom m mark covered rest
  | 0, a :: rest =>
    match m (a :: rest) with
    | none => a :: spliceFrom m mark 0 rest
    | some found => (a :: rest).take found.kept ++ mark ++ spliceFrom m mark found.more rest

def splice (m : List α → Option Match) (mark : List α) (l : List α) : List α := spliceFrom m mark 0 l

/-- One matcher after the other. -/
def splices (ms : List (List α → Option Match)) (mark l : List α) : List α := ms.foldl (fun l m => splice m mark l) l

/-- A name between two brackets. -/
def bracketed (left right : α) (name : List α) : List α := left :: (name ++ [right])

/-- What begins before a bracket and has none of it ends there. -/
theorem before_bracket {w xs ys : List α} {a : α} (h : w <+: xs ++ a :: ys) (ha : a ∉ w) : w <+: xs := by
  induction xs generalizing w with
  | nil =>
    cases w with
    | nil => exact List.nil_prefix
    | cons b w =>
      obtain ⟨rfl, -⟩ := List.cons_prefix_cons.mp h
      exact absurd List.mem_cons_self ha
  | cons x xs ih =>
    cases w with
    | nil => exact List.nil_prefix
    | cons b w =>
      obtain ⟨rfl, hrest⟩ := List.cons_prefix_cons.mp h
      exact List.cons_prefix_cons.mpr ⟨rfl, ih hrest fun hw => ha (List.mem_cons_of_mem _ hw)⟩

/-- A word without an element is on one side of it. -/
theorem infix_around {w xs ys : List α} {a : α} (h : w <:+: xs ++ a :: ys) (ha : a ∉ w) : w <:+: xs ∨ w <:+: ys := by
  induction xs with
  | nil =>
    rcases List.infix_cons_iff.mp h with hprefix | hinfix
    · have hnone : w <+: [] := before_bracket hprefix ha
      exact .inl hnone.isInfix
    · exact .inr hinfix
  | cons x xs ih =>
    rcases List.infix_cons_iff.mp h with hprefix | hinfix
    · have hbefore : w <+: x :: xs := before_bracket hprefix ha
      exact .inl hbefore.isInfix
    · exact (ih hinfix).imp_left fun h => List.infix_cons h

/-- A word without the brackets is before the mark, in its name, or after it. -/
theorem infix_mark {w xs ys name : List α} {left right : α} (h : w <:+: xs ++ bracketed left right name ++ ys)
    (hleft : left ∉ w) (hright : right ∉ w) : w <:+: xs ∨ w <:+: name ∨ w <:+: ys := by
  rw [bracketed, List.append_assoc, List.cons_append, List.append_assoc] at h
  exact (infix_around h hleft).imp_right fun h => infix_around h hright

section

variable {m : List α → Option Match} {left right : α} {name w : List α}

/-- What the result begins with, the list began with. -/
theorem prefix_splice {l : List α} (h : w <+: spliceFrom m (bracketed left right name) 0 l) (hleft : left ∉ w) :
    w <+: l := by
  induction l generalizing w with
  | nil => exact h
  | cons a rest ih =>
    unfold spliceFrom at h
    split at h
    · cases w with
      | nil => exact List.nil_prefix
      | cons b w =>
        obtain ⟨rfl, hrest⟩ := List.cons_prefix_cons.mp h
        exact List.cons_prefix_cons.mpr ⟨rfl, ih hrest fun hw => hleft (List.mem_cons_of_mem _ hw)⟩
    · rename_i found _
      rw [List.append_assoc, bracketed, List.cons_append] at h
      exact (before_bracket h hleft).trans (List.take_prefix _ _)

/-- A word of the result stood in the list, or it is a part of the mark's name. -/
theorem infix_splice {l : List α} {covered : Nat} (h : w <:+: spliceFrom m (bracketed left right name) covered l)
    (hleft : left ∉ w) (hright : right ∉ w) : w <:+: l ∨ w <:+: name := by
  induction l generalizing covered with
  | nil => cases covered <;> exact .inl h
  | cons a rest ih =>
    have hlater {more : Nat} (h : w <:+: spliceFrom m (bracketed left right name) more rest) :
        w <:+: a :: rest ∨ w <:+: name :=
      (ih h).imp_left fun h => List.infix_cons h
    cases covered with
    | succ covered => exact hlater h
    | zero =>
      have hfull := h
      unfold spliceFrom at h
      split at h
      · rcases List.infix_cons_iff.mp h with hprefix | hinfix
        · rename_i hm
          have hstart : w <+: spliceFrom m (bracketed left right name) 0 (a :: rest) := by
            rw [spliceFrom, hm]
            exact hprefix
          exact .inl (prefix_splice hstart hleft).isInfix
        · exact hlater hinfix
      · rcases infix_mark h hleft hright with hkept | hname | hrest
        · exact .inl (hkept.trans (List.take_prefix _ _).isInfix)
        · exact .inr hname
        · exact hlater hrest

/-- The matcher always finds the word, and keeps nothing of what it finds. -/
structure Finds (m : List α → Option Match) (w : List α) : Prop where
  keeps : ∀ l found, m l = some found → found.kept = 0
  found : ∀ l, w <+: l → m l ≠ none

/-- A word that is always found is not in the result. -/
theorem not_infix_splice {l : List α} {covered : Nat} (hm : Finds m w) (hne : w ≠ []) (hleft : left ∉ w)
    (hright : right ∉ w) (hname : ¬ w <:+: name) : ¬ w <:+: spliceFrom m (bracketed left right name) covered l := by
  intro h
  induction l generalizing covered with
  | nil => cases covered <;> exact hne (List.infix_nil.mp h)
  | cons a rest ih =>
    cases covered with
    | succ covered => exact ih h
    | zero =>
      rcases hfound : m (a :: rest) with _ | found
      · have hstart : ¬ w <+: spliceFrom m (bracketed left right name) 0 (a :: rest) :=
          fun hprefix => hm.found _ (prefix_splice hprefix hleft) hfound
        rw [spliceFrom, hfound] at h hstart
        rcases List.infix_cons_iff.mp h with hprefix | hinfix
        · exact hstart hprefix
        · exact ih hinfix
      · rw [spliceFrom, hfound] at h
        rcases infix_mark h hleft hright with hkept | hinname | hrest
        · rw [hm.keeps _ _ hfound, List.take_zero] at hkept
          exact hne (List.infix_nil.mp hkept)
        · exact hname hinname
        · exact ih hrest

variable {ms : List (List α → Option Match)}

theorem infix_splices {l : List α} (h : w <:+: splices ms (bracketed left right name) l) (hleft : left ∉ w)
    (hright : right ∉ w) : w <:+: l ∨ w <:+: name := by
  induction ms generalizing l with
  | nil => exact .inl h
  | cons m ms ih =>
    rcases ih h with hl | hname
    · exact infix_splice hl hleft hright
    · exact .inr hname

/-- One matcher that finds the word is enough: those after it do not bring it back. -/
theorem not_infix_splices {l : List α} (hfinds : ∃ m ∈ ms, Finds m w) (hne : w ≠ []) (hleft : left ∉ w)
    (hright : right ∉ w) (hname : ¬ w <:+: name) : ¬ w <:+: splices ms (bracketed left right name) l := by
  obtain ⟨m, hmem, hm⟩ := hfinds
  obtain ⟨earlier, later, rfl⟩ := List.append_of_mem hmem
  intro h
  rw [splices, List.foldl_append, List.foldl_cons] at h
  rcases infix_splices h hleft hright with hl | hin
  · exact not_infix_splice hm hne hleft hright hname hl
  · exact hname hin

end

end Splice
