import HardeningLoop.Lib.Listing
import Mathlib.Data.List.Nodup

/-!
# Pages of a list that grows

A list is read a page at a time while elements are added to it. What is behind a new element moves to a later place, so
that a page may repeat what the page before it had; but nothing is passed over.

- `Reads`: the pages of a reading, each taken from the list of its time;
- `Reads.sublist`: one that ends with a short page has all that was listed when it began, in that order;
- `Reads.before`: whoever stops at an element has had all that was listed before it.
-/

universe u

namespace Pages

variable {α : Type u}

/-- Elements are only added, at any place. -/
def Grows (lists : Nat → List α) : Prop := ∀ t, (lists t).Sublist (lists (t + 1))

theorem Grows.sublist {lists : Nat → List α} (h : Grows lists) {s t : Nat} (hst : s ≤ t) :
    (lists s).Sublist (lists t) := by
  induction t with
  | zero => rw [Nat.le_zero.mp hst]
  | succ t ih =>
    rcases Nat.le_succ_iff.mp hst with hst | rfl
    · exact (ih hst).trans (h t)
    · exact List.Sublist.refl _

/-- What a reading gives from page `p` on, of pages counted from zero, that begins at time `t`. It comes to its end with
a short page, or is broken off before a page. -/
inductive Reads (perPage : Nat) (lists : Nat → List α) : Bool → Nat → Nat → List α → Prop
  | broken {p t : Nat} : Reads perPage lists false p t []
  | last {p t s : Nat} (hs : t ≤ s) (hshort : (Listing.pageOf perPage (lists s) (p + 1)).length < perPage) :
      Reads perPage lists true p t (Listing.pageOf perPage (lists s) (p + 1))
  | more {ends : Bool} {p t s : Nat} {rest : List α} (hs : t ≤ s) (h : Reads perPage lists ends (p + 1) s rest) :
      Reads perPage lists ends p t (Listing.pageOf perPage (lists s) (p + 1) ++ rest)

/-- The first elements of a list were read, the others are still to come. -/
def Halved (base out coming : List α) : Prop := ∃ b₁ b₂, base = b₁ ++ b₂ ∧ b₁.Sublist out ∧ b₂.Sublist coming

variable {perPage : Nat} {lists : Nat → List α} {base out coming l r : List α}

theorem Halved.start (h : base.Sublist coming) : Halved base [] coming := ⟨[], base, rfl, List.Sublist.refl _, h⟩

theorem Halved.grow (h : Halved base out coming) {coming' : List α}
    (hc : coming.Sublist coming') : Halved base out coming' := by
  obtain ⟨b₁, b₂, hbase, h₁, h₂⟩ := h
  exact ⟨b₁, b₂, hbase, h₁, h₂.trans hc⟩

/-- Reading on. -/
theorem Halved.read (h : Halved base out (l ++ r)) : Halved base (out ++ l) r := by
  obtain ⟨b₁, b₂, rfl, h₁, h₂⟩ := h
  obtain ⟨c₁, c₂, rfl, hc₁, hc₂⟩ := List.sublist_append_iff.mp h₂
  exact ⟨b₁ ++ c₁, c₂, (List.append_assoc ..).symm, h₁.append hc₁, hc₂⟩

theorem Halved.done (h : Halved base out []) : base.Sublist out := by
  obtain ⟨b₁, b₂, rfl, h₁, h₂⟩ := h
  rwa [List.sublist_nil.mp h₂, List.append_nil]

/-- What stands before an element that is there once. -/
theorem sublist_before {e b : List α} {a : α} (h : (e ++ a :: b).Sublist (l ++ a :: r)) (hr : a ∉ r) : e.Sublist l := by
  obtain ⟨x, y, hxy, hx, hy⟩ := List.append_sublist_iff.mp h
  rcases List.append_eq_append_iff.mp hxy with ⟨c, rfl, hrest⟩ | ⟨c, rfl, -⟩
  · cases c with
    | nil => rwa [List.append_nil] at hx
    | cons d c =>
      obtain ⟨-, rfl⟩ := List.cons.inj hrest
      exact absurd (List.mem_append_right c (hy.subset List.mem_cons_self)) hr
  · exact hx.trans (List.sublist_append_left x c)

/-- Reading up to an element that is there once. -/
theorem Halved.before {b₁ b₂ : List α} {a : α} (h : Halved (b₁ ++ a :: b₂) out (l ++ a :: r)) (hr : a ∉ r) :
    b₁.Sublist (out ++ l) := by
  obtain ⟨c₁, c₂, hbase, h₁, h₂⟩ := h
  rcases List.append_eq_append_iff.mp hbase with ⟨c, rfl, -⟩ | ⟨c, rfl, hrest⟩
  · exact ((List.sublist_append_left b₁ c).trans h₁).trans (List.sublist_append_left out l)
  · rw [hrest] at h₂
    exact h₁.append (sublist_before h₂ hr)

/-! ## Readings -/

theorem split_page (l : List α) (p : Nat) :
    l.drop (perPage * p) = Listing.pageOf perPage l (p + 1) ++ l.drop (perPage * (p + 1)) := by
  rw [Nat.mul_add, Nat.mul_one, ← List.drop_drop]
  exact (List.take_append_drop perPage _).symm

/-- When a page is asked for, the list may have grown. -/
theorem Halved.page (hgrow : Grows lists) {p s t : Nat} (hs : t ≤ s)
    (h : Halved base out ((lists t).drop (perPage * p))) :
    Halved base out (Listing.pageOf perPage (lists s) (p + 1) ++ (lists s).drop (perPage * (p + 1))) := by
  have hgrown := h.grow ((hgrow.sublist hs).drop (perPage * p))
  rwa [split_page] at hgrown

theorem Reads.sublist_append (hgrow : Grows lists) {p t : Nat} {items : List α} (h : Reads perPage lists true p t items)
    (hout : Halved base out ((lists t).drop (perPage * p))) : base.Sublist (out ++ items) := by
  generalize hends : true = ends at h
  induction h generalizing out with
  | broken => cases hends
  | @last p t s hs hshort =>
    -- nothing is left behind a short page
    have hnone : (lists s).drop (perPage * (p + 1)) = [] := by
      rw [Listing.pageOf, Nat.add_sub_cancel, List.length_take, List.length_drop] at hshort
      rw [List.drop_eq_nil_iff, Nat.mul_add, Nat.mul_one]
      omega
    have hread := (hout.page hgrow hs).read
    rw [hnone] at hread
    exact hread.done
  | @more ends p t s rest hs _ ih =>
    rw [← List.append_assoc]
    exact ih (hout.page hgrow hs).read hends

/-- **A reading that comes to its end** has all that was listed when it began. -/
theorem Reads.sublist (hgrow : Grows lists) {t : Nat} {items : List α} (h : Reads perPage lists true 0 t items) :
    (lists t).Sublist items :=
  h.sublist_append hgrow (.start (by rw [Nat.mul_zero, List.drop_zero]))

theorem Reads.later {ends : Bool} {p s t : Nat} {items : List α} (h : Reads perPage lists ends p t items)
    (hst : s ≤ t) :
    Reads perPage lists ends p s items := by
  cases h with
  | broken => exact .broken
  | last ht hshort => exact .last (Nat.le_trans hst ht) hshort
  | more ht hrest => exact .more (Nat.le_trans hst ht) hrest

/-- It has nothing that was not listed at some time. -/
theorem Reads.mem {ends : Bool} {p t : Nat} {items : List α} (h : Reads perPage lists ends p t items) {a : α}
    (ha : a ∈ items) :
    ∃ s, t ≤ s ∧ a ∈ lists s := by
  induction h with
  | broken => cases ha
  | @last p t s hs _ => exact ⟨s, hs, List.mem_of_mem_drop (List.mem_of_mem_take ha)⟩
  | @more ends p t s rest hs _ ih =>
    rcases List.mem_append.mp ha with ha | ha
    · exact ⟨s, hs, List.mem_of_mem_drop (List.mem_of_mem_take ha)⟩
    · obtain ⟨s', hs', ha⟩ := ih ha
      exact ⟨s', Nat.le_trans hs hs', ha⟩

/-- An element of a page, and what was listed before it. -/
theorem before_page (hgrow : Grows lists) {p t s : Nat} (hs : t ≤ s) (hnodup : (lists s).Nodup)
    {b₁ b₂ l₁ l₂ : List α} {a : α}
    (hpage : Listing.pageOf perPage (lists s) (p + 1) = l₁ ++ a :: l₂)
    (hout : Halved (b₁ ++ a :: b₂) out ((lists t).drop (perPage * p))) : b₁.Sublist (out ++ l₁) := by
  have hsplit : Listing.pageOf perPage (lists s) (p + 1) ++ (lists s).drop (perPage * (p + 1)) =
      l₁ ++ a :: (l₂ ++ (lists s).drop (perPage * (p + 1))) := by rw [hpage, List.append_assoc, List.cons_append]
  have honce := hnodup.sublist (List.drop_sublist (perPage * p) (lists s))
  rw [split_page, hsplit] at honce
  have hnext := hout.page hgrow hs
  rw [hsplit] at hnext
  exact hnext.before (List.nodup_cons.mp (List.Nodup.of_append_right honce)).1

theorem Reads.before_append (hgrow : Grows lists) (hnodup : ∀ s, (lists s).Nodup) {ends : Bool} {p t : Nat}
    {items : List α}
    (h : Reads perPage lists ends p t items) {b₁ b₂ l₁ l₂ : List α} {a : α} (hitems : items = l₁ ++ a :: l₂)
    (hout : Halved (b₁ ++ a :: b₂) out ((lists t).drop (perPage * p))) : b₁.Sublist (out ++ l₁) := by
  induction h generalizing out l₁ with
  | broken => simp at hitems
  | @last p t s hs _ => exact before_page hgrow hs (hnodup s) hitems hout
  | @more ends p t s rest hs _ ih =>
    rcases List.append_eq_append_iff.mp hitems with ⟨l, rfl, hrest⟩ | ⟨l, hpage, hrest⟩
    · rw [← List.append_assoc]
      exact ih hrest (hout.page hgrow hs).read
    · cases l with
      | nil =>
        rw [List.append_nil] at hpage
        have hlast := ih (show rest = [] ++ a :: l₂ from hrest.symm) (hout.page hgrow hs).read
        rwa [List.append_nil, hpage] at hlast
      | cons b l =>
        obtain ⟨rfl, -⟩ := List.cons.inj hrest
        exact before_page hgrow hs (hnodup s) hpage hout

/-- **Whoever stops at an element** has had all that was listed before it when the reading began. -/
theorem Reads.before (hgrow : Grows lists) (hnodup : ∀ s, (lists s).Nodup) {ends : Bool} {t : Nat}
    {b₁ b₂ l₁ l₂ : List α}
    {a : α} (h : Reads perPage lists ends 0 t (l₁ ++ a :: l₂)) (hlist : lists t = b₁ ++ a :: b₂) : b₁.Sublist l₁ :=
  h.before_append hgrow hnodup rfl (.start (by rw [Nat.mul_zero, List.drop_zero, hlist]))

end Pages
