import Mathlib.Data.List.Basic

/-!
# Lazy listings

A generator as the sequence of what one pull after another gives: elements, then a stop or an exception. What it gives
after the consumer has stopped pulling is never looked at, so an exception behind that point is none.

`pages` is a listing read page by page, at most `left` of them; `collect` takes the wanted elements until there are
enough.
-/

universe u v

/-- What the pulls of a generator give. -/
inductive Listing (ε : Type u) (α : Type v) where
  | stop
  | raised (e : ε)
  | next (a : α) (rest : Listing ε α)

namespace Listing

variable {ε : Type u} {α : Type v}

/-- The elements of `l`, then `last`. -/
def yields : List α → Listing ε α → Listing ε α
  | [], last => last
  | a :: l, last => .next a (yields l last)

theorem yields_append (l l' : List α) (last : Listing ε α) : yields (l ++ l') last = yields l (yields l' last) := by
  induction l with
  | nil => rfl
  | cons a l ih => simp only [List.cons_append, yields, ih]

/-- `(a for a in listing if p(a))`. -/
def filter (p : α → Bool) : Listing ε α → Listing ε α
  | .stop => .stop
  | .raised e => .raised e
  | .next a rest => if p a then .next a (rest.filter p) else rest.filter p

theorem filter_yields (p : α → Bool) (l : List α) (last : Listing ε α) :
    (yields l last).filter p = yields (l.filter p) (last.filter p) := by
  induction l with
  | nil => rfl
  | cons a l ih =>
    rw [yields, filter]
    by_cases h : p a = true
    · rw [if_pos h, List.filter_cons_of_pos h, yields, ih]
    · rw [if_neg h, List.filter_cons_of_neg h, ih]

/-! ## Pages -/

/-- Pages `page`, `page + 1`, … of `perPage` elements each, `left` of them before `e` is raised. A short page is the
last. -/
def pages (perPage : Nat) (e : ε) (request : Nat → List α) : Nat → Nat → Listing ε α
  | _, 0 => .raised e
  | page, left + 1 =>
    yields (request page)
      (if (request page).length < perPage then .stop else pages perPage e request (page + 1) left)

/-- Page `page` of `l`, counted from one. -/
def pageOf (perPage : Nat) (l : List α) (page : Nat) : List α := (l.drop (perPage * (page - 1))).take perPage

/-- The pages of a list give the list, unless it fills all of them: then they give as much as they hold, and raise. -/
theorem pages_pageOf (perPage : Nat) (e : ε) (l : List α) : ∀ left page,
    pages perPage e (pageOf perPage l) (page + 1) left =
      if (l.drop (perPage * page)).length < perPage * left then yields (l.drop (perPage * page)) .stop
      else yields ((l.drop (perPage * page)).take (perPage * left)) (.raised e)
  | 0, page => by simp [pages, yields]
  | left + 1, page => by
    have hpage : pageOf perPage l (page + 1) = (l.drop (perPage * page)).take perPage := rfl
    have hnext : l.drop (perPage * (page + 1)) = (l.drop (perPage * page)).drop perPage := by
      rw [List.drop_drop, Nat.mul_add, Nat.mul_one]
    have ih := pages_pageOf perPage e l left (page + 1)
    rw [hnext] at ih
    rw [pages, hpage, ih]
    generalize l.drop (perPage * page) = l
    rw [List.length_take, List.length_drop, Nat.mul_add, Nat.mul_one]
    by_cases hshort : l.length < perPage
    · rw [if_pos (by omega), if_pos (by omega), List.take_of_length_le (by omega)]
    · rw [if_neg (show ¬ min perPage l.length < perPage by omega)]
      by_cases hfull : l.length - perPage < perPage * left
      · rw [if_pos hfull, if_pos (by omega), ← yields_append, List.take_append_drop]
      · rw [if_neg hfull, if_neg (by omega), ← yields_append, Nat.add_comm (perPage * left), List.take_add]

/-! ## Collecting -/

/-- `for a in listing: if len(out) >= limit: break; if wanted(a): out.append(a)`. -/
def collect (limit : Int) (wanted : α → Bool) : Listing ε α → List α → Except ε (List α)
  | .stop, out => .ok out
  | .raised e, _ => .error e
  | .next a rest, out =>
    if limit ≤ out.length then .ok out
    else if wanted a then rest.collect limit wanted (out ++ [a])
    else rest.collect limit wanted out

/-- One wanted element more, and one fewer to come. -/
theorem append_take_of_wanted {limit : Int} {out : List α} (h : ¬ limit ≤ out.length) (a : α) (l : List α) :
    out ++ (a :: l).take (limit.toNat - out.length) =
      (out ++ [a]) ++ l.take (limit.toNat - (out ++ [a]).length) := by
  obtain ⟨n, hn⟩ : ∃ n, limit.toNat - out.length = n + 1 := ⟨limit.toNat - out.length - 1, by omega⟩
  have hn' : limit.toNat - (out ++ [a]).length = n := by
    rw [List.length_append, List.length_singleton]
    omega
  rw [hn, hn', List.take_succ_cons, List.append_assoc, List.singleton_append]

/-- From a listing that ends, `collect` takes the first wanted elements, up to the limit. -/
theorem collect_stop (limit : Int) (wanted : α → Bool) : ∀ (l out : List α),
    (yields l (.stop : Listing ε α)).collect limit wanted out =
      .ok (out ++ (l.filter wanted).take (limit.toNat - out.length))
  | [], out => by simp [yields, collect]
  | a :: l, out => by
    rw [yields, collect]
    by_cases hlimit : limit ≤ out.length
    · have hzero : limit.toNat - out.length = 0 := by omega
      rw [if_pos hlimit, hzero, List.take_zero, List.append_nil]
    · rw [if_neg hlimit]
      by_cases ha : wanted a = true
      · rw [if_pos ha, collect_stop limit wanted l, List.filter_cons_of_pos ha, append_take_of_wanted hlimit]
      · rw [if_neg ha, collect_stop limit wanted l, List.filter_cons_of_neg ha]

/-- From a listing that raises, `collect` takes the same if the limit is reached before the last element: it is that
element that makes it look at the count once more. -/
theorem collect_raised (limit : Int) (wanted : α → Bool) (e : ε) : ∀ (l out : List α),
    (yields l (.raised e)).collect limit wanted out =
      if l ≠ [] ∧ limit ≤ (out.length + (l.dropLast.filter wanted).length : Nat) then
        .ok (out ++ (l.filter wanted).take (limit.toNat - out.length))
      else .error e
  | [], out => (if_neg fun h => h.1 rfl).symm
  | a :: l, out => by
    rw [yields, collect]
    by_cases hlimit : limit ≤ out.length
    · have hzero : limit.toNat - out.length = 0 := by omega
      rw [if_pos hlimit, if_pos ⟨List.cons_ne_nil a l, by omega⟩, hzero, List.take_zero, List.append_nil]
    · rw [if_neg hlimit]
      cases l with
      | nil =>
        have hnone : ¬ limit ≤ (out.length + ([a].dropLast.filter wanted).length : Nat) := by simpa using hlimit
        exact (ite_self (Except.error e)).trans (if_neg fun h => hnone h.2).symm
      | cons b l =>
        have ih := collect_raised limit wanted e (b :: l)
        simp only [ne_eq, List.cons_ne_nil, not_false_eq_true, true_and] at ih ⊢
        rw [List.dropLast_cons_of_ne_nil (List.cons_ne_nil b l)]
        by_cases ha : wanted a = true
        · have hlen : out.length + (a :: (b :: l).dropLast.filter wanted).length =
              (out ++ [a]).length + ((b :: l).dropLast.filter wanted).length := by
            simp only [List.length_append, List.length_cons, List.length_nil]
            omega
          rw [if_pos ha, List.filter_cons_of_pos ha, List.filter_cons_of_pos ha, append_take_of_wanted hlimit, hlen, ih]
        · rw [if_neg ha, List.filter_cons_of_neg ha, List.filter_cons_of_neg ha, ih]

end Listing
