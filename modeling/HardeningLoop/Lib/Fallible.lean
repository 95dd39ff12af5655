import Mathlib.Data.List.Basic

/-!
# Computations that raise

Inversion of `Except` computations that end well: of a sequence, of a condition, and of a traversal of a list.
-/

namespace Fallible

universe u v w

variable {ε : Type u} {α : Type v} {β : Type v}

theorem bind_eq_ok {x : Except ε α} {f : α → Except ε β} {b : β} :
    (x >>= f) = .ok b ↔ ∃ a, x = .ok a ∧ f a = .ok b := by
  cases x with
  | error e => exact ⟨nofun, fun h => nomatch h.choose_spec.1⟩
  | ok a => exact ⟨fun h => ⟨a, rfl, h⟩, fun ⟨_, ha, h⟩ => Except.ok.inj ha ▸ h⟩

theorem ok_bind (a : α) (f : α → Except ε β) : (Except.ok a >>= f) = f a := rfl

/-- Two continuations that agree on what is computed. -/
theorem bind_congr_ok {x : Except ε α} {f g : α → Except ε β} (h : ∀ a, x = .ok a → f a = g a) :
    (x >>= f) = (x >>= g) := by
  cases x with
  | error e => rfl
  | ok a => exact h a rfl

/-- A check that raises. -/
theorem guard_eq_ok {c : Prop} [Decidable c] {e : ε} {x : Except ε β} {b : β} :
    (if c then .error e else x) = .ok b ↔ ¬ c ∧ x = .ok b := by
  by_cases hc : c <;> simp [hc]

theorem mapM_eq_ok {f : α → Except ε β} : ∀ {l : List α} {l' : List β}, l.mapM f = .ok l' →
    (∀ a ∈ l, ∃ b ∈ l', f a = .ok b) ∧ ∀ b ∈ l', ∃ a ∈ l, f a = .ok b
  | [], l', h => by
    cases h
    exact ⟨nofun, nofun⟩
  | a :: l, l', h => by
    rw [List.mapM_cons] at h
    obtain ⟨b, hb, h⟩ := bind_eq_ok.mp h
    obtain ⟨bs, hbs, h⟩ := bind_eq_ok.mp h
    cases h
    obtain ⟨hto, hfrom⟩ := mapM_eq_ok hbs
    refine ⟨fun x hx => ?_, fun y hy => ?_⟩
    · rcases List.mem_cons.mp hx with rfl | hx
      · exact ⟨b, List.mem_cons_self, hb⟩
      · obtain ⟨y, hy, hfx⟩ := hto x hx
        exact ⟨y, List.mem_cons_of_mem _ hy, hfx⟩
    · rcases List.mem_cons.mp hy with rfl | hy
      · exact ⟨a, List.mem_cons_self, hb⟩
      · obtain ⟨x, hx, hfx⟩ := hfrom y hy
        exact ⟨x, List.mem_cons_of_mem _ hx, hfx⟩

/-- What every step of a loop keeps, a loop that ends well keeps. -/
theorem foldlM_invariant {f : β → α → Except ε β} (P : β → Prop) (hf : ∀ b a b', P b → f b a = .ok b' → P b') :
    ∀ {l : List α} {b b' : β}, P b → l.foldlM f b = .ok b' → P b'
  | [], b, b', hb, h => by
    cases h
    exact hb
  | a :: l, b, b', hb, h => by
    rw [List.foldlM_cons] at h
    obtain ⟨b₁, hb₁, h⟩ := bind_eq_ok.mp h
    exact foldlM_invariant P hf (hf b a b₁ hb hb₁) h

/-- What a traversal keeps of each element. -/
theorem mapM_map_eq {γ : Type w} {f : α → Except ε β} {g : α → γ} {g' : β → γ} (hf : ∀ a b, f a = .ok b → g' b = g a) :
    ∀ {l : List α} {l' : List β}, l.mapM f = .ok l' → l'.map g' = l.map g
  | [], l', h => by
    cases h
    rfl
  | a :: l, l', h => by
    rw [List.mapM_cons] at h
    obtain ⟨b, hb, h⟩ := bind_eq_ok.mp h
    obtain ⟨bs, hbs, h⟩ := bind_eq_ok.mp h
    cases h
    rw [List.map_cons, List.map_cons, hf a b hb, mapM_map_eq hf hbs]

theorem length_of_mapM {f : α → Except ε β} {l : List α} {l' : List β} (h : l.mapM f = .ok l') :
    l'.length = l.length := by
  have hunits := @mapM_map_eq ε α β Unit f (fun _ => ()) (fun _ => ()) (fun _ _ _ => rfl) l l' h
  simpa using congrArg List.length hunits

theorem mapM_congr {f g : α → Except ε β} : ∀ {l : List α}, (∀ a ∈ l, f a = g a) → l.mapM f = l.mapM g
  | [], _ => rfl
  | a :: l, h => by
    rw [List.mapM_cons, List.mapM_cons, h a List.mem_cons_self, mapM_congr fun a ha => h a (List.mem_cons_of_mem _ ha)]

/-- A traversal of elements that do not raise ends well. -/
theorem exists_mapM_ok {f : α → Except ε β} : ∀ {l : List α}, (∀ a ∈ l, ∃ b, f a = .ok b) → ∃ l', l.mapM f = .ok l'
  | [], _ => ⟨[], rfl⟩
  | a :: l, h => by
    obtain ⟨b, hb⟩ := h a List.mem_cons_self
    obtain ⟨bs, hbs⟩ := exists_mapM_ok fun a ha => h a (List.mem_cons_of_mem _ ha)
    exact ⟨b :: bs, by rw [List.mapM_cons, hb, hbs]; rfl⟩

theorem mapM_ok_map {f : α → Except ε β} {g : α → β} :
    ∀ {l : List α}, (∀ a ∈ l, f a = .ok (g a)) → l.mapM f = .ok (l.map g)
  | [], _ => rfl
  | a :: l, h => by
    rw [List.mapM_cons, h a List.mem_cons_self, mapM_ok_map fun a ha => h a (List.mem_cons_of_mem _ ha)]
    rfl

/-- A traversal that finds each element again. -/
theorem mapM_map_ok {f : α → Except ε β} {g : β → α} :
    ∀ {l : List β}, (∀ b ∈ l, f (g b) = .ok b) → (l.map g).mapM f = .ok l
  | [], _ => rfl
  | b :: l, h => by
    rw [List.map_cons, List.mapM_cons, h b List.mem_cons_self, mapM_map_ok fun b hb => h b (List.mem_cons_of_mem _ hb)]
    rfl

theorem exists_ok_of_isSome {x : Except ε α} (h : x.toOption.isSome = true) : ∃ a, x = .ok a := by
  cases x with
  | error e => cases h
  | ok a => exact ⟨a, rfl⟩

theorem exists_ok_of_any {x : Except ε α} {p : α → Bool} (h : x.toOption.any p = true) :
    ∃ a, x = .ok a ∧ p a = true := by
  cases x with
  | error e => cases h
  | ok a => exact ⟨a, rfl, h⟩

end Fallible
