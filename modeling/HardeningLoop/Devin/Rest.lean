import HardeningLoop.Devin.Enums
import HardeningLoop.Lib.Lists

/-!
# The HTTP client of Devin

`request` sends one request, up to four times: a transport error and the statuses of `RETRY_STATUSES` are tried again,
for every method alike. What an attempt did at the server is part of the attempt, whatever it is answered.

- `two_effects_iff`: when a request takes effect more than once;
- `lastUserFacingQuestion`: the latest message that Devin wrote in a session.
-/

namespace HardeningLoop

/-- What an attempt is answered: a `TransportError`, or a response with its problem text and its body. -/
inductive Reply (β : Type) where
  | transportError (name : String)
  | response (status : Nat) (problem : String) (body : β)

/-- An attempt: what it did at the server, and its reply; without one the process died waiting. -/
structure Attempt (ε β : Type) where
  effect : Option ε
  reply : Option (Reply β)

/-- `RETRY_STATUSES`. -/
def retryStatuses : List Nat := [429, 502, 503, 504]

/-- The attempts of a request are numbered from 0 to 3. -/
def lastAttempt : Nat := 3

/-- The reply to an attempt is tried again. -/
def Reply.isRetried {β : Type} (attempt : Nat) : Reply β → Bool
  | .transportError _ => attempt ≠ lastAttempt
  | .response status _ _ => status ∈ retryStatuses && attempt < lastAttempt

/-- What `_request` makes of a reply that it does not try again. -/
def Reply.result {β : Type} (what : String) (allow404 : Bool) : Reply β → Except String β
  | .transportError name => .error (what ++ ": " ++ name)
  | .response status problem body =>
    if status = 404 && allow404 then .ok body
    else if status ≥ 400 then .error (what ++ " -> " ++ toString status ++ ": " ++ problem)
    else .ok body

/-- The loop of `_request` from an attempt on: what it did at the server, and what it returns unless the process
dies. -/
def requestFrom {ε β : Type} (what : String) (allow404 : Bool) :
    Nat → List (Attempt ε β) → List ε × Option (Except String β)
  | _, [] => ([], none)
  | n, a :: rest =>
    match a.reply with
    | none => (a.effect.toList, none)
    | some reply =>
      if reply.isRetried n then
        let (effects, result) := requestFrom what allow404 (n + 1) rest
        (a.effect.toList ++ effects, result)
      else (a.effect.toList, some (reply.result what allow404))

/-- `_request`; when the attempts end before it returns, the process died between two of them. -/
def request {ε β : Type} (what : String) (allow404 : Bool) (attempts : List (Attempt ε β)) :
    List ε × Option (Except String β) := requestFrom what allow404 0 attempts

/-- A reply is there, and the loop goes on after it. -/
def Attempt.isRetried {ε β : Type} (n : Nat) (a : Attempt ε β) : Bool := a.reply.any (Reply.isRetried n)

/-- The attempts that are made, from number `n` on. -/
def attemptsMade {ε β : Type} : Nat → List (Attempt ε β) → List (Attempt ε β)
  | _, [] => []
  | n, a :: rest => if a.isRetried n then a :: attemptsMade (n + 1) rest else [a]

/-- Two attempts take effect, and every one before the second is tried again. -/
def TakesEffectTwice {ε β : Type} (attempts : List (Attempt ε β)) : Prop :=
  ∃ (i j : Nat) (a b : Attempt ε β), i < j ∧ attempts[i]? = some a ∧ a.effect.isSome ∧ attempts[j]? = some b ∧
    b.effect.isSome ∧
    ∀ k < j, (attempts[k]?).any (Attempt.isRetried k) = true

section Requests

variable {ε β : Type} (what : String) (allow404 : Bool)

/-- The effects of a request are those of the attempts it makes. -/
theorem requestFrom_effects (n : Nat) (attempts : List (Attempt ε β)) :
    (requestFrom what allow404 n attempts).1 = (attemptsMade n attempts).filterMap Attempt.effect := by
  have hone (a : Attempt ε β) : [a].filterMap Attempt.effect = a.effect.toList := by
    cases h : a.effect <;> simp [h]
  induction attempts generalizing n with
  | nil => rfl
  | cons a rest ih =>
    unfold requestFrom attemptsMade Attempt.isRetried
    cases hr : a.reply with
    | none => simpa using (hone a).symm
    | some reply =>
      by_cases hretried : reply.isRetried n = true
      · simp only [Option.any_some, hretried, if_true, ih]
        rw [← List.singleton_append, List.filterMap_append, hone]
      · rw [Option.any_some, if_neg hretried, hone]
        exact congrArg Prod.fst (if_neg hretried)

/-- An attempt is made when those before it are tried again. -/
theorem attemptsMade_get? (n : Nat) (attempts : List (Attempt ε β)) (j : Nat) :
    (attemptsMade n attempts)[j]? =
      if ∀ k < j, (attempts[k]?).any (Attempt.isRetried (n + k)) = true then attempts[j]? else none := by
  induction attempts generalizing n j with
  | nil => simp [attemptsMade]
  | cons a rest ih =>
    unfold attemptsMade
    cases j with
    | zero => split <;> simp
    | succ j =>
      by_cases hretried : a.isRetried n = true
      · rw [if_pos hretried, List.getElem?_cons_succ, List.getElem?_cons_succ, ih (n + 1) j]
        refine if_congr ⟨fun h k hk => ?_, fun h k hk => ?_⟩ rfl rfl
        · cases k with
          | zero => simpa using hretried
          | succ k =>
            have hk' := h k (Nat.lt_of_succ_lt_succ hk)
            rwa [List.getElem?_cons_succ, ← Nat.add_assoc, Nat.add_right_comm]
        · have hk' := h (k + 1) (Nat.succ_lt_succ hk)
          rwa [List.getElem?_cons_succ, ← Nat.add_assoc, Nat.add_right_comm] at hk'
      · rw [if_neg hretried, if_neg]
        · simp
        · intro h
          exact hretried (by simpa using h 0 (Nat.succ_pos j))

/-- **A request takes effect more than once** when two of its attempts do and all before the second are tried again. -/
theorem two_effects_iff (attempts : List (Attempt ε β)) :
    1 < (request what allow404 attempts).1.length ↔ TakesEffectTwice attempts := by
  unfold request TakesEffectTwice
  rw [requestFrom_effects, Rows.one_lt_length_filterMap]
  simp only [attemptsMade_get?, Nat.zero_add, Option.ite_none_right_eq_some]
  constructor
  · rintro ⟨i, j, a, b, hij, ⟨-, ha⟩, hea, ⟨hall, hb⟩, heb⟩
    exact ⟨i, j, a, b, hij, ha, hea, hb, heb, hall⟩
  · rintro ⟨i, j, a, b, hij, ha, hea, hb, heb, hall⟩
    exact ⟨i, j, a, b, hij, ⟨fun k hk => hall k (hk.trans hij), ha⟩, hea, ⟨hall, hb⟩, heb⟩

end Requests

/-! ## Messages -/

/-- A message of a session: who wrote it, and when. -/
structure SessionMessage where
  source : String
  message : String
  createdAt : Int
  deriving DecidableEq, Repr

/-- A page of a listing of messages. -/
structure MessagePage where
  items : List SessionMessage
  hasNextPage : Bool := false
  endCursor : Option String := none
  deriving DecidableEq, Repr

/-- `MAX_PAGES`. -/
def maxMessagePages : Nat := 20

/-- The pages that are asked for: up to the bound, while there is a next one. -/
def messagePages : Nat → List MessagePage → List MessagePage
  | 0, _ => []
  | _, [] => []
  | n + 1, page :: rest =>
    page :: if page.hasNextPage && page.endCursor.any (· ≠ "") then messagePages n rest else []

/-- The later of the latest message and the next one, if Devin wrote it. -/
def laterMessage (ext : External) (latest : Option (Int × String)) (item : SessionMessage) : Option (Int × String) :=
  let text := strip ext item.message
  if item.source.toLower ∈ ["user", "api", "service_user"] || text = "" then latest
  else if latest.all fun l => l.1 ≤ item.createdAt then some (item.createdAt, text)
  else latest

/-- The latest message that Devin wrote, with its time. -/
def latestMessage (ext : External) (pages : List MessagePage) : Option (Int × String) :=
  ((messagePages maxMessagePages pages).flatMap MessagePage.items).foldl (laterMessage ext) none

/-- `last_user_facing_question`. -/
def lastUserFacingQuestion (ext : External) (pages : List MessagePage) : Option String :=
  (latestMessage ext pages).map Prod.snd

end HardeningLoop
