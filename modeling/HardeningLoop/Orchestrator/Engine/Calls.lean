import HardeningLoop.Lib.Fold
import HardeningLoop.Orchestrator.Engine.Dispatch

/-!
# The calls of a unit

`Makes P tx t`: what a unit adds to the remote calls of its transaction are calls that satisfy `P`. Writing rows adds
none, and an event of a work item only those that keep the `needs-human` label in step.
-/

namespace HardeningLoop

/-- The unit makes calls, and all of them satisfy `P`. -/
def Makes (P : Call → Prop) (tx t : Tx) : Prop :=
  ∃ l, t.effects = tx.effects ++ l ∧ ∀ e ∈ l, ∀ call ∈ e.calls, P call

/-- The calls that keep the `needs-human` label in step. -/
def Call.syncsLabel : Call → Prop
  | .addLabels _ labels => labels = [HumanLabel.needsHuman.value]
  | .removeLabel _ label => label = HumanLabel.needsHuman.value
  | .commentIssue .. => True
  | _ => False

namespace Makes

variable {P : Call → Prop} {env : Env} {tx t t' : Tx}

theorem of_same (h : t.effects = tx.effects) : Makes P tx t := ⟨[], h.trans (List.append_nil _).symm, by simp⟩

theorem refl (tx : Tx) : Makes P tx tx := of_same rfl

theorem trans (h : Makes P tx t) (h' : Makes P t t') : Makes P tx t' := by
  obtain ⟨l, hl, hall⟩ := h
  obtain ⟨l', hl', hall'⟩ := h'
  refine ⟨l ++ l', by rw [hl', hl, List.append_assoc], fun e he => ?_⟩
  exact (List.mem_append.mp he).elim (hall e) (hall' e)

theorem imp {Q : Call → Prop} (h : Makes P tx t) (hPQ : ∀ call, P call → Q call) : Makes Q tx t := by
  obtain ⟨l, hl, hall⟩ := h
  exact ⟨l, hl, fun e he call hcall => hPQ call (hall e he call hcall)⟩

theorem effect (e : Effect) (h : t.effects = tx.effects ++ [e]) (he : ∀ call ∈ e.calls, P call) : Makes P tx t :=
  ⟨[e], h, fun _ he' => List.mem_singleton.mp he' ▸ he⟩

theorem must {call : Call} (h : P call) : Makes P t (t.must call) :=
  effect (.must call) rfl fun _ hc => List.mem_singleton.mp hc ▸ h

theorem answered {call : Call} (h : P call) : Makes P t (t.answered call) :=
  effect (.answered call) rfl fun _ hc => List.mem_singleton.mp hc ▸ h

theorem attempt {calls : List Call} (h : ∀ call ∈ calls, P call) : Makes P t (t.attempt calls) :=
  effect (.attempt calls) rfl h

/-! Writing rows adds no call. -/

theorem modifyItem (h : Makes P tx t) (wid : Nat) (f : WorkItem → WorkItem) : Makes P tx (t.modifyItem wid f) :=
  h.trans (of_same rfl)

theorem modifyPullRequest (h : Makes P tx t) (pid : Nat) (f : PullRequest → PullRequest) :
    Makes P tx (t.modifyPullRequest pid f) := h.trans (of_same rfl)

theorem event (h : Makes P tx t) (type : EntityType) (id : Nat) (name : EventName) (fromState toState : Option String)
    (reason actor : String) (ids : List Nat) :
    Makes P tx (t.event env type id name fromState toState reason actor ids) :=
  h.trans (of_same rfl)

theorem foldl {α : Type*} {f : Tx → α → Tx} (l : List α) (hf : ∀ t, ∀ a ∈ l, Makes P t (f t a)) (t : Tx) :
    Makes P t (l.foldl f t) :=
  Rows.foldl_invariant (Makes P t) (fun t' a ha h => h.trans (hf t' a ha)) (refl t)

theorem syncHumanLabel (hP : ∀ call : Call, call.syncsLabel → P call) (issue : Option Nat)
    (blockedReason : Option String)
    (before after : WorkItemState) : Makes P t (t.syncHumanLabel issue blockedReason before after) := by
  unfold Tx.syncHumanLabel
  split
  · exact refl t
  · split
    · refine attempt fun call hcall => hP call ?_
      rcases List.mem_cons.mp hcall with rfl | hcall
      · exact rfl
      · rw [List.mem_singleton.mp hcall]
        trivial
    · split
      · exact attempt fun call hcall => hP call (List.mem_singleton.mp hcall ▸ rfl)
      · exact refl t

/-- An event of a work item calls only to keep the label in step. -/
theorem wi (hP : ∀ call : Call, call.syncsLabel → P call) (wid : Nat) (event : WorkItemEvent) (reason actor : String) :
    Makes P t (t.wi env wid event reason actor) := by
  have hfire (t : Tx) (item : WorkItem) (event : WorkItemEvent) (after : WorkItemState) (reason actor : String) :
      Makes P t (t.wiFire env wid item event after reason actor) :=
    (of_same rfl : Makes P t ((t.modifyItem wid _).event ..)).trans (syncHumanLabel hP ..)
  unfold Tx.wi
  split
  · exact refl t
  · split
    · exact hfire ..
    · dsimp only
      split
      · split
        · exact of_same rfl
        · exact (of_same rfl : Makes P t (t.log ..)).trans (hfire ..)
      · exact of_same rfl

theorem findingFrom (fid : Nat) (before : FindingState) (event : FindingEvent) (reason actor : String)
    (runId : Option Nat) :
    Makes P t (t.findingFrom env fid before event reason actor runId).1 := by
  unfold Tx.findingFrom
  split <;> exact of_same rfl

theorem finding (fid : Nat) (event : FindingEvent) (reason actor : String) (runId : Option Nat) :
    Makes P t (t.finding env fid event reason actor runId).1 := by
  unfold Tx.finding
  split
  · exact refl t
  · exact findingFrom ..

end Makes

end HardeningLoop
