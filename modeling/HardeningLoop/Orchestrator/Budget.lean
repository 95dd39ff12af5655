import Mathlib.Algebra.Order.Field.Rat
import Mathlib.Tactic.Linarith
import HardeningLoop.Orchestrator.Creation

/-!
# The global budget

The budget is checked where an item is reserved, against what is on record: what all recorded sessions consumed, and
what the sessions of active items may still consume. Devin knows more sessions than that, and sessions that still work
belong to items that left the active states.

- `World.spent`: what all sessions consumed and what those able to work may still consume;
- `OnBooks`: at a reservation, the record covers every session at Devin;
- `OverByRounding`: it exceeds the budget by so little that the sum of doubles need not show it (`due_le`);
- `Solvent`: what sessions and the pending creation may consume fits into the budget (`solvent_exec`);
- `budget_run`: `spent` stays within the budget in every run whose reservations are on the books and not over the budget
  by a rounding.
-/

namespace HardeningLoop

open Rows (Table)

/-! ## What is spent, and what is held -/

/-- What all sessions consumed, and what those able to work may still consume. -/
def World.spent (w : World) : Acu :=
  (w.remote.map RemoteSession.consumed).sum +
    ((w.remote.filter RemoteSession.able).map fun r => r.limit - r.consumed).sum

/-- What is held for a session: its limit, unless a reservation counted it at its consumption. -/
def RemoteSession.held (r : RemoteSession) : Acu := if r.released then r.consumed else r.limit

def Db.cap (db : Db) (wid : Nat) : Acu := ((db.workItems.get? wid).map WorkItem.acuCap).getD 0

/-- What the record counts for a row. -/
def Db.counts (db : Db) (row : Session) : Acu :=
  row.acusConsumed + if db.reservesFor row.devinId then max 0 (row.maxAcuLimit - row.acusConsumed) else 0

/-- What the record counts, without a rounding. -/
def Db.counted (db : Db) : Acu := (db.sessions.rows.map db.counts).sum

/-- What a reservation of the item is checked against the budget for, without a rounding. -/
def Db.due (db : Db) (wid : Nat) : Acu := db.counted + db.cap wid

/-- The budget is exceeded, but by no more than the sum of the doubles may be off. -/
def OverByRounding (settings : Settings) (db : Db) (wid : Nat) : Prop :=
  settings.globalAcuBudget < db.due wid ∧
    db.due wid ≤ settings.globalAcuBudget + Binary64.slack (db.sessions.rows.length + 4) * db.due wid

/-- A session of the item exists that is not on record. -/
def World.unrecorded (w : World) (wid : Nat) : Bool :=
  w.remote.any fun r => r.workItem == wid && !w.sys.db.records r.sessionId

/-- What a session that is about to be created may consume. -/
def World.pending (w : World) : Acu :=
  match w.sys.flight with
  | some (.adopting wid false) => if w.unrecorded wid then 0 else w.sys.db.cap wid
  | some (.creating wid _) => w.sys.db.cap wid
  | _ => 0

/-- At the reservation of item `wid` the record covers the sessions at Devin. A session on record has its limit there,
and it is the session of an item in an active state, or it is unable to work and what it consumed is recorded; one
session may be missing, if it is of the item itself. No recorded consumption is negative. -/
def OnBooks (w : World) (wid : Nat) : Prop :=
  (∀ r ∈ w.remote, w.sys.db.records r.sessionId = true →
    ∃ row ∈ w.sys.db.sessions.rows, row.devinId = r.sessionId ∧ row.maxAcuLimit = r.limit ∧
      (w.sys.db.reservesFor r.sessionId = true ∨ r.able = false ∧ row.acusConsumed = r.consumed)) ∧
  (∀ r ∈ w.remote, w.sys.db.records r.sessionId = false → r.workItem = wid) ∧
  (w.remote.filter fun r => !w.sys.db.records r.sessionId).length ≤ 1 ∧
  ∀ row ∈ w.sys.db.sessions.rows, 0 ≤ row.acusConsumed

/-- The sessions that a search listed. -/
def Action.listed : Action → Option (List SessionSnapshot)
  | .adopt _ (.ok sessions) => some sessions
  | _ => none

/-- What Devin does: the consumption of a session never decreases, never exceeds its limit and grows only while the
session works; a new session has an id of its own; a search by tag lists every session of the item. -/
def Truthful (org : String) (w : World) : WorldAction → Prop
  | .act b => ∀ sessions ∈ b.listed, ∀ r ∈ w.remote, w.sys.flight.bind Flight.dispatches = some r.workItem →
    ∃ s ∈ sessions, s.sessionId = r.sessionId
  | .create now upload attempts dies commented =>
    ((w.remote.map RemoteSession.sessionId) ++ (WorldAction.create now upload attempts dies commented).sessions
      org).Nodup
  | .work i consumed able => ∀ r ∈ w.remote[i]?, r.consumed ≤ consumed ∧ consumed ≤ r.limit ∧
    (r.able = true ∨ able = true ∨ consumed = r.consumed)

/-- A reservation is made on the books and not over the budget by a rounding, no creation takes effect twice, and no
session comes back to work that a reservation counted at its consumption. -/
def Booked (c : Controller) (w : World) : WorldAction → Prop
  | .act b => ∀ wid ∈ reservedItem w.sys (exec c w.sys b), OnBooks w wid ∧ ¬ OverByRounding c.settings w.sys.db wid
  | .create now upload attempts dies commented => ¬ CreatesTwice w (.create now upload attempts dies commented)
  | .work i _ able => ∀ r ∈ w.remote[i]?, r.released = true → able = false

instance (w : World) (wid : Nat) : Decidable (OnBooks w wid) := inferInstanceAs (Decidable (_ ∧ _))

instance (settings : Settings) (db : Db) (wid : Nat) : Decidable (OverByRounding settings db wid) :=
  inferInstanceAs (Decidable (_ ∧ _))

instance (org : String) (w : World) : ∀ a, Decidable (Truthful org w a)
  | .act b => inferInstanceAs (Decidable (∀ sessions ∈ b.listed, ∀ r ∈ w.remote,
      w.sys.flight.bind Flight.dispatches = some r.workItem → ∃ s ∈ sessions, s.sessionId = r.sessionId))
  | .create now upload attempts dies commented => inferInstanceAs (Decidable
      ((w.remote.map RemoteSession.sessionId) ++ (WorldAction.create now upload attempts dies commented).sessions
      org).Nodup)
  | .work i consumed able =>
    inferInstanceAs (Decidable (∀ r ∈ w.remote[i]?, r.consumed ≤ consumed ∧ consumed ≤ r.limit ∧
      (r.able = true ∨ able = true ∨ consumed = r.consumed)))

instance (c : Controller) (w : World) : ∀ a, Decidable (Booked c w a)
  | .act b => inferInstanceAs (Decidable (∀ wid ∈ reservedItem w.sys (exec c w.sys b),
      OnBooks w wid ∧ ¬ OverByRounding c.settings w.sys.db wid))
  | .create now upload attempts dies commented =>
    inferInstanceAs (Decidable (¬ CreatesTwice w (.create now upload attempts dies commented)))
  | .work i _ able => inferInstanceAs (Decidable (∀ r ∈ w.remote[i]?, r.released = true → able = false))

/-- Every session has the cap of its item as its limit, and the item that is dispatched is there. -/
structure Limited (w : World) : Prop where
  capped : ∀ wid item, w.sys.db.workItems.get? wid = some item → item.acuCap = item.kind.acuCap
  limits : ∀ r ∈ w.remote, ∃ item, w.sys.db.workItems.get? r.workItem = some item ∧ r.limit = item.acuCap
  there : ∀ wid, w.sys.flight.bind Flight.dispatches = some wid → ∃ item, w.sys.db.workItems.get? wid = some item

/-- What the sessions and a pending creation may consume fits into the budget. -/
structure Solvent (c : Controller) (w : World) : Prop extends Limited w where
  within : (w.remote.map RemoteSession.held).sum + w.pending ≤ c.settings.globalAcuBudget
  stopped : ∀ r ∈ w.remote, r.released = true → r.able = false
  bounded : ∀ r ∈ w.remote, 0 ≤ r.consumed ∧ r.consumed ≤ r.limit
  distinct : (w.remote.map RemoteSession.sessionId).Nodup

section Books

variable {w : World} {wid : Nat}

theorem mem_reserved {db : Db} {id : String} :
    id ∈ (db.workItems.rows.filter fun w => w.state ∈ activeWorkItemStates).filterMap WorkItem.activeSessionId ↔
      db.reservesFor id = true := by
  simp only [Db.reservesFor, List.mem_filterMap, List.mem_filter, List.any_eq_true, Bool.and_eq_true, beq_iff_eq,
    decide_eq_true_eq, and_assoc]

theorem counted_eq (db : Db) :
    db.counted = (db.sessions.rows.map Session.acusConsumed).sum +
      ((db.sessions.rows.filter fun s =>
          s.devinId ∈ (db.workItems.rows.filter fun w => w.state ∈ activeWorkItemStates).filterMap
            WorkItem.activeSessionId).map
        fun s => max 0 (s.maxAcuLimit - s.acusConsumed)).sum := by
  have hcounts : db.counts = fun row : Session => row.acusConsumed +
      (if (decide (row.devinId ∈ (db.workItems.rows.filter fun w => w.state ∈ activeWorkItemStates).filterMap
        WorkItem.activeSessionId)) = true then max 0 (row.maxAcuLimit - row.acusConsumed) else 0) := by
    funext row
    simp only [Db.counts, decide_eq_true_eq, mem_reserved]
  rw [Db.counted, Rows.sum_map_filter, hcounts, ← List.sum_map_add]

/-- **The position of the budget, rounded.** -/
theorem near_committed (db : Db) (hnonneg : ∀ row ∈ db.sessions.rows, 0 ≤ row.acusConsumed) :
    Binary64.Near (db.sessions.rows.length + 3) (acuBudgetPosition db).committed db.counted := by
  unfold acuBudgetPosition AcuBudgetPosition.committed
  rw [counted_eq]
  dsimp only
  set reserved := db.sessions.rows.filter fun s => s.devinId ∈ (db.workItems.rows.filter fun w =>
    w.state ∈ activeWorkItemStates).filterMap WorkItem.activeSessionId
  have hlength : reserved.length ≤ db.sessions.rows.length := List.length_filter_le _ _
  have hconsumed : 0 ≤ (db.sessions.rows.map Session.acusConsumed).sum :=
    List.sum_nonneg (List.forall_mem_map.mpr hnonneg)
  have hrest : 0 ≤ (reserved.map fun s => max 0 (s.maxAcuLimit - s.acusConsumed)).sum :=
    List.sum_nonneg (List.forall_mem_map.mpr fun s _ => le_max_left _ _)
  have hfirst := Binary64.near_sum (List.forall_mem_map.mpr hnonneg)
  have hsecond := @Binary64.near_sum (reserved.map fun s => max 0 (Binary64.sub s.maxAcuLimit s.acusConsumed))
    (List.forall_mem_map.mpr fun s _ => le_max_left _ _)
  have hterms := Binary64.Near.sum_map (l := reserved) fun s _ => Binary64.near_max_sub s.maxAcuLimit s.acusConsumed
  rw [List.length_map] at hfirst hsecond
  have hfirst' := hfirst.mono (show _ ≤ db.sessions.rows.length + 2 by omega) hconsumed
  have hsecond' := (hsecond.trans hterms).mono (show _ ≤ db.sessions.rows.length + 2 by omega) hrest
  exact (hfirst'.add hsecond').round (add_nonneg hconsumed hrest)

/-- **The check of the budget.** Doubles that fit the budget are exact numbers that do, unless these exceed it by a
rounding alone. -/
theorem due_le {settings : Settings} {db : Db} {item : WorkItem}
    (hnonneg : ∀ row ∈ db.sessions.rows, 0 ≤ row.acusConsumed)
    (hi : db.workItems.get? wid = some item) (hcap : 0 ≤ item.acuCap)
    (hroom : Binary64.add (acuBudgetPosition db).committed item.acuCap ≤ settings.globalAcuBudget)
    (hrounding : ¬ OverByRounding settings db wid) : db.counted + item.acuCap ≤ settings.globalAcuBudget := by
  have hcounted : 0 ≤ db.counted := by
    refine List.sum_nonneg (List.forall_mem_map.mpr fun row hrow => add_nonneg (hnonneg row hrow) ?_)
    split
    · exact le_max_left _ _
    · exact le_rfl
  have hnear := ((near_committed db hnonneg).add (Binary64.Near.refl hcap)).round (add_nonneg hcounted hcap)
  have hdue : db.due wid = db.counted + item.acuCap := by rw [Db.due, Db.cap, hi, Option.map_some, Option.getD_some]
  have hoff := (abs_le.mp hnear).1
  by_contra hover
  refine hrounding ⟨hdue ▸ not_le.mp hover, ?_⟩
  rw [hdue]
  unfold Binary64.add at hroom
  linarith

/-- **A reservation on the books.** What is held for the recorded sessions is covered by the record. -/
theorem held_le_counted (h : OnBooks w wid) (hdistinct : (w.remote.map RemoteSession.sessionId).Nodup) :
    (((w.remote.filter fun r => w.sys.db.records r.sessionId).map (RemoteSession.counted w.sys.db)).map
      RemoteSession.held).sum ≤ w.sys.db.counted := by
  obtain ⟨hrecorded, -, -, hnonneg⟩ := h
  rw [Db.counted, List.map_map]
  refine Rows.sum_map_le_sum_map RemoteSession.sessionId Session.devinId _ _ _ _ ?_ (fun row hrow => ?_) fun r hr => ?_
  · exact hdistinct.sublist (List.Sublist.map _ List.filter_sublist)
  · unfold Db.counts
    have := hnonneg row hrow
    split
    · have := le_max_left 0 (row.maxAcuLimit - row.acusConsumed)
      linarith
    · linarith
  · obtain ⟨hr, hrec⟩ := List.mem_filter.mp hr
    obtain ⟨row, hrow, hid, hlimit, hbound⟩ := hrecorded r hr hrec
    refine ⟨row, hrow, hid, ?_⟩
    simp only [Function.comp, RemoteSession.held, RemoteSession.counted, Db.counts, hid, hrec, Bool.true_and]
    by_cases hreserves : w.sys.db.reservesFor r.sessionId = true
    · have := le_max_right 0 (row.maxAcuLimit - row.acusConsumed)
      simp only [hreserves, Bool.not_true, if_true]
      simp only [Bool.false_eq_true, if_false]
      linarith
    · obtain ⟨-, hconsumed⟩ := hbound.resolve_left hreserves
      simp only [hreserves, Bool.not_false, if_true, Bool.false_eq_true, if_false]
      linarith

end Books

section Steps

variable {org : String} {c : Controller} {w : World} {a : WorldAction}

theorem cap_nonneg (h : Limited w) (wid : Nat) : 0 ≤ w.sys.db.cap wid := by
  unfold Db.cap
  cases hi : w.sys.db.workItems.get? wid with
  | none => exact le_rfl
  | some item =>
    rw [Option.map_some, Option.getD_some, h.capped wid item hi]
    exact Nat.cast_nonneg _

theorem pending_nonneg (h : Limited w) : 0 ≤ w.pending := by
  unfold World.pending
  split
  · split
    · exact le_rfl
    · exact cap_nonneg h _
  · exact cap_nonneg h _
  · exact le_rfl

/-- **What is spent is held.** -/
theorem spent_le (h : Solvent c w) : w.spent ≤ c.settings.globalAcuBudget := by
  have hheld : w.spent ≤ (w.remote.map RemoteSession.held).sum := by
    unfold World.spent
    rw [Rows.sum_map_filter, ← List.sum_map_add]
    refine List.sum_le_sum fun r hr => ?_
    obtain ⟨hnonneg, hle⟩ := h.bounded r hr
    unfold RemoteSession.held
    by_cases hreleased : r.released = true
    · rw [if_pos hreleased, h.stopped r hr hreleased]
      simp
    · rw [if_neg hreleased]
      split
      · linarith
      · linarith
  have hpending := pending_nonneg h.toLimited
  have hwithin := h.within
  linarith

theorem exec_items (c : Controller) (s : Sys) (b : Action) {wid : Nat} {item : WorkItem}
    (hi : s.db.workItems.get? wid = some item) :
    ∃ item', (exec c s b).db.workItems.get? wid = some item' ∧ item'.core = item.core := by
  have hcommits := exec_commits c s b
  generalize (exec c s b).db = db' at hcommits
  cases hcommits with
  | units h => exact h.itemCore hi
  | evaluation h rid => exact h.itemCore hi
  | ingested h => exact ⟨item, by rw [(ingestRun_ingested h).workItems, hi], rfl⟩

theorem exec_capped (s : Sys) (b : Action)
    (h : ∀ wid item, s.db.workItems.get? wid = some item → item.acuCap = item.kind.acuCap)
    {wid : Nat} {item : WorkItem} (hi : (exec c s b).db.workItems.get? wid = some item) :
    item.acuCap = item.kind.acuCap := by
  have horigin : (∃ w, s.db.workItems.get? wid = some w ∧ item.core = w.core) ∨ item.acuCap = item.kind.acuCap := by
    have hcommits := exec_commits c s b
    generalize (exec c s b).db = db' at hcommits hi
    cases hcommits with
    | units h => exact h.item_origin hi
    | evaluation h rid => exact h.item_origin hi
    | ingested h => exact Or.inl ⟨item, by rw [← hi, (ingestRun_ingested h).workItems], rfl⟩
  rcases horigin with ⟨w, hw, hcore⟩ | hcap
  · simp only [WorkItem.core, Prod.mk.injEq] at hcore
    rw [hcore.1, hcore.2.2.2.2.2.2.1]
    exact h wid w hw
  · exact hcap

theorem core_acuCap {w w' : WorkItem} (h : w'.core = w.core) : w'.acuCap = w.acuCap := by
  simp only [WorkItem.core, Prod.mk.injEq] at h
  exact h.2.2.2.2.2.2.1

theorem exec_cap (c : Controller) (s : Sys) (b : Action) {wid : Nat} {item : WorkItem}
    (hi : s.db.workItems.get? wid = some item) : (exec c s b).db.cap wid = s.db.cap wid := by
  obtain ⟨item', hi', hcore⟩ := exec_items c s b hi
  rw [Db.cap, Db.cap, hi, hi', Option.map_some, Option.map_some, core_acuCap hcore]

/-! ### The cases of a step -/

/-- A session is in the world before the step, or it is one that the step creates. -/
theorem exec_remote {r : RemoteSession} (hr : r ∈ (w.exec org c a).remote) :
    (∃ r₀ ∈ w.remote, r.sessionId = r₀.sessionId ∧ r.workItem = r₀.workItem ∧ r.limit = r₀.limit) ∨
      ∃ wid members, w.sys.flight = some (.creating wid members) ∧ r.workItem = wid ∧ r.limit = w.sys.db.cap wid := by
  have hstep := @World.exec_step org c w a
  generalize w.exec org c a = w' at hstep hr
  cases hstep with
  | acts ha hsys hremote =>
    left
    rw [hremote] at hr
    split at hr
    · obtain ⟨r₀, hr₀, rfl⟩ := List.mem_map.mp hr
      exact ⟨r₀, hr₀, rfl, rfl, rfl⟩
    · exact ⟨r, hr, rfl, rfl, rfl⟩
  | @creates wid members b hflight hsys hlands hremote =>
    rw [hremote, List.mem_append] at hr
    rcases hr with hr | hr
    · exact Or.inl ⟨r, hr, rfl, rfl, rfl⟩
    · obtain ⟨id, -, rfl⟩ := List.mem_map.mp hr
      exact Or.inr ⟨wid, members, hflight, rfl, rfl⟩
  | works ha hsys hremote =>
    left
    rw [hremote] at hr
    rcases Rows.mem_modify hr with hr | ⟨r₀, hr₀, rfl⟩
    · exact ⟨r, hr, rfl, rfl, rfl⟩
    · exact ⟨r₀, List.mem_of_getElem? hr₀, rfl, rfl, rfl⟩
  | idle h hnone =>
    rw [h] at hr
    exact Or.inl ⟨r, hr, rfl, rfl, rfl⟩

theorem exec_limits (h : Limited w) {r : RemoteSession} (hr : r ∈ (w.exec org c a).remote) :
    ∃ item, (w.exec org c a).sys.db.workItems.get? r.workItem = some item ∧ r.limit = item.acuCap := by
  have hbefore : ∃ item, w.sys.db.workItems.get? r.workItem = some item ∧ r.limit = item.acuCap := by
    rcases exec_remote hr with ⟨r₀, hr₀, -, hitem, hlimit⟩ | ⟨wid, members, hflight, rfl, hlimit⟩
    · rw [hitem, hlimit]
      exact h.limits r₀ hr₀
    · obtain ⟨item, hi⟩ := h.there r.workItem (by rw [hflight]; rfl)
      refine ⟨item, hi, ?_⟩
      rw [hlimit, Db.cap, hi]
      rfl
  obtain ⟨item, hi, hlimit⟩ := hbefore
  rcases @World.exec_sys org c w a with hsame | ⟨b, hb⟩
  · exact ⟨item, by rw [hsame, hi], hlimit⟩
  · obtain ⟨item', hi', hcore⟩ := exec_items c w.sys b hi
    exact ⟨item', by rw [hb, hi'], by rw [hlimit, core_acuCap hcore]⟩

theorem reservedItem_eq_some {s : Sys} {b : Action} {wid : Nat} (h : reservedItem s (exec c s b) = some wid) :
    (exec c s b).flight = some (.adopting wid false) ∧ s.db.affords c.settings wid ∧
      (exec c s b).db.sessions = s.db.sessions := by
  unfold reservedItem at h
  split at h
  · rename_i hfree
    rw [Option.isNone_iff_eq_none] at hfree
    cases exec_flight c s b with
    | idle hno => rw [hno] at h; cases h
    | keeps hsame _ _ =>
      rw [hsame, hfree] at h
      cases h
    | reserves _ hafter _ hbudget hs =>
      rw [hafter] at h
      cases h
      exact ⟨hafter, hbudget, hs⟩
    | searches _ hbefore _ _ _ =>
      rw [hbefore] at hfree
      cases hfree
  · cases h

/-- The new sessions of a booked step: one at most, with an id of its own. -/
theorem sessions_booked (htruthful : Truthful org w a) (hbooked : Booked c w a)
    (hcreating : ∃ wid members, w.sys.flight = some (.creating wid members))
    (hdistinct : (w.remote.map RemoteSession.sessionId).Nodup) :
    (a.sessions org).length ≤ 1 ∧ (w.remote.map RemoteSession.sessionId ++ a.sessions org).Nodup := by
  cases a with
  | act b => exact ⟨Nat.zero_le _, (List.append_nil _).symm ▸ hdistinct⟩
  | create now upload attempts dies commented =>
    refine ⟨?_, htruthful⟩
    by_contra hmore
    exact hbooked ((@createsTwice_iff org _ _).mpr ⟨hcreating, not_le.mp hmore⟩)
  | work i consumed able => exact ⟨Nat.zero_le _, (List.append_nil _).symm ▸ hdistinct⟩

/-- A step of the controller that reserves nothing. -/
theorem within_act (h : Solvent c w) {b : Action} (ha : Truthful org w (.act b))
    (hno : reservedItem w.sys (exec c w.sys b) = none) :
    (w.remote.map RemoteSession.held).sum + World.pending { sys := exec c w.sys b, remote := w.remote } ≤
      c.settings.globalAcuBudget := by
  have hwithin := h.within
  have hpending := pending_nonneg h.toLimited
  have hsame (hle : World.pending { sys := exec c w.sys b, remote := w.remote } ≤ w.pending) :
      (w.remote.map RemoteSession.held).sum + World.pending { sys := exec c w.sys b, remote := w.remote } ≤
        c.settings.globalAcuBudget := by linarith
  cases exec_flight c w.sys b with
  | idle hidle =>
    refine hsame (le_of_eq_of_le ?_ hpending)
    unfold World.pending
    dsimp only
    split
    · rename_i hflight
      rw [hflight] at hidle
      cases hidle
    · rename_i hflight
      rw [hflight] at hidle
      cases hidle
    · rfl
  | keeps hflight hs hw =>
    refine hsame (le_of_eq ?_)
    unfold World.pending World.unrecorded Db.records Db.cap
    simp only [hflight, hs, hw]
  | reserves hfree hflight _ _ _ =>
    rw [reservedItem, hfree, hflight] at hno
    cases hno
  | @searches wid members now sessions hb hbefore hafter hdb hfound =>
    refine hsame (le_of_eq ?_)
    subst hb
    have hrecorded : w.unrecorded wid = false := by
      unfold World.unrecorded
      rw [List.any_eq_false]
      intro r hr hmiss
      simp only [Bool.and_eq_true, beq_iff_eq, Bool.not_eq_true'] at hmiss
      obtain ⟨s, hs, hid⟩ := ha sessions rfl r hr (by rw [hbefore, hmiss.1]; rfl)
      have hknown := hfound s hs
      rw [hid] at hknown
      obtain ⟨row, hrow, hdevin⟩ := List.mem_map.mp hknown
      have hrecords : w.sys.db.records r.sessionId = true :=
        List.any_eq_true.mpr ⟨row, (List.mem_filter.mp hrow).1, by rw [hdevin]; exact beq_self_eq_true _⟩
      rw [hrecords] at hmiss
      cases hmiss.2
    unfold World.pending
    simp only [hafter, hbefore, hrecorded, hdb, Bool.false_eq_true, if_false]

/-- A reservation on the books. -/
theorem within_reserve (h : Solvent c w) {b : Action} {wid : Nat} (hbooks : OnBooks w wid)
    (hrounding : ¬ OverByRounding c.settings w.sys.db wid)
    (hafter : (exec c w.sys b).flight = some (.adopting wid false)) (hbudget : w.sys.db.affords c.settings wid)
    (hs : (exec c w.sys b).db.sessions = w.sys.db.sessions) :
    ((w.remote.map (RemoteSession.counted w.sys.db)).map RemoteSession.held).sum +
      World.pending { sys := exec c w.sys b, remote := w.remote.map (RemoteSession.counted w.sys.db) } ≤
        c.settings.globalAcuBudget := by
  obtain ⟨item, hi, hroom⟩ := hbudget
  have hcap : (exec c w.sys b).db.cap wid = item.acuCap := by
    rw [exec_cap c w.sys b hi, Db.cap, hi]
    rfl
  have hcounted := held_le_counted hbooks h.distinct
  obtain ⟨-, hwid, hsingle, hpositive⟩ := hbooks
  rw [List.map_map] at hcounted ⊢
  rw [← Rows.sum_map_filter_add fun r => w.sys.db.records r.sessionId]
  have hunrecorded :
      World.unrecorded { sys := exec c w.sys b, remote := w.remote.map (RemoteSession.counted w.sys.db) } wid =
      w.unrecorded wid := by
    unfold World.unrecorded Db.records
    simp only [List.any_map, hs]
    rfl
  have hpending : World.pending { sys := exec c w.sys b, remote := w.remote.map (RemoteSession.counted w.sys.db) } =
      if w.unrecorded wid then 0 else item.acuCap := by
    unfold World.pending
    simp only [hafter, hunrecorded, hcap]
  rw [hpending]
  have hnonneg : 0 ≤ item.acuCap := by
    rw [h.capped wid item hi]
    exact Nat.cast_nonneg _
  have hdue := due_le hpositive hi hnonneg hroom hrounding
  cases hmissing : w.remote.filter fun r => !w.sys.db.records r.sessionId with
  | nil =>
    rw [List.map_nil, List.sum_nil]
    split <;> linarith
  | cons r rest =>
    have hrest : rest = [] := by
      rw [hmissing, List.length_cons] at hsingle
      exact List.length_eq_zero_iff.mp (by omega)
    obtain ⟨hr, hrec⟩ := List.mem_filter.mp (hmissing ▸ List.mem_cons_self)
    rw [Bool.not_eq_true'] at hrec
    obtain ⟨item', hi', hlimit⟩ := h.limits r hr
    rw [hwid r hr hrec, hi, Option.some.injEq] at hi'
    have hheld : (RemoteSession.held ∘ RemoteSession.counted w.sys.db) r = item.acuCap := by
      simp only [Function.comp, RemoteSession.held, RemoteSession.counted, hrec, Bool.false_and,
        Bool.false_eq_true, if_false]
      rw [hlimit, hi']
    have hfound : w.unrecorded wid = true :=
      List.any_eq_true.mpr ⟨r, hr, by rw [hwid r hr hrec, hrec]; simp⟩
    rw [hrest, hfound, List.map_cons, List.map_nil, List.sum_cons, List.sum_nil, hheld, if_pos rfl]
    linarith

/-- The limits stay those of the items. -/
theorem limited_exec (h : Limited w) (org : String) (c : Controller) (a : WorldAction) : Limited (w.exec org c a) := by
  refine ⟨fun wid item hi => ?_, fun r => exec_limits h, fun wid hwid => ?_⟩
  · rcases @World.exec_sys org c w a with hsame | ⟨b, hb⟩
    · exact h.capped wid item (hsame ▸ hi)
    · exact exec_capped w.sys b h.capped (hb ▸ hi)
  · rcases @World.exec_sys org c w a with hsame | ⟨b, hb⟩
    · rw [hsame] at hwid ⊢
      exact h.there wid hwid
    · rw [hb] at hwid ⊢
      have hkeep (hi : ∃ item, w.sys.db.workItems.get? wid = some item) :
          ∃ item, (exec c w.sys b).db.workItems.get? wid = some item := by
        obtain ⟨item, hi⟩ := hi
        obtain ⟨item', hi', -⟩ := exec_items c w.sys b hi
        exact ⟨item', hi'⟩
      cases exec_flight c w.sys b with
      | idle hno => rw [hno] at hwid; cases hwid
      | keeps hsame _ _ => exact hkeep (h.there wid (hsame ▸ hwid))
      | reserves _ hafter _ hbudget _ =>
        rw [hafter] at hwid
        cases hwid
        obtain ⟨item, hi, -⟩ := hbudget
        exact hkeep ⟨item, hi⟩
      | searches _ hbefore hafter _ _ =>
        rw [hafter] at hwid
        exact hkeep (h.there wid (hbefore ▸ hwid))

/-- A step of the controller. -/
theorem solvent_act (h : Solvent c w) {w' : World} (hlimited : Limited w') {b : Action}
    (htruthful : Truthful org w (.act b)) (hbooked : Booked c w (.act b)) (hsys : w'.sys = exec c w.sys b)
    (hremote : w'.remote = if (reservedItem w.sys w'.sys).isSome then w.remote.map (RemoteSession.counted w.sys.db)
      else w.remote) : Solvent c w' := by
  obtain ⟨sys, remote⟩ := w'
  dsimp only at hsys hremote
  subst hsys
  cases hreserved : reservedItem w.sys (exec c w.sys b) with
  | none =>
    rw [hreserved] at hremote
    replace hremote : remote = w.remote := hremote
    subst hremote
    exact ⟨hlimited, within_act h htruthful hreserved, h.stopped, h.bounded, h.distinct⟩
  | some wid =>
    rw [hreserved] at hremote
    replace hremote : remote = w.remote.map (RemoteSession.counted w.sys.db) := hremote
    subst hremote
    obtain ⟨hbooks, hrounding⟩ : OnBooks w wid ∧ ¬ OverByRounding c.settings w.sys.db wid := hbooked wid hreserved
    obtain ⟨hafter, hbudget, hs⟩ := reservedItem_eq_some hreserved
    refine ⟨hlimited, within_reserve h hbooks hrounding hafter hbudget hs, ?_, ?_, ?_⟩
    · intro r hr hreleased
      obtain ⟨r₀, hr₀, rfl⟩ := List.mem_map.mp hr
      simp only [RemoteSession.counted, Bool.and_eq_true, Bool.not_eq_true'] at hreleased
      obtain ⟨row, -, -, -, hbound⟩ := hbooks.1 r₀ hr₀ hreleased.1
      rw [hreleased.2] at hbound
      exact (hbound.resolve_left Bool.false_ne_true).1
    · intro r hr
      obtain ⟨r₀, hr₀, rfl⟩ := List.mem_map.mp hr
      exact h.bounded r₀ hr₀
    · rw [List.map_map]
      exact h.distinct

/-- A creation takes up what was pending for it. -/
theorem solvent_create (h : Solvent c w) {w' : World} (hlimited : Limited w') {wid : Nat}
    {members : List (Nat × Finding)} (hflight : w.sys.flight = some (.creating wid members))
    (hone : (a.sessions org).length ≤ 1) (hdistinct : (w.remote.map RemoteSession.sessionId ++ a.sessions org).Nodup)
    (hlands : w'.sys.flight = none) (hremote : w'.remote = w.remote ++ (a.sessions org).map (newSession w.sys.db wid)) :
    Solvent c w' := by
  have hcap := cap_nonneg h.toLimited wid
  refine ⟨hlimited, ?_, ?_, ?_, ?_⟩
  · have hwithin := h.within
    have hpending : w.pending = w.sys.db.cap wid := by
      unfold World.pending
      rw [hflight]
    have hnone : w'.pending = 0 := by
      unfold World.pending
      rw [hlands]
    have hnew : (((a.sessions org).map (newSession w.sys.db wid)).map RemoteSession.held).sum ≤ w.sys.db.cap wid := by
      match hids : a.sessions org with
      | [] => exact hcap
      | [id] => exact le_of_eq (add_zero _)
      | _ :: _ :: _ =>
        rw [hids] at hone
        simp at hone
    rw [hpending] at hwithin
    rw [hremote, hnone, List.map_append, List.sum_append]
    linarith
  · intro r hr hreleased
    rw [hremote, List.mem_append] at hr
    rcases hr with hr | hr
    · exact h.stopped r hr hreleased
    · obtain ⟨id, -, rfl⟩ := List.mem_map.mp hr
      cases hreleased
  · intro r hr
    rw [hremote, List.mem_append] at hr
    rcases hr with hr | hr
    · exact h.bounded r hr
    · obtain ⟨id, -, rfl⟩ := List.mem_map.mp hr
      exact ⟨le_rfl, hcap⟩
  · rw [hremote, List.map_append, List.map_map]
    have hids : (a.sessions org).map (RemoteSession.sessionId ∘ newSession w.sys.db wid) = a.sessions org :=
      List.map_id _
    rw [hids]
    exact hdistinct

/-- A session that works consumes what is held for it. -/
theorem solvent_work (h : Solvent c w) {i : Nat} {consumed : Acu} {able : Bool}
    (htruthful : Truthful org w (.work i consumed able)) (hbooked : Booked c w (.work i consumed able))
    (hlimited : Limited (w.exec org c (.work i consumed able))) : Solvent c (w.exec org c (.work i consumed able)) := by
  have hheld : ∀ r, w.remote[i]? = some r →
    RemoteSession.held { r with consumed := consumed, able := able } = r.held := by
    intro r hr
    unfold RemoteSession.held
    by_cases hreleased : r.released = true
    · obtain ⟨-, -, hworks⟩ := htruthful r hr
      have hable : able = false := hbooked r hr hreleased
      have hbefore : r.able = false := h.stopped r (List.mem_of_getElem? hr) hreleased
      rw [hable, hbefore] at hworks
      simp only [Bool.false_eq_true, false_or] at hworks
      simp only [hreleased, if_true, hworks]
    · simp only [hreleased, Bool.false_eq_true, if_false]
  have hpending : (w.exec org c (.work i consumed able)).pending = w.pending := by
    have hunrecorded (wid : Nat) : (w.exec org c (.work i consumed able)).unrecorded wid = w.unrecorded wid := by
      have hview : (w.exec org c (.work i consumed able)).remote.map
          (fun r => r.workItem == wid && !w.sys.db.records r.sessionId) =
            w.remote.map fun r => r.workItem == wid && !w.sys.db.records r.sessionId :=
        Rows.map_modify_of_eq fun r _ => rfl
      have hany (l : List RemoteSession) : (l.any fun r => r.workItem == wid && !w.sys.db.records r.sessionId) =
          (l.map fun r => r.workItem == wid && !w.sys.db.records r.sessionId).any id := by
        rw [List.any_map]
        rfl
      exact ((hany _).trans (congrArg (List.any · id) hview)).trans (hany _).symm
    unfold World.pending
    simp only [hunrecorded]
    rfl
  refine ⟨hlimited, ?_, ?_, ?_, ?_⟩
  · rw [hpending]
    exact (congrArg (fun l => List.sum l + w.pending) (Rows.map_modify_of_eq hheld)).trans_le h.within
  · intro r hr hreleased
    rcases Rows.mem_modify hr with hr | ⟨r₀, hr₀, rfl⟩
    · exact h.stopped r hr hreleased
    · exact hbooked r₀ hr₀ hreleased
  · intro r hr
    rcases Rows.mem_modify hr with hr | ⟨r₀, hr₀, rfl⟩
    · exact h.bounded r hr
    · obtain ⟨hgrows, hlimit, -⟩ := htruthful r₀ hr₀
      exact ⟨(h.bounded r₀ (List.mem_of_getElem? hr₀)).1.trans hgrows, hlimit⟩
  · have hids : (w.exec org c (.work i consumed able)).remote.map RemoteSession.sessionId =
        w.remote.map RemoteSession.sessionId := Rows.map_modify_of_eq fun r _ => rfl
    rw [hids]
    exact h.distinct

/-- **A step keeps the controller solvent**, if Devin is truthful and the step is booked. -/
theorem solvent_exec (h : Solvent c w) (htruthful : Truthful org w a) (hbooked : Booked c w a) :
    Solvent c (w.exec org c a) := by
  have hlimited := limited_exec h.toLimited org c a
  cases @World.exec_step org c w a with
  | acts ha hsys hremote =>
    subst ha
    exact solvent_act h hlimited htruthful hbooked hsys hremote
  | creates hflight hsys hlands hremote =>
    obtain ⟨hone, hdistinct⟩ := sessions_booked htruthful hbooked ⟨_, _, hflight⟩ h.distinct
    exact solvent_create h hlimited hflight hone hdistinct hlands hremote
  | works ha hsys hremote =>
    subst ha
    exact solvent_work h htruthful hbooked hlimited
  | idle hsame _ =>
    rw [hsame]
    exact h

/-- **The global budget holds** in every run in which Devin is truthful and every step is booked. -/
theorem budget_run (org : String) (c : Controller) (hbudget : 0 < c.settings.globalAcuBudget) (trace : List WorldAction)
    (h : Machine.AllSteps (World.exec org c) (fun w a => Truthful org w a ∧ Booked c w a) .initial trace) :
    (Machine.run (World.exec org c) .initial trace).spent ≤ c.settings.globalAcuBudget := by
  have hinitial : Solvent c .initial := by
    refine ⟨⟨fun wid item hi => ?_, ?_, nofun⟩, ?_, ?_, ?_, List.nodup_nil⟩
    · cases wid <;> cases hi
    · exact fun r hr => (List.not_mem_nil hr).elim
    · exact (add_zero _).trans_le hbudget.le
    · exact fun r hr => (List.not_mem_nil hr).elim
    · exact fun r hr => (List.not_mem_nil hr).elim
  exact spent_le (Machine.AllSteps.invariant (Solvent c) (fun w a hw ha => solvent_exec hw ha.1 ha.2) hinitial h)

end Steps

/-- A controller whose budget is one container session. -/
def smallBudget : Controller := { sampleController with settings := { globalAcuBudget := 20 } }

/-- Devin creates a session of the item that is dispatched. -/
def sampleCreation (now : DateTime) (id : String) : WorldAction :=
  .create now (some (.ok ())) [⟨some id, some (.response 200 "" (.ok { sampleSession with sessionId := id }))⟩] false
    (.ok ())

/-- Two items have issues, and the first one gets a session, which has consumed 2 ACUs. -/
def bookedTrace : List WorldAction :=
  ([sampleIngest "1" 10 (samplePair "CVE-1" "openssl" "1" ++ [sampleVuln .trivy "CVE-2" "zlib" "1"]), .beginTick,
    .next true none, .applyRun 11 linearCompare, .next true none, .group 11, .group 11, .next true none,
    .openIssue 11 (some []) (.ok sampleIssue), .openIssue 11 (some []) (.ok { sampleIssue with number := 8 }),
    .next true none, .next true none, .dispatch 11 [], .adopt 12 (.ok [])] : List Action).map .act ++
  [sampleCreation 12 "s1", .act .stop, .work 0 2 true]

/-- The session asks for an approval, so its item waits for a human, and the second item is dispatched. -/
def overspentTrace : List WorldAction :=
  bookedTrace ++
    ([.beginTick, .pollSession 13 1 "s1" { sampleSession with statusDetail := some .waitingForApproval } {},
    .next true none, .next true none, .next true none, .next true none, .next true none, .dispatch 15 [],
    .adopt 15 (.ok [])] : List Action).map .act ++ [sampleCreation 16 "s2"]

/-- Devin is truthful, both sessions may work, and together they exceed the budget. -/
theorem budget_overspent :
    Machine.AllSteps (World.exec "org-1" smallBudget) (Truthful "org-1") .initial overspentTrace ∧
      smallBudget.settings.globalAcuBudget <
        (Machine.run (World.exec "org-1" smallBudget) .initial overspentTrace).spent := by
  decide +kernel

theorem budget_run_booked : (Machine.run (World.exec "org-1" smallBudget) .initial bookedTrace).spent ≤ 20 := by
  refine budget_run "org-1" smallBudget (by decide) bookedTrace ?_
  decide +kernel

end HardeningLoop
