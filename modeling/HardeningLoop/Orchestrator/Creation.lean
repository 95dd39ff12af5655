import HardeningLoop.Orchestrator.World

/-!
# One session for each reservation

A crashed dispatch is recovered by searching for a tagged session, and a session is created only after a reservation and
a search that found none. The HTTP client below tries the creation again after a lost response.

- `Once`: no two sessions at Devin were created under one reservation of one item;
- `once_iff`: a run keeps it exactly when no creation takes effect in two of its attempts.
-/

namespace HardeningLoop

/-- The item and the reservation a session was created under. -/
def RemoteSession.label (r : RemoteSession) : Nat × Nat := (r.workItem, r.reservation)

/-- No two sessions were created under one reservation of one item. -/
def Once (w : World) : Prop := (w.remote.map RemoteSession.label).Nodup

/-- The creation of a session takes effect in two of its attempts. -/
def CreatesTwice (w : World) : WorldAction → Prop
  | .create _ (some (.ok ())) attempts _ _ =>
    (∃ wid members, w.sys.flight = some (.creating wid members)) ∧ TakesEffectTwice attempts
  | _ => False

/-- Every session was created under a reservation on the log, and none under the current one while the controller still
dispatches the item. -/
structure Labelled (w : World) : Prop where
  once : Once w
  past : ∀ wid n, (wid, n) ∈ w.remote.map RemoteSession.label → n ≤ w.sys.db.reservations wid
  fresh : ∀ wid n, (wid, n) ∈ w.remote.map RemoteSession.label → w.sys.flight.bind Flight.dispatches = some wid →
    n < w.sys.db.reservations wid

section Steps

variable {org : String} {c : Controller} {w : World} {a : WorldAction}

theorem createsTwice_iff : CreatesTwice w a ↔
    (∃ wid members, w.sys.flight = some (.creating wid members)) ∧ 1 < (a.sessions org).length := by
  unfold CreatesTwice WorldAction.sessions
  split
  · rw [two_effects_iff]
  · simp

/-- The controller waits for a session to be created. -/
def Sys.creating (s : Sys) : Bool :=
  match s.flight with
  | some (.creating _ _) => true
  | _ => false

theorem creating_iff {s : Sys} : s.creating = true ↔ ∃ wid members, s.flight = some (.creating wid members) := by
  unfold Sys.creating
  split
  · rename_i wid members h
    exact ⟨fun _ => ⟨wid, members, h⟩, fun _ => rfl⟩
  · rename_i h
    exact ⟨nofun, fun ⟨wid, members, hflight⟩ => absurd hflight (h wid members)⟩

instance (w : World) (a : WorldAction) : Decidable (CreatesTwice w a) :=
  decidable_of_iff (w.sys.creating = true ∧ 1 < (a.sessions "").length) (by rw [@createsTwice_iff "", creating_iff])

/-- The sessions at Devin keep their labels, and a controller that waits for a new one labels what is created with the
reservation of its item. -/
theorem exec_labels : ∃ wid k,
    (w.exec org c a).remote.map RemoteSession.label =
      w.remote.map RemoteSession.label ++ List.replicate k (wid, w.sys.db.reservations wid) ∧
    (k ≠ 0 → (∃ wid members, w.sys.flight = some (.creating wid members)) ∧
      w.sys.flight.bind Flight.dispatches = some wid ∧ (w.exec org c a).sys.flight = none) ∧
    ((∃ wid members, w.sys.flight = some (.creating wid members)) → k = (a.sessions org).length) := by
  have hstep := @World.exec_step org c w a
  generalize w.exec org c a = w' at hstep
  cases hstep with
  | acts ha hsys hremote =>
    subst ha
    refine ⟨0, 0, ?_, fun h => absurd rfl h, fun _ => rfl⟩
    rw [hremote, List.replicate_zero, List.append_nil]
    split
    · rw [List.map_map]
      rfl
    · rfl
  | @creates wid members b hflight hsys hlands hremote =>
    refine ⟨wid, (a.sessions org).length, ?_, fun _ => ⟨⟨_, _, hflight⟩, by rw [hflight]; rfl, hlands⟩, fun _ => rfl⟩
    rw [hremote, List.map_append, List.map_map, ← List.map_const']
    rfl
  | works ha hsys hremote =>
    subst ha
    refine ⟨0, 0, ?_, fun h => absurd rfl h, fun _ => rfl⟩
    rw [hremote, List.replicate_zero, List.append_nil]
    exact Rows.map_modify_of_eq fun r _ => rfl
  | idle h hnone =>
    refine ⟨0, 0, ?_, fun h => absurd rfl h, fun hcreating => ?_⟩
    · rw [h, List.replicate_zero, List.append_nil]
    · rw [hnone hcreating, List.length_nil]

/-- Labels that are the same stay the same. -/
theorem once_back (h : Once (w.exec org c a)) : Once w := by
  obtain ⟨wid, k, hlabels, -, -⟩ := @exec_labels org c w a
  unfold Once at h ⊢
  rw [hlabels] at h
  exact (List.nodup_append.mp h).1

theorem not_createsTwice_of_once (h : Once (w.exec org c a)) : ¬ CreatesTwice w a := by
  obtain ⟨wid, k, hlabels, -, hk⟩ := @exec_labels org c w a
  rw [@createsTwice_iff org]
  rintro ⟨hcreating, htwice⟩
  unfold Once at h
  rw [hlabels] at h
  have hle : k ≤ 1 := List.nodup_replicate.mp (List.nodup_append.mp h).2.1
  rw [hk hcreating] at hle
  omega

theorem exec_reservations_le (a : WorldAction) (wid : Nat) :
    w.sys.db.reservations wid ≤ (w.exec org c a).sys.db.reservations wid := by
  rcases @World.exec_sys org c w a with hsame | ⟨b, hb⟩
  · rw [hsame]
  · rw [hb]
    exact (exec_commits c w.sys b).reservations_le

/-- An item that is still dispatched, or is reserved by the step. -/
theorem exec_dispatches {wid : Nat} (h : (w.exec org c a).sys.flight.bind Flight.dispatches = some wid) :
    w.sys.flight.bind Flight.dispatches = some wid ∨
      w.sys.db.reservations wid < (w.exec org c a).sys.db.reservations wid := by
  rcases @World.exec_sys org c w a with hsame | ⟨b, hb⟩
  · rw [hsame] at h
    exact Or.inl h
  · have hflight := exec_flight c w.sys b
    rw [← hb] at hflight
    cases hflight with
    | idle hno => rw [hno] at h; cases h
    | keeps hsame _ _ => exact Or.inl (hsame ▸ h)
    | reserves _ hreserved hlog _ _ =>
      rw [hreserved] at h
      cases h
      exact Or.inr hlog
    | searches _ hbefore hafter _ _ =>
      rw [hafter] at h
      rw [hbefore]
      exact Or.inl h

/-- **A step of the world keeps the labels in order**, unless it creates twice. -/
theorem labelled_exec (h : Labelled w) (ha : ¬ CreatesTwice w a) : Labelled (w.exec org c a) := by
  obtain ⟨wid, k, hlabels, hnew, hk⟩ := @exec_labels org c w a
  have hle := @exec_reservations_le org c w a
  refine ⟨?_, fun wid' n hn => ?_, fun wid' n hn hdispatched => ?_⟩
  · unfold Once
    rw [hlabels]
    have hone : k ≤ 1 := by
      by_contra hmore
      obtain ⟨hcreating, -⟩ := hnew (by omega)
      exact ha ((@createsTwice_iff org _ _).mpr ⟨hcreating, by rw [← hk hcreating]; omega⟩)
    refine List.nodup_append.mpr ⟨h.once, List.nodup_replicate.mpr hone, ?_⟩
    rintro ⟨wid', n⟩ hold ⟨wid'', n'⟩ hmem heq
    obtain ⟨hk₀, hlabel⟩ := List.mem_replicate.mp hmem
    rw [heq, hlabel] at hold
    obtain ⟨⟨w₀, members, hflight⟩, hdispatches, -⟩ := hnew hk₀
    exact Nat.lt_irrefl _ (h.fresh _ _ hold hdispatches)
  · rw [hlabels, List.mem_append] at hn
    rcases hn with hold | hmem
    · exact (h.past _ _ hold).trans (hle _)
    · obtain ⟨-, hlabel⟩ := List.mem_replicate.mp hmem
      cases hlabel
      exact hle _
  · have hk₀ : k = 0 := by
      by_contra hk₀
      rw [(hnew hk₀).2.2] at hdispatched
      cases hdispatched
    rw [hlabels, hk₀, List.replicate_zero, List.append_nil] at hn
    rcases exec_dispatches hdispatched with hbefore | hlt
    · exact (h.fresh _ _ hn hbefore).trans_le (hle _)
    · exact (h.past _ _ hn).trans_lt hlt

/-- **At most one session for each reservation**, in a run, exactly when no creation takes effect in two of its
attempts. -/
theorem once_iff (org : String) (c : Controller) (trace : List WorldAction) :
    Once (Machine.run (World.exec org c) .initial trace) ↔
      Machine.AllSteps (World.exec org c) (fun w a => ¬ CreatesTwice w a) .initial trace := by
  constructor
  · exact fun h => (Machine.AllSteps.of_run Once (fun _ _ => once_back) (fun _ _ => not_createsTwice_of_once) h).2
  · intro h
    have hinitial : Labelled .initial :=
      ⟨List.nodup_nil, fun _ _ hn => (List.not_mem_nil hn).elim, fun _ _ hn => (List.not_mem_nil hn).elim⟩
    exact (Machine.AllSteps.invariant Labelled (fun w a hw ha => labelled_exec hw ha) hinitial h).once

end Steps

/-- The response to the first attempt of a creation is lost after it took effect, and the client tries again. -/
def lostResponse : WorldAction :=
  .create 12 (some (.ok ())) [⟨some "s1", some (.transportError "ReadTimeout")⟩,
    ⟨some "s2", some (.response 200 "" (.ok { sampleSession with sessionId := "s2" }))⟩] false (.ok ())

/-- A run in which an item is reserved once and has two sessions. -/
def lostTrace : List WorldAction :=
  (sampleIngest "1" 10 (samplePair "CVE-1" "openssl" "1") :: sampleReserve 11).map .act ++
    [.act (.adopt 12 (.ok [])), lostResponse]

theorem created_twice : ¬ Once (Machine.run (World.exec "org-1" sampleController) .initial lostTrace) := by
  unfold Once
  decide +kernel

end HardeningLoop
