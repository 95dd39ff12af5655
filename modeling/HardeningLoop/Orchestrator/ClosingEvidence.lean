import HardeningLoop.Orchestrator.Intake

/-!
# A finding is closed on evidence only

`ClosingEvidence` is what the scans must say before a finding counts as fixed. Both closing paths, the members of a
merged work item and the drift of findings nobody works on, at both call sites, the application of a run and the replay
of applied runs for a merge, write a transition to `fixed` only with such evidence.

- `laterRunSaw_eq_none`: no run that finished later reported or closed the finding;
- `memberOutcome_fixed`, `drifts_evidence`: the evidence of the two paths;
- `Appends`, `Follows`: how the history of a finding goes on;
- `fixed_on_evidence`: the two call sites.
-/

namespace HardeningLoop

open Rows (Table)

/-! ## What other runs say -/

theorem foldl_laterRun_isSome (runs : List ScanRun) {latest : Option ScanRun} (h : latest.isSome) :
    (runs.foldl (fun latest run => laterRun latest (some run)) latest).isSome := by
  refine Rows.foldl_invariant (fun latest : Option ScanRun => latest.isSome) (fun latest run _ h => ?_) h
  obtain ⟨l, rfl⟩ := Option.isSome_iff_exists.mp h
  unfold laterRun
  dsimp only
  cases l.finishedAt with
  | none => rfl
  | some t =>
    cases run.finishedAt with
    | none => rfl
    | some t' => dsimp only; split <;> rfl

/-- No run that finished after this one is the last to report the finding, or the one that closed it. -/
theorem laterRunSaw_eq_none {db : Db} {rid : Nat} {run : ScanRun} {f : Finding} :
    laterRunSaw db rid run f = none ↔ ∀ t ∈ run.finishedAt, ∀ other ∈ f.lastSeenRunId :: f.closedByRunId.toList,
      other ≠ rid → ∀ run', db.scanRuns.get? other = some run' → finishedAfter t run' = false := by
  unfold laterRunSaw
  cases run.finishedAt with
  | none => simp
  | some t =>
    dsimp only
    set runs := ((f.lastSeenRunId :: f.closedByRunId.toList).filter (· ≠ rid)).filterMap fun other =>
      (db.scanRuns.get? other).filter (finishedAfter t) with hruns
    have hnone : runs.foldl (fun latest run => laterRun latest (some run)) none = none ↔ runs = [] := by
      cases runs with
      | nil => simp
      | cons r rs =>
        have h : (rs.foldl (fun latest run => laterRun latest (some run)) (laterRun none (some r))).isSome :=
          foldl_laterRun_isSome rs rfl
        rw [List.foldl_cons]
        constructor
        · intro h'
          rw [h'] at h
          cases h
        · nofun
    rw [hnone, hruns, List.filterMap_eq_nil_iff]
    simp only [Option.mem_def, Option.some.injEq, List.mem_filter, decide_eq_true_eq, Option.filter_eq_none_iff]
    constructor
    · rintro h _ rfl other hother hne run' hrun'
      exact Bool.eq_false_iff.mpr (h other ⟨hother, hne⟩ run' hrun')
    · rintro h other ⟨hother, hne⟩ run' hrun'
      exact Bool.eq_false_iff.mp (h t rfl other hother hne run' hrun')

/-! ## The evidence -/

/-- What the scans say of a finding that counts as fixed by a run. -/
structure ClosingEvidence (ext : External) (db : Db) (rid : Nat) (run : ScanRun) (f : Finding) : Prop where
  complete : run.status = .complete
  repo : run.sourceRepo = forkRepo
  branch : run.sourceBranch = remediationBranch
  trigger : run.trigger ∈ closingTriggers
  platform : run.platform = f.platform
  succeeded : ∀ j ∈ db.jobsOf rid, j.success = true
  /-- A scanner that opened a package finding scanned its image, not with an older version or database. -/
  package : f.layer ∉ configLayers → ∀ det ∈ originalDetectors f, ∃ j ∈ db.jobsOf rid, j.name = det.value ++ "-raw" ∧
    j.success = true ∧ j.imageTarget.isSome ∧ j.imageTarget = f.imageTarget ∧
      versionAtLeast ext j.toolVersion (pinnedVersion det) = true ∧
        ∀ opening ∈ f.openingDbBuiltAt, ∃ built ∈ j.dbBuiltAt, opening ≤ built
  config : f.layer ∈ configLayers → ∃ j ∈ db.jobsOf rid, j.name = "config-raw" ∧ j.success = true
  /-- No run that finished later is the last one to report the finding, or the one that closed it. -/
  latest : ∀ other ∈ f.lastSeenRunId :: f.closedByRunId.toList, ∀ run', db.scanRuns.get? other = some run' →
    ∀ t ∈ run.finishedAt, ∀ t' ∈ run'.finishedAt, t' ≤ t
  /-- No scanner that opened the finding reports its family. -/
  absent : ∀ sg ∈ db.sightings.rows, sg.scanRunId = rid → sg.mode = .raw → sg.present = true →
    sg.scanner ∈ originalDetectors f → ∀ g, db.findings.get? sg.findingId = some g → familyKey g ≠ familyKey f

theorem mem_byName {jobs : List ScanJob} {name : String} {j : ScanJob} (h : byName jobs name = some j) :
    j ∈ jobs ∧ j.name = name := by
  have hname : (j.name == name) = true := List.find?_some (p := fun j : ScanJob => j.name == name) h
  exact ⟨List.mem_reverse.mp (List.mem_of_find?_eq_some h), eq_of_beq hname⟩

theorem mem_originalDetectors {f : Finding} {s : Scanner} :
    s ∈ originalDetectors f ↔ (s = .trivy ∧ f.openedByTrivy = true) ∨ (s = .grype ∧ f.openedByGrype = true) := by
  unfold originalDetectors
  cases f.openedByTrivy <;> cases f.openedByGrype <;> simp

/-- The detectors that opened a finding decide whether it is there. -/
theorem originalDetectors_deciding {db : Db} (hi : Intake db) {fid : Nat} {f : Finding}
    (hf : db.findings.get? fid = some f) {s : Scanner} (hs : s ∈ originalDetectors f) : s ∈ decidingDetectors f := by
  unfold decidingDetectors
  split
  · rename_i hl
    rcases mem_originalDetectors.mp hs with ⟨rfl, -⟩ | ⟨-, hg⟩
    · exact List.mem_singleton.mpr rfl
    · rw [hi.config fid f hf hl] at hg
      cases hg
  · exact hs

theorem value_ecosystem_inj {e e' : Ecosystem} (h : e.value = e'.value) : e = e' := by
  revert h
  cases e <;> cases e' <;> decide

theorem value_layer_inj {l l' : Layer} (h : l.value = l'.value) : l = l' := by
  revert h
  cases l <;> cases l' <;> decide

/-- The family of a finding is the findings of its key. -/
theorem mem_familyIds {db : Db} {f : Finding} {i : Nat} :
    i ∈ familyIds db f ↔ ∃ g, db.findings.get? i = some g ∧ familyKey g = familyKey f := by
  unfold familyIds
  rw [Table.mem_select]
  refine exists_congr fun g => and_congr_right fun _ => ?_
  simp only [familyKey, Bool.and_eq_true, beq_iff_eq, Prod.mk.injEq]
  constructor
  · rintro ⟨⟨⟨h₁, h₂⟩, h₃⟩, h₄⟩; exact ⟨h₁, congrArg _ h₂, h₃, congrArg _ h₄⟩
  · rintro ⟨h₁, h₂, h₃, h₄⟩; exact ⟨⟨⟨h₁, value_ecosystem_inj h₂⟩, h₃⟩, value_layer_inj h₄⟩

theorem mem_presentFamilies {db : Db} {sightings : List Sighting} {key : String × String × Option String × String} :
    key ∈ presentFamilies db sightings ↔
      ∃ sg ∈ sightings, sg.present = true ∧ ∃ g, db.findings.get? sg.findingId = some g ∧ familyKey g = key := by
  simp [presentFamilies, and_assoc]

theorem mem_sightingsOf {db : Db} {rid : Nat} {sg : Sighting} :
    sg ∈ db.sightingsOf rid ↔ sg ∈ db.sightings.rows ∧ sg.scanRunId = rid := by
  simp [Db.sightingsOf]

theorem mem_jobsOf {db : Db} {rid : Nat} {j : ScanJob} :
    j ∈ db.jobsOf rid ↔ j ∈ db.scanJobs.rows ∧ j.scanRunId = rid := by
  simp [Db.jobsOf]

section Evidence

variable {ext : External} {db : Db} {rid fid : Nat} {ev : Evidence} {f : Finding}

/-- A closing run without a present sighting of the family by the detectors that opened the finding. -/
theorem ClosingEvidence.of_run (hi : Intake db) (hf : db.findings.get? fid = some f) (hev : db.evidence rid = some ev)
    {mergeSha : Option String} {isAncestor : String → String → Bool} {requirePolicy : Bool}
    (hrun : ClosingRun ext ev.run ev.jobs f mergeSha isAncestor requirePolicy (laterRunSaw db ev.rid ev.run f))
    (habsent : ∀ sg ∈ db.sightingsOf rid, sg.mode = .raw → sg.present = true → sg.scanner ∈ originalDetectors f →
      ∀ g, db.findings.get? sg.findingId = some g → familyKey g ≠ familyKey f) :
    ClosingEvidence ext db rid ev.run f := by
  obtain ⟨hrow, hrid, hjobs, -⟩ := evidence_eq_some.mp hev
  have hscans := hrun.scans
  refine ⟨hrun.complete, hrun.repo, hrun.branch, hrun.trigger, hrun.platform.symm, hjobs ▸ hrun.succeeded, ?_, ?_, ?_,
    fun sg hsg hrid' hraw hp hdet g hg => habsent sg (mem_sightingsOf.mpr ⟨hsg, hrid'⟩) hraw hp hdet g hg⟩
  · intro hl det hdet
    rw [if_neg hl] at hscans
    obtain ⟨j, hj, hfit⟩ := hscans.scanned det hdet .raw nofun
    obtain ⟨hmem, hname⟩ := mem_byName hj
    rw [hjobs] at hmem
    have hname' : j.name = det.value ++ "-raw" := by
      rw [hname, String.append_assoc]
      rfl
    have htarget : j.imageTarget.isSome := hi.jobs j (mem_jobsOf.mp hmem).1 det hname'
    have himage : j.imageTarget = f.imageTarget := by
      obtain ⟨scanned, hs⟩ := Option.isSome_iff_exists.mp htarget
      obtain ⟨needed, hn⟩ := Option.isSome_iff_exists.mp (hi.target fid f hf)
      rw [hs, hn, hfit.image scanned hs needed hn]
    exact ⟨j, hmem, hname', hfit.success, htarget, himage, hfit.version, hfit.database⟩
  · intro hl
    rw [if_pos hl] at hscans
    obtain ⟨j, hj, hs, -⟩ := hscans
    obtain ⟨hmem, hname⟩ := mem_byName hj
    exact ⟨j, hjobs ▸ hmem, hname, hs⟩
  · intro other hother run' hrun' t ht t' ht'
    by_cases hne : other = rid
    · rw [hne, hrow] at hrun'
      cases hrun'
      cases ht.symm.trans ht'
      exact le_refl t
    · have := laterRunSaw_eq_none.mp hrun.latest t ht other hother (hrid ▸ hne) run' hrun'
      rw [Option.mem_def] at ht'
      simpa [finishedAfter, ht'] using this

variable {env : Env} {cmp : Compare} {item : WorkItem}

/-- A member whose outcome is `fixed` has the evidence, and the run contains the item's merge. -/
theorem memberOutcome_fixed (hi : Intake db) (hf : db.findings.get? fid = some f) (hev : db.evidence rid = some ev)
    (ho : memberOutcome env cmp db ev item fid f = .fixed) :
    ClosingEvidence env.ext db rid ev.run f ∧
      ∀ sha ∈ item.mergeSha, isAncestor cmp ⟨true, ev.rid, fid⟩ sha ev.run.sourceSha = true := by
  unfold memberOutcome at ho
  obtain ⟨hvalid, hshown⟩ := decideOutcome_eq_fixed.mp ho
  unfold memberValidity at hvalid
  have hrun := validateClosingRun_valid.mp hvalid
  obtain ⟨-, hrid, -, hsight⟩ := evidence_eq_some.mp hev
  refine ⟨.of_run hi hf hev hrun fun sg hsg hraw hp hdet g hg hkey => ?_, hrun.descends⟩
  have hseen : ((sightingsFor fid ev.rid ev.sightings (familyIds db f)).rawPresent sg.scanner).getD false = true :=
    rawPresent_eq_true.mpr ⟨sg, hsight ▸ hsg, List.mem_cons_of_mem _ (mem_familyIds.mpr ⟨g, hg, hkey⟩),
      hrid.symm ▸ (mem_sightingsOf.mp hsg).2, hraw, rfl, hp⟩
  have hshow : shownBy f (sightingsFor fid ev.rid ev.sightings (familyIds db f)) = true :=
    List.any_eq_true.mpr ⟨sg.scanner, originalDetectors_deciding hi hf hdet, hseen⟩
  rw [hshow] at hshown
  cases hshown

/-- A finding that drifts has the evidence. -/
theorem drifts_evidence (hi : Intake db) (hf : db.findings.get? fid = some f) (hev : db.evidence rid = some ev)
    (hd : drifts env db ev f = true) : ClosingEvidence env.ext db rid ev.run f := by
  simp only [drifts, Bool.and_eq_true, decide_eq_true_eq] at hd
  obtain ⟨⟨⟨-, hfamily⟩, -⟩, hvalid⟩ := hd
  unfold driftValidity at hvalid
  obtain ⟨-, -, -, hsight⟩ := evidence_eq_some.mp hev
  refine .of_run hi hf hev (validateClosingRun_valid.mp hvalid) fun sg hsg _ hp _ g hg hkey => hfamily ?_
  exact mem_presentFamilies.mpr ⟨sg, hsight ▸ hsg, hp, g, hg, hkey⟩

/-- The evidence reads the scans, what the finding is and which run closed it last. -/
theorem ClosingEvidence.congr {db' : Db} {run : ScanRun} {f' : Finding} (hs : SameScans db db')
    (hruns : db'.scanRuns = db.scanRuns) (hcore : f'.core = f.core) (hclosed : f'.closedByRunId = f.closedByRunId)
    (h : ClosingEvidence ext db' rid run f') : ClosingEvidence ext db rid run f := by
  have hjobs : db'.jobsOf rid = db.jobsOf rid := by unfold Db.jobsOf; rw [hs.scanJobs]
  have hlayer := Finding.of_core Finding.layer (fun _ => rfl) hcore
  have hdet := Finding.of_core originalDetectors (fun _ => rfl) hcore
  have htarget := Finding.of_core Finding.imageTarget (fun _ => rfl) hcore
  have hopening := Finding.of_core Finding.openingDbBuiltAt (fun _ => rfl) hcore
  have hlast := Finding.of_core Finding.lastSeenRunId (fun _ => rfl) hcore
  have hkey := Finding.of_core familyKey (fun _ => rfl) hcore
  have hplatform := Finding.of_core Finding.platform (fun _ => rfl) hcore
  refine ⟨h.complete, h.repo, h.branch, h.trigger, hplatform ▸ h.platform, hjobs ▸ h.succeeded, ?_, ?_, ?_, ?_⟩
  · have := h.package
    rwa [hlayer, hdet, htarget, hopening, hjobs] at this
  · have := h.config
    rwa [hlayer, hjobs] at this
  · have := h.latest
    rwa [hlast, hclosed, hruns] at this
  · intro sg hsg hrid hraw hp hd g hg
    have hgcore : (db'.findings.get? sg.findingId).map Finding.core =
      (db.findings.get? sg.findingId).map Finding.core := by
      rw [← Table.get?_map, ← Table.get?_map, hs.core]
    rw [hg, Option.map_some] at hgcore
    obtain ⟨g', hg', hgg⟩ := Option.map_eq_some_iff.mp hgcore
    have := h.absent sg (hs.sightings ▸ hsg) hrid hraw hp (hdet ▸ hd) g' hg'
    rwa [hkey, Finding.of_core familyKey (fun _ => rfl) hgg] at this

end Evidence

/-! ## How a history goes on -/

/-- The history goes on with entries that satisfy `P`. -/
def Appends (P : Event → Prop) (h h' : History) : Prop := ∃ entries, h'.2 = h.2 ++ entries ∧ ∀ e ∈ entries, P e

section Histories

variable {P : Event → Prop} {env : Env} {fid : Nat} {h h' h'' : History}

theorem Appends.refl (P : Event → Prop) (h : History) : Appends P h h := ⟨[], by simp, by simp⟩

theorem Appends.trans (h₁ : Appends P h h') (h₂ : Appends P h' h'') : Appends P h h'' := by
  obtain ⟨l₁, e₁, p₁⟩ := h₁
  obtain ⟨l₂, e₂, p₂⟩ := h₂
  refine ⟨l₁ ++ l₂, by rw [e₂, e₁, List.append_assoc], fun e he => ?_⟩
  rcases List.mem_append.mp he with he | he
  · exact p₁ e he
  · exact p₂ e he

theorem Appends.fired {event : FindingEvent} {reason actor : String} {runId : Option Nat}
    (hP : ∀ after, nextFindingState h.1.state event = some after → P ⟨env.now, actor, .finding, fid, .finding event,
      some h.1.state.value, some after.value, some reason, runId.toList⟩) :
    Appends P h (fired env fid event reason actor runId h) := by
  unfold HardeningLoop.fired
  cases hn : nextFindingState h.1.state event with
  | none => exact Appends.refl P h
  | some after =>
    refine ⟨_, rfl, fun e he => ?_⟩
    obtain rfl := List.mem_singleton.mp he
    exact hP after hn

/-- The transitions of a finding that a unit added. -/
def newTransitions (db db' : Db) (fid : Nat) : List Event :=
  (db'.transitions fid).drop (db.transitions fid).length

/-- What a unit added to a history satisfies `P`. -/
theorem Appends.newTransitions {db db' : Db} (hh : db.history fid = some h) (hh' : db'.history fid = some h')
    (ha : Appends P h h') {e : Event} (he : e ∈ newTransitions db db' fid) : P e := by
  obtain ⟨entries, happ, hP⟩ := ha
  unfold HardeningLoop.newTransitions at he
  rw [(history_eq_some.mp hh').2, (history_eq_some.mp hh).2, happ, List.drop_left] at he
  exact hP e he

end Histories

/-! ## The two paths -/

theorem value_findingState_inj {s s' : FindingState} (h : s.value = s'.value) : s = s' := by
  revert h
  cases s <;> cases s' <;> decide

/-- The entry of an event that does not lead to `fixed`. -/
theorem toState_ne_fixed {s after : FindingState} {event : FindingEvent} (hn : nextFindingState s event = some after)
    (he : event ≠ .closingAbsent) : some after.value ≠ some FindingState.fixed.value := by
  intro h
  have hfixed := value_findingState_inj (Option.some.inj h)
  exact he (next_eq_fixed (hfixed ▸ hn))

section Paths

variable {env : Env} {cmp : Compare} {ev : Evidence} {db : Db} {fid : Nat} {h : History} {P : Event → Prop}

/-- Closing a work item: a transition of a member to `fixed` has the outcome `fixed`. -/
theorem settledMember_appends {wid : Nat} {item : WorkItem}
    (hother : ∀ e : Event, e.toState ≠ some FindingState.fixed.value → P e)
    (hfixed : memberOutcome env cmp db ev item fid h.1 = .fixed → ∀ e : Event, e.evidenceIds = [ev.rid] →
      e.reason = some ("absent in run " ++ ev.run.externalRunId) → P e) :
    Appends P h (settledMember env cmp db ev wid item fid h) := by
  unfold settledMember
  split
  · split
    · exact .fired fun after hn => hother _ (toState_ne_fixed hn (by decide))
    · exact .refl P h
  · unfold judged
    cases hc : closingEvent ev.run.externalRunId (memberOutcome env cmp db ev item fid h.1) with
    | none => exact .refl P h
    | some e =>
      obtain ⟨event, reason, actor⟩ := e
      rcases closingEvent_event hc with ⟨ho, rfl, rfl⟩ | ⟨-, rfl⟩ | ⟨-, rfl⟩
      · exact .fired fun after _ => hfixed ho _ rfl rfl
      · exact .fired fun after hn => hother _ (toState_ne_fixed hn (by decide))
      · exact .fired fun after hn => hother _ (toState_ne_fixed hn (by decide))

/-- A regression is no transition to `fixed`. -/
theorem afterRegression_appends (hother : ∀ e : Event, e.toState ≠ some FindingState.fixed.value → P e) :
    Appends P h (afterRegression env cmp db ev fid h) := by
  unfold afterRegression
  split
  · exact .fired fun after hn => hother _ (toState_ne_fixed hn (by decide))
  · exact .refl P h

/-- A drift to `fixed` is for a finding that drifts. -/
theorem afterDrift_appends (hdrift : drifts env db ev h.1 = true → ∀ e : Event, e.evidenceIds = [ev.rid] →
      e.reason = some ("absent in run " ++ ev.run.externalRunId ++ " (no remediation)") → P e) :
    Appends P h (afterDrift env db ev fid h) := by
  unfold afterDrift
  split
  · rename_i hd
    exact .fired fun after _ => hdrift hd _ rfl rfl
  · exact .refl P h

end Paths

/-- A transition to `fixed` names a run that is evidence for it; `merged` is what the run says of a merge. -/
def FixedOnEvidence (ext : External) (db : Db) (f : Finding) (merged : ScanRun → Event → Prop) (e : Event) : Prop :=
  e.toState = some FindingState.fixed.value → ∃ rid run, db.scanRuns.get? rid = some run ∧ e.evidenceIds = [rid] ∧
    ClosingEvidence ext db rid run f ∧ merged run e

/-- The reason drift gives is not the one closing gives. -/
theorem drift_reason_ne (x : String) : "absent in run " ++ x ++ " (no remediation)" ≠ "absent in run " ++ x := by
  intro h
  have hlen := congrArg String.length h
  simp only [String.length_append] at hlen
  have : (" (no remediation)" : String).length = 17 := rfl
  omega

section Applied

variable {env : Env} {cmp : Compare} {db : Db} {rid fid : Nat} {f : Finding} {Ancestor : String → String → Prop}

/-- The commit is the run's, or an ancestor of it. -/
theorem descends_of_isAncestor (hcmp : ∀ site base head, cmp site base head ∈ [some "ahead", some "identical"] →
    Ancestor base head) {site : CompareSite} {base head : String} (h : isAncestor cmp site base head = true) :
    base = head ∨ Ancestor base head := by
  unfold isAncestor at h
  simp only [Bool.or_eq_true, beq_iff_eq, decide_eq_true_eq] at h
  exact h.imp_right (hcmp site base head)

/-- What the application of a run adds to a finding's history. -/
theorem evaluated_appends (hi : Intake db) (hf : db.findings.get? fid = some f) {ev : Evidence}
    (hev : db.evidence rid = some ev)
    (hcmp : ∀ site base head, cmp site base head ∈ [some "ahead", some "identical"] → Ancestor base head)
    (l : List Event) :
    Appends (FixedOnEvidence env.ext db f fun run e => e.evidenceIds = [rid] ∧
        (e.reason = some ("absent in run " ++ run.externalRunId) → ∀ wid item, f.workItemId = some wid →
          db.workItems.get? wid = some item → ∀ sha ∈ item.mergeSha, sha = run.sourceSha ∨ Ancestor sha run.sourceSha))
      (f, l) (evaluated env cmp db ev fid (f, l)) := by
  obtain ⟨hrow, hrid, -, -⟩ := evidence_eq_some.mp hev
  refine .trans (.trans ?_ (afterRegression_appends fun e hne hto => absurd hto hne))
    (afterDrift_appends fun hd e hids hreason hto => ?_)
  · unfold afterClosing
    cases hj : judge db (f, l).1 with
    | none => exact .refl _ _
    | some owner =>
      obtain ⟨wid, item⟩ := owner
      obtain ⟨how, hitem, -⟩ := judge_eq_some.mp hj
      refine settledMember_appends (fun e hne hto => absurd hto hne) fun ho e hids _ _ => ?_
      obtain ⟨hevidence, hmerge⟩ := memberOutcome_fixed hi hf hev ho
      refine ⟨rid, ev.run, hrow, hrid ▸ hids, hevidence, hrid ▸ hids, fun _ wid' item' how' hitem' sha hsha => ?_⟩
      cases how.symm.trans how'
      cases hitem.symm.trans hitem'
      exact descends_of_isAncestor hcmp (hmerge sha hsha)
  · -- a finding that drifts is as it was when the run was applied
    have hst : (afterRegression env cmp db ev fid (afterClosing env cmp db ev fid (f, l))).1.state ∈ driftStates := by
      simp only [drifts, Bool.and_eq_true, decide_eq_true_eq] at hd
      exact hd.1.1.1.1
    have hregress := afterRegression_of_drift hst
    rw [hregress] at hst hd
    have hclosing := afterClosing_of_drift hst
    rw [hclosing] at hd
    refine ⟨rid, ev.run, hrow, hrid ▸ hids, drifts_evidence hi hf hev hd, hrid ▸ hids, fun hreason' => ?_⟩
    rw [hreason] at hreason'
    exact absurd (Option.some.inj hreason') (drift_reason_ne _)

end Applied

/-! ## The merge an item records -/

/-- The merge commit of a work item. -/
def Db.itemMerge (db : Db) (wid : Nat) : Option (Option String) := (db.workItems.get? wid).map WorkItem.mergeSha

/-- What a run must be to close the item: a descendant of its merge, by the kind and what a human resolved. -/
def WorkItem.terms (w : WorkItem) : Option String × Option DateTime × Kind × Option String :=
  (w.mergeSha, w.mergedAt, w.kind, w.humanResolution)

def Db.itemTerms (db : Db) (wid : Nat) : Option (Option String × Option DateTime × Kind × Option String) :=
  (db.workItems.get? wid).map WorkItem.terms

section Merge

variable {env : Env} {wid : Nat}

theorem itemMerge_of_terms {db db' : Db} (h : db'.itemTerms wid = db.itemTerms wid) :
    db'.itemMerge wid = db.itemMerge wid := by
  have hfst (d : Db) : d.itemMerge wid = (d.itemTerms wid).map Prod.fst := by
    rw [Db.itemTerms, Option.map_map]
    rfl
  rw [hfst, hfst, h]

theorem itemTerms_modifyItem (t : Tx) (k : Nat) {f : WorkItem → WorkItem} (hf : ∀ w, (f w).terms = w.terms) :
    (t.modifyItem k f).db.itemTerms wid = t.db.itemTerms wid := by
  simp only [Db.itemTerms, Tx.modifyItem, Table.get?_modify]
  split
  · rw [Option.map_map]
    exact congrArg (Option.map · _) (funext hf)
  · rfl

theorem itemTerms_wi (t : Tx) (k : Nat) (event : WorkItemEvent) (reason actor : String) :
    (t.wi env k event reason actor).db.itemTerms wid = t.db.itemTerms wid := by
  have hrow (w : WorkItem) : (Tx.wiRow env event reason w).terms = w.terms := by
    unfold Tx.wiRow
    split
    · rfl
    · split
      · split <;> rfl
      · rfl
  have hmodify : (t.modifyItem k (Tx.wiRow env event reason)).db.itemTerms wid = t.db.itemTerms wid :=
    itemTerms_modifyItem t k hrow
  rw [Tx.wi_db]
  exact hmodify

theorem itemTerms_raiseLevel (t : Tx) (k pid : Nat) (level : LifecycleLevel) (why : String) :
    (raiseLevel env t k pid level why).db.itemTerms wid = t.db.itemTerms wid := by
  unfold raiseLevel
  dsimp only
  split
  · split
    · exact itemTerms_modifyItem _ k fun _ => rfl
    · rfl
  · rfl

/-- What writes findings alone leaves the terms. -/
theorem Acts.itemTerms {F : Nat → Prop} {tx t : Tx} (h : Acts env (.findingsOnly F) tx t) :
    t.db.itemTerms wid = tx.db.itemTerms wid := by
  unfold Db.itemTerms
  rw [h.workItems not_false fun _ => not_false]

theorem itemTerms_raiseVerified (t : Tx) (k : Nat) (run : ScanRun) :
    (raiseVerified env t k run).db.itemTerms wid = t.db.itemTerms wid := by
  unfold raiseVerified
  split
  · exact itemTerms_raiseLevel t k _ _ _
  · refine itemTerms_modifyItem t k fun w => ?_
    split <;> rfl

theorem itemTerms_verifyItem (t : Tx) (k : Nat) (ev : Evidence) (states : List FindingState) :
    (verifyItem env t k ev states).db.itemTerms wid = t.db.itemTerms wid := by
  have h : (raiseVerified env ((t.modifyItem k fun w => { w with verifiedAt := some env.now }).wi env k .rescanVerified
      ("run " ++ ev.run.externalRunId) "scanner") k ev.run).db.itemTerms wid = t.db.itemTerms wid := by
    rw [itemTerms_raiseVerified, itemTerms_wi]
    exact itemTerms_modifyItem t k fun _ => rfl
  unfold verifyItem
  dsimp only
  split <;> exact h

theorem itemTerms_beginRescan (t : Tx) (k : Nat) (run : ScanRun) :
    (beginRescan env t k run).db.itemTerms wid = t.db.itemTerms wid := by
  unfold beginRescan
  split
  · exact itemTerms_wi ..
  · rfl

theorem itemTerms_stillPresent (t : Tx) (k : Nat) (run : ScanRun) (still : List Nat) :
    (stillPresent env t k run still).db.itemTerms wid = t.db.itemTerms wid := by
  unfold stillPresent
  split
  · rfl
  · have hblock (t : Tx) : Acts env (.findingsOnly fun _ => True) t (still.foldl (blockMember env run) t) :=
      .foldl _ .refl fun t fid _ => Acts.refl.finding trivial (Or.inr (by decide)) ..
    dsimp only
    rw [(hblock _).itemTerms, itemTerms_wi]

theorem itemTerms_closeWorkItem (cmp : Compare) (ev : Evidence) (t : Tx) (k : Nat) :
    (closeWorkItem env cmp ev t k).db.itemTerms wid = t.db.itemTerms wid := by
  unfold closeWorkItem
  split
  · rfl
  · rename_i item _
    rw [← (judgeMembers_does env cmp ev t k item).itemTerms]
    unfold settleItem
    dsimp only
    split
    · exact itemTerms_wi ..
    · split
      · rw [itemTerms_verifyItem, itemTerms_beginRescan]
      · rw [itemTerms_stillPresent, itemTerms_beginRescan]

end Merge

/-! ## A poll that observes a merge -/

/-- The finding is what it was, closed by the run that had closed it unless it is closed now. -/
structure Follows (P : Event → Prop) (h h' : History) : Prop where
  appends : Appends P h h'
  core : h'.1.core = h.1.core
  closed : h'.1.closedByRunId = h.1.closedByRunId ∨ h'.1.state.isClosing = true

theorem Follows.refl (P : Event → Prop) (h : History) : Follows P h h := ⟨.refl P h, rfl, Or.inl rfl⟩

/-- An event fired at an open finding. -/
theorem Follows.fired {P : Event → Prop} {env : Env} {fid : Nat} {h h' : History} (hf : Follows P h h')
    {event : FindingEvent} {reason actor : String} {runId : Option Nat} (hr : event ≠ .reappeared)
    (ho : event ≠ .humanReopened)
    (hP : h'.1.closedByRunId = h.1.closedByRunId → ∀ after, nextFindingState h'.1.state event = some after →
      P ⟨env.now, actor, .finding, fid, .finding event, some h'.1.state.value, some after.value, some reason,
        runId.toList⟩) : Follows P h (fired env fid event reason actor runId h') := by
  cases hn : nextFindingState h'.1.state event with
  | none =>
    have hsame : HardeningLoop.fired env fid event reason actor runId h' = h' := by simp only [HardeningLoop.fired, hn]
    rw [hsame]
    exact hf
  | some after =>
    have hopen : h'.1.closedByRunId = h.1.closedByRunId := by
      rcases hf.closed with hc | hc
      · exact hc
      · rw [next_of_closing hc hr ho] at hn
        cases hn
    refine ⟨hf.appends.trans (.fired fun after hn => hP hopen after hn), ?_, ?_⟩
    · rw [← hf.core]
      simp only [HardeningLoop.fired, hn]
      rfl
    · simp only [HardeningLoop.fired, hn, Tx.settled]
      cases hafter : after.isClosing with
      | true => exact Or.inr rfl
      | false => exact Or.inl hopen

/-- Within a poll that observes the merge `sha` of an item: the scans are as they were, the item records the merge, and
each finding's history goes on with entries that satisfy `P`. -/
structure MergeState (db : Db) (P : Nat → Event → Prop) (wid : Nat) (sha : Option String) (t : Tx) : Prop where
  scans : SameScans db t.db
  runs : t.db.scanRuns = db.scanRuns
  merge : ∀ m, t.db.itemMerge wid = some m → m = sha
  follows : ∀ k h', t.db.history k = some h' → ∃ h, db.history k = some h ∧ Follows (P k) h h'

namespace MergeState

variable {env : Env} {db : Db} {P : Nat → Event → Prop} {wid : Nat} {sha : Option String} {t t' : Tx}

/-- The findings have been left alone so far. -/
theorem start (h : OnPull env wid { db := db } t) (hm : ∀ m, t.db.itemMerge wid = some m → m = sha) :
    MergeState db P wid sha t :=
  ⟨h.sameScans, h.scanRuns, hm,
    fun _ h' hh' => ⟨h', (h.history (S := .pull wid fun _ => False) not_false) ▸ hh', .refl _ _⟩⟩

/-- What leaves the findings and the merge alone. -/
theorem onItem (hs : MergeState db P wid sha t) (h : Acts env (.closing wid fun _ => False) t t')
    (hm : t'.db.itemMerge wid = t.db.itemMerge wid) : MergeState db P wid sha t' := by
  refine ⟨⟨h.findings_core.trans hs.scans.core, h.scanJobs.trans hs.scans.scanJobs,
    h.sightings.trans hs.scans.sightings⟩, h.scanRuns.trans hs.runs, hm ▸ hs.merge, fun k h' hh' => ?_⟩
  rw [h.history (S := .closing wid fun _ => False) not_false] at hh'
  exact hs.follows k h' hh'

/-- A member of the merged item. -/
theorem mergeMember (hs : MergeState db P wid sha t) (merged : String) (fid : Nat)
    (hother : ∀ k, ∀ e : Event, e.toState ≠ some FindingState.fixed.value → P k e) :
    MergeState db P wid sha (mergeMember env merged t fid) := by
  have hacts : Acts env (.findingsOnly (· = fid)) t (HardeningLoop.mergeMember env merged t fid) :=
    Acts.refl.finding rfl (Or.inr (by decide)) ..
  refine ⟨⟨hacts.findings_core.trans hs.scans.core, hacts.scanJobs.trans hs.scans.scanJobs,
    hacts.sightings.trans hs.scans.sightings⟩, hacts.scanRuns.trans hs.runs,
    (itemMerge_of_terms hacts.itemTerms).symm ▸ hs.merge,
    fun k h' hh' => ?_⟩
  unfold HardeningLoop.mergeMember at hh'
  rw [history_finding] at hh'
  split at hh'
  · rename_i hk
    obtain ⟨h₁, hh₁, rfl⟩ := Option.map_eq_some_iff.mp hh'
    obtain ⟨h, hh, hf⟩ := hs.follows k h₁ hh₁
    refine ⟨h, hh, hk ▸ hf.fired (by decide) (by decide) fun _ after hn => hother k _ ?_⟩
    exact toState_ne_fixed hn (by decide)
  · exact hs.follows k h' hh'

/-- A closing of the item by a run. -/
theorem closeWorkItem {cmp : Compare} {rid : Nat} {ev : Evidence} (hs : MergeState db P wid sha t)
    (hev : t.db.evidence rid = some ev) (hi : Intake db)
    (hother : ∀ k, ∀ e : Event, e.toState ≠ some FindingState.fixed.value → P k e)
    (hfixed : ∀ k f, db.findings.get? k = some f → ClosingEvidence env.ext db rid ev.run f →
      (∀ m ∈ sha, isAncestor cmp ⟨true, rid, k⟩ m ev.run.sourceSha = true) → ∀ e : Event, e.evidenceIds = [rid] →
      P k e) :
    MergeState db P wid sha (closeWorkItem env cmp ev t wid) := by
  have hacts := closeWorkItem_does env cmp ev t wid
  refine ⟨⟨hacts.findings_core.trans hs.scans.core, hacts.scanJobs.trans hs.scans.scanJobs,
    hacts.sightings.trans hs.scans.sightings⟩, hacts.scanRuns.trans hs.runs,
    (itemMerge_of_terms (itemTerms_closeWorkItem cmp ev t wid)).symm ▸ hs.merge, fun k h' hh' => ?_⟩
  cases hitem : t.db.workItems.get? wid with
  | none =>
    unfold HardeningLoop.closeWorkItem at hh'
    rw [hitem] at hh'
    exact hs.follows k h' hh'
  | some item =>
    rw [closeWorkItem_history hitem] at hh'
    split at hh'
    · obtain ⟨h₁, hh₁, rfl⟩ := Option.map_eq_some_iff.mp hh'
      obtain ⟨h, hh, hf⟩ := hs.follows k h₁ hh₁
      refine ⟨h, hh, ?_⟩
      unfold settledMember
      split
      · split
        · exact hf.fired (by decide) (by decide) fun _ after hn => hother k _ (toState_ne_fixed hn (by decide))
        · exact hf
      · unfold judged
        cases hc : closingEvent ev.run.externalRunId (memberOutcome env cmp t.db ev item k h₁.1) with
        | none => exact hf
        | some e =>
          obtain ⟨event, reason, actor⟩ := e
          rcases closingEvent_event hc with ⟨ho, rfl, rfl⟩ | ⟨-, rfl⟩ | ⟨-, rfl⟩
          · refine hf.fired (by decide) (by decide) fun hclosed after hn => ?_
            have hrid : ev.rid = rid := (evidence_eq_some.mp hev).2.1
            obtain ⟨hevidence, hmerge⟩ :=
              memberOutcome_fixed (Intake.congr hs.scans hi) (history_eq_some.mp hh₁).1 hev ho
            have hsha : item.mergeSha = sha := hs.merge _ (by simp only [Db.itemMerge, hitem, Option.map_some])
            refine hfixed k h.1 (history_eq_some.mp hh).1 (hevidence.congr hs.scans hs.runs hf.core hclosed) ?_ _ ?_
            · intro m hm
              exact hrid ▸ hmerge m (hsha.symm ▸ hm)
            · exact hrid ▸ rfl
          · exact hf.fired (by decide) (by decide) fun _ after hn => hother k _ (toState_ne_fixed hn (by decide))
          · exact hf.fired (by decide) (by decide) fun _ after hn => hother k _ (toState_ne_fixed hn (by decide))
    · exact hs.follows k h' hh'

end MergeState

section Poll

variable {env : Env} {db : Db} {Ancestor : String → String → Prop}

/-- A transition to `fixed` in a poll that observes the merge `sha`. -/
def FixedAfterMerge (ext : External) (db : Db) (Ancestor : String → String → Prop) (sha : Option String) (fid : Nat)
    (e : Event) : Prop :=
  ∀ f, db.findings.get? fid = some f → FixedOnEvidence ext db f
    (fun run _ => ∀ m ∈ sha, m = run.sourceSha ∨ Ancestor m run.sourceSha) e

/-- The replay of the applied runs for a merge. -/
theorem closeFromAppliedRuns_mergeState {wid : Nat} {sha : Option String} {cmp : Compare} {t : Tx} (hi : Intake db)
    (hcmp : ∀ site base head, cmp site base head ∈ [some "ahead", some "identical"] → Ancestor base head)
    (hs : MergeState db (FixedAfterMerge env.ext db Ancestor sha) wid sha t) :
    MergeState db (FixedAfterMerge env.ext db Ancestor sha) wid sha (closeFromAppliedRuns env cmp t wid) := by
  unfold closeFromAppliedRuns
  split
  · exact hs
  · refine Rows.foldl_invariant (MergeState db (FixedAfterMerge env.ext db Ancestor sha) wid sha)
      (fun t rid _ hs => ?_) hs
    unfold replayRun
    split
    · cases hev : t.db.evidence rid with
      | none => exact hs
      | some ev =>
        refine hs.closeWorkItem hev hi (fun k e hne f _ hto => absurd hto hne)
          fun k f hf hevidence hmerge e hids f' hf' _ => ?_
        cases hf.symm.trans hf'
        have hrun : db.scanRuns.get? rid = some ev.run := hs.runs ▸ (evidence_eq_some.mp hev).1
        exact ⟨rid, ev.run, hrun, hids, hevidence, fun m hm => descends_of_isAncestor hcmp (hmerge m hm)⟩
    · exact hs

/-- The branch of a poll for a merged pull request. -/
theorem applyMerge_mergeState {wid pid : Nat} {pr : PullRequestInfo} {cmp : Compare} {t : Tx} (hi : Intake db)
    (hcmp : ∀ site base head, cmp site base head ∈ [some "ahead", some "identical"] → Ancestor base head)
    (h : OnPull env wid { db := db } t) :
    MergeState db (FixedAfterMerge env.ext db Ancestor pr.mergeCommitSha) wid pr.mergeCommitSha
      (applyMerge env t wid pid pr cmp) := by
  have hrecord : ∀ m, (recordMerge env t wid pid pr).db.itemMerge wid = some m → m = pr.mergeCommitSha := by
    intro m hm
    simp only [recordMerge, Db.itemMerge, Tx.modifyItem, Tx.modifyPullRequest, Table.get?_modify_self, Option.map_map,
      Option.map_eq_some_iff] at hm
    obtain ⟨w, -, rfl⟩ := hm
    rfl
  have hblock : (blockUnverified env (recordMerge env t wid pid pr) wid).db.itemMerge wid =
      (recordMerge env t wid pid pr).db.itemMerge wid := by
    unfold blockUnverified
    split
    · rfl
    · exact itemMerge_of_terms (itemTerms_wi ..)
  have hs : MergeState db (FixedAfterMerge env.ext db Ancestor pr.mergeCommitSha) wid pr.mergeCommitSha
      (blockUnverified env (recordMerge env t wid pid pr) wid) :=
    (MergeState.start (h.trans (recordMerge_does env t wid pid pr).closing_onPull) hrecord).onItem
      (blockUnverified_does env _ wid).closing hblock
  unfold applyMerge
  dsimp only
  split
  · unfold completeMerge
    refine closeFromAppliedRuns_mergeState hi hcmp ?_
    refine Rows.foldl_invariant (MergeState db _ wid pr.mergeCommitSha)
      (fun t fid _ hs => hs.mergeMember _ fid fun k e hne f _ hto => absurd hto hne) ?_
    refine (hs.onItem ((Acts.refl.fire .humanMerged _ _ (by decide) : OnItem env wid _ _).closing)
      (itemMerge_of_terms (itemTerms_wi ..))).onItem
      (raiseLevel_does env _ wid pid (by decide) _) (itemMerge_of_terms (itemTerms_raiseLevel ..))
  · exact hs

/-- A poll of a pull request. -/
theorem pollPullRequest_fixed (hi : Intake db) {answers : PrAnswers}
    (hcmp : ∀ site base head, answers.compare site base head ∈ [some "ahead", some "identical"] → Ancestor base head)
    {wid number fid : Nat} {f : Finding} (hf : db.findings.get? fid = some f) {pr : PullRequestInfo}
    {checks : List CheckRun} {e : Event}
    (he : e ∈ newTransitions db (pollPullRequest env wid number pr checks answers { db := db }).db fid) :
    FixedOnEvidence env.ext db f
      (fun run _ => ∀ m ∈ pr.mergeCommitSha, m = run.sourceSha ∨ Ancestor m run.sourceSha) e := by
  have hhist : db.history fid = some (f, db.transitions fid) := history_eq_some.mpr ⟨hf, rfl⟩
  rcases pollPullRequest_merges env wid number pr checks answers { db := db } with h | ⟨pid, t, h, heq⟩
  · have hsame : (pollPullRequest env wid number pr checks answers { db := db }).db.history fid = db.history fid :=
      h.history (S := .pull wid fun _ => False) not_false
    exact (Appends.refl _ _).newTransitions hhist (hsame.trans hhist) he
  · rw [heq] at he
    have hs : MergeState db (FixedAfterMerge env.ext db Ancestor pr.mergeCommitSha) wid pr.mergeCommitSha
        (applyMerge env t wid pid pr answers.compare) := applyMerge_mergeState hi hcmp h
    obtain ⟨h₁, hh₁⟩ := h.history_isSome hhist
    obtain ⟨h', hh'⟩ := (applyMerge_does env t wid pid pr answers.compare).history_isSome hh₁
    obtain ⟨h₀, hh₀, hfollows⟩ := hs.follows fid h' hh'
    exact hfollows.appends.newTransitions hh₀ hh' he f hf

end Poll

/-- **A finding is closed as fixed on evidence only**, when a run is applied and when the applied runs are replayed for
a merge. An item's own closing gives the reason `absent in run ..`; a poll that observes a merge records its commit
first. -/
theorem fixed_on_evidence {c : Controller} {s : Sys} (hs : Reachable c s) {env : Env}
    {Ancestor : String → String → Prop}
    {fid : Nat} {f : Finding} (hf : s.db.findings.get? fid = some f) :
    (∀ (cmp : Compare) (rid : Nat),
      (∀ site base head, cmp site base head ∈ [some "ahead", some "identical"] → Ancestor base head) →
      ∀ e ∈ newTransitions s.db (applyScanRun env cmp rid { db := s.db }).db fid,
        FixedOnEvidence env.ext s.db f (fun run e => e.evidenceIds = [rid] ∧
          (e.reason = some ("absent in run " ++ run.externalRunId) → ∀ wid item, f.workItemId = some wid →
            s.db.workItems.get? wid = some item → ∀ sha ∈ item.mergeSha,
              sha = run.sourceSha ∨ Ancestor sha run.sourceSha)) e) ∧
    (∀ (answers : PrAnswers) (wid number : Nat) (pr : PullRequestInfo) (checks : List CheckRun),
      (∀ site base head, answers.compare site base head ∈ [some "ahead", some "identical"] → Ancestor base head) →
      ∀ e ∈ newTransitions s.db (pollPullRequest env wid number pr checks answers { db := s.db }).db fid,
        FixedOnEvidence env.ext s.db f
          (fun run _ => ∀ sha ∈ pr.mergeCommitSha, sha = run.sourceSha ∨ Ancestor sha run.sourceSha) e) := by
  have hi := hs.intake
  refine ⟨fun cmp rid hcmp e he => ?_, fun answers wid number pr checks hcmp e he =>
    pollPullRequest_fixed hi hcmp hf he⟩
  have hhist : s.db.history fid = some (f, s.db.transitions fid) := history_eq_some.mpr ⟨hf, rfl⟩
  by_cases howed : ∃ ev, s.db.evidence rid = some ev ∧ ev.run.closureAppliedAt = none
  · obtain ⟨ev, hev, hnone⟩ := howed
    have hafter : (applyScanRun env cmp rid { db := s.db }).db.history fid =
        some (evaluated env cmp s.db ev fid (f, s.db.transitions fid)) := by
      have hrow : (applyScanRun env cmp rid { db := s.db }).db.history fid =
          (s.db.history fid).map (evaluated env cmp s.db ev fid) := applyScanRun_history hev hnone fid
      rw [hrow, hhist, Option.map_some]
    exact (evaluated_appends hi hf hev hcmp (s.db.transitions fid)).newTransitions hhist hafter he
  · have hidle : applyScanRun env cmp rid { db := s.db } = { db := s.db } := by
      refine applyScanRun_idle fun ev hev => ?_
      rw [Option.isSome_iff_ne_none]
      exact fun hnone => howed ⟨ev, hev, hnone⟩
    rw [hidle] at he
    exact (Appends.refl _ _).newTransitions hhist hhist he

/-- A vulnerability that a second scan no longer shows: the run of the closing is evidence for it. -/
theorem fixed_on_evidence_drift :
    let s := sampleState ([sampleIngest "1" 10
    [sampleVuln .trivy "CVE-1" "openssl" "1", sampleVuln .grype "CVE-1" "openssl" "1"]]
      ++ sampleApply 11 ++ [sampleIngest "2" 20 []])
    ∃ f e, s.db.findings.get? 1 = some f ∧
      e ∈ newTransitions s.db (applyScanRun (sampleController.env 21) linearCompare 2 { db := s.db }).db 1 ∧
      e.toState = some "fixed" ∧ ∃ rid run, s.db.scanRuns.get? rid = some run ∧
        ClosingEvidence sampleExternal s.db rid run f := by
  intro s
  obtain ⟨f, hf⟩ : ∃ f, s.db.findings.get? 1 = some f := Option.isSome_iff_exists.mp (by decide +kernel)
  obtain ⟨e, he, hto⟩ :
      ∃ e ∈ newTransitions s.db (applyScanRun (sampleController.env 21) linearCompare 2 { db := s.db }).db 1,
      (e.toState == some "fixed") = true := List.any_eq_true.mp (by decide +kernel)
  have hall : ∀ site base head, linearCompare site base head ∈ [some "ahead", some "identical"] →
      (fun _ _ => True : String → String → Prop) base head := fun _ _ _ _ => trivial
  obtain ⟨rid, run, hrun, -, hevidence, -⟩ :=
    (fixed_on_evidence (sampleState_reachable _) hf).1 linearCompare 2 hall e he
    (eq_of_beq hto)
  exact ⟨f, e, hf, he, eq_of_beq hto, rid, run, hrun, hevidence⟩

end HardeningLoop
