import HardeningLoop.Github.Rest
import HardeningLoop.Ingest.Acceptance
import HardeningLoop.Lib.Fallible

/-!
# The backlog of runs

A poll pulls the workflow's runs from the client until it has as many unseen ones as it was asked for, while GitHub goes
on adding runs to the listing, and ingests them, oldest first.

- `unseen_runs_live`: from one that grows, a poll takes the newest unseen runs that were listed when it began, and
  passes over none;
- `polls_catch_up`: polls that do not raise come to see every run that was listed when they began.
-/

namespace HardeningLoop

/-- `list_workflow_runs`, while GitHub answers. -/
def pullWorkflowRuns (repo workflowFile : String) (reply : Nat → Nat → HttpReply (List WorkflowRunInfo)) (t : Nat) :
    Listing GitHubError WorkflowRunInfo :=
  if repo ∉ repoAllowlist then .raised (refused repo) else pulls (runsPath repo workflowFile) reply t

/-- `unseen_runs`, while GitHub answers. -/
def pullUnseenRuns (expect : IntakeExpectation) (s : IntakeState) (reply : Nat → Nat → HttpReply (List WorkflowRunInfo))
    (t : Nat) (limit : Int) : Except GitHubError (List WorkflowRunInfo) :=
  (((pullWorkflowRuns expect.sourceRepo securityScanWorkflow reply t).filter fun r => r.status == "completed").collect
    limit (fun r => (s.seen (externalRunId expect.sourceRepo r)).isNone) []).map List.reverse

/-! ## A history that grows -/

/-- An element that is taken, and what is taken before it. -/
theorem take_filter_before {α : Type} {p : α → Bool} {a : α} {n : Nat} {l : List α} (h : a ∈ (l.filter p).take n) :
    ∃ l₁ l₂, l = l₁ ++ a :: l₂ ∧ l₁.filter p <+: (l.filter p).take n := by
  obtain ⟨x, y, hxy⟩ := List.append_of_mem h
  have hfilter : l.filter p = x ++ a :: (y ++ (l.filter p).drop n) := by
    conv_lhs => rw [← List.take_append_drop n (l.filter p), hxy]
    rw [List.append_assoc, List.cons_append]
  obtain ⟨l₁, r, rfl, hl₁, hr⟩ := List.filter_eq_append_iff.mp hfilter
  obtain ⟨m, l₂, rfl, hm, -, -⟩ := List.filter_eq_cons_iff.mp hr
  refine ⟨l₁ ++ m, l₂, (List.append_assoc ..).symm, ?_⟩
  rw [List.filter_append, hl₁, List.filter_eq_nil_iff.mpr hm, List.append_nil, hxy]
  exact List.prefix_append x _

section Live

variable {expect : IntakeExpectation} {s : IntakeState} {lists : Nat → List WorkflowRunInfo}
  {reply : Nat → Nat → HttpReply (List WorkflowRunInfo)} {t : Nat} {limit : Int} {runs : List WorkflowRunInfo}

/-- What a poll takes are the first unseen runs of a reading; if they are fewer than it was asked for, it was read to
its end. -/
theorem pullUnseenRuns_reads (h : ServesPages lists reply) (hrun : pullUnseenRuns expect s reply t limit = .ok runs) :
    ∃ ends items, Pages.Reads perPage lists ends 0 t items ∧
      runs.reverse = (unseen expect s (completed items)).take limit.toNat ∧
      (runs.length < limit.toNat → ends = true) := by
  unfold pullUnseenRuns pullWorkflowRuns at hrun
  split at hrun
  · cases hrun
  · obtain ⟨ends, items, e, hpulls, hreads⟩ := pullsFrom_reads h maxPages 0 t
    rw [pulls, hpulls, Listing.filter_yields] at hrun
    refine ⟨ends, items, hreads, ?_⟩
    cases ends with
    | true =>
      rw [if_pos rfl, Listing.filter, Listing.collect_stop, List.nil_append, List.length_nil, Nat.sub_zero] at hrun
      obtain rfl := Except.ok.inj hrun
      exact ⟨List.reverse_reverse _, fun _ => rfl⟩
    | false =>
      rw [if_neg Bool.false_ne_true, Listing.filter, Listing.collect_raised, List.nil_append,
        List.length_nil, Nat.sub_zero,
        Nat.zero_add] at hrun
      split at hrun
      · rename_i hreached
        obtain rfl := Except.ok.inj hrun
        refine ⟨List.reverse_reverse _, fun hfew => ?_⟩
        -- the limit was reached before the last element
        have hle := (((List.dropLast_sublist (completed items)).filter fun r =>
          (s.seen (externalRunId expect.sourceRepo r)).isNone)).length_le
        have hlimit := hreached.2
        rw [List.length_reverse, List.length_take] at hfew
        have hshort : ((completed items).filter fun r => (s.seen (externalRunId expect.sourceRepo r)).isNone).length <
          limit.toNat := by
          unfold completed
          omega
        unfold completed at hle hshort
        omega
      · cases hrun

/-- **A poll of a history that grows**: it takes completed unseen runs only, at most as many as it was asked for; of the
runs that were listed when it began, the newest unseen ones, oldest first; and all of them, if it takes fewer. -/
theorem unseen_runs_live (h : ServesPages lists reply) (hnodup : ∀ u, (lists u).Nodup)
    (hrun : pullUnseenRuns expect s reply t limit = .ok runs) :
    runs.length ≤ limit.toNat ∧
      (∀ r ∈ runs, r.status = "completed" ∧ s.seen (externalRunId expect.sourceRepo r) = none ∧
      ∃ u, t ≤ u ∧ r ∈ lists u) ∧
      (∀ newer r older, lists t = newer ++ r :: older → r ∈ runs →
      (unseen expect s (completed newer)).Sublist runs.reverse) ∧
      (runs.length < limit.toNat → (unseen expect s (completed (lists t))).Sublist runs.reverse) := by
  obtain ⟨ends, items, hreads, hruns, hends⟩ := pullUnseenRuns_reads h hrun
  have hfilter (l : List WorkflowRunInfo) : unseen expect s (completed l) = l.filter fun r =>
      (s.seen (externalRunId expect.sourceRepo r)).isNone && r.status == "completed" := List.filter_filter
  rw [hruns]
  refine ⟨?_, fun r hr => ?_, fun newer r older hlist hr => ?_, fun hfew => ?_⟩
  · rw [← List.length_reverse, hruns]
    exact List.length_take_le ..
  · rw [← List.mem_reverse, hruns] at hr
    have hmem := List.mem_of_mem_take hr
    rw [hfilter] at hmem
    obtain ⟨hitem, hwanted⟩ := List.mem_filter.mp hmem
    obtain ⟨hunseen, hcompleted⟩ := Bool.and_eq_true_iff.mp hwanted
    exact ⟨eq_of_beq hcompleted, Option.isNone_iff_eq_none.mp hunseen, hreads.mem hitem⟩
  · rw [← List.mem_reverse, hruns, hfilter] at hr
    obtain ⟨l₁, l₂, rfl, hbefore⟩ := take_filter_before hr
    have hnewer := hreads.before h.grows hnodup hlist
    rw [hfilter, hfilter]
    exact (hnewer.filter _).trans hbefore.sublist
  · have hall := hends hfew
    subst hall
    rw [← List.length_reverse, hruns] at hfew
    rw [List.length_take] at hfew
    rw [List.take_of_length_le (by omega), hfilter, hfilter]
    exact (hreads.sublist h.grows).filter _

end Live

/-! ## Polls -/

inductive PollError where
  | listing (e : GitHubError)
  | ingest (e : IngestError)

/-- What a poll is called with, and what GitHub answers it about the runs; `began` is the number of its first
attempt. -/
structure PollCall where
  began : Nat
  limit : Int
  answers : WorkflowRunInfo → IntakeAnswers
  ts : DateTime

/-- `poll`, while GitHub answers. -/
def livePoll (rd : Reader) (expect : IntakeExpectation) (reply : Nat → Nat → HttpReply (List WorkflowRunInfo))
    (s : IntakeState) (c : PollCall) : IntakeState × Except PollError (List IntakeOutcome) :=
  match pullUnseenRuns expect s reply c.began c.limit with
  | .error e => (s, .error (.listing e))
  | .ok runs =>
    let (s', outcomes) := ingestAll rd expect c.answers c.ts s runs
    (s', outcomes.mapError .ingest)

/-- The poll was asked for some runs, and did not raise. -/
def PollCall.Returns (rd : Reader) (expect : IntakeExpectation) (reply : Nat → Nat → HttpReply (List WorkflowRunInfo))
    (s : IntakeState) (c : PollCall) : Prop :=
  1 ≤ c.limit ∧ ∃ outcomes, (livePoll rd expect reply s c).2 = .ok outcomes

/-- No row is lost. -/
def IntakeState.Keeps (s s' : IntakeState) : Prop := ∀ extId, (s.seen extId).isSome → (s'.seen extId).isSome

section Polls

variable {rd : Reader} {expect : IntakeExpectation} {s s' : IntakeState} {ts : DateTime}

theorem seen_record {db : Db} {intake : ScanIntake} {outcome : IntakeOutcome}
    (h : intake.externalRunId ∉ s.scanIntakes.map ScanIntake.externalRunId) :
    ((s.record db intake outcome h).seen intake.externalRunId).isSome ∧ s.Keeps (s.record db intake outcome h) := by
  constructor
  · refine List.find?_isSome.mpr ⟨_, List.mem_append_right _ List.mem_cons_self, ?_⟩
    exact beq_self_eq_true _
  · intro extId hseen
    obtain ⟨i, hi, hsame⟩ := List.find?_isSome.mp hseen
    exact List.find?_isSome.mpr ⟨i, List.mem_append_left _ hi, hsame⟩

/-- A run whose intake does not raise has its row. -/
theorem ingestWorkflowRun_seen {answers : IntakeAnswers} {run : WorkflowRunInfo} {outcome : IntakeOutcome}
    (h : ingestWorkflowRun rd expect answers s run ts = .ok (s', outcome)) :
    (s'.seen (externalRunId expect.sourceRepo run)).isSome ∧ s.Keeps s' := by
  unfold ingestWorkflowRun at h
  dsimp only at h
  split at h
  · rename_i prior hseen
    obtain ⟨rfl, -⟩ := Prod.mk.inj (Except.ok.inj h)
    exact ⟨by rw [hseen]; rfl, fun _ hx => hx⟩
  · split at h
    · obtain ⟨rfl, -⟩ := Prod.mk.inj (Except.ok.inj h)
      exact seen_record _
    · split at h
      · obtain ⟨rfl, -⟩ := Prod.mk.inj (Except.ok.inj h)
        exact seen_record _
      · obtain ⟨rfl, -⟩ := Prod.mk.inj (Except.ok.inj h)
        exact seen_record _
      · split at h
        · cases h
        · obtain ⟨rfl, -⟩ := Prod.mk.inj (Except.ok.inj h)
          exact seen_record _

theorem ingestAll_seen {answers : WorkflowRunInfo → IntakeAnswers} {runs : List WorkflowRunInfo}
    {result : Except IngestError (List IntakeOutcome)} (h : ingestAll rd expect answers ts s runs = (s', result)) :
    s.Keeps s' ∧
    ((∃ outcomes, result = .ok outcomes) → ∀ r ∈ runs, (s'.seen (externalRunId expect.sourceRepo r)).isSome) := by
  induction runs generalizing s result with
  | nil =>
    obtain ⟨rfl, -⟩ := Prod.mk.inj h
    exact ⟨fun _ hx => hx, fun _ r hr => absurd hr List.not_mem_nil⟩
  | cons run runs ih =>
    unfold ingestAll at h
    split at h
    · obtain ⟨rfl, rfl⟩ := Prod.mk.inj h
      refine ⟨fun _ hx => hx, ?_⟩
      rintro ⟨outcomes, hok⟩
      cases hok
    · rename_i s₁ outcome hrun
      obtain ⟨hseen, hkeeps⟩ := ingestWorkflowRun_seen hrun
      cases hrest : ingestAll rd expect answers ts s₁ runs with
      | mk s₂ rest =>
        rw [hrest] at h
        obtain ⟨rfl, rfl⟩ := Prod.mk.inj h
        obtain ⟨hkeeps', hall⟩ := ih hrest
        refine ⟨fun x hx => hkeeps' x (hkeeps x hx), ?_⟩
        rintro ⟨outcomes, hok⟩ r hr
        cases rest with
        | error e => cases hok
        | ok rest =>
          rcases List.mem_cons.mp hr with rfl | hr
          · exact hkeeps' _ hseen
          · exact hall ⟨rest, rfl⟩ r hr

/-- Fewer runs are unseen. -/
theorem IntakeState.Keeps.unseen (h : s.Keeps s') (l : List WorkflowRunInfo) :
    (unseen expect s' l).Sublist (unseen expect s l) := by
  refine List.monotone_filter_right l fun r hr => ?_
  cases hseen : s.seen (externalRunId expect.sourceRepo r) with
  | none => rfl
  | some prior =>
    have hkept := h (externalRunId expect.sourceRepo r) (by rw [hseen]; rfl)
    rw [Option.isNone_iff_eq_none.mp hr] at hkept
    cases hkept

theorem unseen_eq_nil {l : List WorkflowRunInfo} :
    unseen expect s l = [] ↔ ∀ r ∈ l, (s.seen (externalRunId expect.sourceRepo r)).isSome := by
  rw [unseen, List.filter_eq_nil_iff]
  refine forall₂_congr fun r _ => ?_
  rw [Option.isNone_iff_eq_none, Option.isSome_iff_ne_none]

variable {lists : Nat → List WorkflowRunInfo} {reply : Nat → Nat → HttpReply (List WorkflowRunInfo)}

theorem livePoll_keeps (c : PollCall) : s.Keeps (livePoll rd expect reply s c).1 := by
  unfold livePoll
  split
  · exact fun _ hx => hx
  · rename_i runs _
    exact (ingestAll_seen (rfl : ingestAll rd expect c.answers c.ts s runs = (_, _))).1

/-- **A poll that returns** leaves no run unseen that was listed when it began, or sees one that was not. -/
theorem livePoll_returns (h : ServesPages lists reply) (hnodup : ∀ u, (lists u).Nodup) {c : PollCall}
    (hc : c.Returns rd expect reply s) :
    unseen expect (livePoll rd expect reply s c).1 (completed (lists c.began)) = [] ∨
      ∃ u, ∃ r ∈ completed (lists u), s.seen (externalRunId expect.sourceRepo r) = none ∧
        ((livePoll rd expect reply s c).1.seen (externalRunId expect.sourceRepo r)).isSome := by
  obtain ⟨hlimit, outcomes, hok⟩ := hc
  unfold livePoll at hok ⊢
  cases hruns : pullUnseenRuns expect s reply c.began c.limit with
  | error e =>
    rw [hruns] at hok
    cases hok
  | ok runs =>
    rw [hruns] at hok
    dsimp only at hok ⊢
    obtain ⟨-, htaken, -, hall⟩ := unseen_runs_live h hnodup hruns
    obtain ⟨hkeeps, hseen⟩ := ingestAll_seen (rfl : ingestAll rd expect c.answers c.ts s runs = (_, _))
    have hreturned : ∃ outcomes, (ingestAll rd expect c.answers c.ts s runs).2 = .ok outcomes := by
      cases hresult : (ingestAll rd expect c.answers c.ts s runs).2 with
      | error e =>
        rw [hresult] at hok
        cases hok
      | ok outcomes => exact ⟨outcomes, rfl⟩
    by_cases hfew : runs.length < c.limit.toNat
    · left
      rw [unseen_eq_nil]
      intro r hr
      cases hprior : s.seen (externalRunId expect.sourceRepo r) with
      | none =>
        have hmem : r ∈ unseen expect s (completed (lists c.began)) :=
          List.mem_filter.mpr ⟨hr, by rw [hprior]; rfl⟩
        exact hseen hreturned r (List.mem_reverse.mp ((hall hfew).subset hmem))
      | some prior => exact hkeeps _ (by rw [hprior]; rfl)
    · right
      obtain ⟨r, hr⟩ := List.exists_mem_of_length_pos (l := runs) (by omega)
      obtain ⟨hcompleted, hunseen, u, -, hu⟩ := htaken r hr
      exact ⟨u, r, List.mem_filter.mpr ⟨hu, beq_iff_eq.mpr hcompleted⟩, hunseen, hseen hreturned r hr⟩

/-- **Polls catch up.** GitHub adds to its listing, up to some history, and answers some attempts with errors; polls
that all return, as many as there are unseen runs in the history, leave none unseen that was listed before the first of
them. -/
theorem polls_catch_up (h : ServesPages lists reply) (hnodup : ∀ u, (lists u).Nodup) {history : List WorkflowRunInfo}
    (hhistory : ∀ u, (lists u).Sublist history) {t : Nat} {polls : List PollCall} (hbegan : ∀ c ∈ polls, t ≤ c.began)
    (hreturns : Machine.AllSteps (fun s c => (livePoll rd expect reply s c).1)
    (fun s c => c.Returns rd expect reply s) s polls)
    (hmany : (unseen expect s (completed history)).length ≤ polls.length) :
    unseen expect (Machine.run (fun s c => (livePoll rd expect reply s c).1) s polls) (completed (lists t)) = [] := by
  induction polls generalizing s with
  | nil =>
    have hnone := List.eq_nil_of_length_eq_zero (Nat.le_zero.mp hmany)
    have hsub : (unseen expect s (completed (lists t))).Sublist (unseen expect s (completed history)) :=
      ((hhistory t).filter _).filter _
    rw [hnone] at hsub
    exact List.sublist_nil.mp hsub
  | cons c polls ih =>
    obtain ⟨hc, hrest⟩ := hreturns
    rw [Machine.run_cons]
    rcases livePoll_returns h hnodup hc with hclear | ⟨u, r, hr, hunseen, hseen⟩
    · -- the rows stay
      have hkeeps : (livePoll rd expect reply s c).1.Keeps
          (Machine.run (fun s c => (livePoll rd expect reply s c).1) (livePoll rd expect reply s c).1 polls) :=
        Machine.run_invariant (fun s' => (livePoll rd expect reply s c).1.Keeps s')
          (fun s' c' hs' x hx => livePoll_keeps c' x (hs' x hx)) (fun _ hx => hx) polls
      have hlisted := h.grows.sublist (hbegan c List.mem_cons_self)
      have hsub : (unseen expect (livePoll rd expect reply s c).1 (completed (lists t))).Sublist
          (unseen expect (livePoll rd expect reply s c).1 (completed (lists c.began))) := (hlisted.filter _).filter _
      rw [hclear] at hsub
      exact List.sublist_nil.mp ((hkeeps.unseen _).trans hsub)
    · refine ih (fun c' hc' => hbegan c' (List.mem_cons_of_mem _ hc')) hrest ?_
      have hsub : (unseen expect (livePoll rd expect reply s c).1 (completed history)).Sublist
        (unseen expect s (completed history)) :=
        (livePoll_keeps c).unseen _
      have hmem : r ∈ unseen expect s (completed history) :=
        List.mem_filter.mpr ⟨((hhistory u).filter _).subset hr, by rw [hunseen]; rfl⟩
      have hno : r ∉ unseen expect (livePoll rd expect reply s c).1 (completed history) := fun hmem' =>
        Option.isSome_iff_ne_none.mp hseen (Option.isNone_iff_eq_none.mp (List.mem_filter.mp hmem').2)
      have hlt : (unseen expect (livePoll rd expect reply s c).1 (completed history)).length <
          (unseen expect s (completed history)).length := by
        by_contra hle
        exact hno ((hsub.eq_of_length_le (not_lt.mp hle)).symm ▸ hmem)
      rw [List.length_cons] at hmany
      omega

end Polls

/-! ## A second run -/

def secondRun : WorkflowRunInfo := { sampleWorkflowRun (sampleCommit 'b') with id := 2 }

/-- The first attempt fails, and a second run is listed from the third one on. -/
def growingRuns (t : Nat) : List WorkflowRunInfo :=
  if t ≤ 1 then [sampleWorkflowRun (sampleCommit 'a')] else [secondRun, sampleWorkflowRun (sampleCommit 'a')]

def growingReply (page t : Nat) : HttpReply (List WorkflowRunInfo) :=
  if t = 0 then .transportError "ConnectTimeout" else
    .response 200 none "" (Listing.pageOf perPage (growingRuns t) page)

theorem growingRuns_sublist (t : Nat) : (growingRuns t).Sublist (growingRuns 2) := by
  rw [growingRuns]
  split
  · exact List.sublist_cons_self _ _
  · exact List.Sublist.refl _

theorem growingReply_serves : ServesPages growingRuns growingReply where
  page := fun page t status remaining text body hreply hstatus => by
    unfold growingReply at hreply
    split at hreply
    · cases hreply
    · cases hreply
      rfl
  grows := fun t => by
    by_cases ht : t ≤ 1
    · rw [growingRuns, if_pos ht, growingRuns]
      split
      · exact List.Sublist.refl _
      · exact List.sublist_cons_self _ _
    · rw [growingRuns, growingRuns, if_neg ht, if_neg (by omega)]

theorem growingRuns_nodup (t : Nat) : (growingRuns t).Nodup := by
  unfold growingRuns
  split
  · exact List.nodup_singleton _
  · decide +kernel

theorem unseen_runs_live_growing : ∃ runs, pullUnseenRuns {} sampleIntakeState growingReply 0 10 = .ok runs ∧
    runs.length ≤ (10 : Int).toNat ∧
    (∀ r ∈ runs, r.status = "completed" ∧ sampleIntakeState.seen (externalRunId forkRepo r) = none ∧ ∃ u, 0 ≤ u ∧
        r ∈ growingRuns u) ∧
    (∀ newer r older, growingRuns 0 = newer ++ r :: older → r ∈ runs →
      (unseen {} sampleIntakeState (completed newer)).Sublist runs.reverse) ∧
    (runs.length < (10 : Int).toNat →
      (unseen {} sampleIntakeState (completed (growingRuns 0))).Sublist runs.reverse) := by
  have hreturns : (pullUnseenRuns {} sampleIntakeState growingReply 0 10).toOption.isSome = true := by decide +kernel
  obtain ⟨runs, hrun⟩ := Fallible.exists_ok_of_isSome hreturns
  obtain ⟨hfew, htaken, hbefore, hall⟩ := unseen_runs_live growingReply_serves growingRuns_nodup hrun
  exact ⟨runs, hrun, hfew, htaken, hbefore, hall⟩

/-- Both polls reject the run they come to: it has no artifact. -/
def growingPolls : List PollCall :=
  [0, 2].map fun t =>
    { began := t, limit := 1, ts := 0
      answers := fun _ => { sampleAnswers (sampleBundle (sampleRunBlock .null) "ci") with artifacts := [] } }

theorem polls_catch_up_growing :
    unseen {} (Machine.run (fun s c => (livePoll sampleReader {} growingReply s c).1) sampleIntakeState growingPolls)
      (completed (growingRuns 0)) = [] := by
  have hfirst : (livePoll sampleReader {} growingReply sampleIntakeState
    (growingPolls.get ⟨0, by decide⟩)).2.toOption.isSome = true := by
    decide +kernel
  have hsecond : (livePoll sampleReader {} growingReply
      (livePoll sampleReader {} growingReply sampleIntakeState (growingPolls.get ⟨0, by decide⟩)).1
      (growingPolls.get ⟨1, by decide⟩)).2.toOption.isSome = true := by
    decide +kernel
  refine polls_catch_up growingReply_serves growingRuns_nodup growingRuns_sublist (fun c _ => Nat.zero_le _) ?_
    (by decide +kernel)
  exact ⟨⟨le_rfl, Fallible.exists_ok_of_isSome hfirst⟩, ⟨le_rfl, Fallible.exists_ok_of_isSome hsecond⟩, trivial⟩

end HardeningLoop
