import HardeningLoop.Ingest.Intake
import HardeningLoop.Lib.Listing

/-!
# Discovery of completed runs

GitHub lists the runs of the workflow newest first, a page at a time; the client yields them as they are pulled
(`listWorkflowRuns`) and `unseenRunsOf` pulls until it has as many as it was asked for. The client reads no more than
`maxPages` pages and raises after the last of them if it was full.

`unseenRuns` is what the pulls are for: the newest unseen runs, oldest first. `unseen_runs_iff` says which histories
give it.
-/

namespace HardeningLoop

/-- `PER_PAGE`. -/
def perPage : Nat := 100

/-- `MAX_PAGES`. -/
def maxPages : Nat := 30

structure GitHubError where
  message : String
  deriving DecidableEq, Repr

/-- `SECURITY_SCAN_WORKFLOW`. -/
def securityScanWorkflow : String := "security-scan.yml"

/-- What `_assert_allowed` raises. -/
def refused (repo : String) : GitHubError :=
  { message := "refusing to touch '" ++ repo ++ "': not in ['" ++ "', '".intercalate repoAllowlist ++ "']" }

/-- What a listing raises after its last page. -/
def tooManyPages (path : String) : GitHubError :=
  { message := "GET " ++ path ++ ": more than " ++ toString maxPages ++ " pages" }

def runsPath (repo workflowFile : String) : String :=
  "/repos/" ++ repo ++ "/actions/workflows/" ++ workflowFile ++ "/runs"

/-- `list_workflow_runs`. `runs` are the runs GitHub has for the query, newest first. -/
def listWorkflowRuns (repo workflowFile : String) (runs : List WorkflowRunInfo) : Listing GitHubError WorkflowRunInfo :=
  if repo ∉ repoAllowlist then .raised (refused repo)
  else .pages perPage (tooManyPages (runsPath repo workflowFile)) (Listing.pageOf perPage runs) 1 maxPages

/-- `completed_runs`. -/
def completedRuns (expect : IntakeExpectation) (runs : List WorkflowRunInfo) : Listing GitHubError WorkflowRunInfo :=
  (listWorkflowRuns expect.sourceRepo securityScanWorkflow runs).filter fun r => r.status == "completed"

/-- `unseen_runs`, over the listing. -/
def unseenRunsOf (expect : IntakeExpectation) (s : IntakeState) (runs : List WorkflowRunInfo) (limit : Int) :
    Except GitHubError (List WorkflowRunInfo) :=
  ((completedRuns expect runs).collect limit
    (fun r => (s.seen (externalRunId expect.sourceRepo r)).isNone) []).map List.reverse

/-! ## What the listing gives -/

/-- The listing holds everything if its last page is short; else it holds what fits in its pages, and raises. -/
theorem listWorkflowRuns_allowed {repo : String} (hrepo : repo ∈ repoAllowlist) (workflowFile : String)
    (runs : List WorkflowRunInfo) :
    listWorkflowRuns repo workflowFile runs =
      if runs.length < perPage * maxPages then .yields runs .stop
      else .yields (runs.take (perPage * maxPages)) (.raised (tooManyPages (runsPath repo workflowFile))) := by
  have hpages := Listing.pages_pageOf perPage (tooManyPages (runsPath repo workflowFile)) runs maxPages 0
  simp only [Nat.mul_zero, List.drop_zero, Nat.zero_add] at hpages
  rw [listWorkflowRuns, if_neg (not_not_intro hrepo), hpages]

/-- A listing that is refused raises at the first pull. -/
theorem listWorkflowRuns_refused {repo : String} (hrepo : repo ∉ repoAllowlist) (workflowFile : String)
    (runs : List WorkflowRunInfo) : listWorkflowRuns repo workflowFile runs = .raised (refused repo) :=
  if_pos hrepo

/-! ## The runs that are found -/

section

variable (expect : IntakeExpectation) (s : IntakeState)

/-- The completed runs of a list. -/
def completed (runs : List WorkflowRunInfo) : List WorkflowRunInfo := runs.filter fun r => r.status == "completed"

/-- The runs of a list without a row. -/
def unseen (runs : List WorkflowRunInfo) : List WorkflowRunInfo :=
  runs.filter fun r => (s.seen (externalRunId expect.sourceRepo r)).isNone

theorem unseenRuns_eq (runs : List WorkflowRunInfo) (limit : Nat) :
    unseenRuns expect s runs limit = ((unseen expect s (completed runs)).take limit).reverse :=
  rfl

/-- The limit is reached within the listing: before its last completed run, there are that many unseen ones. -/
def ReachedWithin (listed : List WorkflowRunInfo) (limit : Int) : Prop :=
  completed listed ≠ [] ∧ limit ≤ (unseen expect s (completed listed).dropLast).length

variable {expect s}

/-- Older runs do not matter once the limit is reached. -/
theorem unseenRuns_append {newer : List WorkflowRunInfo} {limit : Int} (h : ReachedWithin expect s newer limit)
    (older : List WorkflowRunInfo) :
    unseenRuns expect s (newer ++ older) limit.toNat = unseenRuns expect s newer limit.toNat := by
  have hle : (unseen expect s (completed newer).dropLast).length ≤ (unseen expect s (completed newer)).length :=
    ((List.dropLast_sublist _).filter _).length_le
  have hlimit : limit.toNat ≤ (unseen expect s (completed newer)).length := by
    have := h.2
    omega
  have happend : unseen expect s (completed (newer ++ older)) =
      unseen expect s (completed newer) ++ unseen expect s (completed older) := by
    rw [completed, List.filter_append]
    exact List.filter_append _ _
  rw [unseenRuns_eq, unseenRuns_eq, happend, List.take_append_of_le_length hlimit]

theorem unseenRunsOf_short (hrepo : expect.sourceRepo ∈ repoAllowlist) {runs : List WorkflowRunInfo} (limit : Int)
    (h : runs.length < perPage * maxPages) :
    unseenRunsOf expect s runs limit = .ok (unseenRuns expect s runs limit.toNat) := by
  rw [unseenRunsOf, completedRuns, listWorkflowRuns_allowed hrepo, if_pos h, Listing.filter_yields]
  show (Except.map List.reverse ((Listing.yields _ .stop).collect limit _ [])) = _
  rw [Listing.collect_stop, List.nil_append, List.length_nil, Nat.sub_zero]
  rfl

open Classical in
theorem unseenRunsOf_full (hrepo : expect.sourceRepo ∈ repoAllowlist) {runs : List WorkflowRunInfo} (limit : Int)
    (h : perPage * maxPages ≤ runs.length) :
    unseenRunsOf expect s runs limit =
      if ReachedWithin expect s (runs.take (perPage * maxPages)) limit then
        .ok (unseenRuns expect s (runs.take (perPage * maxPages)) limit.toNat)
      else .error (tooManyPages (runsPath expect.sourceRepo securityScanWorkflow)) := by
  rw [unseenRunsOf, completedRuns, listWorkflowRuns_allowed hrepo, if_neg (Nat.not_lt.mpr h), Listing.filter_yields]
  show (Except.map List.reverse ((Listing.yields _ (.raised _)).collect limit _ [])) = _
  rw [Listing.collect_raised, List.nil_append, List.length_nil, Nat.sub_zero, Nat.zero_add]
  by_cases hreached : ReachedWithin expect s (runs.take (perPage * maxPages)) limit
  · rw [if_pos hreached]
    exact congrArg (Except.map List.reverse) (if_pos hreached)
  · rw [if_neg hreached]
    exact congrArg (Except.map List.reverse) (if_neg hreached)

/-- **Discovery**: the newest unseen runs are found, oldest first, exactly when the whole history is listed with a short
page at its end, or the limit is reached within the pages that are read. -/
theorem unseen_runs_iff (expect : IntakeExpectation) (s : IntakeState) (runs : List WorkflowRunInfo) (limit : Int) :
    unseenRunsOf expect s runs limit = .ok (unseenRuns expect s runs limit.toNat) ↔
      expect.sourceRepo ∈ repoAllowlist ∧
        (runs.length < perPage * maxPages ∨ ReachedWithin expect s (runs.take (perPage * maxPages)) limit) := by
  by_cases hrepo : expect.sourceRepo ∈ repoAllowlist
  · by_cases hshort : runs.length < perPage * maxPages
    · exact iff_of_true (unseenRunsOf_short hrepo limit hshort) ⟨hrepo, .inl hshort⟩
    · have hrun := unseenRunsOf_full hrepo limit (s := s) (Nat.not_lt.mp hshort)
      by_cases hreached : ReachedWithin expect s (runs.take (perPage * maxPages)) limit
      · rw [if_pos hreached] at hrun
        have hall := unseenRuns_append hreached (runs.drop (perPage * maxPages))
        rw [List.take_append_drop] at hall
        exact iff_of_true (by rw [hrun, hall]) ⟨hrepo, .inr hreached⟩
      · rw [if_neg hreached] at hrun
        refine iff_of_false (fun h => ?_) (fun h => h.2.elim hshort hreached)
        rw [hrun] at h
        cases h
  · refine iff_of_false (fun h => ?_) (fun h => hrepo h.1)
    rw [unseenRunsOf, completedRuns, listWorkflowRuns_refused hrepo] at h
    cases h

end

/-- Three thousand completed runs, newest first. -/
def longHistory : List WorkflowRunInfo :=
  (List.range (perPage * maxPages)).map fun k =>
    { id := perPage * maxPages - k, runAttempt := 1, event := "schedule", status := "completed"
      conclusion := some "success", headBranch := some remediationBranch, headSha := baselineSha, url := "" }

/-- Three thousand unseen runs fill thirty pages: asked for all of them, the listing raises before it has looked whether
there is a thirty-first. -/
theorem long_history_raises :
    ¬ ∀ (expect : IntakeExpectation) (s : IntakeState) (runs : List WorkflowRunInfo) (limit : Int),
      expect.sourceRepo ∈ repoAllowlist → (∀ r ∈ runs, r.status = "completed") →
        unseenRunsOf expect s runs limit = .ok (unseenRuns expect s runs limit.toNat) := by
  intro hall
  have hlen : longHistory.length = perPage * maxPages := by rw [longHistory, List.length_map, List.length_range]
  have hcompleted : ∀ r ∈ longHistory, r.status = "completed" := by
    intro r hr
    obtain ⟨k, -, rfl⟩ := List.mem_map.mp hr
    rfl
  have hrepo : ({} : IntakeExpectation).sourceRepo ∈ repoAllowlist := by decide
  have hrun := hall {} { db := .empty, scanIntakes := [], unique := List.nodup_nil } longHistory
    (perPage * maxPages : Nat) hrepo hcompleted
  rw [unseenRunsOf_full hrepo _ hlen.ge, if_neg] at hrun
  · cases hrun
  · intro hreached
    -- before the last of them there is one fewer
    have hle := hreached.2
    have hfilter := List.length_filter_le (fun r : WorkflowRunInfo => r.status == "completed")
      (longHistory.take (perPage * maxPages))
    have htake := List.length_take_le (perPage * maxPages) longHistory
    have hunseen := List.length_filter_le
      (fun r => (IntakeState.seen { db := .empty, scanIntakes := [], unique := List.nodup_nil }
        (externalRunId ({} : IntakeExpectation).sourceRepo r)).isNone)
      (completed (longHistory.take (perPage * maxPages))).dropLast
    rw [List.length_dropLast] at hunseen
    have hpos : 0 < perPage * maxPages := by decide
    simp only [unseen, completed] at hle hunseen
    omega

end HardeningLoop
