import HardeningLoop.Ingest.Acceptance
import HardeningLoop.Lib.Fallible
import HardeningLoop.Orchestrator.Ownership

/-!
# The pull request behind a report

`prOfPayload` converts what GitHub returns for a pull request, `resolvePr` checks the converted value. The conversion
names the head repository where the payload does not (`fork_only_iff`).
-/

namespace HardeningLoop

open Fallible

/-- `_ts`. -/
def optionalTs (rd : Reader) : Json → Except LoadError (Option DateTime)
  | .str s =>
    if s = "" then .ok none
    else match rd.fromisoformat (zuluOffset s) with
      | some stamp => .ok (some stamp.at_)
      | none => .error .value
  | _ => .ok none

/-- `int(value)` of a pull request's number, a natural one. -/
def numberOf : Json → Except LoadError Nat
  | .num q => .ok q.floor.toNat
  | _ => .error .type

/-- `_pr`, but for the title and the author. -/
def prOfPayload (rd : Reader) (repo : String) (data : Json) : Except LoadError PullRequestInfo := do
  let number ← numberOf (← data.item "number")
  let url ← data.item "html_url"
  let _ ← data.item "title"
  let state ← data.item "state"
  let merged ← data.lookup "merged"
  let mergeCommitSha ← (← data.lookup "merge_commit_sha").text?
  let baseRef ← (← data.item "base").item "ref"
  let head ← data.item "head"
  let headRef ← head.item "ref"
  let fullName ← ((← head.lookup "repo").orElse (.obj [])).lookup "full_name"
  let headSha ← head.item "sha"
  let _ ← ((← data.lookup "user").orElse (.obj [])).lookup "login"
  let mergedAt ← optionalTs rd (← data.lookup "merged_at")
  .ok { repo := repo, number := number, url := strJson url, state := strJson state, merged := merged.truthy
        mergeCommitSha := mergeCommitSha, baseRef := strJson baseRef, headRef := strJson headRef
        headRepo := strJson (fullName.orElse (.str repo)), headSha := strJson headSha, mergedAt := mergedAt }

/-- What `get_pull_request` answers for a payload. -/
def answerOf (rd : Reader) (repo : String) (payload : Json) (raised : LoadError → String) :
    Except String PullRequestInfo :=
  match prOfPayload rd repo payload with
  | .ok pr => .ok pr
  | .error e => .error (raised e)

/-- The repository the payload says the head is in. -/
def headRepository (payload : Json) : Option String :=
  (((payload.get? "head").bind (·.get? "repo")).bind (·.get? "full_name")).bind fun name =>
    if name.truthy then some (strJson name) else none

/-- The branch the payload says it is to be merged into. -/
def baseBranch (payload : Json) : Option String := ((payload.get? "base").bind (·.get? "ref")).map strJson

/-- A pull request of the fork itself, into its main branch, by its payload. -/
def InsideFork (payload : Json) : Prop :=
  headRepository payload = some forkRepo ∧ baseBranch payload = some remediationBranch

section Payloads

variable {rd : Reader} {repo : String} {payload : Json} {pr : PullRequestInfo}

theorem item_eq_ok {value v : Json} {key : String} (h : value.item key = .ok v) : value.get? key = some v := by
  unfold Json.item at h
  split at h
  · split at h
    · rename_i found
      cases h
      exact found
    · cases h
  · cases h

theorem lookup_eq_ok {value v : Json} {key : String} (h : value.lookup key = .ok v) :
    v = (value.get? key).getD .null := by
  unfold Json.lookup at h
  split at h
  · cases h
    rfl
  · cases h

/-- An empty value has no keys, like the empty dictionary that replaces it. -/
theorem get?_orElse (value : Json) (key : String) : (value.orElse (.obj [])).get? key = value.get? key := by
  unfold Json.orElse
  split
  · rfl
  · rename_i hfalsy
    cases value with
    | obj fields =>
      cases fields with
      | nil => rfl
      | cons kv fields => exact absurd rfl hfalsy
    | _ => rfl

/-- What the conversion keeps of the base and of the head. -/
theorem prOfPayload_eq_ok (h : prOfPayload rd repo payload = .ok pr) : pr.repo = repo ∧
    baseBranch payload = some pr.baseRef ∧ pr.headRepo = (headRepository payload).getD repo := by
  unfold prOfPayload at h
  simp only [bind_eq_ok] at h
  obtain ⟨_, -, number, -, url, -, _, -, state, -, merged, -, _, -, sha, -, h⟩ := h
  obtain ⟨base, hbase, ref, href, head, hhead, headRef, -, repoValue, hrepo, fullName, hname, h⟩ := h
  obtain ⟨headSha, -, _, -, _, -, _, -, mergedAt, -, h⟩ := h
  cases h
  refine ⟨rfl, ?_, ?_⟩
  · unfold baseBranch
    rw [item_eq_ok hbase, Option.bind_some, item_eq_ok href, Option.map_some]
  · have hfull : fullName = ((head.get? "repo").bind (·.get? "full_name")).getD .null := by
      rw [lookup_eq_ok hname, get?_orElse, lookup_eq_ok hrepo]
      cases head.get? "repo" <;> rfl
    unfold headRepository
    rw [item_eq_ok hhead, Option.bind_some, hfull]
    cases (head.get? "repo").bind (·.get? "full_name") with
    | none => rfl
    | some name =>
      rw [Option.getD_some, Option.bind_some, Json.orElse]
      split <;> rfl

end Payloads

theorem resolvePr_eq {env : Env} {snap : SessionSnapshot} {answer : Except String PullRequestInfo}
    {pr : PullRequestInfo} {problems : List String} (h : resolvePr env snap answer = (some pr, problems)) :
    answer = .ok pr ∧ problems = verifyPullRequest pr (claimedUrl snap) := by
  unfold resolvePr at h
  dsimp only at h
  split at h
  · split at h
    · cases h
    · split at h
      · cases h
      · split at h
        · cases h
        · cases h
          exact ⟨rfl, rfl⟩
  · cases h

/-- What a pull request without problems is. -/
theorem verifyPullRequest_eq_nil {pr : PullRequestInfo} {claimed : Option String}
    (h : verifyPullRequest pr claimed = []) :
    pr.repo = forkRepo ∧ pr.baseRef = remediationBranch ∧ pr.headRepo = forkRepo := by
  refine ⟨verifyPullRequest_repo h, ?_, ?_⟩
  all_goals
    simp only [verifyPullRequest, List.append_eq_nil_iff, ite_eq_right_iff, List.cons_ne_nil, imp_false, not_not] at h
  · exact h.1.1.2
  · exact h.1.2

/-- **The missing head.** A pull request that is accepted is inside the fork exactly when its payload names the
repository of its head. -/
theorem fork_only_iff {rd : Reader} {env : Env} {snap : SessionSnapshot} {payload : Json} {raised : LoadError → String}
    {pr : PullRequestInfo} (h : resolvePr env snap (answerOf rd env.settings.repo payload raised) = (some pr, [])) :
    InsideFork payload ↔ (headRepository payload).isSome := by
  obtain ⟨hanswer, hproblems⟩ := resolvePr_eq h
  obtain ⟨hrepo, hbase, hhead⟩ := verifyPullRequest_eq_nil hproblems.symm
  have hpayload : prOfPayload rd env.settings.repo payload = .ok pr := by
    unfold answerOf at hanswer
    split at hanswer
    · rename_i converted heq
      cases hanswer
      exact heq
    · cases hanswer
  obtain ⟨-, hbranch, hname⟩ := prOfPayload_eq_ok hpayload
  constructor
  · rintro ⟨hfork, -⟩
    rw [hfork]
    rfl
  · intro hsome
    obtain ⟨name, hsome⟩ := Option.isSome_iff_exists.mp hsome
    rw [hsome, Option.getD_some, hhead] at hname
    exact ⟨hsome.trans (congrArg some hname.symm), hbase ▸ hbranch⟩

/-- A payload of the fork's first pull request, whose head has the repository `repo`. -/
def samplePayload (repo : Json) : Json :=
  .obj [("number", .num 1), ("html_url", .str (samplePull "a").url), ("title", .str "Upgrade openssl"),
    ("state", .str "open"),
    ("base", .obj [("ref", .str remediationBranch)]),
    ("head", .obj [("ref", .str "devin/1"), ("sha", .str "a"), ("repo", repo)])]

/-- What becomes of the pull request that the session reports. -/
def sampleResolved (repo : Json) : Option PullRequestInfo × List String :=
  resolvePr (sampleController.env 0) (sampleReport (samplePull "a").url)
    (answerOf sampleReader forkRepo (samplePayload repo) fun _ => "")

/-- A pull request whose head is in the fork. -/
theorem head_named_inside : InsideFork (samplePayload (.obj [("full_name", .str forkRepo)])) := by
  have haccepted : sampleResolved (.obj [("full_name", .str forkRepo)]) = (some (samplePull "a"), []) := by
    decide +kernel
  exact (fork_only_iff haccepted).mpr (by decide +kernel)

/-- The repository of the head was deleted: GitHub returns `null` for it, and the pull request is accepted. -/
theorem deleted_head_accepted :
    sampleResolved .null = (some (samplePull "a"), []) ∧ ¬ InsideFork (samplePayload .null) := by
  refine ⟨by decide +kernel, fun h => ?_⟩
  have hname := h.1
  cases hname

end HardeningLoop
