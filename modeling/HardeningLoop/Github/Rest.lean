import HardeningLoop.Ingest.Discovery
import HardeningLoop.Lib.Pages
import HardeningLoop.Orchestrator.Binding

/-!
# The REST client of GitHub

A request is made up to four times: a transport error, a gateway error and an exhausted rate limit are tried again. A
listing asks for one page after another until one is short, each by a request of its own, and GitHub goes on adding to
what it lists.

- `githubRequest`: one request; `paginate`: a listing read to its end; `pulls`: one that is read as it is pulled;
- `paginate_reads`, `pullsFrom_reads`: both read the pages of a list that grows, whatever attempts fail;
- `findIssues_complete`: a listing of issues has those that were open when it began;
- `open_issue_adopts`: an issue that a lost transaction left is adopted, though other issues are opened while the
  listing is read.
-/

namespace HardeningLoop

/-! ## Requests -/

/-- What an attempt is answered: a `TransportError`, or a response with its `x-ratelimit-remaining`, its text and its
body. -/
inductive HttpReply (β : Type) where
  | transportError (name : String)
  | response (status : Nat) (remaining : Option String) (text : String) (body : β)

/-- The reply is tried again, unless it is to the last attempt. -/
def HttpReply.isRetried {β : Type} : HttpReply β → Bool
  | .transportError _ => true
  | .response status remaining _ _ =>
    status ∈ [502, 503, 504] || (status ∈ [403, 429] && remaining == some "0")

/-- What `_request` makes of a reply that it does not try again. -/
def HttpReply.result {β : Type} (what : String) : HttpReply β → Except GitHubError β
  | .transportError name => .error { message := what ++ ": " ++ name }
  | .response status _ text body =>
    if status ≥ 400 then .error { message := what ++ " -> " ++ toString status ++ ": " ++ takeText 500 text } else
      .ok body

/-- The loop of `_request` with `left` attempts after this one; attempts are numbered, `reply` answers them. It gives
the number of the next attempt, too. -/
def githubAttempts {β : Type} (what : String) (reply : Nat → HttpReply β) : Nat → Nat → Except GitHubError β × Nat
  | 0, t => ((reply t).result what, t + 1)
  | left + 1, t =>
    if (reply t).isRetried then githubAttempts what reply left (t + 1) else ((reply t).result what, t + 1)

/-- `_request`. -/
def githubRequest {β : Type} (what : String) (reply : Nat → HttpReply β) (t : Nat) : Except GitHubError β × Nat :=
  githubAttempts what reply 3 t

/-! ## Listings -/

/-- The loop of `_paginate`; `reply` answers the attempts at a page. -/
def paginateFrom {α : Type} (path : String) (reply : Nat → Nat → HttpReply (List α)) :
    Nat → Nat → Nat → List α → Except GitHubError (List α)
  | 0, _, _, _ => .error (tooManyPages path)
  | left + 1, page, t, items =>
    match githubRequest ("GET " ++ path) (reply page) t with
    | (.error e, _) => .error e
    | (.ok batch, t') =>
      if batch.length < perPage then .ok (items ++ batch) else paginateFrom path reply left (page + 1) t'
        (items ++ batch)

/-- `_paginate`. -/
def paginate {α : Type} (path : String) (reply : Nat → Nat → HttpReply (List α)) (t : Nat) :
    Except GitHubError (List α) :=
  paginateFrom path reply maxPages 1 t []

/-- The loop of `list_workflow_runs`, which yields the elements of a page before it asks for the next one. -/
def pullsFrom {α : Type} (path : String) (reply : Nat → Nat → HttpReply (List α)) :
    Nat → Nat → Nat → Listing GitHubError α
  | 0, _, _ => .raised (tooManyPages path)
  | left + 1, page, t =>
    match githubRequest ("GET " ++ path) (reply page) t with
    | (.error e, _) => .raised e
    | (.ok batch, t') =>
      .yields batch (if batch.length < perPage then .stop else pullsFrom path reply left (page + 1) t')

def pulls {α : Type} (path : String) (reply : Nat → Nat → HttpReply (List α)) (t : Nat) : Listing GitHubError α :=
  pullsFrom path reply maxPages 1 t

/-- A row of the issues of a repository, pull requests included. -/
structure IssueRow where
  issue : Issue
  pullRequest : Bool

/-- `[_issue(repo, row) for row in rows if "pull_request" not in row]`. -/
def issuesOf (rows : List IssueRow) : List Issue := (rows.filter fun row => !row.pullRequest).map IssueRow.issue

/-- `find_issues`; `reply` answers for the label and the state that are asked for. -/
def findIssues (repo : String) (reply : Nat → Nat → HttpReply (List IssueRow)) (t : Nat) :
    Except GitHubError (List Issue) :=
  if repo ∉ repoAllowlist then .error (refused repo)
  else (paginate ("/repos/" ++ repo ++ "/issues") reply t).map issuesOf

/-! ## GitHub -/

/-- A response that is no error has the page of the list of its time, and the list is only added to. -/
structure ServesPages {α : Type} (lists : Nat → List α) (reply : Nat → Nat → HttpReply (List α)) : Prop where
  page : ∀ page t status remaining text body, reply page t = .response status remaining text body → status < 400 →
    body = Listing.pageOf perPage (lists t) page
  grows : Pages.Grows lists

section Client

variable {α β : Type} {lists : Nat → List α} {what path : String}

/-- A request that returns got a response that is no error, in one of its attempts. -/
theorem githubAttempts_ok {reply : Nat → HttpReply β} {left t t' : Nat} {body : β}
    (h : githubAttempts what reply left t = (.ok body, t')) :
    ∃ s status remaining text, t ≤ s ∧ s < t' ∧ status < 400 ∧ reply s = .response status remaining text body := by
  have hresult {t : Nat} (h : ((reply t).result what, t + 1) = (.ok body, t')) :
      ∃ s status remaining text, t ≤ s ∧ s < t' ∧ status < 400 ∧ reply s = .response status remaining text body := by
    obtain ⟨hok, rfl⟩ := Prod.mk.inj h
    cases hreply : reply t with
    | transportError name =>
      rw [hreply] at hok
      cases hok
    | response status remaining text b =>
      rw [hreply, HttpReply.result] at hok
      split at hok
      · cases hok
      · rename_i hstatus
        obtain rfl := Except.ok.inj hok
        exact ⟨t, status, remaining, text, le_rfl, t.lt_succ_self, not_le.mp hstatus, hreply⟩
  induction left generalizing t with
  | zero => exact hresult h
  | succ left ih =>
    unfold githubAttempts at h
    split at h
    · obtain ⟨s, status, remaining, text, hs, hrest⟩ := ih h
      exact ⟨s, status, remaining, text, (Nat.le_succ t).trans hs, hrest⟩
    · exact hresult h

/-- What a request for a page returns is the page at the time of some attempt of it. -/
theorem ServesPages.request {reply : Nat → Nat → HttpReply (List α)} (h : ServesPages lists reply) {page t t' : Nat}
    {batch : List α} (hrun : githubRequest what (reply page) t = (.ok batch, t')) :
    ∃ s, t ≤ s ∧ s < t' ∧ batch = Listing.pageOf perPage (lists s) page := by
  obtain ⟨s, status, remaining, text, hts, hst, hstatus, hreply⟩ := githubAttempts_ok hrun
  exact ⟨s, hts, hst, h.page page s status remaining text batch hreply hstatus⟩

/-- **A listing that returns** has read the pages of a growing list, up to a short one. -/
theorem paginateFrom_reads {reply : Nat → Nat → HttpReply (List α)} (h : ServesPages lists reply) {left p t : Nat}
    {out items : List α} (hrun : paginateFrom path reply left (p + 1) t out = .ok items) :
    ∃ new, items = out ++ new ∧ Pages.Reads perPage lists true p t new := by
  induction left generalizing p t out with
  | zero => cases hrun
  | succ left ih =>
    unfold paginateFrom at hrun
    split at hrun
    · cases hrun
    · rename_i batch t' hrequest
      obtain ⟨s, hts, hst, rfl⟩ := h.request hrequest
      split at hrun
      · rename_i hshort
        exact ⟨_, (Except.ok.inj hrun).symm, .last hts hshort⟩
      · obtain ⟨new, rfl, hnew⟩ := ih hrun
        exact ⟨_, List.append_assoc .., .more hts (hnew.later hst.le)⟩

theorem paginate_reads {reply : Nat → Nat → HttpReply (List α)} (h : ServesPages lists reply) {t : Nat} {items : List α}
    (hrun : paginate path reply t = .ok items) : Pages.Reads perPage lists true 0 t items := by
  obtain ⟨new, rfl, hnew⟩ := paginateFrom_reads h hrun
  exact hnew

/-- **A listing that is pulled** reads them, too, until it stops or raises. -/
theorem pullsFrom_reads {reply : Nat → Nat → HttpReply (List α)} (h : ServesPages lists reply) (left p t : Nat) :
    ∃ ends items e, pullsFrom path reply left (p + 1) t = .yields items (if ends then .stop else .raised e) ∧
      Pages.Reads perPage lists ends p t items := by
  induction left generalizing p t with
  | zero => exact ⟨false, [], _, rfl, .broken⟩
  | succ left ih =>
    unfold pullsFrom
    split
    · rename_i e _ _
      exact ⟨false, [], e, rfl, .broken⟩
    · rename_i batch t' hrequest
      obtain ⟨s, hts, hst, rfl⟩ := h.request hrequest
      split
      · rename_i hshort
        exact ⟨true, _, tooManyPages path, rfl, .last hts hshort⟩
      · obtain ⟨ends, items, e, hrest, hreads⟩ := ih (p + 1) t'
        refine ⟨ends, _, e, ?_, .more hts (hreads.later hst.le)⟩
        rw [hrest, Listing.yields_append]

end Client

/-! ## Issues -/

section Issues

variable {lists : Nat → List IssueRow} {reply : Nat → Nat → HttpReply (List IssueRow)} {repo : String} {t : Nat}
    {issues : List Issue}

/-- **A listing of issues** that returns has all that were listed when it began, and none that never was. -/
theorem findIssues_complete (h : ServesPages lists reply) (hrun : findIssues repo reply t = .ok issues) :
    (issuesOf (lists t)).Sublist issues ∧ ∀ i ∈ issues, ∃ s, t ≤ s ∧ i ∈ issuesOf (lists s) := by
  unfold findIssues at hrun
  split at hrun
  · cases hrun
  · cases hrows : paginate ("/repos/" ++ repo ++ "/issues") reply t with
    | error e =>
      rw [hrows] at hrun
      cases hrun
    | ok rows =>
      rw [hrows] at hrun
      obtain rfl := Except.ok.inj hrun
      have hreads := paginate_reads h hrows
      refine ⟨((hreads.sublist h.grows).filter _).map _, fun i hi => ?_⟩
      obtain ⟨row, hrow, rfl⟩ := List.mem_map.mp hi
      obtain ⟨hrow, hissue⟩ := List.mem_filter.mp hrow
      obtain ⟨s, hs, hrow⟩ := hreads.mem hrow
      exact ⟨s, hs, List.mem_map_of_mem (List.mem_filter.mpr ⟨hrow, hissue⟩)⟩

/-- **An issue is adopted, not created again.** A queued item of whose title an unbound issue is open when the listing
begins is bound to such an issue, whatever GitHub would answer to a creation: attempts may fail, and other issues may be
opened while the listing is read. -/
theorem open_issue_adopts {env : Env} {tx : Tx} {wid : Nat} {item : WorkItem}
    {existing : Option (List (String × Issue))}
    {issue : Issue} (h : ServesPages lists reply) (hrun : findIssues repo reply t = .ok issues)
    (hlisting : existing = none ∨ existing = openControllerIssues tx.db (some issues))
    (hi : tx.db.workItems.get? wid = some item) (hissue : issue ∈ issuesOf (lists t))
    (htitle : issue.title = issueTitle item)
    (hfree : ¬ tx.db.Bound issue.number) :
    ∃ adopted ∈ issues, adopted.title = issueTitle item ∧ ¬ tx.db.Bound adopted.number ∧ ∀ created,
      openIssue env tx wid existing (some issues) created =
        (bindIssue env tx wid adopted ("adopted existing " ++ adopted.url), true) := by
  obtain ⟨byTitle, hby⟩ : ∃ byTitle, openControllerIssues tx.db (some issues) = some byTitle := ⟨_, rfl⟩
  have hlist := openControllerIssues_get? hby (issueTitle item)
  cases hget : Dict.get? byTitle (issueTitle item) with
  | none =>
    rw [hget] at hlist
    have hmem := (findIssues_complete h hrun).1.subset hissue
    exact absurd (hlist issue hmem htitle) hfree
  | some adopted =>
    rw [hget] at hlist
    obtain ⟨hmem, hadopted, hunbound⟩ := hlist
    refine ⟨adopted, hmem, hadopted, hunbound, fun created => ?_⟩
    have hkeeps :
        (some adopted).filter (fun i => (tx.db.workItems.first fun w => w.issueNumber == some i.number).isNone) =
        some adopted := Option.filter_eq_some_iff.mpr ⟨rfl, (issueBound_iff tx.db adopted.number).mpr hunbound⟩
    unfold openIssue
    rw [hi]
    rcases hlisting with rfl | rfl
    · simp only [hby, Option.bind_some, hget, hkeeps]
    · simp only [hby, Option.bind_some, hget, hkeeps]

end Issues

/-- GitHub lists the two issues that were left, after a gateway error. -/
def leftReply (page t : Nat) : HttpReply (List IssueRow) :=
  if t = 0 then .response 502 none "bad gateway" []
  else .response 200 none ""
    (Listing.pageOf perPage (leftIssues.map fun i => { issue := i, pullRequest := false }) page)

theorem leftReply_serves :
    ServesPages (fun _ => leftIssues.map fun i => { issue := i, pullRequest := false }) leftReply where
  page := fun page t status remaining text body hreply hstatus => by
    unfold leftReply at hreply
    split at hreply
    · cases hreply
      exact absurd hstatus (by decide)
    · cases hreply
      rfl
  grows := fun _ => List.Sublist.refl _

/-- An item of their title waits for its issue. -/
def leftState : Sys :=
  sampleState [sampleIngest "1" 10 (sampleUnfixed .deb .os rfl), .beginTick, .next true none,
    .applyRun 11 linearCompare,
    .next true none, .group 11]

theorem open_issue_adopts_left : ∃ item, leftState.db.workItems.get? 1 = some item ∧
    ∃ adopted ∈ leftIssues, adopted.title = issueTitle item ∧ ¬ leftState.db.Bound adopted.number ∧ ∀ created,
      openIssue (sampleController.env 11) { db := leftState.db } 1 none (some leftIssues) created =
        (bindIssue (sampleController.env 11) { db := leftState.db } 1 adopted ("adopted existing " ++ adopted.url),
        true) := by
  have htitle : (leftState.db.workItems.get? 1).map issueTitle =
      some "[hardening-loop] Reachability analysis / OpenVEX for zlib: CVE-1" := by decide +kernel
  obtain ⟨item, hi, hitem⟩ := Option.map_eq_some_iff.mp htitle
  have hfree : (leftState.db.workItems.first fun w => w.issueNumber == some 5).isNone = true := by decide +kernel
  have hlisted : findIssues forkRepo leftReply 0 = .ok leftIssues := rfl
  have hthere : ({ number := 5, url := "https://github.com/Hunter-1298/superset/issues/5"
                   title := "[hardening-loop] Reachability analysis / OpenVEX for zlib: CVE-1" } : Issue) ∈
      issuesOf (leftIssues.map fun i => { issue := i, pullRequest := false }) := by decide +kernel
  exact ⟨item, hi, open_issue_adopts leftReply_serves hlisted (.inl rfl) hi hthere hitem.symm
    ((issueBound_iff _ 5).mp hfree)⟩

/-- A list that loses an element between two pages is another matter: what moves to the place of the lost one is passed
over. -/
example : (paginate "/" (fun page t => .response 200 none "" (Listing.pageOf perPage ((List.range 102).drop t) page))
    0).toOption = some (List.range 100 ++ [101]) := by
  decide +kernel

end HardeningLoop
