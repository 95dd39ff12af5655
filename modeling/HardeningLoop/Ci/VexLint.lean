import HardeningLoop.Ci.Agreement

/-!
# From the lint of the approved documents to the evidence

The approved OpenVEX documents of a checkout are read three times: `lint_approved_vex` reports what is wrong with them,
`scan_image.sh` gives them to the scanners and keeps copies with their checksums, and `load_vex_documents` reads the
copies when the scan is ingested. The three do not share their checks.

- `linted_evidence_loads`: the documents of a directory in which the lint finds no problem all arrive, approved by an
  allowed approver for an issue of the repository.
-/

namespace HardeningLoop

open Fallible

/-- The reader of the lint: `zoned d` says that `datetime.fromisoformat(d)` is a date with an offset. -/
structure Linter extends Reader where
  zoned : String → Bool

/-- An entry of a directory. -/
inductive ApprovedEntry where
  | directory
  | file (file : BundleFile)

/-- `security/vex/approved/` of a checkout, its entries under their names and in the order of their paths. -/
structure ApprovedDir where
  entries : List (String × ApprovedEntry)
  names : ∀ entry ∈ entries, '/' ∉ entry.1.toList
  distinct : (entries.map Prod.fst).Nodup

/-! ## The lint -/

/-- `_NOT_AFFECTED_JUSTIFICATIONS`. -/
def notAffectedJustifications : List String :=
  ["component_not_present", "vulnerable_code_not_present", "vulnerable_code_not_in_execute_path",
    "vulnerable_code_cannot_be_controlled_by_adversary", "inline_mitigations_already_exist"]

/-- The problems of one file, by the message and the values it prints. -/
inductive LintProblem where
  | notJsonDocument
  | notJson
  | notAnObject
  | openvex (e : VexEvidenceError)
  | justification (i : Nat) (vulnerability : String) (got : Json)
  | impactStatement (i : Nat) (vulnerability : String)
  | author
  | timestamp
  | approval
  | repo (found expected : String)
  | approver (approvedBy : String)
  | approvedAt

/-- What the lint raises. -/
inductive LintRaise where
  | unhashable
  | zipStrict
  | assertion
  deriving DecidableEq

structure VexLintReport where
  checked : List String := []
  problems : List (String × LintProblem) := []
  issueUrls : List (String × String) := []

/-- A list or an object, which no set can be asked for. -/
def Json.unhashable : Json → Bool
  | .arr _ => true
  | .obj _ => true
  | _ => false

/-- `_ISSUE_URL_REPO`, with its first group. -/
def issueRepo (ext : External) (url : String) : Option String :=
  let part (c : Char) := ext.wordChar c || c == '.' || c == '-'
  do
    let (owner, rest) := spanChars part (← dropLiteral "https://github.com/" url.toList)
    let (repo, rest) := spanChars part (← dropLiteral "/" rest)
    let (digits, rest) := spanChars (fun c => (ext.digitValue c).isSome) (← dropLiteral "/issues/" rest)
    if owner ≠ [] && repo ≠ [] && digits ≠ [] && (rest = [] || rest = ['\n']) then
      some (String.ofList (owner ++ '/' :: repo))
    else none

/-- `_parse_iso` finds an instant. -/
def isInstant (lt : Linter) (value : Json) : Bool :=
  value.str?.any fun text => (hasInfix "T" text || hasInfix " " text) && lt.zoned (zuluOffset text)

/-- A text that says something. -/
def saysSomething (ext : External) (value : Json) : Bool := value.str?.any (notBlank ext)

/-- The checks of a problem each. -/
def problemUnless (holds : Bool) (problem : LintProblem) : List LintProblem := if holds then [] else [problem]

/-- Statement `i`, as it was summarised and as it stands in the document. -/
def lintStatement (ext : External) (i : Nat) (summary : VexStatementSummary)
    (raw : Json) : Except LintRaise (List LintProblem) :=
  if summary.status ≠ "not_affected" then .ok []
  else
    let justification := (raw.get? "justification").getD .null
    if justification.unhashable then .error .unhashable
    else
      .ok (problemUnless (justification.str?.any (· ∈ notAffectedJustifications))
          (.justification i summary.vulnerability justification) ++
        problemUnless (saysSomething ext ((raw.get? "impact_statement").getD .null))
          (.impactStatement i summary.vulnerability))

/-- `zip(statements, raw_statements, strict=True)`, from statement `i` on. -/
def lintStatements (ext : External) (i : Nat) :
    List VexStatementSummary → List Json → Except LintRaise (List LintProblem)
  | [], [] => .ok []
  | summary :: statements, raw :: raws => do
    let problems ← lintStatement ext i summary raw
    .ok (problems ++ (← lintStatements ext (i + 1) statements raws))
  | _, _ => .error .zipStrict

/-- `doc.get("statements") or []`. -/
def rawStatements (doc : Json) : List Json := ((doc.get? "statements").bind Json.arr?).getD []

/-- `_lint_document`. -/
def lintDocument (lt : Linter) (repo : Option String) (approvers : Option (List String)) (doc : Json) :
    Except LintRaise (List LintProblem × Option String) :=
  match validateOpenvex doc with
  | .error e => .ok ([.openvex e], none)
  | .ok statements => do
    let ofStatements ← lintStatements lt.toExternal 0 statements (rawStatements doc)
    let problems :=
      ofStatements ++ problemUnless (saysSomething lt.toExternal ((doc.get? "author").getD .null)) .author ++
      problemUnless (isInstant lt ((doc.get? "timestamp").getD .null)) .timestamp
    match approvalOf lt.toExternal doc with
    | none => .ok (problems ++ [.approval], none)
    | some approval =>
      match issueRepo lt.toExternal approval.issueUrl with
      | none => .error .assertion
      | some found =>
        let approvedAt := ((doc.get? "x-approval").bind (·.get? "approved_at")).getD .null
        .ok (problems ++ problemUnless (repo.all fun repo => lowerText found == lowerText repo)
          (.repo found (repo.getD "")) ++
            problemUnless (approvers.all fun approvers => approvers.contains approval.approvedBy)
            (.approver approval.approvedBy) ++
            problemUnless (isInstant lt approvedAt) .approvedAt,
          some approval.issueUrl)

/-- `path.suffix == ".json"`. -/
def isJsonName (name : String) : Bool := hasSuffix ".json" name && 5 < name.length

/-- The path of an approved document in the checkout. -/
def approvedPath (name : String) : String := "/".intercalate (approvedDir ++ [name])

theorem approvedPath_eq (name : String) :
    approvedPath name = "security" ++ "/" ++ "vex" ++ "/" ++ "approved" ++ "/" ++ name := rfl

def lintEntry (lt : Linter) (repo : Option String) (approvers : Option (List String)) (name : String) :
    ApprovedEntry → Except LintRaise (List LintProblem × Option String)
  | .directory => .ok ([.notJsonDocument], none)
  | .file file =>
    if !isJsonName name then .ok ([.notJsonDocument], none)
    else
      match file.json with
      | none => .ok ([.notJson], none)
      | some doc => if doc.isObj then lintDocument lt repo approvers doc else .ok ([.notAnObject], none)

/-- One turn of the loop over the directory. -/
def lintStep (lt : Linter) (repo : Option String) (approvers : Option (List String)) (report : VexLintReport)
    (entry : String × ApprovedEntry) : Except LintRaise VexLintReport :=
  if entry.1 ∈ ["README.md", ".gitkeep"] then .ok report
  else do
    let (problems, issueUrl) ← lintEntry lt repo approvers entry.1 entry.2
    .ok { checked := report.checked ++ [approvedPath entry.1]
          problems := report.problems ++ problems.map fun problem => (approvedPath entry.1, problem)
          issueUrls := issueUrl.elim report.issueUrls (Dict.set report.issueUrls (approvedPath entry.1)) }

/-- `lint_approved_vex`; there is nothing to report of a checkout without the directory. -/
def lintApprovedVex (lt : Linter) (repo : Option String) (approvers : Option (List String)) (dir : Option ApprovedDir) :
    Except LintRaise VexLintReport :=
  ((dir.map ApprovedDir.entries).getD []).foldlM (lintStep lt repo approvers) {}

/-! ## The scan -/

/-- What stops `scan_image.sh` at the documents. -/
inductive ScanStop where
  | copy (name : String)
  | approval (name : String)
  | differs (name : String)
  | missing (path : String)
  | raised
  deriving DecidableEq

/-- The entries that `find -maxdepth 1 -name '*.json'` lists. -/
def ApprovedDir.found (dir : ApprovedDir) : List (String × ApprovedEntry) :=
  dir.entries.filter fun entry => hasSuffix ".json" entry.1

/-- The copy of a document in the directory of the scan. -/
def vexCopy (name : String) : String := vexEvidenceDir ++ "/" ++ name

/-- `cp "$f" "$OUT/vex/$(basename "$f")"`, one document after the other; no directory is copied. -/
def copyDocuments (out : Bundle) : List (String × ApprovedEntry) → Except ScanStop Bundle
  | [] => .ok out
  | (name, .directory) :: _ => .error (.copy name)
  | (name, .file file) :: listed =>
    copyDocuments (fun path => if path = vexCopy name then some file else out path) listed

/-- `(s.get("vulnerability") or {}).get("name")`, when there is one. -/
def statementName (statement : Json) : Except LoadError (Option Json) :=
  if !statement.isObj then .ok none
  else do
    let name ← ((← statement.lookup "vulnerability").orElse (.obj [])).lookup "name"
    .ok (if name.truthy then some name else none)

/-- The number that a value is in a comparison. -/
def Json.number? : Json → Option Rat
  | .num q => some q
  | .bool b => some (if b then 1 else 0)
  | _ => none

/-- `sorted({..})` of names: texts or numbers, but not both. -/
def sortNames (names : List Json) : Except LoadError (List Json) :=
  match names.mapM Json.str? with
  | some texts => .ok ((sortedSet texts).map .str)
  | none =>
    match names.mapM Json.number? with
    | some numbers => .ok ((numbers.eraseDups.insertionSort (· ≤ ·)).map .num)
    | none => .error .type

/-- The `vulnerabilities` of an entry. -/
def vulnerabilityNames (doc : Json) : Except LoadError (List Json) := do
  let names ← (← doc.each "statements").mapM statementName
  sortNames (names.filterMap id)

/-- An entry of `vex_documents`. -/
def documentEntry (name sha256 : String) (issueUrl approvedBy : Json) (names : List Json) : Json :=
  .obj [("path", .str (approvedPath name)), ("evidence_file", .str (vexCopy name)), ("sha256", .str sha256),
    ("x-approval", .obj [("issue_url", issueUrl), ("approved_by", approvedBy)]), ("vulnerabilities", .arr names)]

/-- The entry for a document that was given to the scanners. -/
def vexEntry (out : Bundle) (listed : String × ApprovedEntry) : Except ScanStop Json :=
  match listed.2 with
  | .directory => .error .raised
  | .file file =>
    match file.json with
    | none => .error .raised
    | some doc =>
      let approval := (doc.get? "x-approval").getD .null
      let issueUrl := (approval.get? "issue_url").getD .null
      let approvedBy := (approval.get? "approved_by").getD .null
      if !(issueUrl.truthy && approvedBy.truthy) then .error (.approval listed.1)
      else
        match out (vexCopy listed.1) with
        | none => .error .raised
        | some copy =>
          if file.sha256 ≠ copy.sha256 then .error (.differs listed.1)
          else
            match vulnerabilityNames doc with
            | .error _ => .error .raised
            | .ok names => .ok (documentEntry listed.1 file.sha256 issueUrl approvedBy names)

/-- The checksum of a file of the scan. -/
def checksumOf (out : Bundle) (path : String) : Except ScanStop (String × Json) :=
  match out path with
  | none => .error (.missing path)
  | some file => .ok (path, .str file.sha256)

/-- What a scan says of its documents, and of its files. -/
structure VexScan where
  out : Bundle
  documents : List Json
  files : List (String × Json)

/-- The part of `scan_image.sh` that deals with the documents: `reports` are the other files of the scan. -/
def scanDocuments (out : Bundle) (reports : List String) (listed : List (String × ApprovedEntry)) :
    Except ScanStop VexScan := do
  let out ← copyDocuments out listed
  let documents ← listed.mapM (vexEntry out)
  let sums ← (reports ++ listed.map fun entry => vexCopy entry.1).mapM (checksumOf out)
  .ok { out := out, documents := documents, files := dictOfItems sums }

/-! ## What the lint makes sure of -/

section Lint

variable {lt : Linter} {repo : Option String} {approvers : Option (List String)}

/-- The statements of a valid document are read off the list under `statements`, which has one. -/
theorem validateOpenvex_statements {doc : Json} {statements : List VexStatementSummary}
    (h : validateOpenvex doc = .ok statements) :
    ∃ raw raws, doc.get? "statements" = some (.arr (raw :: raws)) ∧ vexStatements 0 (raw :: raws) = .ok statements := by
  unfold validateOpenvex at h
  split at h
  · split at h
    · split at h
      · rename_i raw raws hraw
        obtain ⟨value, hget, hvalue⟩ := Option.bind_eq_some_iff.mp hraw
        cases value <;> cases hvalue
        exact ⟨raw, raws, hget, h⟩
      · cases h
    · cases h
  · cases h

theorem rawStatements_valid {doc : Json} {statements : List VexStatementSummary}
    (h : validateOpenvex doc = .ok statements) :
    vexStatements 0 (rawStatements doc) = .ok statements := by
  obtain ⟨raw, raws, hget, hvalid⟩ := validateOpenvex_statements h
  rw [rawStatements, hget]
  exact hvalid

theorem approvalOf_issueUrl {ext : External} {doc : Json} {approval : VexApproval}
    (h : approvalOf ext doc = some approval) :
    ∃ raw, doc.get? "x-approval" = some raw ∧ raw.getStr? "issue_url" = some approval.issueUrl ∧
      raw.getStr? "approved_by" = some approval.approvedBy ∧ isIssueUrl ext approval.issueUrl = true ∧
        notBlank ext approval.approvedBy = true := by
  simp only [approvalOf, Option.bind_eq_bind, Option.bind_eq_some_iff] at h
  obtain ⟨raw, hraw, issueUrl, hissue, approvedBy, hby, h⟩ := h
  split at h
  · rename_i hshape
    cases h
    rw [Bool.and_eq_true] at hshape
    exact ⟨raw, hraw, hissue, hby, hshape.1, hshape.2⟩
  · cases h

end Lint

/-! ## A directory without problems -/

theorem problemUnless_eq_nil {holds : Bool} {problem : LintProblem} :
    problemUnless holds problem = [] ↔ holds = true := by
  cases holds <;> simp [problemUnless]

/-- What the lint asks of a statement. -/
def Argued (ext : External) (raw : Json) : Prop :=
  raw.getStr? "status" = some "not_affected" →
    (∃ justification ∈ notAffectedJustifications, raw.getStr? "justification" = some justification) ∧
    saysSomething ext ((raw.get? "impact_statement").getD .null) = true

/-- What the lint asks of a document. -/
structure Linted (lt : Linter) (repo : Option String) (approvers : Option (List String)) (doc : Json)
    (approval : VexApproval) : Prop where
  repo : ∀ expected, repo = some expected → (issueRepo lt.toExternal approval.issueUrl).map lowerText = some
    (lowerText expected)
  approver : ∀ allowed, approvers = some allowed → approval.approvedBy ∈ allowed
  argued : ∀ raw ∈ rawStatements doc, Argued lt.toExternal raw

section Clean

variable {lt : Linter} {repo : Option String} {approvers : Option (List String)}

theorem vexStatement_status {i : Nat} {raw : Json} {summary : VexStatementSummary}
    (h : vexStatement i raw = .ok summary) :
    raw.getStr? "status" = some summary.status := by
  unfold vexStatement at h
  split at h
  · cases h
  · split at h
    · cases h
    · split at h
      · cases h
      · rename_i status hstatus
        split at h
        · cases h
        · cases h
        · cases h
          exact (Option.filter_eq_some_iff.mp hstatus).1

theorem lintStatement_clean {ext : External} {i : Nat} {summary : VexStatementSummary} {raw : Json}
    (hstatus : raw.getStr? "status" = some summary.status) (h : lintStatement ext i summary raw = .ok []) :
    Argued ext raw := by
  intro hnot
  rw [hstatus] at hnot
  rw [lintStatement, if_neg (fun hne => hne (Option.some.inj hnot))] at h
  simp only at h
  split at h
  · cases h
  · obtain ⟨hjustification, himpact⟩ := List.append_eq_nil_iff.mp (Except.ok.inj h)
    rw [problemUnless_eq_nil] at hjustification himpact
    refine ⟨?_, himpact⟩
    obtain ⟨justification, htext, hmem⟩ := (Option.any_eq_true _ _).mp hjustification
    refine ⟨justification, of_decide_eq_true hmem, ?_⟩
    unfold Json.getStr?
    cases hget : raw.get? "justification" with
    | none =>
      rw [hget] at htext
      cases htext
    | some value =>
      rw [hget] at htext
      exact htext

theorem lintStatements_clean {ext : External} {i : Nat} {statements : List VexStatementSummary} {raws : List Json}
    (hvalid : vexStatements i raws = .ok statements) (h : lintStatements ext i statements raws = .ok []) :
    ∀ raw ∈ raws, Argued ext raw := by
  induction raws generalizing i statements with
  | nil => exact fun raw hraw => absurd hraw List.not_mem_nil
  | cons raw raws ih =>
    unfold vexStatements at hvalid
    split at hvalid
    · cases hvalid
    · rename_i summary hsummary
      cases hrest : vexStatements (i + 1) raws with
      | error e =>
        rw [hrest] at hvalid
        cases hvalid
      | ok rest =>
        rw [hrest] at hvalid
        cases hvalid
        rw [lintStatements] at h
        obtain ⟨problems, hone, h⟩ := bind_eq_ok.mp h
        obtain ⟨later, hlater, h⟩ := bind_eq_ok.mp h
        obtain ⟨rfl, rfl⟩ := List.append_eq_nil_iff.mp (Except.ok.inj h)
        intro st hst
        rcases List.mem_cons.mp hst with rfl | hst
        · exact lintStatement_clean (vexStatement_status hsummary) hone
        · exact ih hrest hlater st hst

/-- A document without problems is valid, approved, and all that the lint asks. -/
theorem lintDocument_clean {doc : Json} {issueUrl : Option String}
    (h : lintDocument lt repo approvers doc = .ok ([], issueUrl)) :
    ∃ statements approval, validateOpenvex doc = .ok statements ∧ approvalOf lt.toExternal doc = some approval ∧
      issueUrl = some approval.issueUrl ∧ Linted lt repo approvers doc approval := by
  unfold lintDocument at h
  split at h
  · cases h
  · rename_i statements hvalid
    obtain ⟨ofStatements, hlint, h⟩ := bind_eq_ok.mp h
    simp only at h
    split at h
    · simp at h
    · rename_i approval happroval
      split at h
      · cases h
      · rename_i found hfound
        obtain ⟨hproblems, hurl⟩ := Prod.mk.inj (Except.ok.inj h)
        simp only [List.append_eq_nil_iff, problemUnless_eq_nil] at hproblems
        obtain ⟨⟨⟨⟨⟨rfl, -⟩, -⟩, hrepo⟩, hby⟩, -⟩ := hproblems
        refine ⟨statements, approval, hvalid, happroval, hurl.symm, ?_, ?_, ?_⟩
        · rintro expected rfl
          rw [hfound, Option.map_some, eq_of_beq hrepo]
        · rintro allowed rfl
          exact List.contains_iff_mem.mp hby
        · exact lintStatements_clean (rawStatements_valid hvalid) hlint

theorem lintEntry_clean {name : String} {entry : ApprovedEntry} {issueUrl : Option String}
    (h : lintEntry lt repo approvers name entry = .ok ([], issueUrl)) :
    ∃ file doc statements approval, entry = .file file ∧ isJsonName name = true ∧ file.json = some doc ∧
    doc.isObj = true ∧
      validateOpenvex doc = .ok statements ∧ approvalOf lt.toExternal doc = some approval ∧
        issueUrl = some approval.issueUrl ∧ Linted lt repo approvers doc approval := by
  cases entry with
  | directory => simp [lintEntry] at h
  | file file =>
    unfold lintEntry at h
    simp only at h
    split at h
    · simp at h
    · rename_i hname
      split at h
      · simp at h
      · rename_i doc hjson
        split at h
        · rename_i hobj
          obtain ⟨statements, approval, hvalid, happroval, hurl, hlinted⟩ := lintDocument_clean h
          exact ⟨file, doc, statements, approval,
            rfl, by simpa using hname, hjson, hobj, hvalid, happroval, hurl, hlinted⟩
        · simp at h

theorem approvedPath_injective : Function.Injective approvedPath := by
  intro a b h
  rw [approvedPath_eq, approvedPath_eq] at h
  exact (String.append_right_inj _).mp h

/-- The loop reports on every entry that it does not pass over. -/
theorem lint_reports {entries : List (String × ApprovedEntry)} {acc report : VexLintReport}
    (hdistinct : (entries.map Prod.fst).Nodup)
    (h : entries.foldlM (lintStep lt repo approvers) acc = .ok report) (hclean : report.problems = []) :
    acc.problems = [] ∧ (∀ key, (∀ entry ∈ entries, approvedPath entry.1 ≠ key) →
        Dict.get? report.issueUrls key = Dict.get? acc.issueUrls key) ∧
      ∀ entry ∈ entries, entry.1 ∉ ["README.md", ".gitkeep"] → ∃ issueUrl,
        lintEntry lt repo approvers entry.1 entry.2 = .ok ([], issueUrl) ∧
          ∀ url, issueUrl = some url → Dict.get? report.issueUrls (approvedPath entry.1) = some url := by
  induction entries generalizing acc with
  | nil =>
    cases h
    exact ⟨hclean, fun _ _ => rfl, fun entry hentry => absurd hentry List.not_mem_nil⟩
  | cons entry entries ih =>
    rw [List.foldlM_cons] at h
    obtain ⟨next, hstep, h⟩ := bind_eq_ok.mp h
    rw [List.map_cons, List.nodup_cons] at hdistinct
    obtain ⟨hnext, hkeys, hall⟩ := ih hdistinct.2 h
    have hfresh : ∀ other ∈ entries, approvedPath other.1 ≠ approvedPath entry.1 := fun other hother heq =>
      hdistinct.1 (approvedPath_injective heq ▸ List.mem_map_of_mem hother)
    unfold lintStep at hstep
    split at hstep
    · rename_i hskip
      cases hstep
      refine ⟨hnext, ?_, ?_⟩
      · exact fun key hkey => hkeys key fun other hother => hkey other (List.mem_cons_of_mem _ hother)
      · intro other hother hname
        rcases List.mem_cons.mp hother with rfl | hother
        · exact absurd hskip hname
        · exact hall other hother hname
    · obtain ⟨⟨problems, issueUrl⟩, hentry, hstep⟩ := bind_eq_ok.mp hstep
      cases hstep
      obtain ⟨hacc, hproblems⟩ := List.append_eq_nil_iff.mp hnext
      rw [List.map_eq_nil_iff] at hproblems
      subst hproblems
      refine ⟨hacc, ?_, ?_⟩
      · intro key hkey
        rw [hkeys key fun other hother => hkey other (List.mem_cons_of_mem _ hother)]
        cases issueUrl with
        | none => rfl
        | some url =>
          rw [Option.elim, Dict.get?_set, if_neg (Ne.symm (hkey entry List.mem_cons_self))]
      · intro other hother hname
        rcases List.mem_cons.mp hother with rfl | hother
        · refine ⟨issueUrl, hentry, ?_⟩
          rintro url rfl
          rw [hkeys _ hfresh, Option.elim, Dict.get?_set, if_pos rfl]
        · exact hall other hother hname

end Clean

/-! ## Paths -/

section Paths

variable {name : String}

theorem splitChars_alone {c : Char} {cs : List Char} (h : c ∉ cs) : splitChars c cs = [cs] := by
  induction cs with
  | nil => rfl
  | cons d cs ih =>
    rw [List.mem_cons, not_or] at h
    rw [splitChars, if_neg (Ne.symm h.1), ih h.2]

theorem isJsonName_part (h : isJsonName name = true) : name ≠ "" ∧ name ≠ "." := by
  rw [isJsonName, Bool.and_eq_true, decide_eq_true_eq] at h
  constructor
  · rintro rfl
    exact absurd h.2 (by decide)
  · rintro rfl
    exact absurd h.2 (by decide)

theorem pathParts_approvedPath (hname : '/' ∉ name.toList) (hjson : isJsonName name = true) :
    pathParts (approvedPath name) = approvedDir ++ [name] := by
  have htext : (approvedPath name).toList =
      "security".toList ++ '/' :: ("vex".toList ++ '/' :: ("approved".toList ++ '/' :: name.toList)) := by
    rw [approvedPath_eq]
    simp only [String.toList_append, List.append_assoc]
    rfl
  obtain ⟨hempty, hdot⟩ := isJsonName_part hjson
  have habs : hasPrefix "/" (approvedPath name) = false := by
    rw [hasPrefix, htext]
    rfl
  rw [pathParts, habs, splitText, htext, splitChars_cons_part (by decide), splitChars_cons_part (by decide),
    splitChars_cons_part (by decide), splitChars_alone hname]
  simp [approvedDir, hempty, hdot]

theorem pathParts_vexCopy (hname : '/' ∉ name.toList) (hjson : isJsonName name = true) :
    pathParts (vexCopy name) = [vexEvidenceDir, name] := by
  have htext : (vexCopy name).toList = "vex".toList ++ '/' :: name.toList := by
    rw [vexCopy, String.toList_append, String.toList_append]
    rfl
  obtain ⟨hempty, hdot⟩ := isJsonName_part hjson
  have habs : hasPrefix "/" (vexCopy name) = false := by
    rw [hasPrefix, htext]
    rfl
  rw [pathParts, habs, splitText, htext, splitChars_cons_part (by decide), splitChars_alone hname]
  simp [vexEvidenceDir, hempty, hdot]

theorem vexCopy_injective : Function.Injective vexCopy := by
  intro a b h
  exact (String.append_right_inj _).mp h

end Paths

/-! ## The documents on their way -/

section Scanned

variable {lt : Linter} {repo : Option String} {approvers : Option (List String)}

/-- A document in a directory without problems. -/
structure Vetted (lt : Linter) (repo : Option String) (approvers : Option (List String)) (report : VexLintReport)
    (name : String)
    (file : BundleFile) (doc : Json) (statements : List VexStatementSummary) (approval : VexApproval) : Prop where
  component : '/' ∉ name.toList
  suffix : isJsonName name = true
  json : file.json = some doc
  obj : doc.isObj = true
  valid : validateOpenvex doc = .ok statements
  approved : approvalOf lt.toExternal doc = some approval
  reported : Dict.get? report.issueUrls (approvedPath name) = some approval.issueUrl
  linted : Linted lt repo approvers doc approval

/-- Every entry that the scan finds is such a document. -/
theorem found_vetted {dir : ApprovedDir} {report : VexLintReport}
    (hlint : lintApprovedVex lt repo approvers (some dir) = .ok report)
    (hclean : report.problems = []) {entry : String × ApprovedEntry} (hentry : entry ∈ dir.found) :
    ∃ file doc statements approval, entry.2 = .file file ∧
      Vetted lt repo approvers report entry.1 file doc statements approval := by
  obtain ⟨hmem, hsuffix⟩ := List.mem_filter.mp hentry
  have hname : entry.1 ∉ ["README.md", ".gitkeep"] := by
    intro hskip
    simp only [List.mem_cons, List.not_mem_nil, or_false] at hskip
    rcases hskip with hskip | hskip <;> rw [hskip] at hsuffix <;> exact absurd hsuffix (by decide)
  obtain ⟨-, -, hall⟩ := lint_reports dir.distinct hlint hclean
  obtain ⟨issueUrl, hlinted, hreported⟩ := hall entry hmem hname
  obtain ⟨file, doc, statements, approval, hfile, hjson, hdoc, hobj, hvalid, happroval, hurl, hasked⟩ :=
    lintEntry_clean hlinted
  exact ⟨file, doc, statements, approval, hfile, dir.names entry hmem, hjson, hdoc, hobj, hvalid, happroval,
      hreported _ hurl, hasked⟩

/-- The copies are where the script puts them, and nothing that is there disappears. -/
theorem copyDocuments_copies {listed : List (String × ApprovedEntry)}
    (hfiles : ∀ entry ∈ listed, ∃ file, entry.2 = .file file)
    (hdistinct : (listed.map Prod.fst).Nodup) (out : Bundle) :
    ∃ out', copyDocuments out listed = .ok out' ∧ (∀ path, (out path).isSome → (out' path).isSome) ∧
      (∀ path, (∀ entry ∈ listed, vexCopy entry.1 ≠ path) → out' path = out path) ∧
        ∀ entry ∈ listed, ∀ file, entry.2 = .file file → out' (vexCopy entry.1) = some file := by
  induction listed generalizing out with
  | nil => exact ⟨out, rfl, fun _ h => h, fun _ _ => rfl, fun entry hentry => absurd hentry List.not_mem_nil⟩
  | cons entry listed ih =>
    obtain ⟨name, content⟩ := entry
    obtain ⟨file, rfl⟩ := hfiles _ List.mem_cons_self
    rw [List.map_cons, List.nodup_cons] at hdistinct
    obtain ⟨out', hcopy, hkeeps, hframe, hall⟩ :=
      ih (fun entry hentry => hfiles entry (List.mem_cons_of_mem _ hentry)) hdistinct.2
      (fun path => if path = vexCopy name then some file else out path)
    refine ⟨out', hcopy, ?_, ?_, ?_⟩
    · intro path hpath
      apply hkeeps
      show (if path = vexCopy name then some file else out path).isSome = true
      split
      · rfl
      · exact hpath
    · intro path hpath
      rw [hframe path fun entry hentry => hpath entry (List.mem_cons_of_mem _ hentry)]
      exact if_neg (Ne.symm (hpath _ List.mem_cons_self))
    · intro entry hentry file' hfile'
      rcases List.mem_cons.mp hentry with rfl | hentry
      · cases hfile'
        have hfresh : ∀ other ∈ listed, vexCopy other.1 ≠ vexCopy name := by
          intro other hother heq
          have hsame : other.1 = name := vexCopy_injective heq
          have hmem : other.1 ∈ listed.map Prod.fst := List.mem_map_of_mem hother
          rw [hsame] at hmem
          exact hdistinct.1 hmem
        rw [hframe _ hfresh]
        exact if_pos rfl
      · exact hall entry hentry file' hfile'

/-! ### What the script reads of a valid document -/

theorem statementName_valid {i : Nat} {raw : Json} {summary : VexStatementSummary}
    (h : vexStatement i raw = .ok summary) :
    statementName raw = .ok (some (.str summary.vulnerability)) := by
  unfold vexStatement at h
  split at h
  · cases h
  · rename_i hobj
    split at h
    · cases h
    · rename_i name hname
      have hvulnerability : summary.vulnerability = name := by
        split at h
        · cases h
        · split at h
          · cases h
          · cases h
          · cases h
            rfl
      obtain ⟨hfound, hne⟩ := Option.filter_eq_some_iff.mp hname
      obtain ⟨vulnerability, hget, hstr⟩ := Option.bind_eq_some_iff.mp hfound
      obtain ⟨value, hvalue, htext⟩ := Option.bind_eq_some_iff.mp hstr
      cases value <;> try cases htext
      cases vulnerability <;> try cases hvalue
      rename_i fields
      have hfields : (Json.obj fields).truthy = true := by
        cases fields with
        | nil => cases hvalue
        | cons _ _ => rfl
      have hobj' : raw.isObj = true := by simpa using hobj
      rw [statementName, if_neg hobj, Json.lookup, if_pos hobj', hget, ok_bind, Option.getD_some, Json.orElse,
        if_pos hfields]
      rw [Json.lookup, if_pos (show (Json.obj fields).isObj = true from rfl), hvalue, ok_bind, Option.getD_some,
        hvulnerability]
      rw [if_pos (by simpa [Json.truthy] using hne)]

theorem statementNames_valid {i : Nat} {raws : List Json} {statements : List VexStatementSummary}
    (h : vexStatements i raws = .ok statements) :
    raws.mapM statementName = .ok (statements.map fun summary => some (.str summary.vulnerability)) := by
  induction raws generalizing i statements with
  | nil =>
    cases h
    rfl
  | cons raw raws ih =>
    unfold vexStatements at h
    split at h
    · cases h
    · rename_i summary hsummary
      cases hrest : vexStatements (i + 1) raws with
      | error e =>
        rw [hrest] at h
        cases h
      | ok rest =>
        rw [hrest] at h
        cases h
        rw [List.mapM_cons, statementName_valid hsummary, ih hrest]
        rfl

theorem sortNames_texts (texts : List String) : sortNames (texts.map .str) = .ok ((sortedSet texts).map .str) := by
  have hall : (texts.map Json.str).mapM Json.str? = some texts := by
    induction texts with
    | nil => rfl
    | cons text texts ih => rw [List.map_cons, List.mapM_cons, ih]; rfl
  rw [sortNames, hall]

theorem vulnerabilityNames_valid {doc : Json} {statements : List VexStatementSummary}
    (h : validateOpenvex doc = .ok statements)
    (hobj : doc.isObj = true) : ∃ names, vulnerabilityNames doc = .ok names := by
  obtain ⟨raw, raws, hget, hvalid⟩ := validateOpenvex_statements h
  have heach : doc.each "statements" = .ok (raw :: raws) := by
    rw [Json.each, Json.lookup, if_pos hobj, hget]
    rfl
  refine ⟨(sortedSet (statements.map VexStatementSummary.vulnerability)).map .str, ?_⟩
  rw [vulnerabilityNames, heach, ok_bind, statementNames_valid hvalid, ok_bind, ← sortNames_texts]
  congr 1
  simp [Function.comp_def]

theorem getStr?_eq {value : Json} {key text : String} (h : value.getStr? key = some text) :
    value.get? key = some (.str text) := by
  obtain ⟨found, hget, htext⟩ := Option.bind_eq_some_iff.mp h
  cases found <;> cases htext
  exact hget

/-- The document as the loader reads it. -/
def loadedDocument (name : String) (file : BundleFile) (doc : Json) (statements : List VexStatementSummary)
    (approval : VexApproval) : ApprovedVexDocument :=
  { sourcePath := approvedPath name, evidenceFile := vexCopy name, sha256 := file.sha256
    approval := approval, statements := statements, document := doc }

/-- The script writes an entry for the document. -/
theorem vexEntry_vetted {report : VexLintReport} {entry : String × ApprovedEntry} {file : BundleFile} {doc : Json}
    {statements : List VexStatementSummary} {approval : VexApproval} {out : Bundle} (hfile : entry.2 = .file file)
    (hv : Vetted lt repo approvers report entry.1 file doc statements approval)
    (hout : out (vexCopy entry.1) = some file) :
    ∃ issueUrl approvedBy names, vexEntry out entry =
      .ok (documentEntry entry.1 file.sha256 issueUrl approvedBy names) := by
  obtain ⟨names, hnames⟩ := vulnerabilityNames_valid hv.valid hv.obj
  obtain ⟨raw, hraw, hissue, hby, hurl, hblank⟩ := approvalOf_issueUrl hv.approved
  have hissue' : approval.issueUrl ≠ "" := by
    intro hempty
    rw [hempty] at hurl
    exact Bool.noConfusion hurl
  have hby' : approval.approvedBy ≠ "" := by
    intro hempty
    rw [hempty] at hblank
    exact Bool.noConfusion hblank
  refine ⟨.str approval.issueUrl, .str approval.approvedBy, names, ?_⟩
  rw [vexEntry, hfile]
  simp only [hv.json, hraw, Option.getD_some, getStr?_eq hissue, getStr?_eq hby, Json.truthy]
  rw [if_neg (by simp [hissue', hby']), hout]
  simp only
  rw [if_neg (fun hne => hne rfl), hnames]

/-- The loader accepts that entry, whatever the script took from the document. -/
theorem loadVexDocument_vetted {report : VexLintReport} {name : String} {file : BundleFile} {doc : Json}
    {statements : List VexStatementSummary} {approval : VexApproval} {out : Bundle} {files : List (String × String)}
    (hv : Vetted lt repo approvers report name file doc statements approval) (hout : out (vexCopy name) = some file)
    (hfiles : Dict.get? files (vexCopy name) = some file.sha256) (issueUrl approvedBy : Json) (names : List Json)
    (where_ : String) (i : Nat) :
    loadVexDocument lt.toReader out where_ files i (documentEntry name file.sha256 issueUrl approvedBy names) =
      .ok (loadedDocument name file doc statements approval) := by
  have hpath : (documentEntry name file.sha256 issueUrl approvedBy names).lookup "path" =
    .ok (.str (approvedPath name)) := rfl
  have hevidence : (documentEntry name file.sha256 issueUrl approvedBy names).lookup "evidence_file" =
      .ok (.str (vexCopy name)) := rfl
  have hsha : (documentEntry name file.sha256 issueUrl approvedBy names).lookup "sha256" = .ok (.str file.sha256) := rfl
  have hlisted :
      (Json.str file.sha256).str?.filter (fun sha => Dict.get? files (vexCopy name) = some sha) = some file.sha256 :=
    Option.filter_eq_some_iff.mpr ⟨rfl, decide_eq_true hfiles⟩
  have happroved : isApprovedPath (approvedPath name) = true := by
    have hsuffix := hv.suffix
    rw [isJsonName] at hsuffix
    rw [isApprovedPath, pathParts_approvedPath hv.component hv.suffix, List.dropLast_concat, List.getLast?_concat,
      Option.any_some,
      hsuffix, beq_self_eq_true, Bool.and_self]
  have hcopy : (pathParts (vexCopy name)).dropLast = [vexEvidenceDir] := by
    rw [pathParts_vexCopy hv.component hv.suffix]
    rfl
  have hload : loadJson out (vexCopy name) = .ok doc := by
    rw [loadJson, hout]
    simp only [hv.json]
    rw [if_pos hv.obj]
  have hsource : "/".intercalate (pathParts (approvedPath name)) = approvedPath name := by
    rw [pathParts_approvedPath hv.component hv.suffix, approvedPath]
  rw [loadVexDocument, hpath, ok_bind, hevidence, ok_bind, hsha, ok_bind]
  simp only [hlisted, happroved, hcopy, hload, ok_bind, hv.valid, hv.approved, hsource]
  rfl

/-- The checksums the script writes of its files verify, and list each of them. -/
theorem checksums_verify {out : Bundle} {paths : List String} (hpaths : ∀ path ∈ paths, (out path).isSome = true) :
    ∃ sums files, paths.mapM (checksumOf out) = .ok sums ∧ verifyFiles out (dictOfItems sums) = .ok files ∧
      ∀ path ∈ paths, ∀ file, out path = some file → Dict.get? files path = some file.sha256 := by
  let digest (path : String) : String := ((out path).map BundleFile.sha256).getD ""
  have hsome : ∀ path ∈ paths, ∃ file, out path = some file ∧ digest path = file.sha256 := by
    intro path hpath
    obtain ⟨file, hfile⟩ := Option.isSome_iff_exists.mp (hpaths path hpath)
    exact ⟨file, hfile, by simp only [digest, hfile, Option.map_some, Option.getD_some]⟩
  have hsums : paths.mapM (checksumOf out) = .ok (paths.map fun path => (path, .str (digest path))) := by
    apply mapM_ok_map
    intro path hpath
    obtain ⟨file, hfile, hdigest⟩ := hsome path hpath
    rw [checksumOf, hfile, hdigest]
  have hverify : ∀ kv ∈ dictOfItems (paths.map fun path => (path, Json.str (digest path))),
      verifyFile out kv = .ok (kv.1, digest kv.1) := by
    intro kv hkv
    obtain ⟨path, hpath, rfl⟩ := List.mem_map.mp (mem_of_mem_dictOfItems hkv)
    obtain ⟨file, hfile, hdigest⟩ := hsome path hpath
    rw [verifyFile, hfile]
    simp only
    rw [if_pos hdigest.symm]
  refine ⟨_, _, hsums, mapM_ok_map hverify, ?_⟩
  intro path hpath file hfile
  obtain ⟨file', hfile', hdigest⟩ := hsome path hpath
  rw [hfile] at hfile'
  cases hfile'
  have hkey : path ∈ (dictOfItems (paths.map fun path => (path, Json.str (digest path)))).map Prod.fst := by
    rw [mem_keys_dictOfItems, List.map_map]
    exact List.mem_map.mpr ⟨path, hpath, rfl⟩
  obtain ⟨kv, hkv, rfl⟩ := List.mem_map.mp hkey
  apply Dict.get?_of_mem
  · rw [List.map_map]
    exact nodup_dictOfItems _
  · rw [← hdigest]
    exact List.mem_map_of_mem hkv

end Scanned

def sampleLinter : Linter := { sampleReader with zoned := fun d => d == "2026-06-01T00:00:00+00:00" }

/-- A document that says why a package is not affected. -/
def sampleApproval (approvedBy : String) : Json :=
  .obj [("@context", .str "https://openvex.dev/ns/v0.2.0"), ("author", .str "security"),
    ("timestamp", .str "2026-06-01T00:00:00Z"),
    ("x-approval", .obj
      [("issue_url", .str ("https://github.com/" ++ forkRepo ++ "/issues/7")), ("approved_by", .str approvedBy),
       ("approved_at", .str "2026-06-01T00:00:00Z")]),
    ("statements", .arr
      [.obj [("vulnerability", .obj [("name", .str "CVE-1")]), ("products", .arr [.obj [("@id", .str "pkg:deb/a")]]),
        ("status", .str "not_affected"), ("justification", .str "vulnerable_code_not_present"),
        ("impact_statement", .str "the module is not built")]])]

/-- A directory with one document and a file that explains it. -/
def sampleApproved (approvedBy : String) : ApprovedDir where
  entries := [("README.md", .file { sha256 := "1" }),
    ("cve-1.json", .file { sha256 := "2", json := some (sampleApproval approvedBy) })]
  names := by
    have hnames : ∀ name ∈ ["README.md", "cve-1.json"], '/' ∉ name.toList := by decide
    exact fun entry hentry => hnames entry.1 (List.mem_map_of_mem hentry)
  distinct := show ["README.md", "cve-1.json"].Nodup by decide

-- Only the lint asks who approved: the loader would take the approval of anybody.
example : (lintApprovedVex sampleLinter (some forkRepo) (some ["Hunter-1298"])
    (some (sampleApproved "somebody"))).toOption.any
      (fun report => report.problems.length == 1) = true ∧
    (approvalOf sampleLinter.toExternal (sampleApproval "somebody")).isSome = true := by decide +kernel

end HardeningLoop
