import HardeningLoop.Domain.Enums
import HardeningLoop.Domain.Text

/-!
# Approved OpenVEX documents

`approvalOf` reads the `x-approval` block of a document and `validateOpenvex` its statements; a document that fails
validation has none.
-/

namespace HardeningLoop

structure VexApproval where
  issueUrl : String
  approvedBy : String
  deriving DecidableEq, Repr

structure VexStatementSummary where
  vulnerability : String
  products : List String
  status : String
  deriving DecidableEq, Repr

/-- `_ISSUE_URL.match(url)`; `$` also matches before a final newline. -/
def isIssueUrl (ext : External) (url : String) : Bool :=
  let part (c : Char) := ext.wordChar c || c == '.' || c == '-'
  let matched := do
    let (owner, rest) := spanChars part (← dropLiteral "https://github.com/" url.toList)
    let (repo, rest) := spanChars part (← dropLiteral "/" rest)
    let (digits, rest) := spanChars (fun c => (ext.digitValue c).isSome) (← dropLiteral "/issues/" rest)
    some (owner ≠ [] && repo ≠ [] && digits ≠ [] && (rest = [] || rest = ['\n']) : Bool)
  matched.getD false

/-- `approval_of`: the validated `x-approval` block of a document. -/
def approvalOf (ext : External) (doc : Json) : Option VexApproval := do
  let raw ← doc.get? "x-approval"
  let issueUrl ← raw.getStr? "issue_url"
  let approvedBy ← raw.getStr? "approved_by"
  if isIssueUrl ext issueUrl && notBlank ext approvedBy then some ⟨issueUrl, approvedBy⟩ else none

/-- `_SUPPRESSING_STATUSES`. -/
def suppressingStatuses : List String := ["not_affected", "fixed"]

/-- `VexEvidenceError`, by the message it carries and the values the message prints. -/
inductive VexEvidenceError where
  | notOpenvex (context : Option Json)
  | noStatements
  | notAnObject (i : Nat)
  | noName (i : Nat)
  | status (i : Nat) (status : Option Json)
  | productWithoutId (i : Nat)
  | noProducts (i : Nat)

/-- The ids of the products of statement `i`. -/
def productIds (i : Nat) : List Json → Except VexEvidenceError (List String)
  | [] => .ok []
  | p :: products =>
    match (p.getStr? "@id").filter (· ≠ "") with
    | some pid => (productIds i products).map (pid :: ·)
    | none => .error (.productWithoutId i)

/-- Statement `i` of a document. -/
def vexStatement (i : Nat) (st : Json) : Except VexEvidenceError VexStatementSummary :=
  if !st.isObj then .error (.notAnObject i)
  else
    match ((st.get? "vulnerability").bind (·.getStr? "name")).filter (· ≠ "") with
    | none => .error (.noName i)
    | some name =>
      match (st.getStr? "status").filter (· ∈ suppressingStatuses) with
      | none => .error (.status i (st.get? "status"))
      | some status =>
        match productIds i (((st.get? "products").bind Json.arr?).getD []) with
        | .error e => .error e
        | .ok [] => .error (.noProducts i)
        | .ok ids => .ok ⟨name, ids, status⟩

/-- The statements of a document from statement `i` on. -/
def vexStatements (i : Nat) : List Json → Except VexEvidenceError (List VexStatementSummary)
  | [] => .ok []
  | st :: statements =>
    match vexStatement i st with
    | .error e => .error e
    | .ok summary => (vexStatements (i + 1) statements).map (summary :: ·)

/-- `validate_openvex`: the statements of a well-formed document. -/
def validateOpenvex (doc : Json) : Except VexEvidenceError (List VexStatementSummary) :=
  match doc.getStr? "@context" with
  | some context =>
    if hasPrefix "https://openvex.dev/ns/" context then
      match (doc.get? "statements").bind Json.arr? with
      | some (st :: statements) => vexStatements 0 (st :: statements)
      | _ => .error .noStatements
    else .error (.notOpenvex (doc.get? "@context"))
  | none => .error (.notOpenvex (doc.get? "@context"))

/-! ## What an accepted statement is -/

/-- A statement that may suppress a finding: it names a vulnerability and at least one product, in a suppressing
status. -/
structure Suppressing (s : VexStatementSummary) : Prop where
  vulnerability : s.vulnerability ≠ ""
  products : s.products ≠ []
  status : s.status ∈ suppressingStatuses

theorem vexStatement_suppressing {i : Nat} {st : Json} {s : VexStatementSummary} (h : vexStatement i st = .ok s) :
    Suppressing s := by
  unfold vexStatement at h
  split at h
  · cases h
  · split at h
    · cases h
    · rename_i name hname
      split at h
      · cases h
      · rename_i status hstatus
        split at h
        · cases h
        · cases h
        · rename_i ids hne _
          cases h
          exact ⟨by simpa using (Option.filter_eq_some_iff.mp hname).2, hne,
            by simpa using (Option.filter_eq_some_iff.mp hstatus).2⟩

theorem vexStatements_suppressing {i : Nat} {sts : List Json} {l : List VexStatementSummary}
    (h : vexStatements i sts = .ok l) : ∀ s ∈ l, Suppressing s := by
  induction sts generalizing i l with
  | nil =>
    cases h
    simp
  | cons st sts ih =>
    unfold vexStatements at h
    split at h
    · cases h
    · rename_i summary hsummary
      cases hrest : vexStatements (i + 1) sts with
      | error e => rw [hrest] at h; cases h
      | ok rest =>
        rw [hrest] at h
        cases h
        intro s hs
        rcases List.mem_cons.mp hs with rfl | hs
        · exact vexStatement_suppressing hsummary
        · exact ih hrest s hs

/-- Every statement of a document that passes validation may suppress a finding. -/
theorem validateOpenvex_suppressing {doc : Json} {l : List VexStatementSummary} (h : validateOpenvex doc = .ok l) :
    ∀ s ∈ l, Suppressing s := by
  unfold validateOpenvex at h
  split at h
  · split at h
    · split at h
      · exact vexStatements_suppressing h
      · cases h
    · cases h
  · cases h

end HardeningLoop
