import HardeningLoop.Ingest.Acceptance
import HardeningLoop.Lib.Fallible

/-!
# What the checksums cover

The loader parses fixed files of a scan's directory and verifies the files that the `files` maps of `job.json` and
`manifest.json` list. The approved documents are looked up in the map; the scanner reports are not, so they are verified
exactly when a map happens to name them (`scanCovered_iff`, `checksumCovered_iff`).
-/

namespace HardeningLoop

open Fallible

/-! ## Coverage -/

/-- The files of a scan's directory that are parsed whatever its map lists. -/
def reportFiles : List String :=
  ["sbom.cdx.json", "trivy-vuln.json", "grype-vuln.json", "trivy-image-config.json", "trivy-config.json"]

/-- The file is there and a map names it with its digest. -/
def Verified (root : Bundle) (files : List (String × Json)) (name : String) : Prop :=
  ∃ file, root name = some file ∧ (name, Json.str file.sha256) ∈ files

/-- The `files` map of a `job.json` or a `manifest.json`. -/
def filesOf (root : Bundle) (name : String) : Except LoadError (List (String × Json)) := do
  dictOf (← (← loadJson root name).item "files")

/-- A document of a policy scan is a copy that the map names. -/
def DocumentVerified (dir : Bundle) (files : List (String × Json)) (document : Json) : Prop :=
  ∃ name, (document.get? "x-evidence").bind (·.get? "evidence_file") = some (.str name) ∧ Verified dir files name

/-- All that the loader parses of a scan's directory is verified by the map of its `job.json`. -/
def ScanCovered (dir : Bundle) (job : ScanJobEvidence) : Prop :=
  ∃ files, filesOf dir "job.json" = .ok files ∧ (∀ name ∈ reportFiles, Verified dir files name) ∧
    ∀ document ∈ job.vexDocuments, DocumentVerified dir files document

/-- All that the loader parses of the scans of a bundle is verified by a map: that of the scan's `job.json`, or that of
the manifest. -/
def ChecksumCovered (root : Bundle) (m : BaselineManifest) : Prop :=
  ∃ listed, filesOf root "manifest.json" = .ok listed ∧ ∀ name job, (name, job) ∈ m.jobs → ∃ target mode files,
    splitOnce "-" name = some (target, mode) ∧ filesOf (jobDir root target mode) "job.json" = .ok files ∧
    (∀ report ∈ reportFiles, Verified (jobDir root target mode) files report ∨
      Verified root listed (jobFile target mode report)) ∧
    ∀ document ∈ job.vexDocuments, DocumentVerified (jobDir root target mode) files document

/-- A map names the file. -/
def Lists (files : Except LoadError (List (String × Json))) (name : String) : Prop :=
  ∃ listed, files = .ok listed ∧ name ∈ listed.map Prod.fst

instance (files : Except LoadError (List (String × Json))) (name : String) : Decidable (Lists files name) :=
  match files with
  | .ok listed => decidable_of_iff (name ∈ listed.map Prod.fst)
      ⟨fun h => ⟨listed, rfl, h⟩, fun ⟨_, h, hname⟩ => Except.ok.inj h ▸ hname⟩
  | .error _ => .isFalse fun ⟨_, h, _⟩ => nomatch h

/-! ## Verification -/

section Verification

variable {rd : Reader} {root : Bundle}

theorem verifyFile_eq_ok {kv : String × Json} {out : String × String} (h : verifyFile root kv = .ok out) :
    ∃ file, root kv.1 = some file ∧ kv.2 = .str file.sha256 ∧ out = (kv.1, file.sha256) := by
  unfold verifyFile at h
  split at h
  · cases h
  · rename_i file hfile
    split at h
    · rename_i digest hdigest
      split at h
      · rename_i hsame
        cases h
        exact ⟨file, hfile, hdigest.trans (congrArg Json.str hsame.symm), by rw [hsame]⟩
      · cases h
    · cases h

/-- Every file that a verified map names has its digest there. -/
theorem verifyFiles_verified {expected : List (String × Json)} {files : List (String × String)}
    (h : verifyFiles root expected = .ok files) {name : String} (hname : name ∈ expected.map Prod.fst) :
    Verified root expected name := by
  obtain ⟨⟨_, value⟩, hmem, rfl⟩ := List.mem_map.mp hname
  obtain ⟨out, -, hout⟩ := (mapM_eq_ok h).1 _ hmem
  obtain ⟨file, hfile, hvalue, -⟩ := verifyFile_eq_ok hout
  exact ⟨file, hfile, by rwa [← hvalue]⟩

/-- A digest that verification returns is that of a listed file. -/
theorem verified_of_get? {expected : List (String × Json)} {files : List (String × String)}
    (h : verifyFiles root expected = .ok files) {name sha : String} (hget : Dict.get? files name = some sha) :
    Verified root expected name := by
  obtain ⟨kv, hmem, hout⟩ := (mapM_eq_ok h).2 _ (Dict.mem_of_get? hget)
  obtain ⟨file, hfile, hvalue, hsame⟩ := verifyFile_eq_ok hout
  obtain ⟨rfl, rfl⟩ := Prod.mk.inj hsame
  exact ⟨file, hfile, by rwa [← hvalue]⟩

theorem verified_name {files : List (String × Json)} {name : String} (h : Verified root files name) :
    name ∈ files.map Prod.fst := by
  obtain ⟨file, -, hmem⟩ := h
  exact List.mem_map_of_mem hmem

theorem loadJson_isObj {path : String} {doc : Json} (h : loadJson root path = .ok doc) : doc.isObj := by
  unfold loadJson at h
  repeat' split at h
  all_goals cases h
  assumption

theorem get?_set (fields : List (String × Json)) (key : String) (value : Json) :
    (Json.obj (Dict.set fields key value)).get? key = some value := by
  have hfind : ((Dict.set fields key value).find? fun kv => kv.1 == key) = some (key, value) := by
    induction fields with
    | nil => simp [Dict.set]
    | cons kv fields ih =>
      obtain ⟨k, v⟩ := kv
      by_cases hk : key = k
      · simp [Dict.set, hk]
      · rw [Dict.set, if_neg hk, List.find?_cons_of_neg (by simpa using Ne.symm hk), ih]
  rw [Json.get?, hfind]
  rfl

/-- A document that was loaded is a copy that the map names, and the scan's document says so. -/
theorem loadVexDocument_verified {where_ : String} {expected : List (String × Json)} {files : List (String × String)}
    {i : Nat} {entry : Json} {d : ApprovedVexDocument} (hfiles : verifyFiles root expected = .ok files)
    (h : loadVexDocument rd root where_ files i entry = .ok d) : DocumentVerified root expected d.withEvidence := by
  unfold loadVexDocument at h
  simp only [bind_eq_ok] at h
  obtain ⟨path, -, copy, -, sha, -, h⟩ := h
  split at h
  · rename_i sourcePath evidenceFile
    split at h
    · cases h
    · rename_i digest hsha
      have hget : Dict.get? files evidenceFile = some digest := by
        obtain ⟨-, hget⟩ := Option.filter_eq_some_iff.mp hsha
        simpa using hget
      simp only [guard_eq_ok, bind_eq_ok] at h
      obtain ⟨-, -, document, hdocument, h⟩ := h
      split at h
      · cases h
      · split at h
        · cases h
        · cases h
          refine ⟨evidenceFile, ?_, verified_of_get? hfiles hget⟩
          have hobj := loadJson_isObj hdocument
          unfold ApprovedVexDocument.withEvidence
          cases document with
          | obj fields =>
            rw [get?_set]
            rfl
          | _ => cases hobj
  · cases h

/-- What a scan's directory holds that loads: its map is verified, and so are its documents. -/
theorem loadScanJob_verified {path : String} {job : ScanJobEvidence} (h : loadScanJob rd root path = .ok job) :
    ∃ expected files, filesOf root "job.json" = .ok expected ∧ verifyFiles root expected = .ok files ∧
      ∀ document ∈ job.vexDocuments, DocumentVerified root expected document := by
  unfold loadScanJob at h
  simp only [bind_eq_ok, guard_eq_ok] at h
  obtain ⟨doc, hdoc, schema, -, -, item, hitem, expected, hexpected, files, hfiles, h⟩ := h
  refine ⟨expected, files, ?_, hfiles, ?_⟩
  · unfold filesOf
    simp only [bind_eq_ok]
    exact ⟨doc, hdoc, item, hitem, hexpected⟩
  · obtain ⟨_, -, _, -, _, -, _, -, _, -, _, -, _, -, _, -, _, -, entries, -, -, evidence, hevidence, h⟩ := h
    obtain ⟨_, -, _, -, _, -, _, -, _, -, _, -, _, -, _, -, _, -, _, -, _, -, _, -, _, -, _, -, _, -, _, -, _, -, h⟩ :=
      h
    cases h
    intro document hdocument
    obtain ⟨d, hd, rfl⟩ := List.mem_map.mp hdocument
    obtain ⟨entry, -, hentry⟩ := (mapM_eq_ok hevidence).2 d hd
    exact loadVexDocument_verified hfiles hentry

/-- **A scan's directory.** All of it that is parsed is verified exactly when its map names the reports. -/
theorem scanCovered_iff {path : String} {job : ScanJobEvidence} (h : loadScanJob rd root path = .ok job) :
    ScanCovered root job ↔ ∀ name ∈ reportFiles, Lists (filesOf root "job.json") name := by
  obtain ⟨expected, files, hexpected, hfiles, hdocuments⟩ := loadScanJob_verified h
  constructor
  · rintro ⟨listed, hlisted, hreports, -⟩ name hname
    exact ⟨listed, hlisted, verified_name (hreports name hname)⟩
  · intro hlists
    refine ⟨expected, hexpected, fun name hname => ?_, hdocuments⟩
    obtain ⟨listed, hlisted, hmem⟩ := hlists name hname
    cases hexpected.symm.trans hlisted
    exact verifyFiles_verified hfiles hmem

/-- A job of a loaded bundle is the scan in the directory its name says. -/
theorem loadJob_eq_ok {manifest name : Json} {kv : String × ScanJobEvidence}
    (h : loadJob rd root manifest name = .ok kv) :
    ∃ target mode, splitOnce "-" kv.1 = some (target, mode) ∧
      loadScanJob rd (jobDir root target mode) (joinPath target mode) = .ok kv.2 := by
  unfold loadJob at h
  split at h
  · split at h
    · cases h
    · rename_i target mode hsplit
      simp only [bind_eq_ok] at h
      obtain ⟨job, hjob, images, -, image, -, imageId, -, h⟩ := h
      split at h
      · cases h
        exact ⟨target, mode, hsplit, hjob⟩
      · split at h
        · split at h
          · cases h
            exact ⟨target, mode, hsplit, hjob⟩
          · cases h
        · cases h
  · cases h

/-- What a bundle holds that loads: the manifest's map is verified, and its jobs are the scans in their directories. -/
theorem loadBaseline_verified {m : BaselineManifest} (h : loadBaseline rd root = .ok m) :
    (∃ expected files, filesOf root "manifest.json" = .ok expected ∧ verifyFiles root expected = .ok files) ∧
      ∀ kv ∈ m.jobs, ∃ target mode, splitOnce "-" kv.1 = some (target, mode) ∧
        loadScanJob rd (jobDir root target mode) (joinPath target mode) = .ok kv.2 := by
  unfold loadBaseline at h
  simp only [bind_eq_ok, guard_eq_ok] at h
  obtain ⟨doc, hdoc, schema, -, -, item, hitem, expected, hexpected, files, hfiles, h⟩ := h
  refine ⟨⟨expected, files, ?_, hfiles⟩, ?_⟩
  · unfold filesOf
    simp only [bind_eq_ok]
    exact ⟨doc, hdoc, item, hitem, hexpected⟩
  · split at h
    · simp only [bind_eq_ok, guard_eq_ok] at h
      obtain ⟨_, -, -, _, -, _, -, jobs, hjobs, _, -, _, -, _, -, _, -, _, -, _, -, -, h⟩ := h
      obtain ⟨_, -, _, -, _, -, _, -, _, -, _, -, _, -, _, -, _, -, _, -, _, -, _, -, _, -, _, -, _, -, _, -, h⟩ := h
      cases h
      intro kv hkv
      have hmem : kv ∈ jobs :=
        Rows.foldl_invariant (fun d : List (String × ScanJobEvidence) => ∀ kv ∈ d, kv ∈ jobs)
          (fun d a ha hd kv hkv => (Dict.mem_set hkv).elim (hd kv) fun hsame => hsame ▸ ha)
          (fun _ h => absurd h List.not_mem_nil) kv hkv
      obtain ⟨name, -, hname⟩ := (mapM_eq_ok hjobs).2 kv hmem
      exact loadJob_eq_ok hname
    · simp only [bind_eq_ok] at h
      obtain ⟨_, h, -⟩ := h
      cases h

/-- **A bundle.** All that is parsed of its scans is verified exactly when, of every scan, each report is named by the
map of the scan or by that of the manifest. -/
theorem checksumCovered_iff {m : BaselineManifest} (h : loadBaseline rd root = .ok m) :
    ChecksumCovered root m ↔ ∀ name job target mode, (name, job) ∈ m.jobs → splitOnce "-" name = some (target, mode) →
      ∀ report ∈ reportFiles, Lists (filesOf (jobDir root target mode) "job.json") report ∨
        Lists (filesOf root "manifest.json") (jobFile target mode report) := by
  obtain ⟨⟨listed, verified, hlisted, hverified⟩, hscans⟩ := loadBaseline_verified h
  constructor
  · rintro ⟨listed', hlisted', hall⟩ name job target mode hjob hsplit report hreport
    obtain ⟨target', mode', files, hsplit', hfiles, hreports, -⟩ := hall name job hjob
    cases hsplit.symm.trans hsplit'
    exact (hreports report hreport).imp (fun hv => ⟨files, hfiles, verified_name hv⟩)
      fun hv => ⟨listed', hlisted', verified_name hv⟩
  · intro hlists
    refine ⟨listed, hlisted, fun name job hjob => ?_⟩
    obtain ⟨target, mode, hsplit, hscan⟩ := hscans (name, job) hjob
    obtain ⟨expected, files, hexpected, hfiles, hdocuments⟩ := loadScanJob_verified hscan
    refine ⟨target, mode, expected, hsplit, hexpected, fun report hreport => ?_, hdocuments⟩
    rcases hlists name job target mode hjob hsplit report hreport with hlist | hlist
    · obtain ⟨listed', hlisted', hmem⟩ := hlist
      cases hexpected.symm.trans hlisted'
      exact Or.inl (verifyFiles_verified hfiles hmem)
    · obtain ⟨listed', hlisted', hmem⟩ := hlist
      cases hlisted.symm.trans hlisted'
      exact Or.inr (verifyFiles_verified hverified hmem)

end Verification

/-- **Checksum coverage.** The reports that are parsed are fixed and the files that are verified are the bundle's to
name. -/
theorem checksum_coverage_iff (rd : Reader) :
    (∀ (dir : Bundle) (path : String) (job : ScanJobEvidence), loadScanJob rd dir path = .ok job →
      (ScanCovered dir job ↔ ∀ name ∈ reportFiles, Lists (filesOf dir "job.json") name)) ∧
    ∀ (root : Bundle) (m : BaselineManifest), loadBaseline rd root = .ok m →
      (ChecksumCovered root m ↔
        ∀ name job target mode, (name, job) ∈ m.jobs → splitOnce "-" name = some (target, mode) →
        ∀ report ∈ reportFiles, Lists (filesOf (jobDir root target mode) "job.json") report ∨
          Lists (filesOf root "manifest.json") (jobFile target mode report)) :=
  ⟨fun _ _ _ h => scanCovered_iff h, fun _ _ h => checksumCovered_iff h⟩

/-- A bundle of scans whose maps are empty is accepted. -/
theorem checksums_not_covering : ∃ (rd : Reader) (root : Bundle) (m : BaselineManifest),
    loadBaseline rd root = .ok m ∧ ¬ ChecksumCovered root m := by
  have haccepts :
      sampleAccepts (sampleRunBlock .null) "ci" (sampleCommit 'a') (fun m => (Dict.get? m.jobs "lean-raw").isSome)
      = true := by decide +kernel
  have hunlisted :
      ¬ (Lists (filesOf (jobDir (sampleBundle (sampleRunBlock .null) "ci") "lean" "raw") "job.json") "trivy-vuln.json" ∨
      Lists (filesOf (sampleBundle (sampleRunBlock .null) "ci") "manifest.json")
      (jobFile "lean" "raw" "trivy-vuln.json")) := by
    decide +kernel
  obtain ⟨m, hm, hjob⟩ := exists_of_sampleAccepts haccepts
  obtain ⟨job, hjob⟩ := Option.isSome_iff_exists.mp hjob
  have hloads := (Accepted.of_validate hm).loads
  refine ⟨sampleReader, _, m, hloads, fun hcovered => hunlisted ?_⟩
  have hsplit : splitOnce "-" "lean-raw" = some ("lean", "raw") := by decide
  exact (checksumCovered_iff hloads).mp hcovered _ job _ _ (Dict.mem_of_get? hjob) hsplit "trivy-vuln.json" (by decide)

/-- The directory of an empty scan whose map names the files `listed`. -/
def sampleScanDir (listed : List String) : Bundle := fun name =>
  (Dict.get? (sampleJobFile "raw" "lean" (sampleImage '1')) name).map fun doc =>
    { sha256 := sampleSha256 '0'
      json := match name, doc with
        | "job.json", .obj fields =>
          some (.obj (Dict.set fields "files" (.obj (listed.map fun name => (name, .str (sampleSha256 '0'))))))
        | _, doc => some doc }

/-- A scan whose map names the reports. -/
theorem checksums_covering : ∃ job, loadScanJob sampleReader (sampleScanDir reportFiles) "lean/raw" = .ok job ∧
    ScanCovered (sampleScanDir reportFiles) job := by
  have hloads : (loadScanJob sampleReader (sampleScanDir reportFiles) "lean/raw").toOption.isSome = true := by
    decide +kernel
  have hlisted : ∀ name ∈ reportFiles, Lists (filesOf (sampleScanDir reportFiles) "job.json") name := by decide +kernel
  cases hjob : loadScanJob sampleReader (sampleScanDir reportFiles) "lean/raw" with
  | error e =>
    rw [hjob] at hloads
    cases hloads
  | ok job => exact ⟨job, rfl, ((checksum_coverage_iff sampleReader).1 _ _ job hjob).mpr hlisted⟩

end HardeningLoop
