import HardeningLoop.Ci

/-!
# The manifest is read back

`loadBaseline` reads what `writeScanManifest` wrote. What is copied from one file to another comes back as it was
(`loadBaseline_written`); what is computed twice comes back on a condition (`manifest_agrees_iff`): a date is written as
its clock shows it, with a literal `Z`, and read as UTC; a verdict that is attached is read by the controller whatever
the job's result is, by the writer only if it is a success; and a name that a job lists leaves the job's directory when
it is absolute, but not as a key of the manifest.
-/

namespace HardeningLoop

open Fallible

/-! ## The evidence -/

section Evidence

variable {w : Writer} {out : OutDir} {inp : ManifestInput} {ev : RunEvidence}

theorem liftLoad_eq_ok {α : Type} {x : Except LoadError α} {a : α} : liftLoad x = .ok a ↔ x = .ok a := by
  cases x with
  | error e =>
    constructor <;> intro h <;> cases h
  | ok b =>
    constructor <;> intro h <;> cases h <;> rfl

theorem ImageTarget.of_eq_ok {value : Json} {target : ImageTarget} (h : ImageTarget.of value = .ok target) :
    value = .str target.value := by
  unfold ImageTarget.of at h
  split at h
  · rename_i found hfound
    cases h
    have hvalue := List.find?_some hfound
    have hstr : value.str? = some target.value := by simpa using hvalue
    cases value <;> simp_all [Json.str?]
  · cases h

/-- The jobs that are read: each is the scan in the directory of its name, of the image that was pushed. -/
structure JobRead (w : Writer) (root : Bundle) (inp : ManifestInput) (name : String) (job : ScanJobEvidence) :
    Prop where
  name : splitOnce "-" name = some (job.imageTarget.value, job.mode.value)
  loads : loadScanJob w.toReader (jobDir root job.imageTarget.value job.mode.value)
    (joinPath job.imageTarget.value job.mode.value) = .ok job
  image : ∃ image, inp.images job.imageTarget = some image ∧ afterLast '@' job.imageRef = image.digest

theorem expectedJob_eq_ok {root : Bundle} {name : String} {kv : String × ScanJobEvidence}
    (h : expectedJob w root inp name = .ok kv) : JobRead w root inp kv.1 kv.2 := by
  unfold expectedJob at h
  split at h
  · cases h
  · rename_i target mode hname
    simp only [guard_eq_ok, bind_eq_ok, liftLoad_eq_ok] at h
    obtain ⟨-, job, hjob, imageTarget, htarget, h⟩ := h
    split at h
    · cases h
    · rename_i image himage
      simp only [guard_eq_ok, Bool.or_eq_true, decide_eq_true_eq, not_or, not_not] at h
      obtain ⟨hdigest, ⟨hmode, hof⟩, -, h⟩ := h
      cases h
      have hsame : imageTarget = job.imageTarget := by
        have hvalue := Json.str.inj (ImageTarget.of_eq_ok htarget)
        rw [← hof] at hvalue
        revert hvalue
        cases imageTarget <;> cases job.imageTarget <;> decide
      subst hmode hof
      exact ⟨hname, hjob, image, hsame ▸ himage, hdigest⟩

theorem mem_of_mem_dictOfItems {α : Type*} {items : List (String × α)} {kv : String × α} (h : kv ∈ dictOfItems items) :
    kv ∈ items :=
  Rows.foldl_invariant (fun d : List (String × α) => ∀ kv ∈ d, kv ∈ items)
    (fun _ _ hmem hd kv hkv => (Dict.mem_set hkv).elim (hd kv) fun hsame => hsame ▸ hmem)
    (fun _ h => absurd h List.not_mem_nil) kv h

theorem nodup_dictOfItems {α : Type*} (items : List (String × α)) : ((dictOfItems items).map Prod.fst).Nodup :=
  Dict.nodup_keys_fill (d := []) Prod.fst (fun _ kv => kv.2) List.nodup_nil items

theorem mem_keys_dictOfItems {α : Type*} {items : List (String × α)} {key : String} :
    key ∈ (dictOfItems items).map Prod.fst ↔ key ∈ items.map Prod.fst := by
  have hfold (items d : List (String × α)) : key ∈ (items.foldl (fun d kv => Dict.set d kv.1 kv.2) d).map Prod.fst ↔
      key ∈ d.map Prod.fst ∨ key ∈ items.map Prod.fst := by
    induction items generalizing d with
    | nil => simp
    | cons kv items ih => rw [List.foldl_cons, ih, Dict.mem_keys_set, List.map_cons, List.mem_cons, or_assoc]
  rw [dictOfItems, hfold]
  simp

/-- Items whose keys differ are a dictionary. -/
theorem dictOfItems_of_nodup {α : Type*} {items : List (String × α)} (h : (items.map Prod.fst).Nodup) :
    dictOfItems items = items := by
  have hset (d : List (String × α)) (key : String) (a : α) (hkey : key ∉ d.map Prod.fst) :
      Dict.set d key a = d ++ [(key, a)] := by
    induction d with
    | nil => rfl
    | cons kv d ih =>
      rw [List.map_cons, List.mem_cons, not_or] at hkey
      rw [Dict.set, if_neg hkey.1, ih hkey.2]
      rfl
  have hfold (items d : List (String × α)) (hnd : ((d ++ items).map Prod.fst).Nodup) :
      items.foldl (fun d kv => Dict.set d kv.1 kv.2) d = d ++ items := by
    induction items generalizing d with
    | nil => simp
    | cons kv items ih =>
      have hkey : kv.1 ∉ d.map Prod.fst := by
        rw [List.map_append, List.map_cons, List.nodup_append] at hnd
        intro hmem
        exact hnd.2.2 _ hmem _ List.mem_cons_self rfl
      rw [List.foldl_cons, hset d kv.1 kv.2 hkey, ih _ (by simpa using hnd)]
      simp
  exact hfold items [] h

/-- A file of a directory has the digest that a map gives it. -/
def Recorded (root : Bundle) (kv : String × Json) : Prop :=
  ∃ file, root kv.1 = some file ∧ kv.2 = .str file.sha256

theorem sha256File_eq_ok {root : Bundle} {path : String} {digest : Json} (h : sha256File root path = .ok digest) :
    Recorded root (path, digest) := by
  unfold sha256File at h
  split at h
  · rename_i file hfile
    cases h
    exact ⟨file, hfile, rfl⟩
  · cases h

theorem recorded_of_verifyFiles {root : Bundle} {files : List (String × Json)} {sums : List (String × String)}
    (h : verifyFiles root files = .ok sums) : ∀ kv ∈ files, Recorded root kv := by
  intro kv hkv
  obtain ⟨sum, -, hsum⟩ := (mapM_eq_ok h).1 kv hkv
  obtain ⟨file, hfile, hdigest, -⟩ := verifyFile_eq_ok hsum
  exact ⟨file, hfile, hdigest⟩

/-- Verification of recorded files returns the map. -/
theorem verifyFiles_eq {root : Bundle} {files : List (String × Json)} (h : ∀ kv ∈ files, Recorded root kv) :
    verifyFiles root files = .ok (files.map fun kv => (kv.1, strJson kv.2)) := by
  unfold verifyFiles
  induction files with
  | nil => rfl
  | cons kv files ih =>
    obtain ⟨key, value⟩ := kv
    obtain ⟨file, hfile, hdigest⟩ := h _ List.mem_cons_self
    dsimp only at hfile hdigest
    subst hdigest
    rw [List.mapM_cons, ih fun kv hkv => h kv (List.mem_cons_of_mem _ hkv), verifyFile]
    simp only [hfile, if_true]
    rfl

/-! ### What the writer has read -/

/-- The `files` map of a scan job lists a file. -/
def JobLists (root : Bundle) (job : ScanJobEvidence) (file : String × Json) : Prop :=
  ∃ files, filesOf (jobDir root job.imageTarget.value job.mode.value) "job.json" = .ok files ∧ file ∈ files

/-- A key of the manifest is made of an absolute name that a scan job lists. -/
def AbsoluteKey (root : Bundle) (job : ScanJobEvidence) (key : String) : Prop :=
  ∃ file, JobLists root job file ∧ hasPrefix "/" file.1 = true ∧
    key = jobPath job.imageTarget.value job.mode.value file.1

/-- What holds of the evidence that the writer has read. -/
structure EvidenceRead (w : Writer) (root : Bundle) (inp : ManifestInput) (ev : RunEvidence) : Prop where
  jobs : ∀ kv ∈ ev.jobs, JobRead w root inp kv.1 kv.2
  distinct : (ev.jobs.map Prod.fst).Nodup
  entries : ev.entries.map Prod.fst = ev.jobs.map Prod.fst
  recorded : ∀ kv ∈ ev.files, Recorded root kv ∨ ∃ job ∈ ev.jobs, AbsoluteKey root job.2 kv.1
  /-- The files that a job lists are listed. -/
  listed : ∀ kv ∈ ev.jobs, ∀ file, JobLists root kv.2 file →
    jobPath kv.2.imageTarget.value kv.2.mode.value file.1 ∈ ev.files.map Prod.fst

/-- What a scan job lists is there when the job loads. -/
theorem recorded_of_jobLists {rd : Reader} {root : Bundle} {path : String} {job : ScanJobEvidence}
    (h : loadScanJob rd (jobDir root job.imageTarget.value job.mode.value) path = .ok job) {file : String × Json}
    (hfile : JobLists root job file) : Recorded (jobDir root job.imageTarget.value job.mode.value) file := by
  obtain ⟨files, hfiles, hmem⟩ := hfile
  obtain ⟨expected, sums, hexpected, hsums, -⟩ := loadScanJob_verified h
  cases hfiles.symm.trans hexpected
  exact recorded_of_verifyFiles hsums file hmem

theorem recorded_relative {root : Bundle} {target : ImageTarget} {mode : ScanMode} {file : String × Json}
    (hrelative : hasPrefix "/" file.1 = false) :
    Recorded (jobDir root target.value mode.value) file ↔
      Recorded root (jobPath target.value mode.value file.1, file.2) := by
  rw [Recorded, Recorded, jobDir_relative hrelative]

theorem recorded_absolute {root : Bundle} {target : ImageTarget} {mode : ScanMode} {file : String × Json}
    (habsolute : hasPrefix "/" file.1 = true) :
    Recorded (jobDir root target.value mode.value) file ↔ Recorded root file := by
  rw [Recorded, Recorded, jobDir_absolute habsolute]

theorem jobEntry_eq_ok {root : Bundle} {name : String} {job : ScanJobEvidence} (hjob : JobRead w root inp name job)
    {entry : Json × List (String × Json)} (h : jobEntry root name = .ok entry) :
    (∀ kv ∈ entry.2, Recorded root kv ∨ AbsoluteKey root job kv.1) ∧
      ∀ file, JobLists root job file → jobPath job.imageTarget.value job.mode.value file.1 ∈ entry.2.map Prod.fst := by
  unfold jobEntry at h
  rw [hjob.name] at h
  simp only [bind_eq_ok, liftLoad_eq_ok] at h
  obtain ⟨raw, hraw, listed, ⟨item, hitem, hlisted⟩, own, hown, h⟩ := h
  cases h
  cases item with
  | obj fields =>
    obtain rfl : fields = listed := Except.ok.inj hlisted
    have hfiles : filesOf (jobDir root job.imageTarget.value job.mode.value) "job.json" = .ok fields := by
      unfold filesOf
      simp only [bind_eq_ok]
      exact ⟨raw, hraw, _, hitem, rfl⟩
    constructor
    · intro kv hkv
      rcases List.mem_append.mp hkv with hkv | hkv
      · obtain ⟨file, hfile, rfl⟩ := List.mem_map.mp hkv
        have hlists : JobLists root job file := ⟨fields, hfiles, hfile⟩
        cases habs : hasPrefix "/" file.1 with
        | true => exact Or.inr ⟨file, hlists, habs, rfl⟩
        | false => exact Or.inl ((recorded_relative habs).mp (recorded_of_jobLists hjob.loads hlists))
      · obtain ⟨f, hf, hsum⟩ := (mapM_eq_ok hown).2 kv hkv
        obtain ⟨digest, hdigest, hsum⟩ := bind_eq_ok.mp hsum
        cases hsum
        have hrelative : ∀ f ∈ ["job.json", "SHA256SUMS"], hasPrefix "/" f = false := by decide
        have hrecorded : Recorded (jobDir root job.imageTarget.value job.mode.value) (f, digest) :=
          sha256File_eq_ok hdigest
        exact Or.inl ((recorded_relative (hrelative f hf)).mp hrecorded)
    · rintro file ⟨files, hfiles', hfile⟩
      cases hfiles.symm.trans hfiles'
      rw [List.map_append, List.mem_append, List.map_map]
      exact Or.inl (List.mem_map_of_mem hfile)
  | _ => cases hlisted

theorem gateEntry_eq_ok {root : Bundle} {jobs : List (String × ScanJobEvidence)} {gate : String × String}
    {entry : Json × String × Json} (h : gateEntry root inp.run jobs gate = .ok entry) : Recorded root entry.2 := by
  unfold gateEntry at h
  split at h
  · cases h
  · split at h
    · cases h
    · rename_i file hfile
      split at h
      · cases h
      · simp only [guard_eq_ok] at h
        obtain ⟨-, -, -, -, h⟩ := h
        cases h
        exact ⟨file, hfile, rfl⟩

theorem attachDir_eq_ok {dir : String} {sums : List (String × Json)} (h : attachDir out dir = .ok sums) :
    ∀ kv ∈ sums, Recorded out.files kv := by
  unfold attachDir at h
  split at h
  · cases h
  · cases h
  · intro kv hkv
    obtain ⟨path, -, hsum⟩ := (mapM_eq_ok h).2 kv hkv
    obtain ⟨digest, hdigest, hsum⟩ := bind_eq_ok.mp hsum
    cases hsum
    exact sha256File_eq_ok hdigest

theorem readEvidence_eq_ok (h : readEvidence w out inp = .ok ev) : EvidenceRead w out.files inp ev := by
  unfold readEvidence at h
  simp only [bind_eq_ok] at h
  obtain ⟨jobs, hjobs, entries, hentries, gates, hgates, attached, hattached, h⟩ := h
  cases h
  have hread : ∀ kv ∈ dictOfItems jobs, JobRead w out.files inp kv.1 kv.2 := by
    intro kv hkv
    obtain ⟨name, -, hjob⟩ := (mapM_eq_ok hjobs).2 kv (mem_of_mem_dictOfItems hkv)
    exact expectedJob_eq_ok hjob
  constructor
  case jobs => exact hread
  case distinct => exact nodup_dictOfItems jobs
  case entries =>
    refine List.map_fst_zip ?_
    rw [List.length_map, List.length_map, length_of_mapM hentries]
  case recorded =>
    intro kv hkv
    have hmem := mem_of_mem_dictOfItems hkv
    rw [List.mem_append, List.mem_append, List.mem_flatMap, List.mem_map, List.mem_flatten] at hmem
    rcases hmem with (⟨entry, hentry, hkv⟩ | ⟨entry, hentry, rfl⟩) | ⟨sums, hsums, hkv⟩
    · obtain ⟨job, hjob, hentry⟩ := (mapM_eq_ok hentries).2 entry hentry
      exact ((jobEntry_eq_ok (hread job hjob) hentry).1 kv hkv).imp_right fun hkey => ⟨job, hjob, hkey⟩
    · obtain ⟨gate, -, hgate⟩ := (mapM_eq_ok hgates).2 entry hentry
      exact Or.inl (gateEntry_eq_ok hgate)
    · obtain ⟨dir, -, hdir⟩ := (mapM_eq_ok hattached).2 sums hsums
      exact Or.inl (attachDir_eq_ok hdir kv hkv)
  case listed =>
    intro job hjob file hfile
    obtain ⟨entry, hentry, hok⟩ := (mapM_eq_ok hentries).1 job hjob
    have hmem := (jobEntry_eq_ok (hread job hjob) hok).2 file hfile
    rw [mem_keys_dictOfItems, List.map_append, List.map_append, List.mem_append, List.mem_append]
    obtain ⟨kv, hkv, hkey⟩ := List.mem_map.mp hmem
    exact Or.inl (Or.inl (hkey ▸ List.mem_map_of_mem (List.mem_flatMap.mpr ⟨entry, hentry, hkv⟩)))

end Evidence

/-! ## The directory that is written -/

section Written

variable {rd : Reader} {root root' : Bundle}

theorem loadJson_congr {name : String} (h : root' name = root name) : loadJson root' name = loadJson root name := by
  unfold loadJson
  rw [h]

theorem loadRuntimeRecord_congr {job rel : String} (h : root' rel = root rel) :
    loadRuntimeRecord root' job rel = loadRuntimeRecord root job rel := by
  unfold loadRuntimeRecord
  rw [h]

/-- An entry is validated against its copy only. -/
theorem loadVexDocument_congr (h : ∀ name, (pathParts name).dropLast = [vexEvidenceDir] → root' name = root name)
    (where_ : String) (files : List (String × String)) (i : Nat) (entry : Json) :
    loadVexDocument rd root' where_ files i entry = loadVexDocument rd root where_ files i entry := by
  unfold loadVexDocument
  refine bind_congr fun path => bind_congr fun copy => bind_congr fun sha => ?_
  cases path with
  | str sourcePath =>
    cases copy with
    | str evidenceFile =>
      dsimp only
      by_cases hcopy : (pathParts evidenceFile).dropLast = [vexEvidenceDir]
      · rw [loadJson_congr (h evidenceFile hcopy)]
      · simp only [if_pos hcopy]
    | _ => rfl
  | _ => rfl

/-- A scan's directory is read by its map, its reports and its copies of approved documents. -/
theorem loadScanJob_congr (hreports : ∀ name ∈ "job.json" :: reportFiles, root' name = root name)
    (hvex : ∀ name, (pathParts name).dropLast = [vexEvidenceDir] → root' name = root name)
    (hfiles : ∀ files, filesOf root "job.json" = .ok files → verifyFiles root' files = verifyFiles root files)
    (path : String) :
    loadScanJob rd root' path = loadScanJob rd root path := by
  have hreport : ∀ name ∈ "job.json" :: reportFiles, loadJson root' name = loadJson root name :=
    fun name hname => loadJson_congr (hreports name hname)
  have hdocuments (where_ : String) (entries : List Json) (files : List (String × String)) :
      loadVexDocuments rd root' where_ entries files = loadVexDocuments rd root where_ entries files := by
    unfold loadVexDocuments
    simp only [loadVexDocument_congr hvex]
  unfold loadScanJob
  rw [hreport "job.json" (by simp), hreport "grype-vuln.json" (by simp [reportFiles]),
    hreport "sbom.cdx.json" (by simp [reportFiles]), hreport "trivy-vuln.json" (by simp [reportFiles]),
    hreport "trivy-image-config.json" (by simp [reportFiles]), hreport "trivy-config.json" (by simp [reportFiles])]
  simp only [hdocuments]
  refine bind_congr_ok fun job hjob => bind_congr_ok fun schema _ => ?_
  split
  · rfl
  · refine bind_congr_ok fun item hitem => bind_congr_ok fun files hdict => ?_
    have hmap : filesOf root "job.json" = .ok files := by
      unfold filesOf
      simp only [bind_eq_ok]
      exact ⟨job, hjob, item, hitem, hdict⟩
    rw [hfiles files hmap]

end Written

section Loads

variable {w : Writer} {out : OutDir} {manifest : Json} {files : List (String × Json)}

theorem written_manifest : written w out manifest files "manifest.json" = some (manifestFile w manifest) := by
  rw [written, if_pos (resolvePath_name out.location (by decide) (by decide))]

theorem written_sums : written w out manifest files "SHA256SUMS" = some (sumsFile w manifest files) := by
  have hne : out.location ++ ["SHA256SUMS"] ≠ out.location ++ ["manifest.json"] := by simp
  rw [written, resolvePath_name out.location (by decide) (by decide), if_neg hne, if_pos rfl]

/-- One of the two files that are written. -/
def OutDir.Overwrites (out : OutDir) (path : String) : Prop :=
  resolvePath out.location path = out.location ++ ["manifest.json"] ∨
    resolvePath out.location path = out.location ++ ["SHA256SUMS"]

theorem written_of_not_overwrites {path : String} (h : ¬ out.Overwrites path) :
    written w out manifest files path = out.files path := by
  rw [OutDir.Overwrites, not_or] at h
  rw [written, if_neg h.1, if_neg h.2]

theorem not_overwrites_of_length {path : String}
    (h : (resolvePath out.location path).length ≠ out.location.length + 1) :
    ¬ out.Overwrites path := by
  rintro (hpath | hpath) <;> simp [hpath] at h

/-- What is not directly in the directory stays. -/
theorem written_of_length {path : String} (h : (resolvePath out.location path).length ≠ out.location.length + 1) :
    written w out manifest files path = out.files path := written_of_not_overwrites (not_overwrites_of_length h)

/-- Writing does not change the reports of the jobs. -/
theorem jobDir_written_report (target : ImageTarget) (mode : ScanMode) {name : String}
    (hname : name ∈ "job.json" :: reportFiles) :
    jobDir (written w out manifest files) target.value mode.value name =
      jobDir out.files target.value mode.value name := by
  have hrelative : ∀ name ∈ "job.json" :: reportFiles, hasPrefix "/" name = false := by decide
  rw [jobDir_relative (hrelative name hname), jobDir_relative (hrelative name hname)]
  exact written_of_length (resolvePath_report _ target mode hname)

/-- What writing leaves to the inputs: every listed file is there, and so are those that a job lists by absolute
names. -/
structure EvidenceKept (root root' : Bundle) (ev : RunEvidence) : Prop where
  files : ∀ kv ∈ ev.files, Recorded root' kv
  absolute : ∀ kv ∈ ev.jobs, ∀ file, JobLists root kv.2 file → hasPrefix "/" file.1 = true → Recorded root' file

/-- The jobs load from the written directory, when the files that are listed are still there. -/
theorem loadScanJob_written {inp : ManifestInput} {ev : RunEvidence} (hread : EvidenceRead w out.files inp ev)
    (hkept : EvidenceKept out.files (written w out manifest files) ev) {kv : String × ScanJobEvidence}
    (hkv : kv ∈ ev.jobs) :
    loadScanJob w.toReader (jobDir (written w out manifest files) kv.2.imageTarget.value kv.2.mode.value)
      (joinPath kv.2.imageTarget.value kv.2.mode.value) = .ok kv.2 := by
  have hloads := (hread.jobs kv hkv).loads
  rw [← hloads]
  refine loadScanJob_congr ?_ ?_ ?_ _
  · intro name hname
    exact jobDir_written_report _ _ hname
  · intro name hname
    have hrelative : hasPrefix "/" name = false := relative_of_vex hname
    rw [jobDir_relative hrelative, jobDir_relative hrelative]
    exact written_of_length (resolvePath_vex _ _ _ hname)
  · intro listed hlisted
    have hlists : ∀ entry ∈ listed, JobLists out.files kv.2 entry := fun entry hentry => ⟨listed, hlisted, hentry⟩
    have hold : ∀ entry ∈ listed, Recorded (jobDir out.files kv.2.imageTarget.value kv.2.mode.value) entry :=
      fun entry hentry => recorded_of_jobLists hloads (hlists entry hentry)
    have hnew : ∀ entry ∈ listed,
        Recorded (jobDir (written w out manifest files) kv.2.imageTarget.value kv.2.mode.value) entry := by
      intro entry hentry
      cases habs : hasPrefix "/" entry.1 with
      | true => exact (recorded_absolute habs).mpr (hkept.absolute kv hkv entry (hlists entry hentry) habs)
      | false =>
        obtain ⟨⟨path, digest⟩, hmem, hpath⟩ := List.mem_map.mp (hread.listed kv hkv entry (hlists entry hentry))
        obtain ⟨new, hnew, hsame⟩ := hkept.files _ hmem
        obtain ⟨file, hfile, hdigest⟩ := (recorded_relative habs).mp (hold entry hentry)
        dsimp only at hpath hnew hsame hfile hdigest
        subst hpath
        -- The key of a relative name is not that of an absolute one.
        have holdFile : Recorded out.files (jobPath kv.2.imageTarget.value kv.2.mode.value entry.1, digest) := by
          refine (hread.recorded _ hmem).resolve_right ?_
          rintro ⟨job, -, file', -, habs', hkey⟩
          rw [← jobPath_name hkey, habs] at habs'
          cases habs'
        obtain ⟨file', hfile', hdigest'⟩ := holdFile
        cases hfile.symm.trans hfile'
        exact (recorded_relative habs).mpr ⟨new, hnew, hdigest.trans (hdigest'.symm.trans hsame)⟩
    rw [verifyFiles_eq hold, verifyFiles_eq hnew]

/-! ### The images -/

theorem Json.item_eq_ok {value : Json} {key : String} {v : Json} :
    value.item key = .ok v ↔ value.get? key = some v := by
  cases value with
  | obj fields =>
    unfold Json.item
    cases (Json.obj fields).get? key <;> simp [Json.isObj]
  | _ => simp [Json.item, Json.get?, Json.isObj]

theorem toDict_eq_ok {image : RegistryImage} {dict : Json} (h : image.toDict w = .ok dict) :
    dict.isObj = true ∧ dict.item "image_id" = .ok (.str image.digest) := by
  unfold RegistryImage.toDict at h
  simp only [bind_eq_ok] at h
  obtain ⟨_, -, _, -, _, -, _, -, _, -, h⟩ := h
  cases h
  exact ⟨rfl, rfl⟩

theorem imagesBlock_eq_ok {images : ImageTarget → Option RegistryImage} {dicts : List (String × Json)}
    (h : imagesBlock w images = .ok dicts) : loadImages (.obj dicts) = .ok dicts ∧
      ∀ target image, images target = some image → ∃ dict, (Json.obj dicts).item target.value = .ok dict ∧
        dict.item "image_id" = .ok (.str image.digest) := by
  obtain ⟨hto, hfrom⟩ := mapM_eq_ok h
  have hentry : ∀ kv ∈ dicts, ∃ target image, images target = some image ∧ kv.1 = target.value ∧
    image.toDict w = .ok kv.2 := by
    intro kv hkv
    obtain ⟨⟨target, image⟩, hmem, hdict⟩ := hfrom kv hkv
    obtain ⟨_, -, himage⟩ := List.mem_filterMap.mp hmem
    obtain ⟨_, hsome, hsame⟩ := Option.map_eq_some_iff.mp himage
    cases hsame
    obtain ⟨dict, htoDict, h⟩ := bind_eq_ok.mp hdict
    cases h
    exact ⟨target, image, hsome, rfl, htoDict⟩
  constructor
  · have hall : (dicts.all fun kv => kv.2.isObj) = true := by
      rw [List.all_eq_true]
      intro kv hkv
      obtain ⟨_, _, -, -, hdict⟩ := hentry kv hkv
      exact (toDict_eq_ok hdict).1
    rw [loadImages, if_pos hall]
  · intro target image himage
    have hmem : (target, image) ∈ [ImageTarget.ci, .lean].filterMap fun target => (images target).map (target, ·) := by
      rw [List.mem_filterMap]
      refine ⟨target, by cases target <;> decide, ?_⟩
      rw [himage]
      rfl
    obtain ⟨kv, hkv, hdict⟩ := hto _ hmem
    obtain ⟨dict, -, h⟩ := bind_eq_ok.mp hdict
    cases h
    -- The first entry of the target's name is the target's.
    have hfind : (dicts.find? fun kv => kv.1 == target.value).isSome := by
      rw [List.find?_isSome]
      exact ⟨_, hkv, beq_self_eq_true _⟩
    obtain ⟨found, hfound⟩ := Option.isSome_iff_exists.mp hfind
    obtain ⟨target', image', himage', hname, hdict'⟩ := hentry found (List.mem_of_find?_eq_some hfound)
    have htarget : target'.value = target.value := hname.symm.trans (by simpa using List.find?_some hfound)
    have hsame : target' = target := by
      revert htarget
      cases target' <;> cases target <;> decide
    subst hsame
    cases himage.symm.trans himage'
    refine ⟨found.2, ?_, (toDict_eq_ok hdict').2⟩
    rw [Json.item_eq_ok, Json.get?, hfound]
    rfl

/-- The text after the last separator ends the text. -/
theorem hasSuffix_afterLast (c : Char) (text : String) : hasSuffix (afterLast c text) text = true := by
  rw [hasSuffix, afterLast, String.toList_ofList, List.isSuffixOf_iff_suffix, ← List.reverse_prefix,
    List.reverse_reverse]
  exact List.takeWhile_prefix _

/-- A job of the written directory is the one that the writer has read. -/
theorem loadJob_written {inp : ManifestInput} {ev : RunEvidence} {images : List (String × Json)}
    (hread : EvidenceRead w out.files inp ev) (hkept : EvidenceKept out.files (written w out manifest files) ev)
    (himages : imagesBlock w inp.images = .ok images) (hitem : manifest.item "images" = .ok (.obj images))
    {kv : String × ScanJobEvidence} (hkv : kv ∈ ev.jobs) :
    loadJob w.toReader (written w out manifest files) manifest (.str kv.1) = .ok kv := by
  obtain ⟨name, job⟩ := kv
  obtain ⟨hname, -, image, himage, hdigest⟩ := hread.jobs _ hkv
  obtain ⟨dict, hdict, hid⟩ := (imagesBlock_eq_ok himages).2 _ image himage
  have hloads := loadScanJob_written hread hkept hkv
  dsimp only at hname hdigest hloads hdict
  have hsuffix : hasSuffix image.digest job.imageRef = true := hdigest ▸ hasSuffix_afterLast '@' job.imageRef
  unfold loadJob
  simp only [hname, hloads, hitem, hdict, hid, bind, Except.bind, hsuffix, if_true, ite_self]

theorem deltaBlock_isObj {images : ImageTarget → Option RegistryImage} {delta : Json}
    (h : deltaBlock w images = .ok delta) :
    delta.isObj = true := by
  unfold deltaBlock at h
  split at h
  · unfold layerDelta at h
    simp only [bind_eq_ok] at h
    obtain ⟨_, -, _, -, _, -, _, -, _, -, _, -, _, -, h⟩ := h
    cases h
    rfl
  · cases h
    rfl

/-! ### The manifest -/

/-- The verdicts of the runtime jobs that are attached. -/
def attachedRecords (root : Bundle) (files : List (String × Json)) : Except LoadError (List (String × RuntimeRecord)) :=
  (runtimeRecords.filter fun r => listsFile (.obj files) r.2.1).mapM fun r =>
    (loadRuntimeRecord root r.1 r.2.1).map fun record => (r.1, record)

theorem loadJson_written {inp : ManifestInput} {ev : RunEvidence} {trigger : Trigger} {start : Stamp}
    {images : List (String × Json)} {delta : Json}
    (hmanifest : manifest = manifestDoc inp ev trigger start images delta) :
    loadJson (written w out manifest files) "manifest.json" = .ok manifest := by
  rw [loadJson, written_manifest, hmanifest]
  rfl

theorem filesOf_written {inp : ManifestInput} {ev : RunEvidence} {trigger : Trigger} {start : Stamp}
    {images : List (String × Json)} {delta : Json}
    (hmanifest : manifest = manifestDoc inp ev trigger start images delta) :
    filesOf (written w out manifest files) "manifest.json" = .ok ev.files := by
  rw [filesOf, loadJson_written hmanifest, ok_bind, hmanifest]
  rfl

/-- What is copied to the manifest is read from it. -/
theorem loadBaseline_written {inp : ManifestInput} {ev : RunEvidence} {trigger : Trigger} {start : Stamp}
    {images : List (String × Json)} {delta : Json} (hread : EvidenceRead w out.files inp ev)
    (himages : imagesBlock w inp.images = .ok images) (hdelta : deltaBlock w inp.images = .ok delta)
    (hmanifest : manifest = manifestDoc inp ev trigger start images delta)
    (hkept : EvidenceKept out.files (written w out manifest ev.files) ev) :
    loadBaseline w.toReader (written w out manifest ev.files) = (do
      let runtime ← attachedRecords out.files ev.files
      let builtAt ← parseTs w.toReader (.str (strftime start))
      let capturedAt ← parseTs w.toReader (.str (strftime inp.now))
      .ok { sourceRepo := inp.sourceRepo, sourceBranch := inp.sourceBranch, sourceSha := inp.sourceSha,
            trigger := trigger.value
            platform := inp.platform, builtAt := builtAt, capturedAt := capturedAt, images := images
            ciLayerDelta := delta
            jobs := ev.jobs, run := inp.run.block inp.sourceRepo, gates := ev.gates, runtime := runtime }) := by
  have hload : loadJson (written w out manifest ev.files) "manifest.json" = .ok manifest := loadJson_written hmanifest
  have hjobs :
      (ev.entries.map fun kv => Json.str kv.1).mapM (loadJob w.toReader (written w out manifest ev.files) manifest) =
      .ok ev.jobs := by
    have hnames : (ev.entries.map fun kv => Json.str kv.1) = ev.jobs.map fun kv => Json.str kv.1 := by
      have hkeys := congrArg (List.map Json.str) hread.entries
      rwa [List.map_map, List.map_map] at hkeys
    rw [hnames]
    refine mapM_map_ok fun kv hkv => loadJob_written hread hkept himages ?_ hkv
    rw [hmanifest]
    rfl
  have hruntime : attachedRecords (written w out manifest ev.files) ev.files = attachedRecords out.files ev.files := by
    unfold attachedRecords
    refine mapM_congr fun r hr => ?_
    rw [loadRuntimeRecord_congr (written_of_length (resolvePath_runtime _ (List.mem_filter.mp hr).1))]
  have hsums : listedSum (sumsFile w manifest ev.files).lines "manifest.json" =
      (written w out manifest ev.files "manifest.json").map BundleFile.sha256 := by
    rw [written_manifest, listedSum_sumsFile]
    rfl
  have hverify :
      verifyFiles (written w out manifest ev.files) ev.files = .ok (ev.files.map fun kv => (kv.1, strJson kv.2)) :=
    verifyFiles_eq hkept.files
  have hdict : dictOfItems ev.jobs = ev.jobs := dictOfItems_of_nodup hread.distinct
  have hentry (key : String) (v : Json) (hv : manifest.get? key = some v) : manifest.item key = .ok v :=
    Json.item_eq_ok.mpr hv
  have hoptional (key : String) (v : Json) (hv : manifest.get? key = some v) : manifest.lookup key = .ok v := by
    rw [Json.lookup, hv, hmanifest]
    rfl
  have hrun : ((Json.obj (inp.run.block inp.sourceRepo)).orElse (.obj [])) = .obj (inp.run.block inp.sourceRepo) := rfl
  have hgates : ((Json.obj ev.gates).orElse (.obj [])) = .obj ev.gates := by
    cases ev.gates <;> rfl
  unfold attachedRecords at hruntime ⊢
  unfold loadBaseline
  simp only [hload, ok_bind,
    hoptional "schema" (.str scanManifestSchema) (by rw [hmanifest]; rfl),
    hentry "files" (.obj ev.files) (by rw [hmanifest]; rfl),
    hentry "jobs" (.obj ev.entries) (by rw [hmanifest]; rfl),
    hentry "ci_layer_delta" delta (by rw [hmanifest]; rfl),
    hoptional "run" (.obj (inp.run.block inp.sourceRepo)) (by rw [hmanifest]; rfl),
    hoptional "gates" (.obj ev.gates) (by rw [hmanifest]; rfl),
    hentry "source_repo" (.str inp.sourceRepo) (by rw [hmanifest]; rfl),
    hentry "source_branch" (.str inp.sourceBranch) (by rw [hmanifest]; rfl),
    hentry "source_sha" (.str inp.sourceSha) (by rw [hmanifest]; rfl),
    hentry "trigger" (.str trigger.value) (by rw [hmanifest]; rfl),
    hentry "platform" (.str inp.platform) (by rw [hmanifest]; rfl),
    hentry "built_at" (.str (strftime start)) (by rw [hmanifest]; rfl),
    hentry "captured_at" (.str (strftime inp.now)) (by rw [hmanifest]; rfl),
    hentry "images" (.obj images) (by rw [hmanifest]; rfl),
    dictOf, hverify, written_sums, hsums, Json.elems, hjobs, hruntime, hrun, hgates, deltaBlock_isObj hdelta, Json.text,
    (imagesBlock_eq_ok himages).1, Bool.not_true, Bool.false_eq_true, if_false]
  rw [dictOfItems] at hdict
  rw [if_neg (by decide), if_neg (not_not.mpr rfl), hdict]

end Loads

/-! ## Agreement -/

/-- The date of a text that shows the clock of a date is the clock read as UTC, to the second. -/
def ClockRead (w : Writer) (date : Stamp) : Prop :=
  ∃ utc, w.fromisoformat (zuluOffset (strftime date)) = some utc ∧
    utc.at_ = (date.at_ + w.utcoffset date) / 1000000 * 1000000

/-- The clock of a date shows the second of its instant in UTC. -/
def ShowsUtc (w : Writer) (date : Stamp) : Prop := (date.at_ + w.utcoffset date) / 1000000 = date.at_ / 1000000

/-- What is loaded is what the writer was given and what it has read; a date is the same instant, to the second. -/
structure ReadBack (w : Writer) (root : Bundle) (inp : ManifestInput) (ev : RunEvidence) (m : BaselineManifest) :
    Prop where
  source : (m.sourceRepo, m.sourceBranch, m.sourceSha) = (inp.sourceRepo, inp.sourceBranch, inp.sourceSha)
  trigger : m.trigger = inp.run.event
  platform : m.platform = inp.platform
  run : m.run = inp.run.block inp.sourceRepo
  images : imagesBlock w inp.images = .ok m.images
  delta : deltaBlock w inp.images = .ok m.ciLayerDelta
  gates : m.gates = ev.gates
  jobs : m.jobs = ev.jobs
  builtAt : ∃ start, earliestStart ev.jobs = some start ∧ m.builtAt.at_ / 1000000 = start.at_ / 1000000
  capturedAt : m.capturedAt.at_ / 1000000 = inp.now.at_ / 1000000
  runtime : ∀ r ∈ runtimeRecords, r.2.1 ∈ ev.files.map Prod.fst →
    ∃ record, loadRuntimeRecord root r.1 r.2.1 = .ok record ∧ (r.1, record) ∈ m.runtime

/-- What the writer leaves to the inputs. -/
structure Restorable (w : Writer) (out : OutDir) (root' : Bundle) (inp : ManifestInput) (ev : RunEvidence) : Prop where
  start : ∀ start ∈ earliestStart ev.jobs, ShowsUtc w start
  now : ShowsUtc w inp.now
  /-- The verdict of a job that did not succeed is well formed too. -/
  verdicts : ∀ r ∈ runtimeRecords, r.2.1 ∈ ev.files.map Prod.fst → Dict.get? inp.run.jobResults r.1 ≠ some "success" →
    ∃ record, loadRuntimeRecord out.files r.1 r.2.1 = .ok record
  /-- A listed file that is written over has the digest that is listed. -/
  kept : ∀ kv ∈ ev.files, out.Overwrites kv.1 → Recorded root' kv
  /-- So has one that a job lists by an absolute name, and the directory of the job has a file of its digest under the
  name. -/
  absolute : ∀ kv ∈ ev.jobs, ∀ file, JobLists out.files kv.2 file → hasPrefix "/" file.1 = true →
    (out.Overwrites file.1 → Recorded root' file) ∧
    ∀ entry ∈ ev.files, entry.1 = jobPath kv.2.imageTarget.value kv.2.mode.value file.1 →
      out.Overwrites entry.1 ∨ Recorded out.files entry

section Agreement

variable {w : Writer} {root root' : Bundle} {inp : ManifestInput} {ev : RunEvidence} {manifest : Json}

theorem ClockRead.sameSecond_iff {date utc : Stamp} (hread : ClockRead w date)
    (hutc : parseTs w.toReader (.str (strftime date)) = .ok utc) :
    utc.at_ / 1000000 = date.at_ / 1000000 ↔ ShowsUtc w date := by
  obtain ⟨utc', hparse, hclock⟩ := hread
  rw [parseTs, hparse] at hutc
  have hsame : utc' = utc := Except.ok.inj hutc
  rw [hsame] at hclock
  change @Eq Int _ _ at hclock
  unfold ShowsUtc
  change @Eq Int _ _ ↔ @Eq Int _ _
  omega

theorem ClockRead.parses {date : Stamp} (hread : ClockRead w date) :
    ∃ utc, parseTs w.toReader (.str (strftime date)) = .ok utc := by
  obtain ⟨utc, hparse, -⟩ := hread
  exact ⟨utc, by rw [parseTs, hparse]; rfl⟩

theorem parseTs_eq_ok {rd : Reader} {value : Json} {date : Stamp} (h : parseTs rd value = .ok date) :
    ∃ d, rd.fromisoformat d = some date := by
  cases value with
  | str s =>
    rw [parseTs] at h
    cases hdate : rd.fromisoformat (zuluOffset s) with
    | none =>
      rw [hdate] at h
      cases h
    | some found =>
      rw [hdate] at h
      cases h
      exact ⟨_, hdate⟩
  | _ => cases h

/-- The start of a job that loads is a date of the library. -/
theorem loadScanJob_startedAt {rd : Reader} {path : String} {job : ScanJobEvidence}
    (h : loadScanJob rd root path = .ok job) :
    ∃ d, rd.fromisoformat d = some job.startedAt := by
  unfold loadScanJob at h
  simp only [bind_eq_ok, guard_eq_ok] at h
  obtain ⟨_, -, _, -, -, _, -, _, -, _, -, h⟩ := h
  obtain ⟨_, -, _, -, _, -, _, -, _, -, _, -, _, -, _, -, _, -, _, -, -, h⟩ := h
  obtain ⟨_, -, _, -, _, -, _, -, _, -, _, -, _, -, _, -, _, -, _, -, startedAt, hstart, _, -, _, -, h⟩ := h
  obtain ⟨_, -, _, -, _, -, _, -, _, -, h⟩ := h
  cases h
  exact parseTs_eq_ok hstart

/-- What the writer has done when it returns. -/
theorem writeScanManifest_eq_ok {out : OutDir} (h : writeScanManifest w out inp = .ok (manifest, root'))
    (hev : readEvidence w out inp = .ok ev) : ∃ trigger start images delta,
      (∀ r ∈ runtimeRecords, checkRuntime out.files inp ev.files r = .ok ()) ∧ inp.run.trigger = .ok trigger ∧
      earliestStart ev.jobs = some start ∧ imagesBlock w inp.images = .ok images ∧ deltaBlock w inp.images = .ok delta ∧
      manifest = manifestDoc inp ev trigger start images delta ∧ root' = written w out manifest ev.files := by
  unfold writeScanManifest at h
  rw [hev, ok_bind] at h
  simp only [guard_eq_ok, bind_eq_ok, liftLoad_eq_ok] at h
  obtain ⟨-, units, hunits, trigger, htrigger, h⟩ := h
  split at h
  · cases h
  · rename_i start hstart
    simp only [bind_eq_ok, liftLoad_eq_ok] at h
    obtain ⟨images, himages, delta, hdelta, h⟩ := h
    cases h
    refine ⟨trigger, start, images, delta, ?_, htrigger, hstart, himages, hdelta, rfl, rfl⟩
    intro r hr
    obtain ⟨_, -, hchecked⟩ := (mapM_eq_ok hunits).1 r hr
    exact hchecked

theorem WorkflowRun.trigger_eq_ok {run : WorkflowRun} {trigger : Trigger} (h : run.trigger = .ok trigger) :
    trigger.value = run.event := by
  unfold WorkflowRun.trigger at h
  split at h
  · rename_i found hfound
    cases h
    have hevent := List.find?_some hfound
    simpa using (of_decide_eq_true hevent).symm
  · cases h

/-- The verdict of a job that succeeded was read. -/
theorem checkRuntime_eq_ok {files : List (String × Json)} {r : String × String × ImageTarget}
    (h : checkRuntime root inp files r = .ok ()) (hsuccess : Dict.get? inp.run.jobResults r.1 = some "success") :
    ∃ record, loadRuntimeRecord root r.1 r.2.1 = .ok record := by
  unfold checkRuntime at h
  obtain ⟨job, rel, target⟩ := r
  dsimp only at h hsuccess
  rw [if_neg (not_not.mpr hsuccess)] at h
  simp only [guard_eq_ok, bind_eq_ok, liftLoad_eq_ok] at h
  obtain ⟨-, record, hrecord, -⟩ := h
  exact ⟨record, hrecord⟩

theorem earliestStart_mem {jobs : List (String × ScanJobEvidence)} {start : Stamp}
    (h : earliestStart jobs = some start) :
    ∃ kv ∈ jobs, kv.2.startedAt = start := List.mem_map.mp (List.argmin_mem h)

theorem mem_attached {files : List (String × Json)} {r : String × String × ImageTarget} :
    r ∈ runtimeRecords.filter (fun r => listsFile (.obj files) r.2.1) ↔ r ∈ runtimeRecords ∧
    r.2.1 ∈ files.map Prod.fst := by
  rw [List.mem_filter]
  simp [listsFile]

/-- The attached verdicts are read when each of them is. -/
theorem attachedRecords_eq_ok {files : List (String × Json)}
    (h : ∀ r ∈ runtimeRecords, r.2.1 ∈ files.map Prod.fst → ∃ record, loadRuntimeRecord root r.1 r.2.1 = .ok record) :
    ∃ runtime, attachedRecords root files = .ok runtime := by
  refine exists_mapM_ok fun r hr => ?_
  obtain ⟨hr, hlisted⟩ := mem_attached.mp hr
  obtain ⟨record, hrecord⟩ := h r hr hlisted
  exact ⟨(r.1, record), by rw [hrecord]; rfl⟩

/-- What is attached is read. -/
theorem mem_attachedRecords {files : List (String × Json)} {runtime : List (String × RuntimeRecord)}
    (h : attachedRecords root files = .ok runtime) {r : String × String × ImageTarget} (hr : r ∈ runtimeRecords)
    (hlisted : r.2.1 ∈ files.map Prod.fst) :
    ∃ record, loadRuntimeRecord root r.1 r.2.1 = .ok record ∧ (r.1, record) ∈ runtime := by
  obtain ⟨entry, hentry, hok⟩ := (mapM_eq_ok h).1 r (mem_attached.mpr ⟨hr, hlisted⟩)
  cases hrecord : loadRuntimeRecord root r.1 r.2.1 with
  | error e =>
    rw [hrecord] at hok
    cases hok
  | ok record =>
    rw [hrecord] at hok
    cases hok
    exact ⟨record, rfl, hentry⟩

theorem recorded_written {out : OutDir} {files : List (String × Json)} {kv : String × Json}
    (h : ¬ out.Overwrites kv.1) :
    Recorded (written w out manifest files) kv ↔ Recorded out.files kv := by
  rw [Recorded, Recorded, written_of_not_overwrites h]

/-- The files that are not written over are there, but for the keys that are made of absolute names. -/
theorem Restorable.keeps {out : OutDir} {files : List (String × Json)} (hread : EvidenceRead w out.files inp ev)
    (h : Restorable w out (written w out manifest files) inp ev) :
    EvidenceKept out.files (written w out manifest files) ev := by
  constructor
  case files =>
    intro kv hkv
    by_cases hover : out.Overwrites kv.1
    · exact h.kept kv hkv hover
    · refine (recorded_written hover).mpr ?_
      rcases hread.recorded kv hkv with hrecorded | ⟨job, hjob, file, hlists, habs, hkey⟩
      · exact hrecorded
      · exact ((h.absolute job hjob file hlists habs).2 kv hkv hkey).resolve_left hover
  case absolute =>
    intro kv hkv file hlists habs
    by_cases hover : out.Overwrites file.1
    · exact (h.absolute kv hkv file hlists habs).1 hover
    · exact (recorded_written hover).mpr
        ((recorded_absolute habs).mp (recorded_of_jobLists (hread.jobs kv hkv).loads hlists))

/-- The files of a written directory that loads, with the jobs that were read. -/
theorem kept_of_loadBaseline {out : OutDir} {files : List (String × Json)} {m : BaselineManifest}
    (hread : EvidenceRead w out.files inp ev)
    (hlisted : filesOf (written w out manifest files) "manifest.json" = .ok ev.files)
    (hm : loadBaseline w.toReader (written w out manifest files) = .ok m) (hjobs : m.jobs = ev.jobs) :
    EvidenceKept out.files (written w out manifest files) ev := by
  obtain ⟨⟨expected, sums, hexpected, hsums⟩, hscans⟩ := loadBaseline_verified hm
  constructor
  case files =>
    cases hexpected.symm.trans hlisted
    exact recorded_of_verifyFiles hsums
  case absolute =>
    intro kv hkv file hlists habs
    obtain ⟨target, mode, hname, hloads⟩ := hscans kv (hjobs ▸ hkv)
    cases (hread.jobs kv hkv).name.symm.trans hname
    have hsame : JobLists (written w out manifest files) kv.2 file := by
      obtain ⟨listed, hlisted, hmem⟩ := hlists
      refine ⟨listed, ?_, hmem⟩
      rwa [filesOf, loadJson_congr (jobDir_written_report _ _ List.mem_cons_self)]
    exact (recorded_absolute habs).mp (recorded_of_jobLists hloads hsame)

/-- What is computed again of a written directory that loads. -/
theorem loadBaseline_of_written {out : OutDir} {m : BaselineManifest} (hev : readEvidence w out inp = .ok ev)
    (h : writeScanManifest w out inp = .ok (manifest, root')) (hm : loadBaseline w.toReader root' = .ok m)
    (hjobs : m.jobs = ev.jobs) :
    (∀ start ∈ earliestStart ev.jobs, parseTs w.toReader (.str (strftime start)) = .ok m.builtAt) ∧
      parseTs w.toReader (.str (strftime inp.now)) = .ok m.capturedAt ∧
      attachedRecords out.files ev.files = .ok m.runtime ∧
      EvidenceKept out.files root' ev := by
  have hread := readEvidence_eq_ok hev
  obtain ⟨trigger, start, images, delta, -, -, hstart, himages, hdelta, hmanifest, rfl⟩ := writeScanManifest_eq_ok h hev
  have hkept : EvidenceKept out.files (written w out manifest ev.files) ev :=
    kept_of_loadBaseline hread (filesOf_written hmanifest) hm hjobs
  rw [loadBaseline_written hread himages hdelta hmanifest hkept] at hm
  simp only [bind_eq_ok] at hm
  obtain ⟨runtime, hruntime, builtAt, hbuilt, capturedAt, hcaptured, hm⟩ := hm
  cases hm
  refine ⟨?_, hcaptured, hruntime, hkept⟩
  intro start' hstart'
  cases hstart.symm.trans hstart'
  exact hbuilt

end Agreement

/-- **The manifest.** What is read back of a written directory is what the writer was given and has read exactly when
the clocks of the earliest start and of the capture show UTC, the verdicts that are attached for jobs that did not
succeed are well formed too, no listed file is written over with another digest, and an absolute name that a job lists
names a file of its digest below the job's directory as well. -/
theorem manifest_agrees_iff (w : Writer) (out : OutDir) (inp : ManifestInput) (ev : RunEvidence) (manifest : Json)
    (root : Bundle)
    (hlib : ∀ d date, w.fromisoformat d = some date → ClockRead w date) (hnow : ∃ d, w.fromisoformat d = some inp.now)
    (hev : readEvidence w out inp = .ok ev) (h : writeScanManifest w out inp = .ok (manifest, root)) :
    (∃ m, loadBaseline w.toReader root = .ok m ∧ ReadBack w out.files inp ev m) ↔ Restorable w out root inp ev := by
  have hread := readEvidence_eq_ok hev
  obtain ⟨trigger, start, images, delta, hchecked, htrigger, hstart, himages, hdelta, hmanifest, rfl⟩ :=
    writeScanManifest_eq_ok h hev
  have hstartRead : ClockRead w start := by
    obtain ⟨kv, hkv, rfl⟩ := earliestStart_mem hstart
    obtain ⟨d, hd⟩ := loadScanJob_startedAt (hread.jobs kv hkv).loads
    exact hlib d _ hd
  have hnowRead : ClockRead w inp.now := by
    obtain ⟨d, hd⟩ := hnow
    exact hlib d _ hd
  constructor
  · rintro ⟨m, hm, hback⟩
    obtain ⟨hbuilt, hcaptured, hruntime, hkept⟩ := loadBaseline_of_written hev h hm hback.jobs
    obtain ⟨start', hstart', hsecond⟩ := hback.builtAt
    cases hstart.symm.trans hstart'
    constructor
    case start =>
      intro start' hstart'
      cases hstart.symm.trans hstart'
      exact (hstartRead.sameSecond_iff (hbuilt start hstart)).mp hsecond
    case now => exact (hnowRead.sameSecond_iff hcaptured).mp hback.capturedAt
    case verdicts =>
      intro r hr hlisted _
      obtain ⟨record, hrecord, -⟩ := mem_attachedRecords hruntime hr hlisted
      exact ⟨record, hrecord⟩
    case kept => exact fun kv hkv _ => hkept.files kv hkv
    case absolute =>
      intro kv hkv file hlists habs
      refine ⟨fun _ => hkept.absolute kv hkv file hlists habs, fun entry hentry _ => ?_⟩
      by_cases hover : out.Overwrites entry.1
      · exact Or.inl hover
      · exact Or.inr ((recorded_written hover).mp (hkept.files entry hentry))
  · intro hrestorable
    have hkept := hrestorable.keeps hread
    obtain ⟨runtime, hruntime⟩ : ∃ runtime, attachedRecords out.files ev.files = .ok runtime := by
      refine attachedRecords_eq_ok fun r hr hlisted => ?_
      by_cases hsuccess : Dict.get? inp.run.jobResults r.1 = some "success"
      · exact checkRuntime_eq_ok (hchecked r hr) hsuccess
      · exact hrestorable.verdicts r hr hlisted hsuccess
    obtain ⟨builtAt, hbuilt⟩ := hstartRead.parses
    obtain ⟨capturedAt, hcaptured⟩ := hnowRead.parses
    have hloads := loadBaseline_written hread himages hdelta hmanifest hkept
    rw [hruntime, hbuilt, hcaptured] at hloads
    simp only [ok_bind] at hloads
    refine ⟨_, hloads, ?_⟩
    constructor
    case source => rfl
    case trigger => exact WorkflowRun.trigger_eq_ok htrigger
    case platform => rfl
    case run => rfl
    case images => exact himages
    case delta => exact hdelta
    case gates => rfl
    case jobs => rfl
    case builtAt => exact ⟨start, hstart, (hstartRead.sameSecond_iff hbuilt).mpr (hrestorable.start start hstart)⟩
    case capturedAt => exact (hnowRead.sameSecond_iff hcaptured).mpr hrestorable.now
    case runtime => exact fun r hr hlisted => mem_attachedRecords hruntime hr hlisted

/-! ### A run -/

theorem sampleSha256_hex {c : Char} (h : c ∈ "0123456789abcdef".toList) :
    (sampleSha256 c).toList.all (· ∈ "0123456789abcdef".toList) = true := by
  rw [sampleSha256, String.toList_ofList, List.all_eq_true]
  intro d hd
  rw [List.eq_of_mem_replicate hd]
  exact decide_eq_true h

theorem sampleSha256_two : (sampleSha256 '2').toList.all (· ∈ "0123456789abcdef".toList) = true :=
  sampleSha256_hex (by decide)

/-- The midnight of the new year in UTC, and ten o'clock of that day in UTC and two hours east of it. -/
def sampleDates : List (String × Stamp) :=
  [(sampleDate, ⟨63902908800000000, sampleDate⟩),
    ("2026-01-01T10:00:00+00:00", ⟨63902944800000000, "2026-01-01T10:00:00+00:00"⟩),
    ("2026-01-01T10:00:00+02:00", ⟨63902937600000000, "2026-01-01T10:00:00+02:00"⟩)]

/-- A library of three dates, whose digests are all one. -/
def sampleWriter : Writer :=
  { sampleReader with
    fromisoformat := Dict.get? sampleDates
    utcoffset := fun date => if hasSuffix "+02:00" date.iso then 7200000000 else 0
    intOfText := fun _ => none
    dumps := fun _ => "\x7b\x7d"
    sha256 := fun _ => ⟨sampleSha256 '2', sampleSha256_two⟩ }

/-- The date that a date is written as. -/
theorem sampleWriter_clock : ∀ d date, sampleWriter.fromisoformat d = some date → ClockRead sampleWriter date := by
  intro d date hdate
  have hmem : (d, date) ∈ sampleDates := Dict.mem_of_get? hdate
  simp only [sampleDates, List.mem_cons, List.not_mem_nil, or_false, Prod.mk.injEq] at hmem
  rcases hmem with ⟨-, rfl⟩ | ⟨-, rfl⟩ | ⟨-, rfl⟩
  · exact ⟨⟨63902908800000000, sampleDate⟩, by decide +kernel, by decide +kernel⟩
  · exact ⟨⟨63902944800000000, "2026-01-01T10:00:00+00:00"⟩, by decide +kernel, by decide +kernel⟩
  · exact ⟨⟨63902944800000000, "2026-01-01T10:00:00+00:00"⟩, by decide +kernel, by decide +kernel⟩

/-- A scan that started at `startedAt`, and the verdict of the smoke test. -/
def sampleOut (startedAt : String) : OutDir :=
  let job := Json.obj [("schema", .str jobSchema), ("files", .obj [("sbom.cdx.json", .str (sampleSha256 '0'))]),
    ("mode", .str "raw"),
    ("image_ref", .str ("superset-lean@" ++ sampleImage '1')), ("image_target", .str "lean"),
    ("platform", .str "linux/amd64"),
    ("layer_scope", .str "all-layers"), ("started_at", .str startedAt), ("finished_at", .str startedAt),
    ("tools", .obj [("syft", .obj [("version", .str "1.45.1")]), ("trivy", .obj [("version", .str "0.71.2")]),
      ("grype", .obj [("version", .str "0.114.0")])])]
  let docs := [("runtime/lean-smoke/lean-smoke.json", sampleVerdict (sampleImage '1')), ("lean/raw/job.json", job),
    ("lean/raw/SHA256SUMS", .null)] ++ (sampleJobFile "raw" "lean" (sampleImage '1')).tail.map fun kv =>
    ("lean/raw/" ++ kv.1, kv.2)
  { location := ["work", "out"]
    files := fun path => (Dict.get? docs path).map fun doc => { sha256 := sampleSha256 '0', json := some doc }
    filesUnder := fun dir => if dir = "runtime/lean-smoke" then some ["runtime/lean-smoke/lean-smoke.json"] else none }

/-- A push whose smoke test passed. -/
def sampleInput : ManifestInput :=
  { sourceRepo := forkRepo, sourceBranch := remediationBranch, sourceSha := sampleCommit 'a', platform := "linux/amd64"
    images := fun target => if target = .lean then some ⟨"lean", sampleImage '1', [], []⟩ else none
    run := { runId := 1, runAttempt := 1, event := "push", workflowSha := sampleCommit 'a', ref := "refs/heads/master"
             gateMode := .report, jobResults := [("lean-smoke", "success")] }
    expectedJobs := ["lean-raw"], attachDirs := ["runtime/lean-smoke"]
    now := ⟨63902944800000000, "2026-01-01T10:00:00+00:00"⟩ }

/-- A job that started two hours east of UTC is dated two hours late. -/
theorem manifest_misdated :
    ∃ (w : Writer) (out : OutDir) (inp : ManifestInput) (ev : RunEvidence) (manifest : Json) (root : Bundle),
    (∀ d date, w.fromisoformat d = some date → ClockRead w date) ∧ (∃ d, w.fromisoformat d = some inp.now) ∧
      readEvidence w out inp = .ok ev ∧ writeScanManifest w out inp = .ok (manifest, root) ∧
      ¬ ∃ m, loadBaseline w.toReader root = .ok m ∧ ReadBack w out.files inp ev m := by
  have hwrites :
      (writeScanManifest sampleWriter (sampleOut "2026-01-01T10:00:00+02:00") sampleInput).toOption.isSome = true := by
    decide +kernel
  have hreads : ((readEvidence sampleWriter (sampleOut "2026-01-01T10:00:00+02:00") sampleInput).toOption.any fun ev =>
      earliestStart ev.jobs == some ⟨63902937600000000, "2026-01-01T10:00:00+02:00"⟩) = true := by
    decide +kernel
  have hdate : parseTs sampleWriter.toReader (.str (strftime ⟨63902937600000000, "2026-01-01T10:00:00+02:00"⟩)) =
      .ok ⟨63902944800000000, "2026-01-01T10:00:00+00:00"⟩ := by
    rfl
  obtain ⟨⟨manifest, root⟩, hwritten⟩ := exists_ok_of_isSome hwrites
  obtain ⟨ev, hev, hstart⟩ := exists_ok_of_any hreads
  refine ⟨sampleWriter, _, sampleInput, ev, manifest, root, sampleWriter_clock,
    ⟨"2026-01-01T10:00:00+00:00", by decide +kernel⟩, hev,
    hwritten, ?_⟩
  rintro ⟨m, hm, hback⟩
  obtain ⟨start, hstart', hsecond⟩ := hback.builtAt
  obtain ⟨hbuilt, -⟩ := loadBaseline_of_written hev hwritten hm hback.jobs
  have hlate := hbuilt start hstart'
  rw [eq_of_beq hstart, Option.some.injEq] at hstart'
  subst hstart'
  rw [← Except.ok.inj (hdate.symm.trans hlate)] at hsecond
  cases hsecond

/-- A run in UTC is read back. -/
theorem manifest_read_back : ∃ (ev : RunEvidence) (manifest : Json) (root : Bundle) (m : BaselineManifest),
    writeScanManifest sampleWriter (sampleOut sampleDate) sampleInput = .ok (manifest, root) ∧
      loadBaseline sampleWriter.toReader root = .ok m ∧
        ReadBack sampleWriter (sampleOut sampleDate).files sampleInput ev m := by
  have hwrites : (writeScanManifest sampleWriter (sampleOut sampleDate) sampleInput).toOption.isSome = true := by
    decide +kernel
  have hreads : ((readEvidence sampleWriter (sampleOut sampleDate) sampleInput).toOption.any fun ev =>
      earliestStart ev.jobs == some ⟨63902908800000000, sampleDate⟩ && ev.files.all fun kv =>
        (resolvePath ["work", "out"] kv.1).length != 3 && kv.1 != "runtime/app-runs/app-runs.json") = true := by
    decide +kernel
  have hlisted : ((readEvidence sampleWriter (sampleOut sampleDate) sampleInput).toOption.any fun ev =>
      ev.jobs.all fun kv => kv.2.imageTarget == .lean && kv.2.mode == .raw) = true := by
    decide +kernel
  have hmap : (filesOf (jobDir (sampleOut sampleDate).files "lean" "raw") "job.json").toOption.any
      (fun files => files.all fun kv => !hasPrefix "/" kv.1) = true := by
    decide +kernel
  obtain ⟨⟨manifest, root⟩, hwritten⟩ := exists_ok_of_isSome hwrites
  obtain ⟨ev, hev, hchecked⟩ := exists_ok_of_any hreads
  rw [Bool.and_eq_true, List.all_eq_true] at hchecked
  obtain ⟨hstart, hpaths⟩ := hchecked
  have hutc : ∀ date : Stamp, hasSuffix "+02:00" date.iso = false → ShowsUtc sampleWriter date := by
    intro date hdate
    show ((date.at_ : Int) + if hasSuffix "+02:00" date.iso then 7200000000 else 0) / 1000000 = date.at_ / 1000000
    rw [hdate]
    simp
  obtain ⟨m, hm, hback⟩ :=
    (manifest_agrees_iff sampleWriter (sampleOut sampleDate) sampleInput ev manifest root sampleWriter_clock
    ⟨"2026-01-01T10:00:00+00:00", by decide +kernel⟩ hev hwritten).mpr
    { start := by
        intro start hmem
        rw [eq_of_beq hstart, Option.mem_some_iff] at hmem
        exact hmem ▸ hutc _ (by decide)
      now := hutc _ (by decide)
      verdicts := by
        intro r hr hlisted hfailed
        have hsmoke : Dict.get? sampleInput.run.jobResults "lean-smoke" = some "success" := rfl
        simp only [runtimeRecords, List.mem_cons, List.not_mem_nil, or_false] at hr
        rcases hr with rfl | rfl
        · exact absurd hsmoke hfailed
        · obtain ⟨kv, hkv, hname⟩ := List.mem_map.mp hlisted
          have hother := hpaths kv hkv
          rw [hname] at hother
          simp at hother
      kept := by
        intro kv hkv hover
        have hlength := hpaths kv hkv
        rw [Bool.and_eq_true, bne_iff_ne] at hlength
        exact absurd hover (not_overwrites_of_length hlength.1)
      absolute := by
        intro kv hkv file hlists habs
        obtain ⟨files, hfiles, hmem⟩ := hlists
        obtain ⟨ev', hev', hjobs⟩ := exists_ok_of_any hlisted
        cases hev.symm.trans hev'
        obtain ⟨files', hfiles', hrelative⟩ := exists_ok_of_any hmap
        have hjob := List.all_eq_true.mp hjobs kv hkv
        rw [Bool.and_eq_true, beq_iff_eq, beq_iff_eq] at hjob
        rw [hjob.1, hjob.2] at hfiles
        cases hfiles.symm.trans hfiles'
        have hname := List.all_eq_true.mp hrelative file hmem
        rw [habs] at hname
        cases hname }
  exact ⟨ev, manifest, root, m, hwritten, hm, hback⟩

end HardeningLoop
