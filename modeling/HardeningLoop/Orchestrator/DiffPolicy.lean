import HardeningLoop.Orchestrator.Policy
import Mathlib.Data.List.Infix
import Mathlib.Data.List.TakeWhile

/-!
# What the diff policy sees

`diffPolicyViolations` looks at the name each changed file has now.

- `sees_protected_iff`: a protected path that is renamed away is seen only when the new names violate the policy
  themselves;
- `at_least_as_strict_iff`: CI's search for ignore files looks at every directory and at one more name.
-/

namespace HardeningLoop

/-! ## The diff -/

/-- A scanner ignore file, as the policy recognizes it. -/
def isIgnoreFile (n : String) : Bool := baseName n ∈ ignoreFileNames || hasPrefix ".grype/" n || hasInfix "/.grype/" n

/-- What no pull request may touch. -/
def isProtectedPath (n : String) : Bool :=
  isIgnoreFile n || n ∈ protectedPaths || hasPrefix "ci-negative/" n || isVexApproved n

/-- A path of the VEX tree that is neither proposed nor approved. -/
def isVexElsewhere (n : String) : Bool := hasPrefix "security/vex/" n && !isVexProposed n && !isVexApproved n

/-- The name a renamed file had. -/
def DiffFile.renamedFrom (f : DiffFile) : Option String := if f.status = "renamed" then f.previousFilename else none

/-- The paths a change adds, modifies or removes: a rename touches two. -/
def DiffFile.touched (f : DiffFile) : List String := f.filename :: f.renamedFrom.toList

/-- The policy objects to a diff that touches a protected path. -/
def SeesProtected (files : List DiffFile) (kind : Kind) : Prop :=
  (∃ f ∈ files, ∃ path ∈ f.touched, isProtectedPath path = true) → diffPolicyViolations files kind ≠ []

/-- The names the files have now pass every rule of the policy. -/
structure NamesPass (files : List DiffFile) (kind : Kind) : Prop where
  paths : ∀ f ∈ files, isProtectedPath f.filename = false ∧ isVexElsewhere f.filename = false
  pins : kind ≠ .dependencyUpgrade → (∃ f ∈ files, isGeneratedRequirements f.filename = true) →
    ∃ f ∈ files, isRequirementSource f.filename = true
  noFix : kind = .noFixReachability →
    ∀ f ∈ files, isVexProposed f.filename = true ∨ hasPrefix "security/analysis/" f.filename = true
  analysis : kind ≠ .scannerDisagreement

theorem fileViolations_eq_nil (n : String) :
    fileViolations n = [] ↔ isProtectedPath n = false ∧ isVexElsewhere n = false := by
  simp only [fileViolations, isProtectedPath, isVexElsewhere, isIgnoreFile, List.append_eq_nil_iff, ite_eq_right_iff,
    List.cons_ne_nil, imp_false]
  cases decide (baseName n ∈ ignoreFileNames) <;> cases decide (n ∈ protectedPaths) <;> simp

theorem filter_names_eq_nil (files : List DiffFile) (p : String → Bool) :
    (files.map DiffFile.filename).filter p = [] ↔ ∀ f ∈ files, p f.filename = false := by
  simp [List.filter_eq_nil_iff]

/-- The policy has no violation exactly when the names pass. -/
theorem diffPolicyViolations_eq_nil (files : List DiffFile) (kind : Kind) :
    diffPolicyViolations files kind = [] ↔ NamesPass files kind := by
  have hpins : (((files.map DiffFile.filename).filter isGeneratedRequirements ≠ [] &&
      (files.map DiffFile.filename).filter isRequirementSource = [] && kind ≠ .dependencyUpgrade : Bool) = false) ↔
      (kind ≠ .dependencyUpgrade → (∃ f ∈ files, isGeneratedRequirements f.filename = true) →
        ∃ f ∈ files, isRequirementSource f.filename = true) := by
    simp only [Bool.and_eq_false_iff, decide_eq_false_iff_not, ne_eq, filter_names_eq_nil]
    by_cases hk : kind = .dependencyUpgrade
    · simp [hk]
    · simp only [hk, not_true_eq_false, or_false, not_false_eq_true, true_imp_iff, not_forall, Bool.not_eq_false]
      constructor
      · rintro (hnone | ⟨f, hf, hsource⟩) ⟨g, hg, hgenerated⟩
        · have hall : ∀ f ∈ files, isGeneratedRequirements f.filename = false := by simpa using hnone
          rw [hall g hg] at hgenerated
          cases hgenerated
        · exact ⟨f, hf, hsource⟩
      · intro h
        by_cases hgenerated : ∃ f ∈ files, isGeneratedRequirements f.filename = true
        · obtain ⟨f, hf, hsource⟩ := h hgenerated
          exact Or.inr ⟨f, hf, hsource⟩
        · exact Or.inl fun hsome => hgenerated (by simpa using hsome)
  constructor
  · intro h
    simp only [diffPolicyViolations, List.append_eq_nil_iff, List.flatMap_eq_nil_iff, List.mem_map, forall_exists_index,
      and_imp, forall_apply_eq_imp_iff₂, fileViolations_eq_nil] at h
    obtain ⟨⟨⟨hpaths, hgenerated⟩, hnoFix⟩, hanalysis⟩ := h
    refine ⟨hpaths, hpins.mp ?_, fun hk f hf => ?_, fun hk => ?_⟩
    · by_contra hc
      rw [Bool.not_eq_false] at hc
      rw [if_pos hc] at hgenerated
      cases hgenerated
    · rw [if_pos hk, List.map_eq_nil_iff, filter_names_eq_nil] at hnoFix
      simpa [or_iff_not_imp_left] using hnoFix f hf
    · rw [if_pos hk] at hanalysis
      cases hanalysis
  · rintro ⟨hpaths, hgenerated, hnoFix, hanalysis⟩
    have hnames : (files.map DiffFile.filename).flatMap fileViolations = [] := by
      rw [List.flatMap_eq_nil_iff]
      intro n hn
      obtain ⟨f, hf, rfl⟩ := List.mem_map.mp hn
      exact (fileViolations_eq_nil _).mpr (hpaths f hf)
    have hfix : (if kind = .noFixReachability then
        ((files.map DiffFile.filename).filter fun n => !(isVexProposed n || hasPrefix "security/analysis/" n)).map
          fun n =>
          "no-fix PR may only add proposed VEX/analysis, found: " ++ n
        else []) = [] := by
      split
      · rename_i hk
        rw [List.map_eq_nil_iff, filter_names_eq_nil]
        intro f hf
        simpa [or_iff_not_imp_left] using hnoFix hk f hf
      · rfl
    unfold diffPolicyViolations
    dsimp only
    rw [hnames, hfix, if_neg hanalysis, hpins.mpr hgenerated]
    rfl

/-- **A rename hides the old name.** A diff that touches a protected path is refused, unless the names the files have
now pass the policy and a protected one was renamed away. -/
theorem sees_protected_iff (files : List DiffFile) (kind : Kind) :
    SeesProtected files kind ↔
      (NamesPass files kind → ∀ f ∈ files, ∀ old ∈ f.renamedFrom, isProtectedPath old = false) := by
  unfold SeesProtected
  rw [Ne, diffPolicyViolations_eq_nil]
  constructor
  · intro h hpass f hf old hold
    by_contra hprotected
    rw [Bool.not_eq_false] at hprotected
    exact h ⟨f, hf, old, List.mem_cons_of_mem _ (Option.mem_toList.mpr hold), hprotected⟩ hpass
  · rintro h ⟨f, hf, path, hpath, hprotected⟩ hpass
    rcases List.mem_cons.mp hpath with rfl | hold
    · rw [(hpass.paths f hf).1] at hprotected
      cases hprotected
    · rw [h hpass f hf path (Option.mem_toList.mp hold)] at hprotected
      cases hprotected

/-- The security scan is renamed to a document. -/
theorem protected_renamed_away : ¬ ∀ files kind, SeesProtected files kind := by
  intro h
  have hsees := h [⟨"docs/old-scan.yml", "renamed", some ".github/workflows/security-scan.yml"⟩] .dependencyUpgrade
  exact hsees ⟨_, List.mem_singleton_self _, ".github/workflows/security-scan.yml", by decide, by decide⟩ (by decide)

/-! ## CI's search -/

/-- `FORBIDDEN_IGNORE_FILES`. -/
def forbiddenIgnoreFiles : List String :=
  [".trivyignore", ".trivyignore.yaml", ".trivyignore.yml", ".grype.yaml", ".grype.yml", ".grype"]

/-- The path of a file in a repository, by the names on it. -/
structure RepoPath where
  dirs : List String
  name : String
  plain : ∀ part ∈ dirs ++ [name], part ≠ "" ∧ '/' ∉ part.toList

namespace RepoPath

def parts (path : RepoPath) : List String := path.dirs ++ [path.name]

/-- The path as Git writes it. -/
def text (path : RepoPath) : String := "/".intercalate path.parts

/-- The entries of the tree that hold a file: itself and its directories. -/
def entries (path : RepoPath) : List (List String) := path.parts.inits.filter (· ≠ [])

end RepoPath

/-- `find_ignore_files`, on the tree of the files. -/
def findIgnoreFiles (tree : List RepoPath) : List String :=
  let entries := (tree.flatMap RepoPath.entries).eraseDups
  sortTexts (forbiddenIgnoreFiles.flatMap fun name =>
    (entries.filter fun entry => entry.getLast? == some name && "node_modules" ∉ entry).map ("/".intercalate ·))

/-- A file that adds a hit to CI's search is refused in every diff that adds it. -/
def AtLeastAsStrict (path : RepoPath) : Prop :=
  ∀ tree, (∃ hit ∈ findIgnoreFiles (tree ++ [path]), hit ∉ findIgnoreFiles tree) →
    ∀ (kind : Kind) (files : List DiffFile), { filename := path.text, status := "added" } ∈ files →
      diffPolicyViolations files kind ≠ []

/-- An entry that CI reports. -/
def IsHit (entry : List String) : Prop :=
  ∃ name ∈ forbiddenIgnoreFiles, entry.getLast? = some name ∧ "node_modules" ∉ entry

theorem mem_findIgnoreFiles {tree : List RepoPath} {hit : String} : hit ∈ findIgnoreFiles tree ↔
    ∃ file ∈ tree, ∃ entry ∈ file.entries, IsHit entry ∧ "/".intercalate entry = hit := by
  unfold findIgnoreFiles IsHit
  rw [sortTexts, List.mem_insertionSort]
  simp only [List.mem_flatMap, List.mem_map, List.mem_filter, List.mem_eraseDups, Bool.and_eq_true, beq_iff_eq,
    decide_eq_true_eq]
  constructor
  · rintro ⟨name, hname, entry, ⟨⟨file, hfile, hentry⟩, hlast, hmodules⟩, rfl⟩
    exact ⟨file, hfile, entry, hentry, ⟨name, hname, hlast, hmodules⟩, rfl⟩
  · rintro ⟨file, hfile, entry, hentry, ⟨name, hname, hlast, hmodules⟩, rfl⟩
    exact ⟨name, hname, entry, ⟨⟨file, hfile, hentry⟩, hlast, hmodules⟩, rfl⟩

/-! ### Texts of paths -/

theorem hasPrefix_iff {pre text : String} : hasPrefix pre text = true ↔ pre.toList <+: text.toList := by
  rw [hasPrefix, List.isPrefixOf_iff_prefix]

theorem hasInfix_iff {part text : String} : hasInfix part text = true ↔ part.toList <:+: text.toList := by
  simp only [hasInfix, List.any_eq_true, List.mem_tails, List.isPrefixOf_iff_prefix]
  constructor
  · rintro ⟨t, hsuffix, hpre⟩
    exact hpre.isInfix.trans hsuffix.isInfix
  · rintro ⟨s, t, h⟩
    exact ⟨part.toList ++ t, ⟨s, by rw [← h, List.append_assoc]⟩, List.prefix_append _ _⟩

/-- The characters of a path. -/
def pathChars (parts : List String) : List Char := ['/'].intercalate (parts.map String.toList)

theorem pathChars_cons {part : String} {parts : List String} (h : parts ≠ []) :
    pathChars (part :: parts) = part.toList ++ '/' :: pathChars parts := by
  rw [pathChars, List.map_cons, List.intercalate_cons_of_ne_nil (by simpa using h)]
  simp [pathChars]

theorem pathChars_singleton (part : String) : pathChars [part] = part.toList := by
  simp [pathChars]

/-- A text that starts with a slash does not start inside a name. -/
theorem slash_infix_append {pat pre rest : List Char} (h : '/' ∉ pre) :
    '/' :: pat <:+: pre ++ rest ↔ '/' :: pat <:+: rest := by
  induction pre with
  | nil => rfl
  | cons c pre ih =>
    rw [List.mem_cons, not_or] at h
    rw [List.cons_append, List.infix_cons_iff, ih h.2]
    refine or_iff_right fun hpre => ?_
    exact h.1 (List.cons_prefix_cons.mp hpre).1

theorem name_prefix_iff {rest : List Char} : ∀ {dir part : List Char}, '/' ∉ dir → '/' ∉ part →
    (dir ++ ['/'] <+: part ++ '/' :: rest ↔ dir = part)
  | [], [], _, _ => by simp
  | [], c :: part, _, h => by
    rw [List.mem_cons, not_or] at h
    simp [List.cons_prefix_cons, h.1]
  | c :: dir, [], h, _ => by
    rw [List.mem_cons, not_or] at h
    simp [List.cons_prefix_cons, Ne.symm h.1]
  | c :: dir, c' :: part, h, h' => by
    rw [List.mem_cons, not_or] at h h'
    rw [List.cons_append, List.cons_append, List.cons_prefix_cons, name_prefix_iff h.2 h'.2, List.cons.injEq]

/-- A name between slashes is a directory of the path. -/
theorem dir_infix_iff {dir : String} (hdir : '/' ∉ dir.toList) : ∀ {parts : List String},
    (∀ part ∈ parts, '/' ∉ part.toList) →
      ('/' :: (dir.toList ++ ['/']) <:+: '/' :: pathChars parts ↔ dir ∈ parts.dropLast)
  | [], _ => by
    refine iff_of_false (fun h => ?_) (List.not_mem_nil)
    have hlength := h.length_le
    simp [pathChars] at hlength
  | [part], h => by
    refine iff_of_false (fun hin => ?_) (List.not_mem_nil)
    have hpart := h part List.mem_cons_self
    rw [pathChars_singleton, List.infix_cons_iff] at hin
    rcases hin with hpre | hin
    · have hmem := (List.cons_prefix_cons.mp hpre).2.subset (List.mem_append_right _ (List.mem_singleton_self '/'))
      exact hpart hmem
    · exact hpart (hin.subset List.mem_cons_self)
  | part :: next :: parts, h => by
    have hpart := h part List.mem_cons_self
    have ih := dir_infix_iff hdir fun p hp => h p (List.mem_cons_of_mem part hp)
    rw [pathChars_cons (List.cons_ne_nil next parts), List.infix_cons_iff, slash_infix_append hpart, ih,
      List.cons_prefix_cons, name_prefix_iff hdir hpart, List.dropLast_cons_of_ne_nil (List.cons_ne_nil next parts),
      List.mem_cons]
    simp [String.ext_iff]

namespace RepoPath

variable (path : RepoPath)

theorem toList_text : path.text.toList = pathChars path.parts := by
  rw [text, String.toList_intercalate]
  rfl

theorem noSlash : ∀ part ∈ path.parts, '/' ∉ part.toList := fun part h => (path.plain part h).2

/-- A file in a directory of the name, at any depth. -/
theorem inDir_iff {dir : String} (hdir : '/' ∉ dir.toList) :
    hasPrefix (dir ++ "/") path.text = true ∨ hasInfix ("/" ++ dir ++ "/") path.text = true ↔ dir ∈ path.dirs := by
  have hparts : path.parts.dropLast = path.dirs := List.dropLast_concat
  have hin := dir_infix_iff hdir path.noSlash
  rw [hparts, List.infix_cons_iff, List.cons_prefix_cons] at hin
  rw [← hin, hasPrefix_iff, hasInfix_iff, toList_text]
  simp

theorem baseName_text : baseName path.text = path.name := by
  have hslash (pre rest : List Char) : ((pre ++ '/' :: rest).reverse.takeWhile (· ≠ '/')).reverse =
      (rest.reverse.takeWhile (· ≠ '/')).reverse := by
    rw [List.reverse_append, List.reverse_cons, List.append_assoc, List.takeWhile_append]
    split
    · rename_i hall
      rw [(List.takeWhile_prefix _).eq_of_length hall]
      simp
    · rfl
  have hbase : ∀ dirs : List String, ((pathChars (dirs ++ [path.name])).reverse.takeWhile (· ≠ '/')).reverse =
      path.name.toList := by
    intro dirs
    induction dirs with
    | nil =>
      have hname := path.noSlash path.name (List.mem_append_right _ (List.mem_singleton_self _))
      rw [List.nil_append, pathChars_singleton, List.takeWhile_eq_self_iff.mpr, List.reverse_reverse]
      intro c hc
      have hne : c ≠ '/' := fun hslash => hname (hslash ▸ List.mem_reverse.mp hc)
      simpa using hne
    | cons dir dirs ih =>
      rw [List.cons_append, pathChars_cons (by simp), hslash, ih]
  rw [baseName, toList_text, parts, hbase, String.ofList_toList]

/-- The policy sees an ignore file by its name, or by a directory `.grype`. -/
theorem isIgnoreFile_text : isIgnoreFile path.text = true ↔ path.name ∈ ignoreFileNames ∨ ".grype" ∈ path.dirs := by
  rw [← path.inDir_iff (by decide)]
  simp only [isIgnoreFile, baseName_text, Bool.or_eq_true, decide_eq_true_eq, or_assoc]
  rfl

end RepoPath

/-- CI reports an entry on the way to the file. -/
def RepoPath.Reported (path : RepoPath) : Prop := ∃ entry ∈ path.entries, IsHit entry

/-- **CI looks further.** The policy is as strict as CI's search about a file exactly when CI has nothing to report on
the way to it outside `node_modules`, or the policy knows its name, has a directory `.grype` on the way, or refuses it
as another protected path or a VEX document out of place. -/
theorem at_least_as_strict_iff (path : RepoPath) : AtLeastAsStrict path ↔
    (path.Reported → (path.name ∈ ignoreFileNames ∨ ".grype" ∈ path.dirs) ∨ path.text ∈ protectedPaths ∨
      hasPrefix "ci-negative/" path.text = true ∨ isVexApproved path.text = true ∨
      isVexElsewhere path.text = true) := by
  have hviolates : fileViolations path.text ≠ [] ↔ (path.name ∈ ignoreFileNames ∨ ".grype" ∈ path.dirs) ∨
      path.text ∈ protectedPaths ∨ hasPrefix "ci-negative/" path.text = true ∨ isVexApproved path.text = true ∨
        isVexElsewhere path.text = true := by
    rw [Ne, fileViolations_eq_nil, not_and_or, Bool.not_eq_false, Bool.not_eq_false, isProtectedPath, Bool.or_eq_true,
      Bool.or_eq_true, Bool.or_eq_true, decide_eq_true_eq, path.isIgnoreFile_text]
    tauto
  rw [← hviolates]
  constructor
  · rintro h ⟨entry, hentry, hhit⟩
    have hnew : ∃ hit ∈ findIgnoreFiles ([] ++ [path]), hit ∉ findIgnoreFiles [] :=
      ⟨_, mem_findIgnoreFiles.mpr ⟨path, List.mem_singleton_self _, entry, hentry, hhit, rfl⟩, by
        simp [mem_findIgnoreFiles]⟩
    intro hnone
    have hviolations :=
      h [] hnew .dependencyUpgrade [{ filename := path.text, status := "added" }] (List.mem_singleton_self _)
    refine hviolations ?_
    rw [diffPolicyViolations_eq_nil]
    have hpaths := (fileViolations_eq_nil _).mp hnone
    refine ⟨fun f hf => List.mem_singleton.mp hf ▸ hpaths, fun hk => absurd rfl hk, fun hk => ?_, fun hk => ?_⟩ <;>
      cases hk
  · rintro h tree ⟨hit, hmem, hnew⟩ kind files hadded hnone
    obtain ⟨file, hfile, entry, hentry, hhit, rfl⟩ := mem_findIgnoreFiles.mp hmem
    have hreported : path.Reported := by
      rcases List.mem_append.mp hfile with htree | hpath
      · exact absurd (mem_findIgnoreFiles.mpr ⟨file, htree, entry, hentry, hhit, rfl⟩) hnew
      · exact ⟨entry, List.mem_singleton.mp hpath ▸ hentry, hhit⟩
    have hpaths := ((diffPolicyViolations_eq_nil _ _).mp hnone).paths _ hadded
    exact h hreported ((fileViolations_eq_nil _).mpr hpaths)

/-- A file named `.grype`, and a file in a directory `.trivyignore`. -/
theorem ignore_file_admitted :
    ¬ AtLeastAsStrict ⟨["superset"], ".grype", by decide⟩ ∧
      ¬ AtLeastAsStrict ⟨[".trivyignore"], "all.txt", by decide⟩ := by
  constructor
  · intro h
    refine h [] ⟨"superset/.grype", by decide +kernel, by decide⟩ .dependencyUpgrade _ (List.mem_singleton_self _) ?_
    decide +kernel
  · intro h
    refine h [] ⟨".trivyignore", by decide +kernel, by decide⟩ .dependencyUpgrade _ (List.mem_singleton_self _) ?_
    decide +kernel

end HardeningLoop
