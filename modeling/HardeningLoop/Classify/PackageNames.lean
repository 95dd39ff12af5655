import HardeningLoop.Classify.Rules
import HardeningLoop.Ingest.Reports
import HardeningLoop.Lib.Fallible

/-!
# Names of Python packages

Classification and reporting look a package up by its name in three forms: findings carry the name as `normalizePkgName`
writes it, `parseUpperBounds` keys the declared bounds by `boundKey`, and `parseRequirementsPins` keys the upstream pins
by `pinKey`. The first makes one hyphen of a run of separators, the second a hyphen of each separator, and the third
leaves dots alone.

So the three agree on a name, and on the other spellings of its project, exactly when the names are `Plain`: without a
dot and without two separators in a row (`package_keys_iff`).
-/

namespace HardeningLoop

open Fallible

/-! ## Upper bounds -/

/-- A requirement as `packaging` reads it: the name as it is written, the operators of its specifiers, and their
text. -/
structure Requirement where
  name : String
  operators : List String
  specifier : String

/-- What `parse_upper_bounds` asks of others: `tomllib.loads`, `Requirement(raw)` (`none` when they raise), and `a & b`
of two specifier sets. -/
structure Packaging where
  tomlLoads : String → Option Json
  requirement : String → Option Requirement
  both : String → String → String

/-- `_UPPER_BOUND_OPS`. -/
def upperBoundOps : List String := ["<", "<=", "==", "~=", "==="]

/-- `text.replace(a, b)` of two characters. -/
def replaceChar (a b : Char) (text : String) : String := String.ofList (text.toList.map fun c => if c = a then b else c)

/-- The key of a requirement's name. -/
def boundKey (name : String) : String := lowerText (replaceChar '.' '-' (replaceChar '_' '-' name))

/-- The direct dependencies of `[project]`, and those of all extras. -/
def projectRequirements (py : Packaging) (pyprojectText : String) : Except LoadError (List String) := do
  let data ← match py.tomlLoads pyprojectText with
    | some data => .ok data
    | none => .error .value
  let project := (← data.lookup "project").orElse (.obj [])
  let dependencies ← project.each "dependencies"
  let extras ← match (← project.lookup "optional-dependencies").orElse (.obj []) with
    | .obj extras => extras.mapM fun extra => extra.2.elems
    | _ => .error .attribute
  (dependencies ++ extras.flatten).mapM fun raw => match raw with
    | .str raw => .ok raw
    | _ => .error .type

/-- A requirement that can be read and has an upper bound. -/
def boundedRequirement (py : Packaging) (raw : String) : Option Requirement :=
  (py.requirement raw).filter fun req => req.operators.any (· ∈ upperBoundOps)

/-- `parse_upper_bounds`. -/
def parseUpperBounds (py : Packaging) (pyprojectText : String) : Except LoadError (List (String × String)) := do
  let reqs ← projectRequirements py pyprojectText
  .ok ((reqs.filterMap (boundedRequirement py)).foldl (fun bounds req =>
    Dict.set bounds (boundKey req.name) (match (Dict.get? bounds (boundKey req.name)).filter (· ≠ "") with
      | some existing => py.both existing req.specifier
      | none => req.specifier)) [])

/-! ## Pins -/

/-- `text.split(sep, 1)[0]`. -/
def beforeFirst (sep text : String) : String := ((splitOnce sep text).map Prod.fst).getD text

/-- The key of a pinned name. -/
def pinKey (name : String) : String := replaceChar '_' '-' (lowerText name)

/-- One line of a pip-compile output: the name it pins, as it is written, and the version. -/
def pinLine (ext : External) (raw : String) : Except LoadError (Option (String × String)) :=
  let line := strip ext (beforeFirst "#" raw)
  if line = "" || hasPrefix "-" line then .ok none
  else match splitOnce "==" line with
    | none => .ok none
    | some (name, version) =>
      match (strip ext (beforeFirst ";" version)).toList.takeWhile fun c => !ext.spaceChar c with
      | [] => .error (.key "0")
      | word => .ok (some (strip ext (beforeFirst "[" name), String.ofList word))

/-- `parse_requirements_pins`. -/
def parseRequirementsPins (ext : External) (text : String) : Except LoadError (List (String × String)) := do
  let pins ← (splitLines text).mapM (pinLine ext)
  .ok (pins.reduceOption.foldl (fun pins pin => Dict.set pins (pinKey pin.1) pin.2) [])

/-! ## Spellings of a project -/

/-- A separator in a name. -/
def isSeparator (c : Char) : Bool := c ∈ ['-', '_', '.']

/-- A name of a distribution: letters, digits and separators, and no separator at its ends. -/
def isDistributionName (name : String) : Bool :=
  name.toList.all (fun c => c.isAlphanum || isSeparator c) && name.toList.head?.any Char.isAlphanum &&
    name.toList.getLast?.any Char.isAlphanum

/-- The words between the separators. -/
def nameWords : List Char → List (List Char)
  | [] => []
  | c :: cs =>
    if isSeparator c then nameWords cs
    else if cs.head?.all isSeparator then [c] :: nameWords cs
    else match nameWords cs with
      | word :: words => (c :: word) :: words
      | [] => [[c]]

/-- Two spellings of one project: the same words, in any case. -/
def SameProject (name name' : String) : Prop :=
  (nameWords name.toList).map (List.map Char.toLower) = (nameWords name'.toList).map (List.map Char.toLower)

instance (name name' : String) : Decidable (SameProject name name') :=
  inferInstanceAs (Decidable (_ = _))

/-- Two separators in a row. -/
def hasRun : List Char → Bool
  | c :: d :: cs => (isSeparator c && isSeparator d) || hasRun (d :: cs)
  | _ => false

/-- A name without a dot and without two separators in a row. -/
def Plain (name : String) : Prop := '.' ∉ name.toList ∧ hasRun name.toList = false

instance (name : String) : Decidable (Plain name) := inferInstanceAs (Decidable (_ ∧ _))

/-! ### One hyphen for a run -/

/-- The character that stands for it when no run is made one. -/
def hyphened (c : Char) : Char := if isSeparator c then '-' else c

theorem pep503_cons (c : Char) (cs : List Char) :
    pep503 (c :: cs) = if isSeparator c && cs.head?.any isSeparator then pep503 cs else hyphened c :: pep503 cs := by
  rw [pep503.eq_def]
  cases cs with
  | nil => by_cases hc : c ∈ ['-', '_', '.'] <;> simp [hyphened, isSeparator, hc, pep503]
  | cons d cs =>
    by_cases hc : c ∈ ['-', '_', '.'] <;> by_cases hd : d ∈ ['-', '_', '.'] <;> simp [hyphened, isSeparator, hc, hd]

theorem hasRun_cons (c : Char) (cs : List Char) :
    hasRun (c :: cs) = ((isSeparator c && cs.head?.any isSeparator) || hasRun cs) := by
  cases cs with
  | nil => simp [hasRun]
  | cons d cs => simp [hasRun]

/-- Without runs each separator becomes a hyphen. -/
theorem pep503_of_no_run {cs : List Char} (h : hasRun cs = false) : pep503 cs = cs.map hyphened := by
  induction cs with
  | nil => rfl
  | cons c cs ih =>
    rw [hasRun_cons, Bool.or_eq_false_iff] at h
    rw [pep503_cons, h.1, if_neg Bool.false_ne_true, ih h.2, List.map_cons]

theorem length_pep503_le (cs : List Char) : (pep503 cs).length ≤ cs.length := by
  induction cs with
  | nil => exact Nat.le_refl _
  | cons c cs ih =>
    rw [pep503_cons]
    split <;> simp only [List.length_cons] <;> omega

/-- A run gets shorter. -/
theorem length_pep503_lt {cs : List Char} (h : hasRun cs = true) : (pep503 cs).length < cs.length := by
  induction cs with
  | nil => cases h
  | cons c cs ih =>
    have hle := length_pep503_le cs
    rw [pep503_cons]
    split
    · rw [List.length_cons]
      omega
    · rename_i hno
      rw [hasRun_cons, Bool.eq_false_iff.mpr hno, Bool.false_or] at h
      have hlt := ih h
      simp only [List.length_cons]
      omega

theorem mem_pep503 {cs : List Char} {c : Char} (h : c ∈ pep503 cs) : ∃ d ∈ cs, c = hyphened d := by
  induction cs with
  | nil => cases h
  | cons d cs ih =>
    rw [pep503_cons] at h
    split at h
    · obtain ⟨e, he, hc⟩ := ih h
      exact ⟨e, List.mem_cons_of_mem _ he, hc⟩
    · rcases List.mem_cons.mp h with hc | h
      · exact ⟨d, List.mem_cons_self, hc⟩
      · obtain ⟨e, he, hc⟩ := ih h
        exact ⟨e, List.mem_cons_of_mem _ he, hc⟩

/-! ### Words -/

/-- A name that does not end with a separator. -/
def EndsInWord (cs : List Char) : Prop := cs.getLast?.all fun c => !isSeparator c

theorem EndsInWord.tail {c : Char} {cs : List Char} (h : EndsInWord (c :: cs)) : EndsInWord cs := by
  cases cs with
  | nil => rfl
  | cons d cs => rwa [EndsInWord, List.getLast?_cons_cons] at h

theorem nameWords_ne_nil {cs : List Char} (h : EndsInWord cs) (hne : cs ≠ []) : nameWords cs ≠ [] := by
  induction cs with
  | nil => exact absurd rfl hne
  | cons c cs ih =>
    rw [nameWords]
    split
    · rename_i hc
      cases cs with
      | nil => simp [EndsInWord, hc] at h
      | cons d cs => exact ih h.tail (List.cons_ne_nil _ _)
    · split
      · exact List.cons_ne_nil _ _
      · split <;> exact List.cons_ne_nil _ _

/-- The words of a name, with a hyphen between two of them. -/
theorem pep503_eq_words {cs : List Char} (h : EndsInWord cs) :
    pep503 cs = (if cs.head?.any isSeparator then ['-'] else []) ++ ['-'].intercalate (nameWords cs) := by
  induction cs with
  | nil => rfl
  | cons c cs ih =>
    have htail := h.tail
    rw [pep503_cons, ih htail, nameWords, List.head?_cons, Option.any_some, hyphened]
    cases cs with
    | nil =>
      have hc : isSeparator c = false := by simpa [EndsInWord] using h
      simp [hc, nameWords]
    | cons d cs =>
      obtain ⟨word, words, hwords⟩ := List.exists_cons_of_ne_nil (nameWords_ne_nil htail (List.cons_ne_nil _ _))
      rw [hwords, List.head?_cons, Option.any_some, Option.all_some]
      by_cases hc : isSeparator c = true
      · by_cases hd : isSeparator d = true <;> simp [hc, hd]
      · by_cases hd : isSeparator d = true
        · simp [hc, hd, List.intercalate]
        · cases words <;> simp [hc, hd, List.intercalate]

theorem not_separator_of_alphanum {c : Char} (h : c.isAlphanum = true) : isSeparator c = false := by
  apply Bool.eq_false_iff.mpr
  intro hc
  rw [isSeparator, decide_eq_true_iff, List.mem_cons, List.mem_cons, List.mem_singleton] at hc
  rcases hc with rfl | rfl | rfl <;> cases h

theorem isDistributionName.ends {name : String} (h : isDistributionName name = true) :
    EndsInWord name.toList ∧ name.toList.head?.any isSeparator = false := by
  rw [isDistributionName, Bool.and_eq_true, Bool.and_eq_true] at h
  obtain ⟨⟨-, hhead⟩, hlast⟩ := h
  obtain ⟨c, hc, hcname⟩ := (Option.any_eq_true _ _).mp hhead
  obtain ⟨d, hd, hdname⟩ := (Option.any_eq_true _ _).mp hlast
  constructor
  · rw [EndsInWord, hd, Option.all_some, not_separator_of_alphanum hdname]
    rfl
  · rw [hc, Option.any_some, not_separator_of_alphanum hcname]

theorem toList_normalizePkgName (name : String) :
    (normalizePkgName name .pypi).toList = (pep503 name.toList).map Char.toLower := by
  simp [normalizePkgName, lowerText]

/-- The words of a name, in lower case and with hyphens between them, are its key. -/
theorem normalizePkgName_eq_words {name : String} (h : isDistributionName name = true) :
    normalizePkgName name .pypi =
      String.ofList (['-'].intercalate ((nameWords name.toList).map (List.map Char.toLower))) := by
  obtain ⟨hlast, hhead⟩ := isDistributionName.ends h
  have hmap (words : List (List Char)) :
      (['-'].intercalate words).map Char.toLower = ['-'].intercalate (words.map (List.map Char.toLower)) := by
    induction words with
    | nil => rfl
    | cons word words ih =>
      cases words with
      | nil => simp [List.intercalate]
      | cons word' words =>
        simp only [List.intercalate, List.map_cons, List.intersperse_cons_cons, List.flatten_cons,
          List.map_append] at ih ⊢
        rw [ih]
        rfl
  apply String.toList_inj.mp
  rw [toList_normalizePkgName, pep503_eq_words hlast, hhead, String.toList_ofList, ← hmap]
  rfl

theorem normalizePkgName_same {name name' : String} (h : isDistributionName name = true)
    (h' : isDistributionName name' = true)
    (hsame : SameProject name name') : normalizePkgName name .pypi = normalizePkgName name' .pypi := by
  rw [normalizePkgName_eq_words h, normalizePkgName_eq_words h', hsame]

/-! ## Agreement -/

/-- What is no small letter has one character in lower case. -/
theorem toLower_eq {c d : Char} (h : c.toLower = d) (hd : d.isLower = false) : c = d := by
  subst h
  delta Char.toLower at hd ⊢
  split
  · rename_i hc
    rw [dif_pos hc] at hd
    have hle : 65 ≤ c.val.toNat ∧ c.val.toNat ≤ 90 := ⟨UInt32.le_iff_toNat_le.mp hc.1, UInt32.le_iff_toNat_le.mp hc.2⟩
    have hsum : (c.val + ('a'.val - 'A'.val)).toNat = c.val.toNat + 32 := by
      rw [UInt32.toNat_add]
      show (c.val.toNat + 32) % 2 ^ 32 = _
      omega
    delta Char.isLower at hd
    simp only [Bool.and_eq_false_iff, decide_eq_false_iff_not, ge_iff_le, UInt32.le_iff_toNat_le, hsum] at hd
    have h97 : 'a'.val.toNat = 97 := rfl
    have h122 : 'z'.val.toNat = 122 := rfl
    omega
  · rfl

theorem toList_boundKey (name : String) : (boundKey name).toList = name.toList.map fun c => (hyphened c).toLower := by
  simp only [boundKey, lowerText, replaceChar, String.toList_ofList, List.map_map]
  refine List.map_congr_left fun c _ => ?_
  by_cases hdot : c = '.'
  · subst hdot
    rfl
  · by_cases hlow : c = '_'
    · subst hlow
      rfl
    · by_cases hdash : c = '-'
      · subst hdash
        rfl
      · simp [hyphened, isSeparator, hdot, hlow, hdash]

theorem boundKey_eq_iff (name : String) : boundKey name = normalizePkgName name .pypi ↔ hasRun name.toList = false := by
  rw [← String.toList_inj, toList_boundKey, toList_normalizePkgName]
  constructor
  · intro h
    apply Bool.eq_false_iff.mpr
    intro hrun
    have hlength := congrArg List.length h
    have hlt := length_pep503_lt hrun
    rw [List.length_map, List.length_map] at hlength
    omega
  · intro h
    rw [pep503_of_no_run h, List.map_map]
    rfl

theorem toList_pinKey (name : String) :
    (pinKey name).toList = name.toList.map fun c => if c.toLower = '_' then '-' else c.toLower := by
  simp [pinKey, lowerText, replaceChar]

theorem pinKey_eq_iff (name : String) : pinKey name = normalizePkgName name .pypi ↔ Plain name := by
  rw [← String.toList_inj, toList_pinKey, toList_normalizePkgName]
  constructor
  · intro h
    constructor
    · intro hdot
      have hmem : '.' ∈ (pep503 name.toList).map Char.toLower := h ▸ List.mem_map.mpr ⟨'.', hdot, rfl⟩
      obtain ⟨c, hc, hlower⟩ := List.mem_map.mp hmem
      obtain ⟨d, -, rfl⟩ := mem_pep503 hc
      have hsame := toLower_eq hlower rfl
      rw [hyphened] at hsame
      split at hsame
      · cases hsame
      · rename_i hno
        exact hno (hsame ▸ rfl)
    · apply Bool.eq_false_iff.mpr
      intro hrun
      have hlength := congrArg List.length h
      have hlt := length_pep503_lt hrun
      rw [List.length_map, List.length_map] at hlength
      omega
  · rintro ⟨hdot, hrun⟩
    rw [pep503_of_no_run hrun, List.map_map]
    refine List.map_congr_left fun c hc => ?_
    have hne : c ≠ '.' := fun h => hdot (h ▸ hc)
    by_cases hlow : c = '_'
    · subst hlow
      rfl
    · rw [if_neg fun h => hlow (toLower_eq h rfl)]
      by_cases hdash : c = '-'
      · subst hdash
        rfl
      · simp [hyphened, isSeparator, hne, hlow, hdash]

/-! ### The stored keys -/

/-- The names of the bounded requirements of a project, as they are written. -/
def boundedNames (py : Packaging) (pyprojectText : String) : Except LoadError (List String) := do
  let reqs ← projectRequirements py pyprojectText
  .ok ((reqs.filterMap (boundedRequirement py)).map Requirement.name)

/-- The names of the pins of a file, as they are written. -/
def pinnedNames (ext : External) (text : String) : Except LoadError (List String) := do
  let pins ← (splitLines text).mapM (pinLine ext)
  .ok (pins.reduceOption.map Prod.fst)

/-- The keys of the declared bounds. -/
def upperBoundKeys (py : Packaging) (pyprojectText : String) : Except LoadError (List String) :=
  (parseUpperBounds py pyprojectText).map (List.map Prod.fst)

/-- The keys of the pins. -/
def requirementsPinKeys (ext : External) (text : String) : Except LoadError (List String) :=
  (parseRequirementsPins ext text).map (List.map Prod.fst)

/-- A name, a project that bounds it and nothing else, and a file that pins it and nothing else. -/
structure Spelling (py : Packaging) (ext : External) where
  name : String
  valid : isDistributionName name = true
  pyprojectText : String
  bounded : ∃ names, boundedNames py pyprojectText = .ok names ∧ names ≠ [] ∧ ∀ n ∈ names, n = name
  requirementsText : String
  pinned : ∃ names, pinnedNames ext requirementsText = .ok names ∧ names ≠ [] ∧ ∀ n ∈ names, n = name

section Keys

variable {py : Packaging} {ext : External}

theorem Spelling.upperBoundKeys_eq (sp : Spelling py ext) :
    upperBoundKeys py sp.pyprojectText = .ok [boundKey sp.name] := by
  obtain ⟨names, hnames, hne, hall⟩ := sp.bounded
  obtain ⟨reqs, hreqs, hnames⟩ := bind_eq_ok.mp hnames
  cases hnames
  have hkeys := Dict.keys_foldl_set (fun req : Requirement => boundKey req.name) (fun bounds req =>
    match (Dict.get? bounds (boundKey req.name)).filter (· ≠ "") with
      | some existing => py.both existing req.specifier
      | none => req.specifier) (l := reqs.filterMap (boundedRequirement py)) (k := boundKey sp.name)
    (fun h => hne (by rw [h]; rfl)) fun req hreq => congrArg boundKey (hall _ (List.mem_map_of_mem hreq))
  rw [upperBoundKeys, parseUpperBounds, hreqs]
  exact congrArg Except.ok hkeys

theorem Spelling.requirementsPinKeys_eq (sp : Spelling py ext) :
    requirementsPinKeys ext sp.requirementsText = .ok [pinKey sp.name] := by
  obtain ⟨names, hnames, hne, hall⟩ := sp.pinned
  obtain ⟨pins, hpins, hnames⟩ := bind_eq_ok.mp hnames
  cases hnames
  have hkeys := Dict.keys_foldl_set (fun pin : String × String => pinKey pin.1) (fun _ pin => pin.2)
    (l := pins.reduceOption) (k := pinKey sp.name) (fun h => hne (by rw [h]; rfl)) fun pin hpin =>
      congrArg pinKey (hall _ (List.mem_map_of_mem hpin))
  rw [requirementsPinKeys, parseRequirementsPins, hpins]
  exact congrArg Except.ok hkeys

/-- The three keys of a name are one. -/
def KeysAgree (sp : Spelling py ext) : Prop :=
  upperBoundKeys py sp.pyprojectText = .ok [normalizePkgName sp.name .pypi] ∧
    requirementsPinKeys ext sp.requirementsText = .ok [normalizePkgName sp.name .pypi]

/-- Two spellings have the same key from each of the three. -/
def SameKeys (sp sp' : Spelling py ext) : Prop :=
  upperBoundKeys py sp.pyprojectText = upperBoundKeys py sp'.pyprojectText ∧
    requirementsPinKeys ext sp.requirementsText = requirementsPinKeys ext sp'.requirementsText ∧
    normalizePkgName sp.name .pypi = normalizePkgName sp'.name .pypi

theorem keysAgree_iff (sp : Spelling py ext) : KeysAgree sp ↔ Plain sp.name := by
  rw [KeysAgree, sp.upperBoundKeys_eq, sp.requirementsPinKeys_eq, Except.ok.injEq, Except.ok.injEq, List.singleton_inj,
    List.singleton_inj, boundKey_eq_iff, pinKey_eq_iff]
  constructor
  · rintro ⟨-, hplain⟩
    exact hplain
  · intro hplain
    exact ⟨hplain.2, hplain⟩

end Keys

/-- **Package names.** The three agree on a name, and on another spelling of its project, exactly when both are
plain. -/
theorem package_keys_iff {py : Packaging} {ext : External} (sp sp' : Spelling py ext)
    (hsame : SameProject sp.name sp'.name) :
    (KeysAgree sp ∧ SameKeys sp sp') ↔ Plain sp.name ∧ Plain sp'.name := by
  have hnorm := normalizePkgName_same sp.valid sp'.valid hsame
  rw [← keysAgree_iff sp, ← keysAgree_iff sp']
  constructor
  · rintro ⟨⟨hbound, hpin⟩, hbounds, hpins, -⟩
    refine ⟨⟨hbound, hpin⟩, ?_, ?_⟩
    · rw [← hbounds, hbound, hnorm]
    · rw [← hpins, hpin, hnorm]
  · rintro ⟨⟨hbound, hpin⟩, hbound', hpin'⟩
    refine ⟨⟨hbound, hpin⟩, ?_, ?_, hnorm⟩
    · rw [hbound, hbound', hnorm]
    · rw [hpin, hpin', hnorm]

def spaces : External :=
  { versionGe := fun _ _ => none, specContains := fun _ _ => none, validateOutput := fun _ _ => []
    wordChar := Char.isAlphanum, digitValue := fun _ => none, spaceChar := (· == ' ') }

/-- A project with the one dependency that its text is, which is bounded by `<2`. -/
def onlyBounded : Packaging where
  tomlLoads text := some (.obj [("project", .obj [("dependencies", .arr [.str text])])])
  requirement raw := (splitOnce "<" raw).map fun parts => ⟨parts.1, ["<"], "<" ++ parts.2⟩
  both a b := a ++ "," ++ b

/-- The name before `<2` and `==1.0`. -/
def spelled (name : String) (valid : isDistributionName name = true)
    (hbound : (boundedNames onlyBounded (name ++ "<2")).toOption = some [name])
    (hpin : (pinnedNames spaces (name ++ "==1.0")).toOption = some [name]) : Spelling onlyBounded spaces where
  name := name
  valid := valid
  pyprojectText := name ++ "<2"
  bounded := by
    obtain ⟨names, hnames⟩ := exists_ok_of_isSome (x := boundedNames onlyBounded (name ++ "<2")) (by rw [hbound]; rfl)
    rw [hnames] at hbound ⊢
    cases hbound
    exact ⟨[name], rfl, List.cons_ne_nil _ _, fun _ => List.mem_singleton.mp⟩
  requirementsText := name ++ "==1.0"
  pinned := by
    obtain ⟨names, hnames⟩ := exists_ok_of_isSome (x := pinnedNames spaces (name ++ "==1.0")) (by rw [hpin]; rfl)
    rw [hnames] at hpin ⊢
    cases hpin
    exact ⟨[name], rfl, List.cons_ne_nil _ _, fun _ => List.mem_singleton.mp⟩

def dotted : Spelling onlyBounded spaces := spelled "zope.interface" (by decide) (by decide +kernel) (by decide +kernel)

def doubled : Spelling onlyBounded spaces :=
  spelled "zope--interface" (by decide) (by decide +kernel) (by decide +kernel)

/-- A dot stays in the key of a pin, and two hyphens stay in the key of a bound. -/
theorem keys_differ : SameProject dotted.name doubled.name ∧
    (∀ sp ∈ [dotted, doubled], normalizePkgName sp.name .pypi = "zope-interface") ∧
    requirementsPinKeys spaces dotted.requirementsText = .ok ["zope.interface"] ∧
    upperBoundKeys onlyBounded doubled.pyprojectText = .ok ["zope--interface"] ∧
    ¬ (KeysAgree dotted ∧ SameKeys dotted doubled) := by
  refine ⟨by decide +kernel, by decide +kernel, ?_, ?_, fun h => ?_⟩
  · rw [dotted.requirementsPinKeys_eq, show pinKey dotted.name = "zope.interface" by decide +kernel]
  · rw [doubled.upperBoundKeys_eq, show boundKey doubled.name = "zope--interface" by decide +kernel]
  · have hplain : ¬ Plain dotted.name := by decide +kernel
    exact hplain ((keysAgree_iff dotted).mp h.1)

theorem plain_keys : KeysAgree (spelled "Zope_Interface" (by decide) (by decide +kernel) (by decide +kernel)) ∧
    SameKeys (spelled "Zope_Interface" (by decide) (by decide +kernel) (by decide +kernel))
      (spelled "zope-interface" (by decide) (by decide +kernel) (by decide +kernel)) :=
  (package_keys_iff _ _ (by decide)).mpr (by decide)

end HardeningLoop
