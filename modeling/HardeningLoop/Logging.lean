import HardeningLoop.Domain.Text
import HardeningLoop.Lib.Splice

/-!
# What the log does not tell

The redacting filter of `logging_utils.py`: first the configured secrets, one after the other, then four patterns of
tokens. Each pass puts `[REDACTED]` in the place of what it finds, and the passes after it go over the marks as well.

- `redact_hides`: neither a configured secret nor a token of the three known kinds is in a redacted text, if the secret
  has no bracket and is not a part of the mark's own name.
-/

namespace HardeningLoop

open Splice

/-- `REDACTED`. -/
def redactedMark : List Char := bracketed '[' ']' "REDACTED".toList

/-- `str.replace(secret, ..)` finds the secret. -/
def secretAt (secret : List Char) (text : List Char) : Option Match :=
  if secret.isPrefixOf text then some { more := secret.length - 1 } else none

/-- A token: a literal, then at least so many characters of a class. -/
structure TokenKind where
  literal : String
  inClass : Char → Bool
  least : Nat

/-- The pattern `literal[class]{least,}`, which takes as many characters as there are. -/
def TokenKind.tokenAt (kind : TokenKind) (text : List Char) : Option Match :=
  match dropLiteral kind.literal text with
  | none => none
  | some rest =>
    let body := rest.takeWhile kind.inClass
    if kind.least ≤ body.length then some { more := kind.literal.toList.length + body.length - 1 } else none

def asciiWordChar (c : Char) : Bool := c.isAlphanum || c == '_'

/-- `cog_[A-Za-z0-9_\-]{8,}`. -/
def serviceUserCredential : TokenKind :=
  { literal := "cog_", inClass := fun c => asciiWordChar c || c == '-', least := 8 }

/-- `gh[pousr]_[A-Za-z0-9]{20,}`, for one of the five letters. -/
def githubToken (letter : Char) : TokenKind :=
  { literal := String.ofList ['g', 'h', letter, '_'], inClass := Char.isAlphanum, least := 20 }

/-- `github_pat_[A-Za-z0-9_]{20,}`. -/
def githubPat : TokenKind := { literal := "github_pat_", inClass := asciiWordChar, least := 20 }

def githubTokens : List TokenKind := ['p', 'o', 'u', 's', 'r'].map githubToken

/-- The first of several patterns that matches here. -/
def firstOf (kinds : List TokenKind) (text : List Char) : Option Match := kinds.findSome? fun kind => kind.tokenAt text

/-- A letter of a pattern that ignores case: the dotted and the dotless forms of `i` are cases of it. -/
def sameLetter (letter c : Char) : Bool := c.toLower == letter || letter == 'i' && (c == 'İ' || c == 'ı')

/-- Drop a literal in any case. -/
def dropLetters : List Char → List Char → Option (List Char)
  | [], text => some text
  | _ :: _, [] => none
  | letter :: letters, c :: text => if sameLetter letter c then dropLetters letters text else none

/-- `(?i)(authorization:\s*bearer\s+)\S+`, of which the group stays. No part of it can give back what it took. -/
def bearerAt (space : Char → Bool) (text : List Char) : Option Match := do
  let afterColon ← dropLetters "authorization:".toList text
  let afterBearer ← dropLetters "bearer".toList (afterColon.dropWhile space)
  let value := afterBearer.dropWhile space
  let taken := (value.takeWhile fun c => !space c).length
  if value.length < afterBearer.length ∧ 0 < taken then
    some { more := text.length - value.length + taken - 1, kept := text.length - value.length }
  else none

/-- The passes of `redact`, in their order. -/
def redactPasses (space : Char → Bool) (secrets : List (List Char)) : List (List Char → Option Match) :=
  (secrets.filter (· ≠ [])).map secretAt ++
    [serviceUserCredential.tokenAt, firstOf githubTokens, githubPat.tokenAt, bearerAt space]

/-- `RedactingFilter.redact`, on the characters of a text; `space` is the class `\s`. -/
def redact (space : Char → Bool) (secrets : List (List Char)) (text : List Char) : List Char :=
  splices (redactPasses space secrets) redactedMark text

/-! ## What each pass finds -/

theorem secretAt_finds {secret : List Char} : Finds (secretAt secret) secret where
  keeps l found h := by
    unfold secretAt at h
    split at h
    · rw [← Option.some.inj h]
    · exact absurd h (by simp)
  found l h := by
    rw [secretAt, if_pos (List.isPrefixOf_iff_prefix.mpr h)]
    simp

/-- A token of a kind. -/
structure TokenKind.Token (kind : TokenKind) (token : List Char) : Prop where
  literal : kind.literal.toList <+: token
  long : kind.literal.toList.length + kind.least ≤ token.length
  inClass : ∀ c ∈ token.drop kind.literal.toList.length, kind.inClass c = true

theorem tokenAt_kept {kind : TokenKind} {l : List Char} {found : Match} (h : kind.tokenAt l = some found) :
    found.kept = 0 := by
  unfold TokenKind.tokenAt at h
  split at h
  · exact absurd h (by simp)
  · simp only [Option.ite_none_right_eq_some, Option.some.injEq] at h
    rw [← h.2]

/-- The pattern takes as much as there is, so at least the token. -/
theorem tokenAt_found {kind : TokenKind} {token l : List Char} (htoken : kind.Token token) (h : token <+: l) :
    kind.tokenAt l ≠ none := by
  obtain ⟨body, rfl⟩ := htoken.literal
  obtain ⟨later, rfl⟩ := h
  have hbody := htoken.inClass
  have hlong := htoken.long
  rw [List.drop_left] at hbody
  rw [List.length_append, Nat.add_le_add_iff_left] at hlong
  have hdrop : dropLiteral kind.literal (kind.literal.toList ++ body ++ later) = some (body ++ later) := by
    rw [dropLiteral, List.append_assoc, List.drop_left,
      if_pos (List.isPrefixOf_iff_prefix.mpr (List.prefix_append _ _))]
  have htaken : body.length ≤ ((body ++ later).takeWhile kind.inClass).length := by
    rw [List.takeWhile_append_of_pos hbody, List.length_append]
    exact Nat.le_add_right _ _
  rw [TokenKind.tokenAt, hdrop]
  simp [hlong.trans htaken]

theorem tokenAt_finds {kind : TokenKind} {token : List Char} (htoken : kind.Token token) :
    Finds kind.tokenAt token where
  keeps _ _ h := tokenAt_kept h
  found _ h := tokenAt_found htoken h

theorem firstOf_finds {kinds : List TokenKind} {kind : TokenKind} {token : List Char} (hkind : kind ∈ kinds)
    (htoken : kind.Token token) : Finds (firstOf kinds) token where
  keeps l found h := by
    obtain ⟨other, -, hother⟩ := List.exists_of_findSome?_eq_some h
    exact tokenAt_kept hother
  found l h hnone := tokenAt_found htoken h (List.findSome?_eq_none_iff.mp hnone kind hkind)

/-! ## What is hidden -/

/-- The kinds of tokens the filter knows without being told. -/
def knownTokens : List TokenKind := serviceUserCredential :: githubPat :: githubTokens

/-- Words in which the mark cannot take part. -/
structure Unmarked (word : List Char) : Prop where
  left : '[' ∉ word
  right : ']' ∉ word
  name : ¬ word <:+: "REDACTED".toList

theorem Unmarked.ne_nil {word : List Char} (h : Unmarked word) : word ≠ [] := by
  rintro rfl
  exact h.name List.nil_infix

theorem knownTokens_all : (knownTokens.all fun kind => kind.literal.toList.contains '_' &&
    ['[', ']'].all fun c => !kind.literal.toList.contains c && !kind.inClass c) = true := by decide +kernel

theorem knownTokens_unmarked : ∀ kind ∈ knownTokens, '_' ∈ kind.literal.toList ∧
    ∀ c ∈ ['[', ']'], c ∉ kind.literal.toList ∧ kind.inClass c = false := by
  intro kind hkind
  have hall := List.all_eq_true.mp knownTokens_all kind hkind
  simpa using hall

/-- A token has an underscore, which the mark has not, and no bracket. -/
theorem token_unmarked {kind : TokenKind} {token : List Char} (hkind : kind ∈ knownTokens) (htoken : kind.Token token) :
    Unmarked token := by
  obtain ⟨hunderscore, hbracket⟩ := knownTokens_unmarked kind hkind
  have hnot : ∀ c ∈ ['[', ']'], c ∉ token := by
    intro c hc hmem
    obtain ⟨hliteral, hclass⟩ := hbracket c hc
    rw [← List.prefix_iff_eq_append.mp htoken.literal, List.mem_append] at hmem
    rcases hmem with hmem | hmem
    · exact hliteral hmem
    · rw [htoken.inClass c hmem] at hclass
      exact Bool.noConfusion hclass
  refine ⟨hnot _ (by simp), hnot _ (by simp), ?_⟩
  intro h
  have hin : '_' ∈ "REDACTED".toList := h.subset (htoken.literal.subset hunderscore)
  exact absurd hin (by decide)

theorem secret_pass {space : Char → Bool} {secrets : List (List Char)} {secret : List Char} (hmem : secret ∈ secrets)
    (hne : secret ≠ []) : secretAt secret ∈ redactPasses space secrets :=
  List.mem_append_left _ (List.mem_map_of_mem (List.mem_filter.mpr ⟨hmem, by simpa using hne⟩))

theorem token_pass {space : Char → Bool} {secrets : List (List Char)} {kind : TokenKind} {token : List Char}
    (hkind : kind ∈ knownTokens) (htoken : kind.Token token) :
    ∃ pass ∈ redactPasses space secrets, Finds pass token := by
  have hpass {pass : List Char → Option Match}
      (h : pass ∈ [serviceUserCredential.tokenAt, firstOf githubTokens, githubPat.tokenAt, bearerAt space]) :
      pass ∈ redactPasses space secrets := List.mem_append_right _ h
  simp only [knownTokens, List.mem_cons] at hkind
  rcases hkind with rfl | rfl | hgithub
  · exact ⟨_, hpass (by simp), tokenAt_finds htoken⟩
  · exact ⟨_, hpass (by simp), tokenAt_finds htoken⟩
  · exact ⟨_, hpass (by simp), firstOf_finds hgithub htoken⟩

/-- No secret and no token is left, whatever the passes before and after made of the text around it, and apart from the
marks nothing comes in. -/
theorem redact_hides (space : Char → Bool) (secrets : List (List Char)) (text : List Char) :
    (∀ secret ∈ secrets, Unmarked secret → ¬ secret <:+: redact space secrets text) ∧
      (∀ kind ∈ knownTokens, ∀ token, kind.Token token → ¬ token <:+: redact space secrets text) ∧
        ∀ word, Unmarked word → word <:+: redact space secrets text → word <:+: text := by
  refine ⟨?_, ?_, ?_⟩
  · intro secret hmem hunmarked
    have hfinds : ∃ pass ∈ redactPasses space secrets, Finds pass secret :=
      ⟨secretAt secret, secret_pass hmem hunmarked.ne_nil, secretAt_finds⟩
    exact not_infix_splices hfinds hunmarked.ne_nil hunmarked.left hunmarked.right hunmarked.name
  · intro kind hkind token htoken
    have hunmarked : Unmarked token := token_unmarked hkind htoken
    exact not_infix_splices (token_pass hkind htoken) hunmarked.ne_nil hunmarked.left hunmarked.right hunmarked.name
  · intro word hunmarked h
    exact (infix_splices h hunmarked.left hunmarked.right).resolve_right hunmarked.name

-- A secret inside the mark's own name comes back with every mark, here with the one put in its own place.
example : redact (· == ' ') ["ACTED".toList] "an ACTED line".toList = "an [REDACTED] line".toList := by decide +kernel

example : redact (· == ' ') ["hunter2".toList] "Authorization: Bearer cog_abcdefgh-1 hunter2".toList =
    "Authorization: Bearer [REDACTED] [REDACTED]".toList := by decide +kernel

end HardeningLoop
