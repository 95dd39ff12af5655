import HardeningLoop.Domain.Enums
import HardeningLoop.Lib.Binary64
import Mathlib.Data.List.Sort

/-!
# Texts

The string operations the controller writes its reasons, labels and comments with, as the source's language defines
them: `sorted(set(..))`, slices, `rstrip`, fixed-point formatting of numbers and the `repr` of a string.
-/

namespace HardeningLoop

/-- `text[:n]`. -/
def takeText (n : Nat) (text : String) : String := String.ofList (text.toList.take n)

/-- `text.rstrip(c)` for one character. -/
def rstripChar (c : Char) (text : String) : String := String.ofList (text.toList.reverse.dropWhile (· == c)).reverse

/-- `text.startswith(pre)`. -/
def hasPrefix (pre text : String) : Bool := pre.toList.isPrefixOf text.toList

/-- `part in text`. -/
def hasInfix (part text : String) : Bool := text.toList.tails.any fun t => part.toList.isPrefixOf t

/-- `text.strip()`. -/
def strip (ext : External) (text : String) : String :=
  String.ofList ((text.toList.dropWhile ext.spaceChar).reverse.dropWhile ext.spaceChar).reverse

/-- `text.strip()` is not empty. -/
def notBlank (ext : External) (text : String) : Bool := text.toList.any fun c => !ext.spaceChar c

/-- The longest prefix of characters of a class, and the rest. -/
def spanChars (p : Char → Bool) (cs : List Char) : List Char × List Char := (cs.takeWhile p, cs.dropWhile p)

/-- Drop a literal prefix. -/
def dropLiteral (lit : String) (cs : List Char) : Option (List Char) :=
  if lit.toList.isPrefixOf cs then some (cs.drop lit.toList.length) else none

/-- `text.endswith(post)`. -/
def hasSuffix (post text : String) : Bool := post.toList.isSuffixOf text.toList

/-- `text.split(c)`, on characters. -/
def splitChars (c : Char) : List Char → List (List Char)
  | [] => [[]]
  | d :: cs =>
    if d = c then [] :: splitChars c cs
    else match splitChars c cs with
      | part :: parts => (d :: part) :: parts
      | [] => [[d]]

/-- `text.split(c)` for one character. -/
def splitText (c : Char) (text : String) : List String := (splitChars c text.toList).map String.ofList

/-- The characters at which `splitlines` splits. -/
def isLineBreak (c : Char) : Bool :=
  c.toNat ∈ [0x0a, 0x0b, 0x0c, 0x0d, 0x1c, 0x1d, 0x1e, 0x85, 0x2028, 0x2029]

/-- `text.splitlines()`, on characters. -/
def splitLineChars : List Char → List (List Char)
  | [] => []
  | '\r' :: '\n' :: cs => [] :: splitLineChars cs
  | c :: cs =>
    if isLineBreak c then [] :: splitLineChars cs
    else match splitLineChars cs with
      | [] => [[c]]
      | line :: lines => (c :: line) :: lines

theorem splitLineChars_cons {c : Char} {cs : List Char} (h : ∀ ds, c = '\r' → cs ≠ '\n' :: ds) :
    splitLineChars (c :: cs) = if isLineBreak c then [] :: splitLineChars cs
      else match splitLineChars cs with
        | [] => [[c]]
        | line :: lines => (c :: line) :: lines := by
  rw [splitLineChars]
  exact fun ds hc hcs => h ds hc hcs

/-- `text.splitlines()`. -/
def splitLines (text : String) : List String := (splitLineChars text.toList).map String.ofList

/-- `text.split(sep, 1)`, on characters: what stands before and after the first `sep`. -/
def splitAtFirst (sep : List Char) : List Char → Option (List Char × List Char)
  | [] => none
  | c :: cs =>
    if sep.isPrefixOf (c :: cs) then some ([], (c :: cs).drop sep.length)
    else (splitAtFirst sep cs).map fun parts => (c :: parts.1, parts.2)

/-- `text.split(sep, 1)`, when it has two parts. -/
def splitOnce (sep text : String) : Option (String × String) :=
  (splitAtFirst sep.toList text.toList).map fun parts => (String.ofList parts.1, String.ofList parts.2)

/-- `text.rsplit(c, 1)[-1]` for one character. -/
def afterLast (c : Char) (text : String) : String := String.ofList (text.toList.reverse.takeWhile (· ≠ c)).reverse

/-- `", ".join(texts)`. -/
def commaJoin (texts : List String) : String := ", ".intercalate texts

/-- `sorted(texts)`. -/
def sortTexts (texts : List String) : List String := texts.insertionSort (· ≤ ·)

/-- `sorted(set(texts))`. -/
def sortedSet (texts : List String) : List String := sortTexts texts.eraseDups

/-- A decimal fraction with `n` digits, zero-padded. -/
def padDigits (n m : Nat) : String :=
  let s := toString m
  String.ofList (List.replicate (n - s.length) '0') ++ s

/-- `f"{q:.{n}f}"`. -/
def formatFixed (n : Nat) (q : Rat) : String :=
  let z := Binary64.nearestEven (q * 10 ^ n)
  let m := z.natAbs
  let body := if n = 0 then toString m else toString (m / 10 ^ n) ++ "." ++ padDigits n (m % 10 ^ n)
  if q < 0 then "-" ++ body else body

/-- One character of the `repr` of a string quoted with `quote`. -/
def reprChar (quote c : Char) : String :=
  if c = '\\' then "\\\\" else if c = quote then String.ofList ['\\', c] else if c = '\n' then "\\n"
  else if c = '\r' then "\\r" else if c = '\t' then "\\t" else String.ofList [c]

/-- `repr(text)`, for text whose other characters are printable. -/
def reprText (text : String) : String :=
  let quote := if text.toList.contains '\'' && !text.toList.contains '"' then '"' else '\''
  let q := String.ofList [quote]
  q ++ "".intercalate (text.toList.map (reprChar quote)) ++ q

/-- `repr` of an optional text. -/
def reprOption : Option String → String
  | none => "None"
  | some text => reprText text

/-- `repr` of a list of texts. -/
def reprList (texts : List String) : String := "[" ++ commaJoin (texts.map reprText) ++ "]"

/-- `repr` of a dictionary whose values are printed as `value`. -/
def reprDict (items : List (String × String)) : String :=
  "\x7b" ++ commaJoin (items.map fun kv => reprText kv.1 ++ ": " ++ kv.2) ++ "\x7d"

/-- `repr` of a number. -/
def reprNum (q : Rat) : String := if q.den = 1 then toString q.num else toString q.num ++ "/" ++ toString q.den

mutual

/-- `repr` of a JSON value. -/
def reprJson : Json → String
  | .null => "None"
  | .bool b => if b then "True" else "False"
  | .num q => reprNum q
  | .str s => reprText s
  | .arr items => "[" ++ commaJoin (reprItems items) ++ "]"
  | .obj fields => "\x7b" ++ commaJoin (reprFields fields) ++ "\x7d"

def reprItems : List Json → List String
  | [] => []
  | value :: items => reprJson value :: reprItems items

def reprFields : List (String × Json) → List String
  | [] => []
  | (key, value) :: fields => (reprText key ++ ": " ++ reprJson value) :: reprFields fields

end

/-- `str` of a JSON value. -/
def strJson : Json → String
  | .str s => s
  | value => reprJson value

/-- Year, month and day of the `n`-th day from 0001-01-01, in the proleptic Gregorian calendar (computed from March, so
that the leap day is the last of its year). -/
def civilDate (n : Nat) : Nat × Nat × Nat :=
  let z := n + 306
  let era := z / 146097
  let doe := z % 146097
  let yoe := (doe - doe / 1460 + doe / 36524 - doe / 146096) / 365
  let doy := doe - (365 * yoe + yoe / 4 - yoe / 100)
  let mp := (5 * doy + 2) / 153
  let month := if mp < 10 then mp + 3 else mp - 9
  (yoe + era * 400 + (if month ≤ 2 then 1 else 0), month, doy - (153 * mp + 2) / 5 + 1)

/-- `str` of a date that UTC can show, as every date on record is. -/
def dateText (date : DateTime) : String :=
  let t := date.toNat
  let seconds := t / 1000000
  let (year, month, day) := civilDate (seconds / 86400)
  let clock := padDigits 2 (seconds / 3600 % 24) ++ ":" ++ padDigits 2 (seconds / 60 % 60) ++ ":" ++
    padDigits 2 (seconds % 60)
  let fraction := if t % 1000000 = 0 then "" else "." ++ padDigits 6 (t % 1000000)
  padDigits 4 year ++ "-" ++ padDigits 2 month ++ "-" ++ padDigits 2 day ++ " " ++ clock ++ fraction ++ "+00:00"

example : formatFixed 2 (25 / 2) = "12.50" := by decide +kernel

example : sortedSet ["b", "a", "b"] = ["a", "b"] := by decide

end HardeningLoop
