import Mathlib.Algebra.Ring.Nat
import SignalkDoctor.Json
import SignalkDoctor.JsString
/-!
# DriftTypes — drift reports and the classification of a gap (`src/drift/types.ts`, `src/drift/classify.ts`)

A report holds, for each tracked package, the copy the image ships and the copy in the data dir, each classified
against the latest published version.  `classify` reads both versions with `SEMVER_RE`; its components are numbers of
the language, exact below 2^53 (`toDouble`).
-/
namespace SignalkDoctor
namespace Drift

open JsString (trim)

inductive DriftClassification where
  | upToDate | patch | minor | major | prerelease | unknown
  deriving DecidableEq, Repr

def DriftClassification.text : DriftClassification → String
  | .upToDate => "up-to-date"
  | .patch => "patch"
  | .minor => "minor"
  | .major => "major"
  | .prerelease => "prerelease"
  | .unknown => "unknown"

def driftClassifications : List DriftClassification := [.upToDate, .patch, .minor, .major, .prerelease, .unknown]

structure DriftLocation where
  installed : String
  classification : DriftClassification
  deriving DecidableEq, Repr

structure DriftPackage where
  name : String
  /-- The copy in the server's own app tree. -/
  image : Option DriftLocation
  /-- The copy in the data dir's plugin tree. -/
  dataDir : Option DriftLocation
  latest : Option String
  etag : Option String
  lastFetchedAt : Option String
  deriving DecidableEq, Repr

inductive DriftFetchReason where
  | unreachable | runtime
  deriving DecidableEq, Repr

def DriftFetchReason.text : DriftFetchReason → String
  | .unreachable => "unreachable"
  | .runtime => "runtime"

structure DriftFetchError where
  reason : DriftFetchReason
  detail : String
  deriving DecidableEq, Repr

structure DriftReport where
  signalkImageTag : Option String
  lastScannedAt : String
  lastSuccessfulScanAt : Option String
  online : Bool
  lastFetchError : Option DriftFetchError
  packages : List DriftPackage
  deriving DecidableEq, Repr

/-! ## The classification -/

/-- The double nearest to `n`, ties to even; from 2^1024 on, which compares as `Infinity` does. -/
def toDouble (n : Nat) : Nat :=
  if n < 2 ^ 53 then n
  else
    let e := n.log2 - 52
    let q := n / 2 ^ e
    let r := 2 * (n % 2 ^ e)
    let up := 2 ^ e < r ∨ (r = 2 ^ e ∧ q % 2 = 1)
    min ((if up then q + 1 else q) * 2 ^ e) (2 ^ 1024)

/-- No number up to 2^53 is passed by the rounding. -/
theorem le_toDouble {m n : Nat} (hm : m ≤ 2 ^ 53) (h : m ≤ n) : m ≤ toDouble n := by
  unfold toDouble
  split
  · exact h
  · rename_i hbig
    -- of a number from 2^53 on the first 53 digits stay
    have hn : n ≠ 0 := by omega
    have hlog : 53 ≤ n.log2 := (Nat.le_log2 hn).2 (by omega)
    have hdigits : 2 ^ 52 ≤ n / 2 ^ (n.log2 - 52) := by
      rw [Nat.le_div_iff_mul_le (Nat.two_pow_pos _), ← Nat.pow_add, Nat.add_sub_cancel' (by omega)]
      exact (Nat.le_log2 hn).1 (Nat.le_refl _)
    have htwo : 2 ^ 1 ≤ 2 ^ (n.log2 - 52) := Nat.pow_le_pow_right (by decide) (by omega)
    have hkept : 2 ^ 53 ≤ n / 2 ^ (n.log2 - 52) * 2 ^ (n.log2 - 52) := Nat.mul_le_mul hdigits htwo
    have hlimit : ∀ k, 53 ≤ k → m ≤ 2 ^ k := fun k hk => Nat.le_trans hm (Nat.pow_le_pow_right Nat.two_pos hk)
    refine Nat.le_min.2 ⟨Nat.le_trans hm (Nat.le_trans hkept (Nat.mul_le_mul_right _ ?_)), hlimit 1024 (by decide)⟩
    split
    · exact Nat.le_succ _
    · exact Nat.le_refl _

/-- `Number.parseInt(digits, 10)` -/
def parseInt (digits : List Char) : Nat :=
  toDouble (digits.foldl (fun n c => 10 * n + (c.toNat - 48)) 0)

structure Parsed where
  major : Nat
  minor : Nat
  patch : Nat
  prerelease : Option String
  deriving DecidableEq, Repr

/-- `(\d+)` -/
def number (cs : List Char) : Option (Nat × List Char) :=
  if cs.takeWhile Char.isDigit = [] then none
  else some (parseInt (cs.takeWhile Char.isDigit), cs.dropWhile Char.isDigit)

def dot : List Char → Option (List Char)
  | '.' :: cs => some cs
  | _ => none

/-- `[\w.+-]` -/
def isPrereleaseChar (c : Char) : Bool := c.isAlphanum || c == '_' || c == '.' || c == '+' || c == '-'

/-- `(?:-([\w.+-]+))?$` -/
def prereleasePart : List Char → Option (Option String)
  | [] => some none
  | '-' :: cs => if cs ≠ [] ∧ cs.all isPrereleaseChar = true then some (some (String.ofList cs)) else none
  | _ => none

/-- `v?` -/
def dropV : List Char → List Char
  | 'v' :: cs => cs
  | cs => cs

/-- `parse`: the match of `SEMVER_RE` on the trimmed version. -/
def parse (v : String) : Option Parsed := do
  let (major, cs) ← number (dropV (trim v).toList)
  let cs ← dot cs
  let (minor, cs) ← number cs
  let cs ← dot cs
  let (patch, cs) ← number cs
  let prerelease ← prereleasePart cs
  return ⟨major, minor, patch, prerelease⟩

def classify (installed latest : String) : DriftClassification :=
  match parse installed, parse latest with
  | some a, some b =>
    if a.major = b.major ∧ a.minor = b.minor ∧ a.patch = b.patch then
      if a.prerelease = b.prerelease then .upToDate else .prerelease
    else if b.major > a.major then .major
    else if b.major = a.major ∧ b.minor > a.minor then .minor
    else if b.major = a.major ∧ b.minor = a.minor ∧ b.patch > a.patch then .patch
    -- latest < installed: nothing for the operator to apply
    else .upToDate
  | _, _ => .unknown

end Drift
end SignalkDoctor
