import SignalkDoctor.DriftTypes
/-!
# Registry — the latest published version (`src/drift/npm-registry.ts`)

`getLatestVersion` makes one conditional GET.  `fetch` is what it gets back: it throws, or a response whose body
resolves or throws.  `Registry` is what a registry promises of its validators, `Registry.Moment` one it may answer by.
-/
namespace SignalkDoctor
namespace Drift

inductive NpmRegistryResult where
  | fetched (version : String) (etag : Option String)
  | notModified (etag : String)
  | offline (detail : String)
  | error (detail : String)
  deriving DecidableEq

/-- The request: `If-None-Match` is sent for a non-empty ETag. -/
structure RegistryRequest where
  url : String
  ifNoneMatch : Option String
  deriving DecidableEq, Repr

/-- What `fetch`, then `res.json()`, gives. -/
inductive HttpOutcome where
  | threw (msg : String)
  | response (status : Nat) (etag : Option String) (body : Except String Json)

def hexDigit (n : Nat) : Char := if n < 10 then Char.ofNat (48 + n) else Char.ofNat (55 + n)

def isUnreserved (c : Char) : Bool := c.isAlphanum || "-_.!~*'()".toList.contains c

def encodeURIComponent (s : String) : List Char :=
  s.toList.flatMap (fun c =>
    if isUnreserved c then [c]
    else (String.singleton c).toUTF8.toList.flatMap (fun b => ['%', hexDigit (b.toNat / 16), hexDigit (b.toNat % 16)]))

/-- `.replace('%40', '@')`: the first occurrence. -/
def replaceAt : List Char → List Char
  | '%' :: '4' :: '0' :: cs => '@' :: cs
  | c :: cs => c :: replaceAt cs
  | [] => []

def latestUrl (npmRegistry packageName : String) : String :=
  npmRegistry ++ "/" ++ String.ofList (replaceAt (encodeURIComponent packageName)) ++ "/latest"

/-- `if (previousEtag) headers['If-None-Match'] = previousEtag` -/
def ifNoneMatch (previousEtag : Option String) : Option String := previousEtag.filter (fun e => decide (e ≠ ""))

def getLatestVersion (npmRegistry : String) (fetch : RegistryRequest → HttpOutcome) (packageName : String)
    (previousEtag : Option String) : NpmRegistryResult :=
  let url := latestUrl npmRegistry packageName
  match fetch ⟨url, ifNoneMatch previousEtag⟩ with
  | .threw msg => .offline msg
  | .response status etag body =>
    if status = 304 then .notModified (previousEtag.getD "")
    else if ¬ (200 ≤ status ∧ status ≤ 299) then .error ("HTTP " ++ toString status ++ " from " ++ url)
    else
      match body with
      | .error msg => .offline msg
      | .ok .null => .offline "Cannot read properties of null (reading 'version')"
      | .ok v =>
        match v.get? "version" with
        | some (.str version) => .fetched version etag
        | _ => .error "response missing `version`"

/-! ## A registry -/

/-- **A registry**: an ETag of a package always stands for the same version. -/
structure Registry where
  versionOf : String → String → String

/-- **A registry as one scan finds it**: the version and ETag it serves for each package, what it answers a request
with.  It answers 304 only to the ETag it serves, and a response with a version is a 200 that serves that version. -/
structure Registry.Moment (R : Registry) where
  version : String → String
  etag : String → Option String
  version_etag : ∀ name e, etag name = some e → version name = R.versionOf name e
  answer : String → Option String → HttpOutcome
  answer_304 : ∀ name inm etag' body, answer name inm = .response 304 etag' body → ∃ e, inm = some e ∧ etag name = some e
  answer_200 : ∀ name inm status etag' v version', answer name inm = .response status etag' (.ok v) → 200 ≤ status →
    status ≤ 299 → v.get? "version" = some (.str version') → status = 200 ∧ version' = version name ∧ etag' = etag name

end Drift
end SignalkDoctor
