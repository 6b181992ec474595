import SignalkDoctor.Explain
/-!
# ExplainRoute — `POST /api/drift/explain` (`src/routes/drift.ts`)

The route checks the names of the body against `PACKAGE_NAME_RE`; `explainPackages` puts them behind `npm explain --json`,
with no end-of-options marker between.  `explain_positional_iff` says which accepted bodies put no option there.
-/
namespace SignalkDoctor
namespace Explain

open Exec (ExecResult)
open Heal (PackageExplanation)

/-! ## `PACKAGE_NAME_RE` -/

/-- `[a-z0-9-~]`: the hyphen behind a range stands for itself. -/
def isNameStart (c : Char) : Bool := ('a' ≤ c && c ≤ 'z') || c.isDigit || c == '-' || c == '~'

/-- `[a-z0-9-._~]` -/
def isNameChar (c : Char) : Bool := isNameStart c || c == '.' || c == '_'

/-- `[a-z0-9-~][a-z0-9-._~]*` -/
def isNamePart : Text → Bool
  | [] => false
  | c :: cs => isNameStart c && cs.all isNameChar

/-- `PACKAGE_NAME_RE.test(name)` -/
def isPackageName (name : String) : Bool :=
  match name.toList with
  | '@' :: cs =>
    match cs.dropWhile isNameChar with
    | '/' :: rest => isNamePart (cs.takeWhile isNameChar) && isNamePart rest
    | _ => false
  | cs => isNamePart cs

def MAX_EXPLAIN_PACKAGES : Nat := 16

/-! ## The route -/

def packageName? : Json → Option String
  | .str name => if isPackageName name then some name else none
  | _ => none

def acceptedPackages (body : Option Json) : Option (List String) :=
  match body.bind (fun b => b.get? "packages") with
  | some (.arr packages) =>
    if packages.length = 0 ∨ packages.length > MAX_EXPLAIN_PACKAGES ∨
        ¬ packages.all (fun p => (packageName? p).isSome) then none
    else some (packages.filterMap packageName?)
  | _ => none

inductive ExplainReply where
  | badRequest (error : String)
  | failed (error : String)
  | explanations (explanations : List PackageExplanation)
  deriving DecidableEq, Repr

def explainRoute (J : JsonCodec) (body : Option Json) (exec : List String → ExecResult) : ExplainReply :=
  match acceptedPackages body with
  | none => .badRequest ("body must be \x7b packages: string[] \x7d of 1–" ++ toString MAX_EXPLAIN_PACKAGES ++
      " npm package names")
  | some packages =>
    match explainPackages J packages exec with
    | .ok explanations => .explanations explanations
    | .failed detail => .failed detail

def appendedArgs (packages : List String) : List String := (explainCommand packages).drop 3

/-- `npm` takes the argument for an option. -/
def isOption (arg : String) : Bool := arg.toList.head? == some '-'

/-! ## The names accepted -/

/-- **A scoped name, or one that begins with a letter, a digit or a tilde.** -/
def BeginsPlain (name : String) : Prop :=
  ∃ c ∈ name.toList.head?, c = '@' ∨ ('a' ≤ c ∧ c ≤ 'z') ∨ c.isDigit = true ∨ c = '~'

theorem isNamePart_head {cs : Text} (h : isNamePart cs = true) : ∃ c ∈ cs.head?, isNameStart c = true := by
  cases cs with
  | nil => cases h
  | cons c cs =>
    rw [isNamePart, Bool.and_eq_true] at h
    exact ⟨c, rfl, h.1⟩

/-- A name that matches begins with the `@` of a scope or with one of the four kinds of its first class. -/
theorem isPackageName_head {name : String} (h : isPackageName name = true) :
    ∃ c ∈ name.toList.head?, c = '@' ∨ isNameStart c = true := by
  unfold isPackageName at h
  split at h
  · rename_i hcs
    rw [hcs]
    exact ⟨'@', rfl, .inl rfl⟩
  · obtain ⟨c, hc, hstart⟩ := isNamePart_head h
    exact ⟨c, hc, .inr hstart⟩

/-- **Among the names that match, those `npm` takes for no option are the ones with a plain beginning.** -/
theorem isOption_eq_false_iff {name : String} (h : isPackageName name = true) :
    isOption name = false ↔ BeginsPlain name := by
  obtain ⟨c, hc, hstart⟩ := isPackageName_head h
  have hhead : name.toList.head? = some c := hc
  simp only [isOption, BeginsPlain, hhead, beq_eq_false_iff_ne, ne_eq, Option.some.injEq, Option.mem_some_iff,
    exists_eq_left']
  constructor
  · intro hne
    rcases hstart with hat | hstart
    · exact .inl hat
    · simp only [isNameStart, Bool.or_eq_true, Bool.and_eq_true, decide_eq_true_eq, beq_iff_eq] at hstart
      rcases hstart with ((hletter | hdigit) | hminus) | htilde
      · exact .inr (.inl hletter)
      · exact .inr (.inr (.inl hdigit))
      · exact absurd hminus hne
      · exact .inr (.inr (.inr htilde))
  · rintro hplain rfl
    revert hplain
    decide

theorem isPackageName_of_accepted {body : Option Json} {packages : List String}
    (h : acceptedPackages body = some packages) : ∀ p ∈ packages, isPackageName p = true := by
  unfold acceptedPackages at h
  split at h
  · split at h
    · cases h
    · cases h
      intro p hp
      obtain ⟨v, -, hv⟩ := List.mem_filterMap.1 hp
      unfold packageName? at hv
      split at hv
      · split at hv
        · rename_i hname
          cases hv
          exact hname
        · cases hv
      · cases hv
  · cases h

/-- **What an accepted body appends to the command holds no option exactly when each of its names has a plain
beginning.** -/
theorem explain_positional_iff (body : Option Json) (packages : List String)
    (h : acceptedPackages body = some packages) :
    (∀ arg ∈ appendedArgs packages, isOption arg = false) ↔ ∀ name ∈ packages, BeginsPlain name := by
  have happended : appendedArgs packages = packages := rfl
  rw [happended]
  refine forall_congr' (fun name => forall_congr' (fun hname => ?_))
  exact isOption_eq_false_iff (isPackageName_of_accepted h name hname)

def oneName (name : String) : Option Json := some (.obj [("packages", .arr [.str name])])

theorem explain_positional_iff_streams :
    (∀ arg ∈ appendedArgs ["@signalk/streams"], isOption arg = false) ↔ ∀ name ∈ ["@signalk/streams"], BeginsPlain name :=
  explain_positional_iff (oneName "@signalk/streams") ["@signalk/streams"] (by decide +kernel)

/-- `--global` is a name to the route and an option to `npm`. -/
theorem explain_positional_global : ¬ ∀ (body : Option Json) (packages : List String),
    acceptedPackages body = some packages → ∀ arg ∈ appendedArgs packages, isOption arg = false := by
  intro h
  have hopt := h (oneName "--global") ["--global"] (by decide +kernel) "--global" (by decide +kernel)
  exact absurd hopt (by decide +kernel)

end Explain
end SignalkDoctor
