import SignalkDoctor.Explain
import SignalkDoctor.Grouping
/-!
# ExplainOutput — what an explanation says (`src/drift/explain.ts`)

`parseExplainOutput` reads a document of any shape.  Here it is written with the property reads that can throw
(`parseExplainOutputOrThrow`); `parseExplainOutput_explains` says that none does, and what of the document each explanation
is about.
-/
namespace SignalkDoctor
namespace Explain

open Heal (PackageDependent PackageExplanation)
open Json (strOrNull)
open Grouping (addNew addTo ofKey)

/-! ## The property reads -/

/-- Cannot read a property of `null` or `undefined`. -/
structure TypeError where
  property : String
  deriving DecidableEq, Repr

/-- `v[k]`, of a value that may be `undefined`. -/
def member (k : String) : Option Json → Except TypeError (Option Json)
  | none => .error ⟨k⟩
  | some .null => .error ⟨k⟩
  | some v => .ok (v.get? k)

/-- `v?.[k]` -/
def optMember (k : String) : Option Json → Option Json
  | none => none
  | some v => v.get? k

/-! ## The loops -/

def entryNameOrThrow (raw : Json) : Except TypeError (Option String) :=
  if raw.truthy = false then .ok none
  else do
    match ← member "name" (some raw) with
    | some (.str name) => return if name = "" then none else some name
    | _ => return none

def addCopyOrThrow (copiesByName : List (String × List Json)) (raw : Json) :
    Except TypeError (List (String × List Json)) := do
  match ← entryNameOrThrow raw with
  | none => return copiesByName
  | some name =>
    if copiesByName.any (fun c => c.1 == name) then
      return copiesByName.map (fun c => if c.1 == name then (c.1, c.2 ++ [raw]) else c)
    else return copiesByName ++ [(name, [raw])]

def isTopLevelOrThrow (name : String) (c : Json) : Except TypeError Bool := do
  return (← member "location" (some c)) == some (.str ("node_modules/" ++ name))

def relevantCopiesOrThrow (name : String) (copies : List Json) : Except TypeError (List Json) := do
  match ← copies.findM? (isTopLevelOrThrow name) with
  | some topLevel => return [topLevel]
  | none => return copies

/-- One turn over the dependents: none where the `spec` is no string. -/
def dependentOrThrow (d : Json) : Except TypeError (Option PackageDependent) :=
  match optMember "spec" (some d) with
  | some (.str spec) => do
    let depName := (strOrNull (optMember "name" (← member "from" (some d)))).getD "package.json"
    let version := strOrNull (optMember "version" (← member "from" (some d)))
    return some ⟨depName, version, spec⟩
  | _ => return none

/-- What the loops over the copies and their dependents fill in. -/
structure Entry where
  dependents : List PackageDependent
  heldByEmbeddedServer : Bool
  allCopiesExtraneous : Bool
  deriving DecidableEq, Repr

def addDependentOrThrow (entry : Entry) (d : Json) : Except TypeError Entry := do
  match ← dependentOrThrow d with
  | none => return entry
  | some dependent =>
    return { entry with
      dependents := addDependent entry.dependents dependent
      heldByEmbeddedServer := entry.heldByEmbeddedServer || dependent.name == "signalk-server" }

/-- `allCopiesExtraneous && raw.extraneous === true` -/
def stillExtraneousOrThrow (allCopiesExtraneous : Bool) (raw : Json) : Except TypeError Bool :=
  if allCopiesExtraneous then do
    return (← member "extraneous" (some raw)) == some (.bool true)
  else .ok false

def addCopyDependents (entry : Entry) (raw : Json) : Except TypeError Entry := do
  let extraneous ← stillExtraneousOrThrow entry.allCopiesExtraneous raw
  let dependents := match ← member "dependents" (some raw) with
    | some (.arr items) => items
    | _ => []
  dependents.foldlM addDependentOrThrow { entry with allCopiesExtraneous := extraneous }

def explanationOrThrow (name : String) (copies : List Json) : Except TypeError PackageExplanation := do
  let relevant ← relevantCopiesOrThrow name copies
  let entry ← relevant.foldlM addCopyDependents ⟨[], false, true⟩
  return {
    name := name
    version := strOrNull (optMember "version" relevant.head?)
    dependents := entry.dependents
    extraneous := entry.dependents.isEmpty && entry.allCopiesExtraneous
    heldByEmbeddedServer := entry.heldByEmbeddedServer }

def parseExplainOutputOrThrow (J : JsonCodec) (output : Text) : Except TypeError (Option (List PackageExplanation)) :=
  match J.parse output with
  | some (.arr parsed) => do
    let copiesByName ← parsed.foldlM addCopyOrThrow []
    let out ← copiesByName.mapM (fun c => explanationOrThrow c.1 c.2)
    return some out
  | _ => return none

/-! ## Nothing throws -/

theorem ok_bind {α β ε : Type} (a : α) (f : α → Except ε β) : (Except.ok a >>= f) = f a := rfl

theorem foldlM_ok {α σ ε : Type} {f : σ → α → Except ε σ} {g : σ → α → σ} :
    ∀ {l : List α}, (∀ s, ∀ a ∈ l, f s a = .ok (g s a)) → ∀ s, l.foldlM f s = .ok (l.foldl g s)
  | [], _, _ => rfl
  | a :: l, h, s => by
    rw [List.foldlM_cons, h s a (List.mem_cons_self ..), List.foldl_cons]
    exact foldlM_ok (fun s b hb => h s b (List.mem_cons_of_mem a hb)) (g s a)

theorem mapM_ok {α β ε : Type} {f : α → Except ε β} {g : α → β} :
    ∀ {l : List α}, (∀ a ∈ l, f a = .ok (g a)) → l.mapM f = .ok (l.map g)
  | [], _ => rfl
  | a :: l, h => by
    rw [List.mapM_cons, h a (List.mem_cons_self ..), List.map_cons,
      mapM_ok (fun b hb => h b (List.mem_cons_of_mem a hb))]
    rfl

theorem findM?_ok {α ε : Type} {p : α → Except ε Bool} {q : α → Bool} :
    ∀ {l : List α}, (∀ a ∈ l, p a = .ok (q a)) → l.findM? p = .ok (l.find? q)
  | [], _ => rfl
  | a :: l, h => by
    rw [List.findM?, h a (List.mem_cons_self ..), List.find?_cons]
    cases hq : q a with
    | true => rfl
    | false => exact findM?_ok (fun b hb => h b (List.mem_cons_of_mem a hb))

theorem member_ok {v : Json} (h : v ≠ .null) (k : String) : member k (some v) = .ok (v.get? k) := by
  unfold member
  split
  · rename_i heq
    cases heq
  · rename_i heq
    exact absurd (Option.some.inj heq) h
  · rename_i heq
    rw [Option.some.inj heq]

theorem ne_null_of_truthy {v : Json} (h : v.truthy = true) : v ≠ .null := by
  rintro rfl
  cases h

theorem entryName_of_not_truthy {raw : Json} (h : raw.truthy = false) : entryName raw = none := by
  cases raw with
  | arr items => cases h
  | obj fields => cases h
  | _ => rfl

theorem entryNameOrThrow_eq (raw : Json) : entryNameOrThrow raw = .ok (entryName raw) := by
  unfold entryNameOrThrow
  cases h : raw.truthy with
  | true =>
    rw [if_neg (by simp), member_ok (ne_null_of_truthy h)]
    unfold entryName
    cases raw.get? "name" with
    | none => rfl
    | some v => cases v <;> rfl
  | false => rw [if_pos rfl, entryName_of_not_truthy h]

theorem addCopyOrThrow_eq (copiesByName : List (String × List Json)) (raw : Json) :
    addCopyOrThrow copiesByName raw = .ok (addCopy copiesByName raw) := by
  unfold addCopyOrThrow addCopy
  rw [entryNameOrThrow_eq]
  cases entryName raw with
  | none => rfl
  | some name =>
    exact (apply_ite Except.ok _ _ _).symm

theorem ne_null_of_entryName {raw : Json} {name : String} (h : entryName raw = some name) : raw ≠ .null := by
  rintro rfl
  cases h

theorem relevantCopiesOrThrow_eq {name : String} {copies : List Json} (h : ∀ c ∈ copies, c ≠ .null) :
    relevantCopiesOrThrow name copies = .ok (relevantCopies name copies) := by
  have hfind : copies.findM? (isTopLevelOrThrow name) =
      .ok (copies.find? (fun c => c.get? "location" == some (.str ("node_modules/" ++ name)))) := by
    refine findM?_ok (fun c hc => ?_)
    rw [isTopLevelOrThrow, member_ok (h c hc)]
    rfl
  rw [relevantCopiesOrThrow, hfind, relevantCopies]
  cases copies.find? (fun c => c.get? "location" == some (.str ("node_modules/" ++ name))) <;> rfl

theorem mem_relevantCopies {name : String} {copies : List Json} {c : Json} (h : c ∈ relevantCopies name copies) :
    c ∈ copies := by
  unfold relevantCopies at h
  split at h
  · rename_i topLevel hfind
    rw [List.mem_singleton.1 h]
    exact List.mem_of_find?_eq_some hfind
  · exact h

theorem optMember_some (k : String) (v : Json) : optMember k (some v) = v.get? k := rfl

/-- A dependent with a `spec` is an object. -/
theorem dependentOrThrow_eq (d : Json) : dependentOrThrow d = .ok (dependentOf d) := by
  unfold dependentOrThrow dependentOf
  rw [optMember_some]
  cases hspec : d.get? "spec" with
  | none => rfl
  | some spec =>
    cases spec with
    | str spec =>
      have hnull : d ≠ .null := by
        rintro rfl
        cases hspec
      simp only [member_ok hnull]
      cases d.get? "from" <;> rfl
    | _ => rfl

def foundIn (raw : Json) : List PackageDependent := (rawDependents raw).filterMap dependentOf

def Entry.add (entry : Entry) (dependent : PackageDependent) : Entry :=
  { entry with
    dependents := addDependent entry.dependents dependent
    heldByEmbeddedServer := entry.heldByEmbeddedServer || dependent.name == "signalk-server" }

theorem Entry.foldl_add : ∀ (found : List PackageDependent) (entry : Entry), found.foldl Entry.add entry =
    { entry with
      dependents := found.foldl addDependent entry.dependents
      heldByEmbeddedServer := entry.heldByEmbeddedServer || found.any (fun d => d.name == "signalk-server") }
  | [], entry => by simp
  | d :: found, entry => by
    rw [List.foldl_cons, Entry.foldl_add found, List.any_cons, ← Bool.or_assoc]
    rfl

theorem foldlM_addDependentOrThrow : ∀ (items : List Json) (entry : Entry),
    items.foldlM addDependentOrThrow entry = .ok ((items.filterMap dependentOf).foldl Entry.add entry)
  | [], _ => rfl
  | d :: items, entry => by
    rw [List.foldlM_cons, addDependentOrThrow, dependentOrThrow_eq, List.filterMap_cons]
    cases dependentOf d with
    | none => exact foldlM_addDependentOrThrow items entry
    | some dependent => exact foldlM_addDependentOrThrow items (entry.add dependent)

def Entry.addCopy (entry : Entry) (raw : Json) : Entry :=
  (foundIn raw).foldl Entry.add
    { entry with allCopiesExtraneous := entry.allCopiesExtraneous && raw.get? "extraneous" == some (.bool true) }

theorem addCopyDependents_eq {raw : Json} (h : raw ≠ .null) (entry : Entry) :
    addCopyDependents entry raw = .ok (entry.addCopy raw) := by
  have hextraneous : stillExtraneousOrThrow entry.allCopiesExtraneous raw =
      .ok (entry.allCopiesExtraneous && raw.get? "extraneous" == some (.bool true)) := by
    rw [stillExtraneousOrThrow, member_ok h]
    cases entry.allCopiesExtraneous <;> rfl
  rw [addCopyDependents, hextraneous, member_ok h]
  exact foldlM_addDependentOrThrow (rawDependents raw) _

/-- **The loops over the copies** fill in what `explanationFor` says. -/
theorem Entry.foldl_addCopy : ∀ (copies : List Json) (entry : Entry), copies.foldl Entry.addCopy entry =
    ⟨(copies.flatMap foundIn).foldl addDependent entry.dependents,
      entry.heldByEmbeddedServer || (copies.flatMap foundIn).any (fun d => d.name == "signalk-server"),
      entry.allCopiesExtraneous && copies.all (fun raw => raw.get? "extraneous" == some (.bool true))⟩
  | [], entry => by simp
  | raw :: copies, entry => by
    rw [List.foldl_cons, Entry.foldl_addCopy copies, Entry.addCopy, Entry.foldl_add, List.flatMap_cons, List.foldl_append,
      List.any_append, List.all_cons, Bool.or_assoc, Bool.and_assoc]

theorem explanationOrThrow_eq {name : String} {copies : List Json} (h : ∀ c ∈ copies, c ≠ .null) :
    explanationOrThrow name copies = .ok (explanationFor name copies) := by
  have hfold : (relevantCopies name copies).foldlM addCopyDependents ⟨[], false, true⟩ =
      .ok ((relevantCopies name copies).foldl Entry.addCopy ⟨[], false, true⟩) :=
    foldlM_ok (fun entry raw hraw => addCopyDependents_eq (h raw (mem_relevantCopies hraw)) entry) _
  have hversion : strOrNull (optMember "version" (relevantCopies name copies).head?) =
      (relevantCopies name copies).head?.bind (fun raw => strOrNull (raw.get? "version")) := by
    cases (relevantCopies name copies).head? <;> rfl
  rw [explanationOrThrow, relevantCopiesOrThrow_eq h, ok_bind, hfold, ok_bind, hversion, Entry.foldl_addCopy]
  rfl

theorem addCopy_eq : addCopy = addTo entryName := by
  funext copiesByName raw
  unfold addCopy addTo
  cases entryName raw <;> rfl

/-- **The names in the order of their first entries, each with its entries.** -/
theorem foldl_addCopy_eq (entries : List Json) : entries.foldl addCopy [] =
    (entries.filterMap entryName).eraseDups.map (fun name => (name, ofKey entryName entries name)) := by
  rw [addCopy_eq, Grouping.foldl_addTo]

/-- **No read throws.** -/
theorem parseExplainOutputOrThrow_eq (J : JsonCodec) (output : Text) :
    parseExplainOutputOrThrow J output = .ok (parseExplainOutput J output) := by
  unfold parseExplainOutputOrThrow parseExplainOutput
  cases J.parse output with
  | none => rfl
  | some v =>
    cases v with
    | arr entries =>
      have hcopies : entries.foldlM addCopyOrThrow [] = .ok (entries.foldl addCopy []) :=
        foldlM_ok (fun copiesByName raw _ => addCopyOrThrow_eq copiesByName raw) []
      have hout : (entries.foldl addCopy []).mapM (fun c => explanationOrThrow c.1 c.2) = .ok (explanationsOf entries) := by
        refine mapM_ok (fun c hc => explanationOrThrow_eq (fun raw hraw => ?_))
        rw [foldl_addCopy_eq] at hc
        obtain ⟨name, -, rfl⟩ := List.mem_map.1 hc
        exact ne_null_of_entryName (eq_of_beq (List.mem_filter.1 hraw).2)
      simp only
      rw [hcopies, ok_bind, hout, ok_bind]
      rfl
    | _ => rfl

/-! ## What an explanation is about -/

/-- The first entry of the name at the top level of the tree. -/
def topLevelEntry (entries : List Json) (name : String) : Option Json :=
  (ofKey entryName entries name).find? (fun c => c.get? "location" == some (.str ("node_modules/" ++ name)))

/-- That entry, or all of the name. -/
def relevantEntries (entries : List Json) (name : String) : List Json :=
  match topLevelEntry entries name with
  | some topLevel => [topLevel]
  | none => ofKey entryName entries name

/-- What tells two dependents apart. -/
def dependentPair (d : PackageDependent) : String × String := (d.name, d.spec)

/-- **What an explanation says of its entries.** -/
structure Explains (relevant : List Json) (x : PackageExplanation) : Prop where
  version : x.version = relevant.head?.bind (fun raw => strOrNull (raw.get? "version"))
  dependents : x.dependents.map dependentPair = ((relevant.flatMap foundIn).map dependentPair).eraseDups
  distinct : (x.dependents.map dependentPair).Nodup
  held : x.heldByEmbeddedServer = true ↔ ∃ d ∈ x.dependents, d.name = "signalk-server"
  extraneous : x.extraneous = true ↔
    x.dependents = [] ∧ ∀ raw ∈ relevant, raw.get? "extraneous" = some (.bool true)

theorem addDependent_eq : addDependent = addNew dependentPair := rfl

theorem explains_explanationFor (name : String) (copies : List Json) :
    Explains (relevantCopies name copies) (explanationFor name copies) := by
  have hpairs : (explanationFor name copies).dependents.map dependentPair =
      (((relevantCopies name copies).flatMap foundIn).map dependentPair).eraseDups := by
    rw [← Grouping.map_foldl_addNew, ← addDependent_eq]
    rfl
  refine ⟨rfl, hpairs, hpairs ▸ Grouping.nodup_eraseDups _, ?_, ?_⟩
  · have hmem : ∀ p, p ∈ (explanationFor name copies).dependents.map dependentPair ↔
        p ∈ ((relevantCopies name copies).flatMap foundIn).map dependentPair := fun p => by rw [hpairs, List.mem_eraseDups]
    have hheld : (explanationFor name copies).heldByEmbeddedServer =
        ((relevantCopies name copies).flatMap foundIn).any (fun d => d.name == "signalk-server") := rfl
    rw [hheld, List.any_eq_true]
    simp only [beq_iff_eq]
    constructor
    · rintro ⟨d, hd, hname⟩
      obtain ⟨d', hd', heq⟩ := List.mem_map.1 ((hmem _).2 (List.mem_map_of_mem hd))
      exact ⟨d', hd', (Prod.mk.inj heq).1.trans hname⟩
    · rintro ⟨d, hd, hname⟩
      obtain ⟨d', hd', heq⟩ := List.mem_map.1 ((hmem _).1 (List.mem_map_of_mem hd))
      exact ⟨d', hd', (Prod.mk.inj heq).1.trans hname⟩
  · have hextraneous : (explanationFor name copies).extraneous =
        ((explanationFor name copies).dependents.isEmpty &&
          (relevantCopies name copies).all (fun raw => raw.get? "extraneous" == some (.bool true))) := rfl
    rw [hextraneous, Bool.and_eq_true, List.isEmpty_iff, List.all_eq_true]
    simp only [beq_iff_eq]

theorem mem_explanationsOf {entries : List Json} {x : PackageExplanation} (h : x ∈ explanationsOf entries) :
    x = explanationFor x.name (ofKey entryName entries x.name) := by
  rw [explanationsOf, foldl_addCopy_eq, List.map_map] at h
  obtain ⟨name, -, rfl⟩ := List.mem_map.1 h
  rfl

theorem names_explanationsOf (entries : List Json) :
    (explanationsOf entries).map (·.name) = (entries.filterMap entryName).eraseDups := by
  rw [explanationsOf, foldl_addCopy_eq, List.map_map, List.map_map]
  exact List.map_id _

/-- With a top-level entry the others of the name have no part in the explanation. -/
theorem explanationFor_topLevel {entries : List Json} {name : String} {topLevel : Json}
    (h : topLevelEntry entries name = some topLevel) :
    explanationFor name (ofKey entryName entries name) = explanationFor name [topLevel] := by
  have hfirst : (ofKey entryName entries name).find?
      (fun c => c.get? "location" == some (.str ("node_modules/" ++ name))) = some topLevel := h
  have hlocation := List.find?_some hfirst
  have hself : [topLevel].find? (fun c => c.get? "location" == some (.str ("node_modules/" ++ name))) = some topLevel := by
    rw [List.find?_cons, hlocation]
  have hrelevant : relevantCopies name (ofKey entryName entries name) = relevantCopies name [topLevel] := by
    rw [relevantCopies, hfirst, relevantCopies, hself]
  unfold explanationFor
  rw [hrelevant]

/-- **`parseExplainOutput` throws on no text, knows the arrays, and explains each name of theirs once**, by its first
top-level entry alone where it has one. -/
theorem parseExplainOutput_explains (J : JsonCodec) (output : Text) :
    ∃ r, parseExplainOutputOrThrow J output = .ok r ∧
      (r = none ↔ ¬ ∃ entries, J.parse output = some (.arr entries)) ∧
      ∀ entries, J.parse output = some (.arr entries) → ∃ xs, r = some xs ∧
        xs.map (·.name) = (entries.filterMap entryName).eraseDups ∧
        ∀ x ∈ xs, Explains (relevantEntries entries x.name) x ∧
          ∀ output' entries' xs', J.parse output' = some (.arr entries') →
            parseExplainOutputOrThrow J output' = .ok (some xs') → ∀ x' ∈ xs', x'.name = x.name →
              ∀ topLevel, topLevelEntry entries x.name = some topLevel → topLevelEntry entries' x.name = some topLevel →
                x' = x := by
  refine ⟨parseExplainOutput J output, parseExplainOutputOrThrow_eq J output, ?_, ?_⟩
  · rw [not_exists, parseExplainOutput]
    split
    · rename_i entries hentries
      constructor
      · intro h
        cases h
      · intro h
        exact absurd hentries (h entries)
    · rename_i hother
      constructor
      · intro _ entries hentries
        exact hother entries hentries
      · intro _
        rfl
  · intro entries hentries
    have hxs : ∀ {o : Text} {es : List Json}, J.parse o = some (.arr es) →
        parseExplainOutput J o = some (explanationsOf es) := fun ho => by rw [parseExplainOutput, ho]
    refine ⟨explanationsOf entries, hxs hentries, names_explanationsOf entries, fun x hx => ⟨?_, ?_⟩⟩
    · have hrelevant : relevantEntries entries x.name = relevantCopies x.name (ofKey entryName entries x.name) := rfl
      have hexplains := explains_explanationFor x.name (ofKey entryName entries x.name)
      rwa [← mem_explanationsOf hx, ← hrelevant] at hexplains
    · intro output' entries' xs' hparse' hxs' x' hx' hname topLevel htop htop'
      rw [parseExplainOutputOrThrow_eq, hxs hparse', Except.ok.injEq, Option.some.injEq] at hxs'
      subst hxs'
      calc
        x' = explanationFor x'.name (ofKey entryName entries' x'.name) := mem_explanationsOf hx'
        _ = explanationFor x.name [topLevel] := by rw [hname, explanationFor_topLevel htop']
        _ = x := by rw [← explanationFor_topLevel htop, ← mem_explanationsOf hx]

end Explain
end SignalkDoctor
