import SignalkDoctor.Heal
import SignalkDoctor.JsonText
import SignalkDoctor.TailCollector
/-!
# Explain — who depends on a package (`src/drift/explain.ts`)

`explainPackages` runs `npm explain --json` in the container and reads the array it prints, a document that has come
through the collector of a command's output.  `explainPackages_iff` says when it is the array that was printed.
-/
namespace SignalkDoctor
namespace Explain

open Exec
open Heal (PackageDependent PackageExplanation)
open Json (strOrNull)
open Utf8 (Bytes encode)

inductive ExplainResult where
  | ok (explanations : List PackageExplanation)
  | failed (detail : String)
  deriving DecidableEq, Repr

/-! ## `parseExplainOutput` -/

/-- The name of an entry that has one. -/
def entryName (raw : Json) : Option String :=
  match raw.get? "name" with
  | some (.str name) => if name = "" then none else some name
  | _ => none

/-- `list.push(raw); copiesByName.set(raw.name, list)`, the names in the order of their first entries. -/
def addCopy (copiesByName : List (String × List Json)) (raw : Json) : List (String × List Json) :=
  match entryName raw with
  | none => copiesByName
  | some name =>
    if copiesByName.any (fun c => c.1 == name) then
      copiesByName.map (fun c => if c.1 == name then (c.1, c.2 ++ [raw]) else c)
    else copiesByName ++ [(name, [raw])]

/-- The top-level copy, or all of them. -/
def relevantCopies (name : String) (copies : List Json) : List Json :=
  match copies.find? (fun c => c.get? "location" == some (.str ("node_modules/" ++ name))) with
  | some topLevel => [topLevel]
  | none => copies

/-- One entry of `dependents`, when its `spec` is a string; without a `from.name` it is the tree's root. -/
def dependentOf (d : Json) : Option PackageDependent :=
  match d.get? "spec" with
  | some (.str spec) =>
    let holder := (d.get? "from").getD .null
    some ⟨(strOrNull (holder.get? "name")).getD "package.json", strOrNull (holder.get? "version"), spec⟩
  | _ => none

def rawDependents (raw : Json) : List Json :=
  match raw.get? "dependents" with
  | some (.arr items) => items
  | _ => []

/-- `entry.dependents.push(dependent)`, unless one of its name and spec is there. -/
def addDependent (dependents : List PackageDependent) (dependent : PackageDependent) : List PackageDependent :=
  if dependents.any (fun e => e.name == dependent.name && e.spec == dependent.spec) then dependents
  else dependents ++ [dependent]

def explanationFor (name : String) (copies : List Json) : PackageExplanation :=
  let relevant := relevantCopies name copies
  let found := relevant.flatMap (fun raw => (rawDependents raw).filterMap dependentOf)
  let dependents := found.foldl addDependent []
  { name := name
    version := relevant.head?.bind (fun raw => strOrNull (raw.get? "version"))
    dependents := dependents
    extraneous := dependents.isEmpty && relevant.all (fun raw => raw.get? "extraneous" == some (.bool true))
    heldByEmbeddedServer := found.any (fun d => d.name == "signalk-server") }

/-- The explanations of the entries of an array. -/
def explanationsOf (entries : List Json) : List PackageExplanation :=
  (entries.foldl addCopy []).map (fun c => explanationFor c.1 c.2)

section
variable (J : JsonCodec)

def parseExplainOutput (output : Text) : Option (List PackageExplanation) :=
  match J.parse output with
  | some (.arr entries) => some (explanationsOf entries)
  | _ => none

/-! ## `explainPackages` -/

def isNoMatchError (output : Text) : Bool :=
  match (J.parse output).bind (fun parsed => (parsed.get? "error").bind (fun error => error.get? "summary")) with
  | some (.str summary) => "No dependencies found".isPrefixOf summary
  | _ => false

/-- `slice(0, n)`, a character past the first plane being two units. -/
def sliceUnits : Nat → List Char → List Char
  | _, [] => []
  | n, c :: t =>
    let units := if c.toNat < 0x10000 then 1 else 2
    if units ≤ n then c :: sliceUnits (n - units) t else []

def explainCommand (names : List String) : List String := ["npm", "explain", "--json"] ++ names

/-- `explainPackages`; `exec` is what the command gives. -/
def explainPackages (names : List String) (exec : List String → ExecResult) : ExplainResult :=
  if names = [] then .ok []
  else
    match exec (explainCommand names) with
    | .failure f => .failed (f.reason.text ++ ": " ++ f.detail)
    | .success exitCode output _ =>
      match parseExplainOutput J output.toList with
      | some explanations => .ok explanations
      | none =>
        if exitCode ≠ 0 ∧ isNoMatchError J output.toList then .ok []
        else .failed ("npm explain returned an unexpected payload (exit " ++ toString exitCode ++ "): " ++
          String.ofList (sliceUnits 200 output.toList))

end

/-- The call of `execInContainer`, stderr apart. -/
def explainCall (timeoutMs lingerGraceMs : Nat) : ExecCall := ⟨timeoutMs, lingerGraceMs, true⟩

/-! ## What came through the collector -/

/-- **An array that npm prints**, as the call of `execInContainer` gets it: `writes` is how the demultiplexer cuts what
npm writes, `acts` what the runtime answers. -/
structure Printed (J : JsonCodec) (call : ExecCall) (writes : List (Stream × Bytes)) (t : Text) (entries : List Json)
    (acts : List ExecAct) (r : ExecResult) : Prop where
  stdout : (chunksOf .stdout writes).flatten = encode t
  array : J.parse t = some (.arr entries)
  exits : ∀ a ∈ acts, a.Exits 0 (collect call writes)
  run : Steps.exec (execStep call) .resolving acts = some (.done r)

variable {J : JsonCodec} {names : List String} {timeoutMs lingerGraceMs : Nat} {writes : List (Stream × Bytes)} {t : Text}
variable {entries : List Json} {acts : List ExecAct} {r : ExecResult}

theorem explainPackages_fits (hnames : names ≠ [])
    (h : Printed J (explainCall timeoutMs lingerGraceMs) writes t entries acts r)
    (hfits : (encode t).length ≤ MAX_OUTPUT_BYTES) :
    explainPackages J names (fun _ => r) = .ok (explanationsOf entries) := by
  have hkeeps := TailCollector.writeAll_spec (chunksOf .stdout writes)
  rw [h.stdout] at hkeeps
  obtain rfl := exec_of_exits h.exits h.run
  simp only [explainPackages, if_neg hnames, success, collect, explainCall, if_true]
  rcases TailCollector.text_of_keeps hkeeps with ⟨-, htext⟩ | ⟨hcut, -⟩
  · rw [htext, String.toList_ofList]
    simp only [parseExplainOutput, h.array]
  · omega

/-- An output that was cut is no JSON text, and the command did not fail. -/
theorem explainPackages_cut (hmark : ∀ rest, J.parse ('…' :: rest) = none) (hnames : names ≠ [])
    (h : Printed J (explainCall timeoutMs lingerGraceMs) writes t entries acts r)
    (hcut : MAX_OUTPUT_BYTES < (encode t).length) : ∃ detail, explainPackages J names (fun _ => r) = .failed detail := by
  have hkeeps := TailCollector.writeAll_spec (chunksOf .stdout writes)
  rw [h.stdout] at hkeeps
  obtain rfl := exec_of_exits h.exits h.run
  simp only [explainPackages, if_neg hnames, success, collect, explainCall, if_true]
  rcases TailCollector.text_of_keeps hkeeps with ⟨hfits, -⟩ | ⟨-, rest, htext⟩
  · omega
  · rw [htext, String.toList_ofList]
    simp only [parseExplainOutput, hmark, ne_eq, not_true_eq_false, false_and, if_false]
    exact ⟨_, rfl⟩

/-- **The explanations are those of the array printed exactly when it fits the collector**, no JSON text beginning with
the mark of a cut output. -/
theorem explainPackages_iff (J : JsonCodec) (names : List String) (timeoutMs lingerGraceMs : Nat)
    (writes : List (Stream × Bytes)) (t : Text) (entries : List Json) (acts : List ExecAct) (r : ExecResult)
    (hmark : ∀ rest, J.parse ('…' :: rest) = none) (hnames : names ≠ [])
    (h : Printed J (explainCall timeoutMs lingerGraceMs) writes t entries acts r) :
    explainPackages J names (fun _ => r) = .ok (explanationsOf entries) ↔ (encode t).length ≤ MAX_OUTPUT_BYTES := by
  constructor
  · intro hok
    refine Nat.le_of_not_lt (fun hcut => ?_)
    obtain ⟨detail, hfailed⟩ := explainPackages_cut hmark hnames h hcut
    rw [hfailed] at hok
    cases hok
  · exact explainPackages_fits hnames h

theorem jsonText_mark (rest : Text) : jsonText.parse ('…' :: rest) = none := rfl

/-- A run of the command: one write of the text, one poll that finds it still running, then its exit. -/
def oneWrite (t : Text) : List (Stream × Bytes) := [(.stderr, [110, 112, 109]), (.stdout, encode t)]

def exitActs (call : ExecCall) (t : Text) : List ExecAct :=
  [.resolved true, .created (.ok ()), .started (.ok ()), .finished .ended,
    .inspected (.ok ⟨some true, none⟩) false (collect call (oneWrite t)),
    .inspected (.ok ⟨some false, some 0⟩) false (collect call (oneWrite t))]

theorem printed_oneWrite {J : JsonCodec} {t : Text} {entries : List Json} (harray : J.parse t = some (.arr entries)) :
    Printed J (explainCall 60000 60000) (oneWrite t) t entries (exitActs (explainCall 60000 60000) t)
      (success (explainCall 60000 60000) (collect (explainCall 60000 60000) (oneWrite t)) 0) where
  stdout := List.append_nil _
  array := harray
  exits := by simp [exitActs, ExecAct.Exits]
  run := rfl

/-- A package that the server holds at its range. -/
def heldCopy : List Json :=
  [.obj [("name", .str "ws"), ("version", .str "8.17.0"), ("location", .str "node_modules/ws"),
    ("dependents", .arr [.obj [("spec", .str "^8.0.0"),
      ("from", .obj [("name", .str "signalk-server"), ("version", .str "2.9.0")])]])]]

/-- The explanation of an array that fits. -/
theorem explainPackages_iff_heldCopy :
    explainPackages jsonText ["ws"] (fun _ => success (explainCall 60000 60000)
      (collect (explainCall 60000 60000) (oneWrite (jsonText.stringify 0 (.arr heldCopy)))) 0) =
        .ok [⟨"ws", some "8.17.0", [⟨"signalk-server", some "2.9.0", "^8.0.0"⟩], false, true⟩] := by
  have hfits : (encode (jsonText.stringify 0 (.arr heldCopy))).length ≤ MAX_OUTPUT_BYTES := by decide +kernel
  exact (explainPackages_iff jsonText ["ws"] 60000 60000 _ _ heldCopy _ _ jsonText_mark (by decide)
    (printed_oneWrite (jsonText.parse_stringify_self 0 (.arr heldCopy) rfl))).2 hfits

/-- A tree in which the package has this many copies. -/
def manyCopies (n : Nat) : List Json := List.replicate n (.obj [("name", .str "a"), ("dependents", .arr [])])

theorem manyCopies_size : ∀ n, n ≤ JsonText.sizeItems (manyCopies n)
  | 0 => Nat.zero_le _
  | n + 1 => by
    have := manyCopies_size n
    simp only [manyCopies, List.replicate_succ, JsonText.sizeItems] at this ⊢
    omega

theorem wf_manyCopies (n : Nat) : (Json.arr (manyCopies n)).wf = true := by
  rw [Json.wf, Json.wfList_eq, manyCopies, List.all_replicate]
  cases n <;> rfl

theorem printed_manyCopies (n : Nat) :
    Printed jsonText (explainCall 60000 60000) (oneWrite (jsonText.stringify 0 (.arr (manyCopies n))))
      (jsonText.stringify 0 (.arr (manyCopies n))) (manyCopies n)
      (exitActs (explainCall 60000 60000) (jsonText.stringify 0 (.arr (manyCopies n))))
      (success (explainCall 60000 60000)
        (collect (explainCall 60000 60000) (oneWrite (jsonText.stringify 0 (.arr (manyCopies n))))) 0) :=
  printed_oneWrite (jsonText.parse_stringify_self 0 _ (wf_manyCopies n))

theorem manyCopies_long {n : Nat} (hn : MAX_OUTPUT_BYTES ≤ n) :
    MAX_OUTPUT_BYTES < (encode (jsonText.stringify 0 (.arr (manyCopies n)))).length := by
  have hsize : JsonText.size (.arr (manyCopies n)) ≤ (jsonText.stringify 0 (.arr (manyCopies n))).length :=
    JsonText.size_le 0 (.arr (manyCopies n)) 0
  have hitems := manyCopies_size n
  have hbytes := Utf8.length_le_encode (jsonText.stringify 0 (.arr (manyCopies n)))
  simp only [JsonText.size] at hsize
  omega

/-- An array past the limit is answered with a failure. -/
theorem explainPackages_manyCopies :
    ¬ ∀ (J : JsonCodec) (names : List String) (timeoutMs lingerGraceMs : Nat) (writes : List (Stream × Bytes)) (t : Text)
      (entries : List Json) (acts : List ExecAct) (r : ExecResult), (∀ rest, J.parse ('…' :: rest) = none) → names ≠ [] →
      Printed J (explainCall timeoutMs lingerGraceMs) writes t entries acts r →
      explainPackages J names (fun _ => r) = .ok (explanationsOf entries) := by
  intro h
  have hnames : ["a"] ≠ [] := List.cons_ne_nil "a" []
  have hprinted := printed_manyCopies MAX_OUTPUT_BYTES
  obtain ⟨detail, hfailed⟩ := explainPackages_cut jsonText_mark hnames hprinted (manyCopies_long (Nat.le_refl _))
  rw [h jsonText ["a"] 60000 60000 _ _ _ _ _ jsonText_mark hnames hprinted] at hfailed
  cases hfailed

end Explain
end SignalkDoctor
