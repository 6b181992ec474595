import SignalkDoctor.ImageRetention
import SignalkDoctor.Installed
import SignalkDoctor.Probes
import SignalkDoctor.Quadlet
/-!
# VersionDrift — the pinned, the running and the reported version (`src/probes/version-drift.ts`)

Of each container the probe compares the tag its unit file pins with the tag of the image that runs and, for the updater,
with the version the engine reports.  `probeVersionDrift_ok_iff` is when all is well, and `rewrite_then_probe` what the probe
says after the rewriter has pinned a tag (`Quadlet`).
-/
namespace SignalkDoctor
namespace VersionDrift

open Drift (CategorizedError)
open ImageRetention (splitLastColon)
open JsString (isLineEnd isSpace)
open Probes (ProbeResult ProbeStatus)
open Quadlet (readQuadletImage rewriteImageLine)
open Tags (digits)

/-! ## Tags -/

/-- `/^v?\d+\.\d+\.\d+(?:[-+][\w.-]+)?$/.test(tag)`, of what follows the three numbers. -/
def isVersionEnd : List Char → Bool
  | [] => true
  | c :: rest => (c == '-' || c == '+') && rest ≠ [] && rest.all (fun c => c.isAlphanum || c == '_' || c == '.' || c == '-')

def isFixedVersionTag (tag : String) : Bool :=
  let cs := match tag.toList with
    | 'v' :: cs => cs
    | cs => cs
  ((digits cs).bind (fun r => (Drift.dot r.2).bind (fun cs => (digits cs).bind (fun r => (Drift.dot r.2).bind (fun cs =>
    (digits cs).map (fun r => isVersionEnd r.2)))))).getD false

/-- `tagOf`: what stands behind the last colon, if no slash does. -/
def tagOf (image : Option String) : Option String :=
  match image with
  | none | some "" => none
  | some image =>
    match splitLastColon (String.ofList (image.toList.takeWhile (· ≠ '@'))) with
    | some (_, tag) => if '/' ∈ tag.toList then none else some tag
    | none => none

/-! ## The sources -/

structure Sources where
  quadletImage : Option String
  quadletTag : Option String
  runningImage : Option String
  runningTag : Option String
  reportedVersion : Option String
  runtimeError : Option CategorizedError
  deriving DecidableEq, Repr

structure RunningImageResult where
  image : Option String
  error : Option CategorizedError
  deriving DecidableEq, Repr

/-- `readRunningImage`; `none` for no runtime. -/
def readRunningImage (inspected : Option (Except CategorizedError Json)) : RunningImageResult :=
  match inspected with
  | none => ⟨none, none⟩
  | some (.error e) => if e.kind = .notFound then ⟨none, none⟩ else ⟨none, some e⟩
  | some (.ok info) =>
    ⟨(Json.strOrNull (info.get? "ImageName")).or
      ((Json.strOrNull ((info.get? "Config").bind (·.get? "Image"))).or (Json.strOrNull (info.get? "Image"))), none⟩

/-- What the engine's health endpoint gives, `none` for a request that fails. -/
structure HealthReply where
  ok : Bool
  version : Option String

def readReportedVersion (reply : Option HealthReply) : Option String :=
  match reply with
  | none => none
  | some reply =>
    if reply.ok = false then none
    else reply.version.filter (fun v => v ≠ "" ∧ v ≠ "unknown")

def gatherSources (file : Option Text) (running : RunningImageResult) (reported : Option String) : Sources :=
  let quadletImage := (readQuadletImage file).map String.ofList
  ⟨quadletImage, tagOf quadletImage, running.image, tagOf running.image, reported, running.error⟩

/-! ## The verdict -/

/-- A string that is there and not empty. -/
def nonEmpty (s : Option String) : Option String := s.filter (· ≠ "")

def pinsOther (quadletTag runningTag : Option String) : Bool :=
  match nonEmpty quadletTag, nonEmpty runningTag with
  | some q, some r => q ≠ r
  | _, _ => false

/-- The engine reports another version than a tag that is one. -/
def reportsOther (reportedVersion tag : Option String) : Bool :=
  match nonEmpty reportedVersion, nonEmpty tag with
  | some v, some t => isFixedVersionTag t && v ≠ t && "v" ++ v ≠ t
  | _, _ => false

/-- What the loop makes of one container. -/
inductive Finding where
  | runtimeWarning (text : String)
  | drift (text : String)
  | summary (text : String)
  deriving DecidableEq, Repr

def stamp (s : Sources) : String :=
  match nonEmpty s.reportedVersion with
  | some v => "v" ++ v
  | none => (s.runningTag.or s.quadletTag).getD "unknown"

def findingOf (container : String) (s : Sources) : Finding :=
  match s.runtimeError with
  | some e => .runtimeWarning (container ++ ": cannot read running image (" ++ e.kind.text ++ ": " ++ e.userMessage ++ ")")
  | none =>
    if pinsOther s.quadletTag s.runningTag then
      .drift (container ++ ": Quadlet pins " ++ s.quadletTag.getD "" ++ " but container is on " ++ s.runningTag.getD "")
    else if reportsOther s.reportedVersion s.runningTag then
      .drift (container ++ ": image tag " ++ s.runningTag.getD "" ++ " but engine reports v" ++ s.reportedVersion.getD "")
    else if reportsOther s.reportedVersion s.quadletTag then
      .drift (container ++ ": Quadlet pins " ++ s.quadletTag.getD "" ++ " but engine reports v" ++ s.reportedVersion.getD "")
    else .summary (container ++ ": " ++ stamp s)

def Finding.drift? : Finding → Option String
  | .drift text => some text
  | _ => none

def Finding.runtimeWarning? : Finding → Option String
  | .runtimeWarning text => some text
  | _ => none

def Finding.summary? : Finding → Option String
  | .summary text => some text
  | _ => none

abbrev Targets := List (String × Sources)

/-- The two containers, in order. -/
def targets (updater server : Sources) : Targets := [("signalk-updater-server", updater), ("signalk-server", server)]

def versionResult (durationMs : Int) (details : Targets) (status : ProbeStatus) (message : String) : ProbeResult Targets :=
  ⟨"version-drift", "Version drift", status, message, some details, durationMs⟩

def probeVersionDrift (durationMs : Int) (results : Targets) : ProbeResult Targets :=
  let findings := results.map (fun r => findingOf r.1 r.2)
  let driftMessages := findings.filterMap Finding.drift?
  let runtimeWarnings := findings.filterMap Finding.runtimeWarning?
  let okSummaries := findings.filterMap Finding.summary?
  if driftMessages ≠ [] then versionResult durationMs results .warn ("; ".intercalate (driftMessages ++ runtimeWarnings))
  else if runtimeWarnings ≠ [] then versionResult durationMs results .warn ("; ".intercalate runtimeWarnings)
  else
    versionResult durationMs results .ok
      (if okSummaries ≠ [] then "All sources agree: " ++ ", ".intercalate okSummaries
        else "No version information available to compare")

/-! ## When all is well -/

/-- **The sources agree**: the running image is read, the pinned tag is the running one where both are known, and the
reported version is that of either tag, up to a `v`, where that is a version. -/
structure Agrees (s : Sources) : Prop where
  readable : s.runtimeError = none
  pinned : ∀ q r, nonEmpty s.quadletTag = some q → nonEmpty s.runningTag = some r → q = r
  reported : ∀ v t, nonEmpty s.reportedVersion = some v → nonEmpty s.runningTag = some t ∨ nonEmpty s.quadletTag = some t →
    isFixedVersionTag t = true → v = t ∨ "v" ++ v = t

theorem pinsOther_eq_false_iff {quadletTag runningTag : Option String} : pinsOther quadletTag runningTag = false ↔
    ∀ q r, nonEmpty quadletTag = some q → nonEmpty runningTag = some r → q = r := by
  unfold pinsOther
  cases nonEmpty quadletTag <;> cases nonEmpty runningTag <;> simp

theorem reportsOther_eq_false_iff {reportedVersion tag : Option String} : reportsOther reportedVersion tag = false ↔
    ∀ v t, nonEmpty reportedVersion = some v → nonEmpty tag = some t → isFixedVersionTag t = true → v = t ∨ "v" ++ v = t := by
  unfold reportsOther
  cases nonEmpty reportedVersion <;> cases nonEmpty tag <;> simp [or_iff_not_imp_left]

theorem findingOf_summary_iff (container : String) (s : Sources) :
    (findingOf container s).drift? = none ∧ (findingOf container s).runtimeWarning? = none ↔ Agrees s := by
  unfold findingOf
  cases herror : s.runtimeError with
  | some e => exact iff_of_false (fun h => by cases h.2) (fun h => by cases herror.symm.trans h.readable)
  | none =>
    dsimp only
    split
    · rename_i hpins
      refine iff_of_false (fun h => by cases h.1) (fun h => ?_)
      rw [pinsOther_eq_false_iff.2 h.pinned] at hpins
      cases hpins
    · rename_i hpins
      split
      · rename_i hrunning
        refine iff_of_false (fun h => by cases h.1) (fun h => ?_)
        rw [reportsOther_eq_false_iff.2 (fun v t hv ht => h.reported v t hv (.inl ht))] at hrunning
        cases hrunning
      · rename_i hrunning
        split
        · rename_i hquadlet
          refine iff_of_false (fun h => by cases h.1) (fun h => ?_)
          rw [reportsOther_eq_false_iff.2 (fun v t hv ht => h.reported v t hv (.inr ht))] at hquadlet
          cases hquadlet
        · rename_i hquadlet
          refine iff_of_true ⟨rfl, rfl⟩ ⟨herror, ?_, ?_⟩
          · exact pinsOther_eq_false_iff.1 (Bool.eq_false_iff.2 hpins)
          · rintro v t hv (ht | ht)
            · exact reportsOther_eq_false_iff.1 (Bool.eq_false_iff.2 hrunning) v t hv ht
            · exact reportsOther_eq_false_iff.1 (Bool.eq_false_iff.2 hquadlet) v t hv ht

/-- **All is well exactly when** the sources of every container agree; else the probe warns. -/
theorem probeVersionDrift_ok_iff (durationMs : Int) (results : Targets) :
    ((probeVersionDrift durationMs results).status = .ok ↔ ∀ r ∈ results, Agrees r.2) ∧
      ((probeVersionDrift durationMs results).status = .ok ∨ (probeVersionDrift durationMs results).status = .warn) := by
  have hagrees : (results.map (fun r => findingOf r.1 r.2)).filterMap Finding.drift? = [] ∧
      (results.map (fun r => findingOf r.1 r.2)).filterMap Finding.runtimeWarning? = [] ↔ ∀ r ∈ results, Agrees r.2 := by
    simp only [List.filterMap_eq_nil_iff, List.forall_mem_map, ← forall_and, findingOf_summary_iff]
  rw [← hagrees]
  unfold probeVersionDrift
  generalize results.map (fun r => findingOf r.1 r.2) = findings
  dsimp only
  generalize findings.filterMap Finding.drift? = drifts, findings.filterMap Finding.runtimeWarning? = warnings
  by_cases hdrifts : drifts = []
  · by_cases hwarnings : warnings = []
    · simp [hdrifts, hwarnings, versionResult]
    · simp [hdrifts, hwarnings, versionResult]
  · simp [hdrifts, versionResult]

/-- What drifts is reported, whatever the other containers give. -/
theorem drift_reported (durationMs : Int) {results : Targets} {r : String × Sources} {text : String} (hr : r ∈ results)
    (h : findingOf r.1 r.2 = .drift text) : (probeVersionDrift durationMs results).status = .warn ∧
      text.toList <:+: (probeVersionDrift durationMs results).message.toList := by
  have hmem : text ∈ (results.map (fun r => findingOf r.1 r.2)).filterMap Finding.drift? :=
    List.mem_filterMap.2 ⟨_, List.mem_map_of_mem hr, by rw [h]; rfl⟩
  unfold probeVersionDrift
  dsimp only
  rw [if_pos (List.ne_nil_of_mem hmem)]
  exact ⟨rfl, JsString.intercalate_contains (List.mem_append_left _ hmem)⟩

/-! ## After a rewrite -/

/-- **An image by repository and tag**, without spaces and digest; the repository may name a port. -/
structure ImageRef where
  repo : String
  tag : String
  tag_ne : tag ≠ ""
  visible : ∀ c ∈ repo.toList ++ ':' :: tag.toList, isSpace c = false
  no_digest : '@' ∉ repo.toList ++ ':' :: tag.toList
  plain_tag : ':' ∉ tag.toList ∧ '/' ∉ tag.toList

def ImageRef.text (i : ImageRef) : String := i.repo ++ ":" ++ i.tag

theorem ImageRef.toList_text (i : ImageRef) : i.text.toList = i.repo.toList ++ ':' :: i.tag.toList :=
  ImageRetention.toList_colon i.repo i.tag

theorem tagOf_text (i : ImageRef) : tagOf (some i.text) = some i.tag := by
  have hdigest : i.text.toList.takeWhile (· ≠ '@') = i.text.toList := by
    refine List.takeWhile_eq_self_iff.2 (fun c hc => decide_eq_true (fun he => i.no_digest ?_))
    rw [i.toList_text] at hc
    exact he ▸ hc
  unfold tagOf
  split
  · rename_i h; cases h
  · rename_i h
    rw [Option.some.injEq, ← String.toList_inj, i.toList_text] at h
    simp at h
  · rename_i h
    cases h
    have hsplit : splitLastColon i.text = some (i.repo, i.tag) :=
      ImageRetention.splitLastColon_eq_some_iff.2 ⟨rfl, i.plain_tag.1⟩
    rw [hdigest, String.ofList_toList, hsplit]
    exact if_neg i.plain_tag.2

theorem trim_text (i : ImageRef) : Quadlet.trim i.text.toList = i.text.toList := by
  have hvisible : ∀ c ∈ i.text.toList, ¬ isSpace c = true := by
    intro c hc
    rw [i.toList_text] at hc
    rw [i.visible c hc]
    exact Bool.false_ne_true
  have hfront : i.text.toList.dropWhile isSpace = i.text.toList :=
    List.dropWhile_eq_self_iff.2 (fun hl => hvisible _ (List.getElem_mem _))
  rw [Quadlet.trim, hfront, Quadlet.trimEnd]
  exact List.rdropWhile_eq_self_iff.2 (fun hl => hvisible _ (List.getLast_mem hl))

theorem isLineEnd_of_visible {c : Char} (h : isSpace c = false) : isLineEnd c = false := by
  simp only [isSpace, Bool.or_eq_false_iff] at h
  simp only [h]

/-- **What the probe says after the rewriter has pinned an image**: it warns, and names both tags, whenever the container runs
another one, whatever it has to say of the updater; with the tag pinned the one that runs, all is well exactly when it is
with the updater. -/
theorem rewrite_then_probe (durationMs : Int) (pinned running : ImageRef) (updater : Sources) {body after previous : Text}
    (h : rewriteImageLine body pinned.text.toList = .ok (after, previous))
    (hbody : ∀ c ∈ body, isLineEnd c = true → c = '\n') :
    let server := gatherSources (some after) ⟨some running.text, none⟩ none
    let r := probeVersionDrift durationMs (targets updater server)
    (pinned.tag ≠ running.tag → r.status = .warn ∧
      ("signalk-server: Quadlet pins " ++ pinned.tag ++ " but container is on " ++ running.tag).toList <:+:
        r.message.toList) ∧
    (pinned.tag = running.tag → (r.status = .ok ↔ Agrees updater)) := by
  have hplain : ∀ c ∈ pinned.text.toList, isLineEnd c = false := by
    intro c hc
    rw [pinned.toList_text] at hc
    exact isLineEnd_of_visible (pinned.visible c hc)
  obtain ⟨before, line, rest, hrw⟩ := Quadlet.rewriteImageLine_eq_ok_iff.1 h
  have hread := hrw.read hplain hbody
  have hserver : gatherSources (some after) ⟨some running.text, none⟩ none =
      ⟨some pinned.text, some pinned.tag, some running.text, some running.tag, none, none⟩ := by
    rw [gatherSources, hread, trim_text, Option.map_some, String.ofList_toList, tagOf_text, tagOf_text]
  rw [hserver]
  have htag : ∀ i : ImageRef, nonEmpty (some i.tag) = some i.tag := fun i => by simp [nonEmpty, i.tag_ne]
  dsimp only
  constructor
  · intro hne
    have hfinding : findingOf "signalk-server" ⟨some pinned.text, some pinned.tag, some running.text, some running.tag,
        none, none⟩ =
        .drift ("signalk-server: Quadlet pins " ++ pinned.tag ++ " but container is on " ++ running.tag) := by
      simp [findingOf, pinsOther, htag, hne]
    exact drift_reported durationMs (List.mem_cons_of_mem _ (List.mem_singleton_self _)) hfinding
  · intro heq
    have hserver : Agrees ⟨some pinned.text, some pinned.tag, some running.text, some running.tag, none, none⟩ := by
      refine ⟨rfl, fun q r hq hr => ?_, fun v t hv => by cases hv⟩
      rw [htag] at hq hr
      cases hq
      cases hr
      exact heq
    rw [(probeVersionDrift_ok_iff durationMs _).1]
    simp [targets, hserver]

def serverPinned : ImageRef :=
  ⟨"ghcr.io/signalk/signalk-server", "v2.14.0", by decide, JsString.forall_not_of_all (by decide +kernel), by decide +kernel,
    by decide +kernel⟩

def serverRunning : ImageRef :=
  ⟨"localhost:5000/signalk-server", "v2.13.0", by decide, JsString.forall_not_of_all (by decide +kernel), by decide +kernel,
    by decide +kernel⟩

theorem rewrite_then_probe_server :
    (probeVersionDrift 7 (targets ⟨none, none, none, none, some "0.5.0", none⟩
      (gatherSources (some Quadlet.updatedQuadlet) ⟨some serverRunning.text, none⟩ none))).status = .warn :=
  ((@rewrite_then_probe 7 serverPinned serverRunning ⟨none, none, none, none, some "0.5.0", none⟩ Quadlet.serverQuadlet
    Quadlet.updatedQuadlet "ghcr.io/signalk/signalk-server:v2.13.0".toList (by decide +kernel)
    (Quadlet.plain_of_all (by decide +kernel))).1
    (by decide)).1

end VersionDrift
end SignalkDoctor
