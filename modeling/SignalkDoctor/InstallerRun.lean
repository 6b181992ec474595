import Mathlib.Data.List.Forall2
import Mathlib.Data.List.Nodup
import SignalkDoctor.InstallerRefresh
import SignalkDoctor.UnixPath
/-!
# InstallerRun — the refresh of all artifacts (`refreshInstaller` in `src/installer/refresh.ts`)

The artifacts are refreshed one after the other, with no guard around `refreshOne`: what it throws ends the refresh.
`refreshInstaller_isolated_iff` says when every artifact gets its own result.
-/
namespace SignalkDoctor
namespace Installer

structure Env where
  hostBinDir : String
  doctorData : String
  pagesBase : String

def joinPath (a b : String) : String := String.ofList (UnixPath.join a.toList b.toList)

def Env.snapshotDir (env : Env) : String := joinPath env.doctorData "installer-snapshots"

def Env.payloadDir (env : Env) : String := joinPath env.doctorData "installer-payload"

structure Artifact extends ArtifactDescriptor where
  destPath : String
  deriving DecidableEq

/-- A descriptor before its directory is joined. -/
structure ArtifactRow where
  id : String
  remotePath : String
  name : String
  mode : Nat
  kind : ArtifactKind

def artifactRows : List ArtifactRow := [
  ⟨"signalk", "installer/linux/signalk.tmpl", "signalk", 0o755, .hostScript⟩,
  ⟨"signalk-recovery", "installer/linux/signalk-recovery.tmpl", "signalk-recovery", 0o755, .hostScript⟩,
  ⟨"signalk-socketcan", "installer/linux/signalk-socketcan.tmpl", "signalk-socketcan", 0o755, .hostScript⟩,
  ⟨"signalk-bluetooth", "installer/linux/signalk-bluetooth.tmpl", "signalk-bluetooth", 0o755, .hostScript⟩,
  ⟨"signalk-halpi2", "installer/linux/signalk-halpi2.tmpl", "signalk-halpi2", 0o755, .hostScript⟩,
  ⟨"signalk-kiosk", "installer/linux/signalk-kiosk.tmpl", "signalk-kiosk", 0o755, .hostScript⟩,
  ⟨"detect-hardware", "installer/linux/detect-hardware.sh", "detect-hardware.sh", 0o755, .detectScript⟩,
  ⟨"render-server-quadlet", "installer/linux/render-server-quadlet.sh", "render-server-quadlet.sh", 0o755, .detectScript⟩,
  ⟨"quadlet-signalk-server", "quadlets/signalk-server.container.template", "signalk-server.container.template", 0o644,
    .quadletTemplate⟩,
  ⟨"quadlet-updater-server", "quadlets/signalk-updater-server.container.template",
    "signalk-updater-server.container.template", 0o644, .quadletTemplate⟩,
  ⟨"quadlet-doctor-server", "quadlets/signalk-doctor-server.container.template",
    "signalk-doctor-server.container.template", 0o644, .quadletTemplate⟩,
  ⟨"quadlet-dbus-proxy", "quadlets/signalk-dbus-proxy.container.template", "signalk-dbus-proxy.container.template", 0o644,
    .quadletTemplate⟩]

/-- The host scripts go to the mount, the others to the payload. -/
def ArtifactRow.artifact (env : Env) (row : ArtifactRow) : Artifact where
  id := row.id
  remotePath := row.remotePath
  mode := row.mode
  kind := row.kind
  destPath := joinPath (if row.kind = .hostScript then env.hostBinDir else env.payloadDir) row.name

def artifacts (env : Env) : List Artifact := artifactRows.map (·.artifact env)

structure Counts where
  updated : Nat
  unchanged : Nat
  mountMissing : Nat
  fetchFailed : Nat
  writeFailed : Nat
  deriving DecidableEq, Repr

def Counts.zero : Counts := ⟨0, 0, 0, 0, 0⟩

def Counts.add (c : Counts) : ArtifactStatus → Counts
  | .updated => { c with updated := c.updated + 1 }
  | .unchanged => { c with unchanged := c.unchanged + 1 }
  | .mountMissing => { c with mountMissing := c.mountMissing + 1 }
  | .fetchFailed => { c with fetchFailed := c.fetchFailed + 1 }
  | .writeFailed => { c with writeFailed := c.writeFailed + 1 }

def countResults (results : List ArtifactResult) : Counts := results.foldl (fun c r => c.add r.status) .zero

def Counts.total (c : Counts) : Nat := c.updated + c.unchanged + c.mountMissing + c.fetchFailed + c.writeFailed

structure RefreshSummary where
  startedAt : String
  finishedAt : String
  pagesBase : String
  results : List ArtifactResult
  counts : Counts
  deriving DecidableEq, Repr

/-- What the refresh of one artifact meets: its steps, and the time in the name of its snapshot. -/
structure Attempt where
  steps : RefreshSteps
  ts : String

/-- The files by the destination they belong to; no two artifacts share one (`nodup_destPath`). -/
abbrev Disk := String → Files

def Disk.write (disk : Disk) (path : String) (files : Files) : Disk := fun p => if p = path then files else disk p

section
variable (sha256 : Bytes → String) (env : Env) (attempt : Artifact → Attempt)

/-- `snapshotIfExists`'s name of the copy. -/
def snapshotPath (a : Artifact) : String :=
  joinPath env.snapshotDir ((attempt a).ts ++ "-" ++ String.ofList (UnixPath.basename a.destPath.toList))

def refreshArtifact (a : Artifact) (files : Files) : Except String ArtifactResult × Files :=
  refreshOne sha256 env.hostBinDir env.pagesBase (snapshotPath env attempt a) a.toArtifactDescriptor (attempt a).steps files

/-- The loop: an artifact that throws ends it. -/
def refreshAll : List Artifact → List ArtifactResult → Disk → Except String (List ArtifactResult) × Disk
  | [], results, disk => (.ok results, disk)
  | a :: as, results, disk =>
    match refreshArtifact sha256 env attempt a (disk a.destPath) with
    | (.error err, files) => (.error err, disk.write a.destPath files)
    | (.ok r, files) => refreshAll as (results ++ [r]) (disk.write a.destPath files)

/-- `refreshInstaller`: the summary unless it rejects, and the files after it. -/
def refreshInstaller (startedAt finishedAt : String) (disk : Disk) : Except String RefreshSummary × Disk :=
  match refreshAll sha256 env attempt (artifacts env) [] disk with
  | (.error err, after) => (.error err, after)
  | (.ok results, after) =>
    (.ok ⟨startedAt, finishedAt, env.pagesBase, results, countResults results⟩, after)

/-! ## What a refresh of all promises -/

/-- **Every artifact is refreshed by itself**: the refresh resolves, each artifact has the result and the files of its own
refresh, in order, and the counts are of as many results as there are artifacts. -/
def Isolated (startedAt finishedAt : String) (disk : Disk) : Prop :=
  ∃ summary after, refreshInstaller sha256 env attempt startedAt finishedAt disk = (.ok summary, after) ∧
    List.Forall₂ (fun a r => refreshArtifact sha256 env attempt a (disk a.destPath) = (.ok r, after a.destPath))
      (artifacts env) summary.results ∧
    summary.results.map (·.id) = (artifacts env).map (·.id) ∧ summary.counts.total = (artifacts env).length

/-- **A step fails that nothing guards**: past the mount and the fetch, the read of the file on disk, or for a file of
another hash the copy to the snapshot. -/
def Unguarded (d : ArtifactDescriptor) (s : RefreshSteps) (files : Files) : Prop :=
  ¬ MountMissing d s ∧ ∃ body, fetchArtifact env.pagesBase d.remotePath s.fetched = .ok body ∧
    ((files.dest ≠ none ∧ s.destAccessFails = false ∧ s.readError ≠ none) ∨
      ((∀ earlier, s.Compares files earlier → sha256 earlier ≠ sha256 body) ∧ s.Finds files ∧
        ¬ (s.mkdirSnapError = none ∧ s.copyError = none)))

variable {sha256 env attempt} {hostBinDir pagesBase snapshot : String} {d : ArtifactDescriptor} {s : RefreshSteps}
variable {body : Bytes} {files : Files}

/-! ## One artifact -/

theorem replace_throws_iff : (∃ err after, replace sha256 snapshot d body s files = (.error err, after)) ↔
    s.Finds files ∧ ¬ (s.mkdirSnapError = none ∧ s.copyError = none) := by
  have hwrite : ∀ path before, snapshotIfExists snapshot s files = (.ok path, before) →
      ¬ ∃ err after, replace sha256 snapshot d body s files = (.error err, after) := by
    rintro path before hsnap ⟨err, after, h⟩
    unfold replace at h
    rw [hsnap] at h
    rcases writeAtomicWithMode_cases body d.mode s before with ⟨-, heq⟩ | ⟨-, werr, tmp, heq⟩
    · cases hsync : s.fsyncDir <;> simp [heq, hsync] at h
    · simp [heq] at h
  rcases snapshotIfExists_cases snapshot s files with ⟨hno, hsnap⟩ | ⟨hfinds, hm, hc, hsnap⟩ | ⟨hfinds, hfail, err, hsnap⟩
  · exact iff_of_false (hwrite _ _ hsnap) (fun h => hno h.1)
  · exact iff_of_false (hwrite _ _ hsnap) (fun h => h.2 ⟨hm, hc⟩)
  · refine iff_of_true ⟨err, files, ?_⟩ ⟨hfinds, hfail⟩
    simp [replace, hsnap]

/-- **A refresh throws exactly when an unguarded step fails.** -/
theorem refreshOne_throws_iff :
    (∃ err after, refreshOne sha256 hostBinDir env.pagesBase snapshot d s files = (.error err, after)) ↔
      Unguarded sha256 env d s files := by
  by_cases hmount : MountMissing d s
  · refine iff_of_false ?_ (fun h => h.1 hmount)
    rintro ⟨err, after, h⟩
    unfold refreshOne at h
    rw [if_pos hmount] at h
    cases h
  cases hbody : fetchArtifact env.pagesBase d.remotePath s.fetched with
  | error e =>
    refine iff_of_false ?_ (fun ⟨_, body, hok, _⟩ => ?_)
    · rintro ⟨err, after, h⟩
      unfold refreshOne at h
      rw [if_neg hmount, hbody] at h
      cases h
    · rw [hbody] at hok
      cases hok
  | ok body =>
    have hunguarded : Unguarded sha256 env d s files ↔
        ((files.dest ≠ none ∧ s.destAccessFails = false ∧ s.readError ≠ none) ∨
          ((∀ earlier, s.Compares files earlier → sha256 earlier ≠ sha256 body) ∧ s.Finds files ∧
            ¬ (s.mkdirSnapError = none ∧ s.copyError = none))) := by
      simp only [Unguarded, hbody, Except.ok.injEq, exists_eq_left', and_iff_right hmount]
    rw [hunguarded]
    by_cases hread : files.dest ≠ none → s.destAccessFails = false → s.readError = none
    · have hreads : ¬ (files.dest ≠ none ∧ s.destAccessFails = false ∧ s.readError ≠ none) :=
        fun h => h.2.2 (hread h.1 h.2.1)
      rw [or_iff_right hreads]
      by_cases hdiffers : ∀ earlier, s.Compares files earlier → sha256 earlier ≠ sha256 body
      · rw [refreshOne_eq_replace hmount hbody hread hdiffers, replace_throws_iff, and_iff_right hdiffers]
      · refine iff_of_false ?_ (fun h => hdiffers h.1)
        simp only [Classical.not_forall, ne_eq, Classical.not_not] at hdiffers
        obtain ⟨earlier, hc, heq⟩ := hdiffers
        rw [refreshOne_unchanged hmount hbody hc heq]
        rintro ⟨err, after, h⟩
        cases h
    · simp only [Classical.not_forall] at hread
      obtain ⟨hne, haccess, hfails⟩ := hread
      obtain ⟨err, herr⟩ := Option.ne_none_iff_exists'.1 hfails
      exact iff_of_true ⟨err, files, refreshOne_of_readError hmount hbody hne haccess herr⟩ (.inl ⟨hne, haccess, hfails⟩)

theorem refreshOne_id {r : ArtifactResult} {after : Files}
    (h : refreshOne sha256 hostBinDir pagesBase snapshot d s files = (.ok r, after)) : r.id = d.id := by
  have hreplace : ∀ body, replace sha256 snapshot d body s files = (.ok r, after) → r.id = d.id := by
    intro body h
    unfold replace at h
    split at h
    · cases h
    · split at h <;> cases h <;> rfl
  unfold refreshOne at h
  split at h
  · cases h; rfl
  · split at h
    · cases h; rfl
    · split at h
      · split at h
        · cases h
        · split at h
          · cases h; rfl
          · exact hreplace _ h
      · exact hreplace _ h

/-! ## All artifacts -/

theorem joinPath_basename (dir : String) (n : UnixPath.Name) :
    UnixPath.basename (joinPath dir (String.ofList n.text)).toList = n.text := by
  rw [joinPath, String.toList_ofList, String.toList_ofList, UnixPath.basename_join]

theorem exists_name {row : ArtifactRow} (h : row ∈ artifactRows) : ∃ n : UnixPath.Name, String.ofList n.text = row.name := by
  have hplain : artifactRows.all (fun row => decide (row.name.toList ≠ [] ∧ '/' ∉ row.name.toList ∧
      row.name.toList ≠ ['.'] ∧ row.name.toList ≠ ['.', '.'])) = true := by decide
  obtain ⟨hne, hslash, hdots⟩ := of_decide_eq_true (List.all_eq_true.1 hplain row h)
  exact ⟨⟨row.name.toList, hne, hslash, hdots⟩, String.ofList_toList⟩

/-- **No two artifacts share a destination**, whatever the directories are. -/
theorem nodup_destPath (env : Env) : ((artifacts env).map (·.destPath)).Nodup := by
  have hbase : ∀ row ∈ artifactRows, UnixPath.basename (row.artifact env).destPath.toList = row.name.toList := by
    intro row hrow
    obtain ⟨n, hn⟩ := exists_name hrow
    rw [ArtifactRow.artifact, ← hn, joinPath_basename, String.toList_ofList]
  have hnames : (artifactRows.map (fun row => row.name.toList)).Nodup := by decide
  have hsame : artifactRows.map (fun row => UnixPath.basename (row.artifact env).destPath.toList) =
      artifactRows.map (fun row => row.name.toList) := List.map_congr_left hbase
  refine List.Nodup.of_map (fun p : String => UnixPath.basename p.toList) ?_
  simp only [artifacts, List.map_map, Function.comp_def, hsame]
  exact hnames

theorem forall₂_exists {α β : Type} {R : α → β → Prop} {l : List α} {m : List β} (h : List.Forall₂ R l m) :
    ∀ a ∈ l, ∃ b, R a b := by
  induction h with
  | nil => intro a ha; cases ha
  | cons hab _ ih =>
    intro a ha
    rcases List.mem_cons.1 ha with rfl | ha
    · exact ⟨_, hab⟩
    · exact ih a ha

/-- **The loop over artifacts that do not throw**: each is refreshed on its own files. -/
theorem refreshAll_ok : ∀ (as : List Artifact) (results : List ArtifactResult) (disk : Disk),
    (as.map (·.destPath)).Nodup →
    (∀ a ∈ as, ∃ r after, refreshArtifact sha256 env attempt a (disk a.destPath) = (.ok r, after)) →
    ∃ rs after, refreshAll sha256 env attempt as results disk = (.ok (results ++ rs), after) ∧
      List.Forall₂ (fun a r => refreshArtifact sha256 env attempt a (disk a.destPath) = (.ok r, after a.destPath)) as rs ∧
      ∀ p, p ∉ as.map (·.destPath) → after p = disk p
  | [], results, disk, _, _ => ⟨[], disk, by rw [List.append_nil]; rfl, .nil, fun _ _ => rfl⟩
  | a :: as, results, disk, hnodup, hok => by
    obtain ⟨hnot, hnodup⟩ := List.nodup_cons.1 hnodup
    obtain ⟨r, files, hr⟩ := hok a (List.mem_cons_self ..)
    have hkeep : ∀ p, p ≠ a.destPath → disk.write a.destPath files p = disk p := fun p hp => if_neg hp
    have hkeeps : ∀ b ∈ as, disk.write a.destPath files b.destPath = disk b.destPath := fun b hb =>
      hkeep _ (fun heq => hnot (List.mem_map.2 ⟨b, hb, heq⟩))
    obtain ⟨rs, after, hall, hpairs, hrest⟩ := refreshAll_ok as (results ++ [r]) (disk.write a.destPath files) hnodup
      (fun b hb => by
        rw [hkeeps b hb]
        exact hok b (List.mem_cons_of_mem a hb))
    refine ⟨r :: rs, after, ?_, .cons ?_ ?_, fun p hp => ?_⟩
    · simp only [refreshAll, hr, hall, List.append_assoc, List.singleton_append]
    · rw [hrest a.destPath hnot, hr, Disk.write, if_pos rfl]
    · have hboth := (List.forall₂_and_left _ _).2 ⟨hkeeps, hpairs⟩
      exact hboth.imp (fun b r h => by rw [← h.1]; exact h.2)
    · rw [List.map_cons, List.mem_cons, not_or] at hp
      rw [hrest p hp.2, hkeep p hp.1]

theorem Counts.total_add (c : Counts) (status : ArtifactStatus) : (c.add status).total = c.total + 1 := by
  cases status <;> simp only [Counts.add, Counts.total] <;> omega

theorem Counts.total_foldl_add : ∀ (rs : List ArtifactResult) (c : Counts),
    (rs.foldl (fun c r => c.add r.status) c).total = c.total + rs.length
  | [], _ => rfl
  | r :: rs, c => by
    rw [List.foldl_cons, Counts.total_foldl_add rs, Counts.total_add, List.length_cons]
    omega

/-- **Every artifact is refreshed by itself exactly when no step fails that nothing guards.** -/
theorem refreshInstaller_isolated_iff (sha256 : Bytes → String) (env : Env) (attempt : Artifact → Attempt)
    (startedAt finishedAt : String) (disk : Disk) :
    Isolated sha256 env attempt startedAt finishedAt disk ↔
      ∀ a ∈ artifacts env, ¬ Unguarded sha256 env a.toArtifactDescriptor (attempt a).steps (disk a.destPath) := by
  constructor
  · rintro ⟨summary, after, -, hpairs, -⟩ a ha hthrows
    obtain ⟨err, files, herr⟩ := refreshOne_throws_iff.2 hthrows
    obtain ⟨r, hr⟩ := forall₂_exists hpairs a ha
    exact absurd (herr.symm.trans hr) (by simp)
  · intro hguarded
    have hok : ∀ a ∈ artifacts env, ∃ r files, refreshArtifact sha256 env attempt a (disk a.destPath) = (.ok r, files) := by
      intro a ha
      cases hr : refreshArtifact sha256 env attempt a (disk a.destPath) with
      | mk result files =>
        cases result with
        | ok r => exact ⟨r, files, rfl⟩
        | error err => exact absurd (refreshOne_throws_iff.1 ⟨err, files, hr⟩) (hguarded a ha)
    obtain ⟨rs, after, hall, hpairs, -⟩ := refreshAll_ok (artifacts env) [] disk (nodup_destPath env) hok
    have hids : (artifacts env).map (·.id) = rs.map (·.id) := by
      rw [← List.forall₂_eq_eq_eq, List.forall₂_map_left_iff, List.forall₂_map_right_iff]
      exact hpairs.imp (fun a r h => (refreshOne_id h).symm)
    refine ⟨⟨startedAt, finishedAt, env.pagesBase, rs, countResults rs⟩, after, ?_, hpairs, hids.symm, ?_⟩
    · simp only [refreshInstaller, hall, List.nil_append]
    · rw [countResults, Counts.total_foldl_add, hpairs.length_eq]
      exact Nat.zero_add _

/-- A body fetched, and a file on disk that cannot be read. -/
def unreadable : RefreshSteps where
  fetched := .response 200 (.ok [35, 33])
  hostBinExists := true
  destAccessFails := false
  readError := some "EIO: i/o error, read"
  snapAccessFails := false
  mkdirSnapError := none
  copyError := none
  mkdirError := none
  write := { openError := none, accepted := 2, writeError := none, later := [none, none], closeError := none }
  renameError := none
  dirOpenError := none
  dirSyncError := none
  dirCloseError := none

/-- One script that cannot be read ends the refresh of all. -/
theorem refreshInstaller_unreadable : ¬ ∃ sha256 : Bytes → String, ∀ (env : Env) (attempt : Artifact → Attempt)
    (startedAt finishedAt : String) (disk : Disk), Isolated sha256 env attempt startedAt finishedAt disk := by
  rintro ⟨sha256, h⟩
  have hstopped := h ⟨"/host-bin", "/data", "https://pages"⟩ (fun _ => ⟨unreadable, "2026-01-01T00-00-00-000Z"⟩) "" ""
    (fun _ => ⟨some [35], none, none, some 0o755⟩)
  obtain ⟨summary, after, hresolves, -⟩ := hstopped
  cases hresolves

end
end Installer
end SignalkDoctor
