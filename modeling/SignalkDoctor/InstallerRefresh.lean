import Mathlib.Data.List.TakeDrop
import SignalkDoctor.FileWrite
/-!
# InstallerRefresh — one artifact of the installer payload (`src/installer/refresh.ts`)

`refreshOne` fetches an artifact, leaves it alone where the file on disk has the same hash, else copies the file to a
snapshot, writes a temporary file and renames it over the artifact.  Each step may fail, and the write may accept a prefix.
`refreshOne_faithful_iff` says when the reported status tells what is on disk, `refreshOne_mode` that an updated artifact
has its descriptor's mode.
-/
namespace SignalkDoctor
namespace Installer

abbrev Bytes := List UInt8

inductive ArtifactKind where
  | hostScript | quadletTemplate | detectScript
  deriving DecidableEq, Repr

structure ArtifactDescriptor where
  id : String
  remotePath : String
  mode : Nat
  kind : ArtifactKind
  deriving DecidableEq, Repr

inductive ArtifactStatus where
  | updated | unchanged | mountMissing | fetchFailed | writeFailed
  deriving DecidableEq, Repr

structure ArtifactResult where
  id : String
  kind : ArtifactKind
  status : ArtifactStatus
  sha256 : Option String
  snapshotPath : Option String
  message : Option String
  deriving DecidableEq, Repr

/-- What the request for an artifact gets: it throws, or a status and the body unless reading it throws. -/
inductive FetchOutcome where
  | threw (message : String)
  | response (status : Nat) (body : Except String Bytes)

def fetchArtifact (pagesBase remotePath : String) : FetchOutcome → Except String Bytes
  | .threw message => .error message
  | .response status body =>
    if 200 ≤ status ∧ status ≤ 299 then body
    else .error ("fetch " ++ pagesBase ++ "/" ++ remotePath ++ " → HTTP " ++ toString status)

/-- The files of one refresh: the artifact, the temporary file beside it and the snapshot. -/
structure Files where
  dest : Option Bytes
  tmp : Option Bytes
  snap : Option Bytes
  /-- The mode of the artifact. -/
  mode : Option Nat
  deriving DecidableEq

/-- What the steps of a refresh come to; an error is its message. -/
structure RefreshSteps where
  fetched : FetchOutcome
  hostBinExists : Bool
  /-- `access` may fail though the file exists. -/
  destAccessFails : Bool
  readError : Option String
  snapAccessFails : Bool
  mkdirSnapError : Option String
  copyError : Option String
  mkdirError : Option String
  /-- After the write come the sync and the chmod. -/
  write : WriteSteps String
  renameError : Option String
  dirOpenError : Option String
  dirSyncError : Option String
  dirCloseError : Option String

section
variable (sha256 : Bytes → String) (hostBinDir pagesBase snapshotPath : String)

def pathExists (accessFails : Bool) (file : Option Bytes) : Bool := file.isSome && !accessFails

def RefreshSteps.fsyncDir (s : RefreshSteps) : Option String :=
  SignalkDoctor.fsyncDir s.dirOpenError s.dirSyncError s.dirCloseError

/-- `writeAtomicWithMode`: what it throws, and the files after it. -/
def writeAtomicWithMode (body : Bytes) (mode : Nat) (s : RefreshSteps) (files : Files) : Option String × Files :=
  match s.mkdirError with
  | some err => (some err, files)
  | none =>
    match s.write.run body with
    | (some err, written) => (some err, { files with tmp := written.or files.tmp })
    | (none, written) =>
      match s.renameError with
      | some err => (some err, { files with tmp := written.or files.tmp })
      | none => (s.fsyncDir, { files with dest := written, tmp := none, mode := some mode })

/-- `snapshotIfExists` -/
def snapshotIfExists (s : RefreshSteps) (files : Files) : Except String (Option String) × Files :=
  if pathExists s.snapAccessFails files.dest then
    match s.mkdirSnapError.or s.copyError with
    | some err => (.error err, files)
    | none => (.ok (some snapshotPath), { files with snap := files.dest })
  else (.ok none, files)

/-- The snapshot and the write. -/
def replace (d : ArtifactDescriptor) (body : Bytes) (s : RefreshSteps) (files : Files) :
    Except String ArtifactResult × Files :=
  match snapshotIfExists snapshotPath s files with
  | (.error err, files) => (.error err, files)
  | (.ok snapshot, files) =>
    match writeAtomicWithMode body d.mode s files with
    | (some err, files) => (.ok ⟨d.id, d.kind, .writeFailed, none, snapshot, some err⟩, files)
    | (none, files) => (.ok ⟨d.id, d.kind, .updated, some (sha256 body), snapshot, none⟩, files)

/-- `refreshOne`: its result unless it throws, and the files after it. -/
def refreshOne (d : ArtifactDescriptor) (s : RefreshSteps) (files : Files) : Except String ArtifactResult × Files :=
  if d.kind = .hostScript ∧ s.hostBinExists = false then
    (.ok ⟨d.id, d.kind, .mountMissing, none, none, some (hostBinDir ++ " is not mounted; rerun the bash installer to add " ++
      "the host-bin bind mount, then retry.")⟩, files)
  else
    match fetchArtifact pagesBase d.remotePath s.fetched with
    | .error err => (.ok ⟨d.id, d.kind, .fetchFailed, none, none, some err⟩, files)
    | .ok body =>
      if pathExists s.destAccessFails files.dest then
        match s.readError with
        | some err => (.error err, files)
        | none =>
          if files.dest.map sha256 = some (sha256 body) then
            (.ok ⟨d.id, d.kind, .unchanged, some (sha256 body), none, none⟩, files)
          else replace sha256 snapshotPath d body s files
      else replace sha256 snapshotPath d body s files

/-! ## What a status promises -/

/-- The artifact holds the body of the reported hash, and a different file that was there is in the snapshot. -/
def Replaced (body : Bytes) (files : Files) (r : ArtifactResult) (after : Files) : Prop :=
  after.dest = some body ∧ r.sha256 = some (sha256 body) ∧
    ∀ earlier, files.dest = some earlier → earlier ≠ body → r.snapshotPath = some snapshotPath ∧ after.snap = some earlier

/-- **The status tells what is on disk**, where the refresh gives one. -/
def Faithful (d : ArtifactDescriptor) (s : RefreshSteps) (files : Files) : Prop :=
  ∀ r after, refreshOne sha256 hostBinDir pagesBase snapshotPath d s files = (.ok r, after) →
    if r.status = .updated ∨ r.status = .unchanged then
      ∃ body, fetchArtifact pagesBase d.remotePath s.fetched = .ok body ∧ Replaced sha256 snapshotPath body files r after
    else after.dest = files.dest

/-- The refresh gets to the hash of the file on disk. -/
def RefreshSteps.Compares (s : RefreshSteps) (files : Files) (earlier : Bytes) : Prop :=
  files.dest = some earlier ∧ s.destAccessFails = false ∧ s.readError = none

/-- The temporary file is renamed over the artifact. -/
structure RefreshSteps.Renames (body : Bytes) (s : RefreshSteps) (files : Files) : Prop where
  read : files.dest ≠ none → s.destAccessFails = false → s.readError = none
  differs : ∀ earlier, s.Compares files earlier → sha256 earlier ≠ sha256 body
  snapshot : files.dest ≠ none → s.snapAccessFails = false → s.mkdirSnapError = none ∧ s.copyError = none
  mkdir : s.mkdirError = none
  written : s.write.openError = none ∧ s.write.bodyError = none
  rename : s.renameError = none

/-- **No step deceives the refresh.** -/
structure RefreshSteps.Honest (body : Bytes) (s : RefreshSteps) (files : Files) : Prop where
  /-- No two bodies of one hash. -/
  collision : ∀ earlier, s.Compares files earlier → sha256 earlier = sha256 body → earlier = body
  /-- Once renamed, the body was accepted whole and the file that was there had been found. -/
  updated : s.Renames sha256 body files → s.fsyncDir = none →
    body.length ≤ s.write.accepted ∧ ∀ earlier, files.dest = some earlier → earlier ≠ body → s.snapAccessFails = false
  /-- A failing sync of the directory comes too late, unless what was renamed is what was there. -/
  unsynced : s.Renames sha256 body files → s.fsyncDir ≠ none → files.dest = some (body.take s.write.accepted)

variable {sha256 hostBinDir pagesBase snapshotPath}
variable {d : ArtifactDescriptor} {s : RefreshSteps} {body : Bytes} {files : Files}

/-! ## The steps -/

theorem pathExists_eq_true_iff {accessFails : Bool} {file : Option Bytes} :
    pathExists accessFails file = true ↔ file ≠ none ∧ accessFails = false := by
  cases file <;> simp [pathExists]

/-- The steps up to the rename succeed. -/
def RefreshSteps.Moves (s : RefreshSteps) : Prop :=
  s.mkdirError = none ∧ (s.write.openError = none ∧ s.write.bodyError = none) ∧ s.renameError = none

/-- **Up to the rename the artifact is untouched; from then on it is what the write accepted.** -/
theorem writeAtomicWithMode_cases (body : Bytes) (mode : Nat) (s : RefreshSteps) (files : Files) :
    (s.Moves ∧ writeAtomicWithMode body mode s files =
        (s.fsyncDir, { files with dest := some (body.take s.write.accepted), tmp := none, mode := some mode })) ∨
      (¬ s.Moves ∧ ∃ err tmp, writeAtomicWithMode body mode s files = (some err, { files with tmp := tmp })) := by
  unfold writeAtomicWithMode RefreshSteps.Moves
  cases hm : s.mkdirError with
  | some err => exact .inr ⟨by simp, err, files.tmp, rfl⟩
  | none =>
    cases ho : s.write.openError with
    | some err =>
      rw [WriteSteps.run_of_openError ho]
      exact .inr ⟨by simp, err, _, rfl⟩
    | none =>
      rw [WriteSteps.run_opened ho]
      cases hb : s.write.bodyError with
      | some err => exact .inr ⟨by simp, err, _, rfl⟩
      | none =>
        cases hr : s.renameError with
        | some err => exact .inr ⟨by simp, err, _, rfl⟩
        | none => exact .inl ⟨by simp, rfl⟩

/-- The file there is found, and copied. -/
def RefreshSteps.Finds (s : RefreshSteps) (files : Files) : Prop := files.dest ≠ none ∧ s.snapAccessFails = false

theorem snapshotIfExists_cases (snapshotPath : String) (s : RefreshSteps) (files : Files) :
    (¬ s.Finds files ∧ snapshotIfExists snapshotPath s files = (.ok none, files)) ∨
      (s.Finds files ∧ s.mkdirSnapError = none ∧ s.copyError = none ∧
        snapshotIfExists snapshotPath s files = (.ok (some snapshotPath), { files with snap := files.dest })) ∨
      (s.Finds files ∧ ¬ (s.mkdirSnapError = none ∧ s.copyError = none) ∧
        ∃ err, snapshotIfExists snapshotPath s files = (.error err, files)) := by
  unfold snapshotIfExists RefreshSteps.Finds
  rw [← pathExists_eq_true_iff]
  by_cases hfinds : pathExists s.snapAccessFails files.dest = true
  · rw [if_pos hfinds]
    cases hm : s.mkdirSnapError with
    | some err => exact .inr (.inr ⟨hfinds, by simp, err, rfl⟩)
    | none =>
      cases hc : s.copyError with
      | some err => exact .inr (.inr ⟨hfinds, by simp, err, rfl⟩)
      | none => exact .inr (.inl ⟨hfinds, rfl, rfl, rfl⟩)
  · rw [if_neg hfinds]
    exact .inl ⟨hfinds, rfl⟩

theorem replace_mode {r : ArtifactResult} {after : Files}
    (h : replace sha256 snapshotPath d body s files = (.ok r, after)) :
    (r.status = .updated → after.mode = some d.mode) ∧ (after.mode = files.mode ∨ after.mode = some d.mode) := by
  have hwrite : ∀ snapshot before, snapshotIfExists snapshotPath s files = (.ok snapshot, before) →
      (r.status = .updated → after.mode = some d.mode) ∧ (after.mode = before.mode ∨ after.mode = some d.mode) := by
    intro snapshot before hsnap
    rw [replace, hsnap] at h
    rcases writeAtomicWithMode_cases body d.mode s before with ⟨-, heq⟩ | ⟨-, err, tmp, heq⟩ <;> simp only [heq] at h
    · cases hsync : s.fsyncDir <;> rw [hsync] at h <;> cases h <;> exact ⟨fun _ => rfl, .inr rfl⟩
    · cases h
      exact ⟨fun hr => absurd hr (by simp), .inl rfl⟩
  rcases snapshotIfExists_cases snapshotPath s files with ⟨-, hsnap⟩ | ⟨-, -, -, hsnap⟩ | ⟨-, -, err, hsnap⟩
  · exact hwrite none files hsnap
  · exact hwrite (some snapshotPath) { files with snap := files.dest } hsnap
  · rw [replace, hsnap] at h
    cases h

/-- What a replacement promises. -/
def ReplaceFaithful (sha256 : Bytes → String) (snapshotPath : String) (d : ArtifactDescriptor) (body : Bytes)
    (s : RefreshSteps) (files : Files) : Prop :=
  ∀ r after, replace sha256 snapshotPath d body s files = (.ok r, after) →
    if r.status = .updated ∨ r.status = .unchanged then Replaced sha256 snapshotPath body files r after
    else after.dest = files.dest

/-- What was renamed is what the status will tell. -/
def RefreshSteps.Lands (body : Bytes) (s : RefreshSteps) (files : Files) : Prop :=
  (s.fsyncDir = none → body.length ≤ s.write.accepted ∧
    ∀ earlier, files.dest = some earlier → earlier ≠ body → s.snapAccessFails = false) ∧
  (s.fsyncDir ≠ none → files.dest = some (body.take s.write.accepted))

/-- With the files as the snapshot leaves them, the write decides. -/
theorem replaceFaithful_of_snapshot {snapshot : Option String} {before : Files}
    (hsnap : snapshotIfExists snapshotPath s files = (.ok snapshot, before)) (hdest : before.dest = files.dest)
    (hfound : ∀ earlier, files.dest = some earlier → earlier ≠ body →
      (snapshot = some snapshotPath ∧ before.snap = some earlier ↔ s.snapAccessFails = false)) :
    ReplaceFaithful sha256 snapshotPath d body s files ↔ (s.Moves → s.Lands body files) := by
  rcases writeAtomicWithMode_cases body d.mode s before with ⟨hmoves, heq⟩ | ⟨hmoves, err, tmp, heq⟩
  · cases hsync : s.fsyncDir with
    | none =>
      rw [hsync] at heq
      have hupdated : ReplaceFaithful sha256 snapshotPath d body s files ↔ body.length ≤ s.write.accepted ∧
          ∀ earlier, files.dest = some earlier → earlier ≠ body → s.snapAccessFails = false := by
        rw [← forall₃_congr hfound]
        simp [ReplaceFaithful, replace, hsnap, heq, Replaced]
      rw [hupdated]
      simp [RefreshSteps.Lands, hsync, hmoves]
    | some err =>
      rw [hsync] at heq
      have hunsynced : ReplaceFaithful sha256 snapshotPath d body s files ↔
          some (body.take s.write.accepted) = files.dest := by
        simp [ReplaceFaithful, replace, hsnap, heq]
      rw [hunsynced, eq_comm]
      simp [RefreshSteps.Lands, hsync, hmoves]
  · simp [ReplaceFaithful, replace, hsnap, heq, hmoves, hdest]

theorem replaceFaithful_iff : ReplaceFaithful sha256 snapshotPath d body s files ↔
    ((s.Finds files → s.mkdirSnapError = none ∧ s.copyError = none) → s.Moves → s.Lands body files) := by
  rcases snapshotIfExists_cases snapshotPath s files with
    ⟨hno, hsnap⟩ | ⟨hfinds, hm, hc, hsnap⟩ | ⟨hfinds, hfail, err, hsnap⟩
  · have hwrite : ReplaceFaithful sha256 snapshotPath d body s files ↔ (s.Moves → s.Lands body files) := by
      refine replaceFaithful_of_snapshot hsnap rfl (fun earlier he _ => ?_)
      simp only [RefreshSteps.Finds, he, ne_eq, reduceCtorEq, not_false_eq_true, true_and] at hno
      simp [hno]
    rw [hwrite]
    simp [hno]
  · have hwrite : ReplaceFaithful sha256 snapshotPath d body s files ↔ (s.Moves → s.Lands body files) := by
      refine replaceFaithful_of_snapshot hsnap rfl (fun earlier he _ => ?_)
      simp [he, hfinds.2]
    rw [hwrite]
    simp [hm, hc]
  · refine iff_of_true (fun r after h => ?_) (fun h => absurd (h hfinds) hfail)
    simp [replace, hsnap] at h

/-! ## The refresh -/

/-- The refresh stops before the request. -/
abbrev MountMissing (d : ArtifactDescriptor) (s : RefreshSteps) : Prop := d.kind = .hostScript ∧ s.hostBinExists = false

/-- With the body fetched and no hash found equal, the refresh is the replacement. -/
theorem refreshOne_eq_replace (hmount : ¬ MountMissing d s) (hbody : fetchArtifact pagesBase d.remotePath s.fetched = .ok body)
    (hread : files.dest ≠ none → s.destAccessFails = false → s.readError = none)
    (hdiffers : ∀ earlier, s.Compares files earlier → sha256 earlier ≠ sha256 body) :
    refreshOne sha256 hostBinDir pagesBase snapshotPath d s files = replace sha256 snapshotPath d body s files := by
  unfold refreshOne
  rw [if_neg hmount, hbody]
  by_cases hexists : pathExists s.destAccessFails files.dest = true
  · obtain ⟨hne, haccess⟩ := pathExists_eq_true_iff.1 hexists
    obtain ⟨earlier, he⟩ := Option.ne_none_iff_exists'.1 hne
    have hdiff := hdiffers earlier ⟨he, haccess, hread hne haccess⟩
    simp [hread hne haccess, he, hdiff]
  · simp [hexists]

theorem renames_iff (hread : files.dest ≠ none → s.destAccessFails = false → s.readError = none)
    (hdiffers : ∀ earlier, s.Compares files earlier → sha256 earlier ≠ sha256 body) :
    s.Renames sha256 body files ↔ (s.Finds files → s.mkdirSnapError = none ∧ s.copyError = none) ∧ s.Moves := by
  constructor
  · intro h
    exact ⟨fun hfinds => h.snapshot hfinds.1 hfinds.2, h.mkdir, h.written, h.rename⟩
  · rintro ⟨hsnap, hmkdir, hwritten, hrename⟩
    exact ⟨hread, hdiffers, fun hne haccess => hsnap ⟨hne, haccess⟩, hmkdir, hwritten, hrename⟩

/-- A replacement is faithful exactly when no step deceives it. -/
theorem replaceFaithful_iff_honest (hread : files.dest ≠ none → s.destAccessFails = false → s.readError = none)
    (hdiffers : ∀ earlier, s.Compares files earlier → sha256 earlier ≠ sha256 body) :
    ReplaceFaithful sha256 snapshotPath d body s files ↔ s.Honest sha256 body files := by
  rw [replaceFaithful_iff]
  have hrenames := renames_iff hread hdiffers
  constructor
  · intro h
    refine ⟨fun earlier hc heq => absurd heq (hdiffers earlier hc), fun hr => ?_, fun hr => ?_⟩
    · obtain ⟨hsnap, hmoves⟩ := hrenames.1 hr
      exact (h hsnap hmoves).1
    · obtain ⟨hsnap, hmoves⟩ := hrenames.1 hr
      exact (h hsnap hmoves).2
  · intro h hsnap hmoves
    have hr := hrenames.2 ⟨hsnap, hmoves⟩
    exact ⟨h.updated hr, h.unsynced hr⟩

/-- Where the hashes are equal, the artifact is left alone. -/
theorem refreshOne_unchanged {earlier : Bytes} (hmount : ¬ MountMissing d s)
    (hbody : fetchArtifact pagesBase d.remotePath s.fetched = .ok body) (hc : s.Compares files earlier)
    (heq : sha256 earlier = sha256 body) : refreshOne sha256 hostBinDir pagesBase snapshotPath d s files =
      (.ok ⟨d.id, d.kind, .unchanged, some (sha256 body), none, none⟩, files) := by
  obtain ⟨he, haccess, hread⟩ := hc
  have hexists : pathExists s.destAccessFails files.dest = true := pathExists_eq_true_iff.2 ⟨by simp [he], haccess⟩
  unfold refreshOne
  rw [if_neg hmount, hbody]
  dsimp only
  rw [if_pos hexists, hread, he, Option.map_some, heq]
  simp

/-- A read that fails ends the refresh with no result. -/
theorem refreshOne_of_readError {err : String} (hmount : ¬ MountMissing d s)
    (hbody : fetchArtifact pagesBase d.remotePath s.fetched = .ok body) (hne : files.dest ≠ none)
    (haccess : s.destAccessFails = false) (hread : s.readError = some err) :
    refreshOne sha256 hostBinDir pagesBase snapshotPath d s files = (.error err, files) := by
  have hexists : pathExists s.destAccessFails files.dest = true := pathExists_eq_true_iff.2 ⟨hne, haccess⟩
  unfold refreshOne
  rw [if_neg hmount, hbody]
  simp [hexists, hread]

/-- **An artifact reported as updated has the mode of its descriptor**, and one that is not renamed keeps its own. -/
theorem refreshOne_mode {r : ArtifactResult} {after : Files}
    (h : refreshOne sha256 hostBinDir pagesBase snapshotPath d s files = (.ok r, after)) :
    (r.status = .updated → after.mode = some d.mode) ∧ (after.mode = files.mode ∨ after.mode = some d.mode) := by
  unfold refreshOne at h
  split at h
  · cases h
    exact ⟨by simp, .inl rfl⟩
  · split at h
    · cases h
      exact ⟨by simp, .inl rfl⟩
    · split at h
      · split at h
        · cases h
        · split at h
          · cases h
            exact ⟨by simp, .inl rfl⟩
          · exact replace_mode h
      · exact replace_mode h

theorem faithful_fetched_iff (hmount : ¬ MountMissing d s)
    (hbody : fetchArtifact pagesBase d.remotePath s.fetched = .ok body) :
    Faithful sha256 hostBinDir pagesBase snapshotPath d s files ↔ s.Honest sha256 body files := by
  by_cases hread : files.dest ≠ none → s.destAccessFails = false → s.readError = none
  · by_cases hdiffers : ∀ earlier, s.Compares files earlier → sha256 earlier ≠ sha256 body
    · have hreplace : ReplaceFaithful sha256 snapshotPath d body s files ↔ s.Honest sha256 body files :=
        replaceFaithful_iff_honest hread hdiffers
      rw [← hreplace]
      unfold Faithful ReplaceFaithful
      rw [refreshOne_eq_replace hmount hbody hread hdiffers]
      simp [hbody]
    · simp only [Classical.not_forall, ne_eq, Classical.not_not] at hdiffers
      obtain ⟨earlier, hc, heq⟩ := hdiffers
      have hnever : ¬ s.Renames sha256 body files := fun hr => hr.differs earlier hc heq
      have hdest : ∀ other, s.Compares files other → other = earlier := fun other ho =>
        Option.some.inj (ho.1.symm.trans hc.1)
      unfold Faithful
      rw [refreshOne_unchanged hmount hbody hc heq]
      constructor
      · intro h
        obtain ⟨body', hbody', hreplaced⟩ := by simpa using h _ _ rfl
        obtain rfl : body = body' := by simpa [hbody] using hbody'
        refine ⟨fun other ho _ => ?_, fun hr => absurd hr hnever, fun hr => absurd hr hnever⟩
        rw [hdest other ho]
        exact Option.some.inj (hc.1.symm.trans hreplaced.1)
      · intro h r after hr
        have hsame := h.collision earlier hc heq
        cases hr
        refine (if_pos (.inr rfl)).mpr ⟨body, hbody, hc.1.trans (by rw [hsame]), rfl, fun other ho hne => ?_⟩
        exact absurd ((Option.some.inj (ho.symm.trans hc.1)).trans hsame) hne
  · have hno : ¬ s.Renames sha256 body files := fun hr => hread hr.read
    simp only [Classical.not_forall] at hread
    obtain ⟨hne, haccess, hfails⟩ := hread
    obtain ⟨err, herr⟩ := Option.ne_none_iff_exists'.1 hfails
    refine iff_of_true (fun r after hr => ?_) ⟨fun earlier hc _ => absurd hc.2.2 hfails, fun hr => absurd hr hno,
      fun hr => absurd hr hno⟩
    rw [refreshOne_of_readError hmount hbody hne haccess herr] at hr
    cases hr

/-- **A refresh's status tells what is on disk exactly when no step deceived it.** -/
theorem refreshOne_faithful_iff (sha256 : Bytes → String) (hostBinDir pagesBase snapshotPath : String)
    (d : ArtifactDescriptor) (s : RefreshSteps) (files : Files) :
    Faithful sha256 hostBinDir pagesBase snapshotPath d s files ↔
      ∀ body, (d.kind = .hostScript → s.hostBinExists = true) → fetchArtifact pagesBase d.remotePath s.fetched = .ok body →
        s.Honest sha256 body files := by
  by_cases hmount : MountMissing d s
  · refine iff_of_true (fun r after hr => ?_) (fun body hexists => ?_)
    · unfold refreshOne at hr
      rw [if_pos hmount] at hr
      cases hr
      simp
    · have := hexists hmount.1
      rw [hmount.2] at this
      cases this
  · have hexists : d.kind = .hostScript → s.hostBinExists = true := fun hkind => by
      cases hno : s.hostBinExists with
      | true => rfl
      | false => exact absurd ⟨hkind, hno⟩ hmount
    cases hbody : fetchArtifact pagesBase d.remotePath s.fetched with
    | error err =>
      refine iff_of_true (fun r after hr => ?_) (fun body _ h => by cases h)
      unfold refreshOne at hr
      rw [if_neg hmount, hbody] at hr
      cases hr
      simp
    | ok body =>
      rw [faithful_fetched_iff hmount hbody]
      constructor
      · rintro h body' _ hbody'
        cases hbody'
        exact h
      · exact fun h => h body hexists rfl

/-- A write that accepts the first of two bytes, everything else succeeding. -/
def shortWrite : RefreshSteps where
  fetched := .response 200 (.ok [35, 33])
  hostBinExists := true
  destAccessFails := false
  readError := none
  snapAccessFails := false
  mkdirSnapError := none
  copyError := none
  mkdirError := none
  write := { openError := none, accepted := 1, writeError := none, later := [none, none], closeError := none }
  renameError := none
  dirOpenError := none
  dirSyncError := none
  dirCloseError := none

/-- The script on disk is cut short and reported as updated with the hash of the whole, whatever the hash is. -/
theorem refreshOne_unfaithful_shortWrite :
    ¬ ∃ sha256 : Bytes → String, ∀ (hostBinDir pagesBase snapshotPath : String) (d : ArtifactDescriptor) (s : RefreshSteps)
      (files : Files), Faithful sha256 hostBinDir pagesBase snapshotPath d s files := by
  rintro ⟨sha256, h⟩
  have hcut := h "/host-bin" "https://pages" "/data/snapshots/signalk" ⟨"signalk", "signalk", 0o755, .hostScript⟩
    shortWrite ⟨none, none, none, none⟩ _ _ rfl
  obtain ⟨body, hbody, hdest, -⟩ := hcut
  cases hbody
  cases hdest

end
end Installer
end SignalkDoctor
