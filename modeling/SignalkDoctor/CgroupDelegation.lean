import SignalkDoctor.Fields
import SignalkDoctor.NumberText
import SignalkDoctor.Probes
/-!
# CgroupDelegation — the controllers the containers get (`src/probes/cgroup-delegation.ts`)

Two layers of the host's cgroup tree must list `memory` and `pids`: its root, and the slice of the user the containers run
as.  The doctor knows that user by the number it has inside its own namespace; the kernel's `uid_map` says which user of
the host that is, and the doctor asks it once.

`probeRuns_verdict` is for any run of the probe: the slice is the one of the mapped user, and the verdict is exact.
-/
namespace SignalkDoctor
namespace CgroupDelegation

open Fields (IsField fields)
open JsString (isSpace isWord)
open NumberText (finite number textOf)
open Probes (ProbeResult ProbeStatus)

/-! ## The user of the host -/

/-- The environment, and the mounts of the host; none for what cannot be read. -/
structure CgroupEnv where
  HOST_CGROUP_ROOT : Option String
  HOST_CMDLINE_PATH : Option String
  UID_MAP_PATH : Option String
  /-- `process.getuid?.() ?? 0` -/
  getuid : Nat
  readFile : String → Option String
  fl : Rounding
  /-- The text of a number that is no integer. -/
  fractionText : ℚ → String

def cgroupRoot (env : CgroupEnv) : String := env.HOST_CGROUP_ROOT.getD "/host/cgroup"

def cmdlinePath (env : CgroupEnv) : String := env.HOST_CMDLINE_PATH.getD "/host/proc/cmdline"

def uidMapPath (env : CgroupEnv) : String := env.UID_MAP_PATH.getD "/proc/self/uid_map"

/-- `text.trim().split(/\s+/)` -/
def words (text : List Char) : List (List Char) :=
  match fields isSpace text with
  | [] => [[]]
  | ws => ws

/-- The host's user for one in a row `inStart hostStart count`, if it is in there. -/
def hostUidIn (fl : Rounding) (inContainerUid : Nat) (row : List (List Char)) : Option ℚ :=
  match row with
  | inStart :: hostStart :: count :: _ =>
    match finite (number fl (String.ofList inStart)), finite (number fl (String.ofList hostStart)),
      finite (number fl (String.ofList count)) with
    | some inStart, some hostStart, some count =>
      if inStart ≤ inContainerUid ∧ (inContainerUid : ℚ) < fl.round (inStart + count) then
        some (fl.round (hostStart + fl.round (inContainerUid - inStart)))
      else none
    | _, _, _ => none
  | _ => none

/-- `resolveHostUid`, which caches what it resolves to. -/
def resolveHostUid (env : CgroupEnv) : Option ℚ → ℚ
  | some uid => uid
  | none =>
    match env.readFile (uidMapPath env) with
    | none => env.getuid
    | some raw => ((raw.toList.splitOn '\n').findSome? (fun line => hostUidIn env.fl env.getuid (words line))).getD env.getuid

/-! ## The probe -/

def REQUIRED_CONTROLLERS : List String := ["memory", "pids"]

def RECIPE_CMDLINE_REMOVE_DISABLE : String :=
  "\n".intercalate
    ["sudo cp /boot/firmware/cmdline.txt /boot/firmware/cmdline.txt.bak.$(date +%Y%m%d)",
      "sudo sed -i 's/\\bcgroup_disable=memory\\b//; s/$/ cgroup_enable=memory cgroup_memory=1/' /boot/firmware/cmdline.txt",
      "# /boot/firmware/cmdline.txt must remain a single line — verify: awk \"END\x7bprint NR\x7d\" /boot/firmware/cmdline.txt",
      "sudo reboot"]

def RECIPE_CMDLINE_APPEND : String :=
  "\n".intercalate
    ["sudo cp /boot/firmware/cmdline.txt /boot/firmware/cmdline.txt.bak.$(date +%Y%m%d)",
      "sudo sed -i 's/$/ cgroup_enable=memory cgroup_memory=1/' /boot/firmware/cmdline.txt",
      "# /boot/firmware/cmdline.txt must remain a single line — verify: awk \"END\x7bprint NR\x7d\" /boot/firmware/cmdline.txt",
      "sudo reboot"]

def RECIPE_USER_SLICE_DELEGATION : String :=
  "\n".intercalate
    ["sudo install -d -m 0755 /etc/systemd/system/user@.service.d",
      "sudo tee /etc/systemd/system/user@.service.d/delegate.conf >/dev/null <<'EOF'",
      "[Service]",
      "Delegate=cpu cpuset io memory pids",
      "EOF",
      "sudo systemctl daemon-reload",
      "sudo reboot   # daemon-reload alone does NOT re-apply Delegate= to running user@.service"]

def readControllers (env : CgroupEnv) (path : String) : Option (List String) :=
  (env.readFile path).map (fun contents => (words contents.toList).map String.ofList)

def missing (controllers : List String) : List String := REQUIRED_CONTROLLERS.filter (fun c => !controllers.contains c)

/-- A text with a word in it, between word boundaries; `prev` is the character before. -/
def hasWord (word : List Char) (prev : Option Char) : List Char → Bool
  | [] => false
  | c :: rest =>
    (!prev.any isWord && word.isPrefixOf (c :: rest) && !((c :: rest).drop word.length).head?.any isWord) ||
      hasWord word (some c) rest

inductive CgroupDetails where
  | root (rootControllers rootMissing : List String) (kernelCmdlineHasDisableMemory : Bool) (remedy : String)
  | noSlice (rootControllers : List String) (userSlicePath : String)
  | slice (rootControllers userControllers userMissing : List String) (remedy : String)
  | both (rootControllers userControllers : List String)
  deriving DecidableEq, Repr

def result (status : ProbeStatus) (message : String) (details : Option CgroupDetails) (durationMs : Int) :
    ProbeResult CgroupDetails :=
  ⟨"cgroup-delegation", "cgroup controller delegation", status, message, details, durationMs⟩

def rootPath (env : CgroupEnv) : String := cgroupRoot env ++ "/cgroup.controllers"

def slicePath (env : CgroupEnv) (operatorUid : ℚ) : String :=
  cgroupRoot env ++ "/user.slice/user-" ++ textOf env.fractionText operatorUid ++ ".slice/cgroup.controllers"

/-- `/\bcgroup_disable=memory\b/` of the kernel's command line, if that can be read. -/
def kernelCmdlineHasDisableMemory (env : CgroupEnv) : Bool :=
  (env.readFile (cmdlinePath env)).any (fun cmdline => hasWord "cgroup_disable=memory".toList none cmdline.toList)

def layerOne (env : CgroupEnv) (rootControllers : List String) (durationMs : Int) : ProbeResult CgroupDetails :=
  let disabled := kernelCmdlineHasDisableMemory env
  let remedy := if disabled then RECIPE_CMDLINE_REMOVE_DISABLE else RECIPE_CMDLINE_APPEND
  let why :=
    if disabled then
      "kernel cmdline contains 'cgroup_disable=memory' (typically injected by Raspberry Pi GPU firmware on Trixie)"
    else "controller(s) " ++ ", ".intercalate (missing rootControllers) ++ " not present at root cgroup"
  result .fail ("Layer 1 — " ++ why ++ ". Container resource limits will silently no-op. Remediation:\n" ++ remedy)
    (some (.root rootControllers (missing rootControllers) disabled remedy)) durationMs

/-- `probeCgroupDelegation` for the user of the host. -/
def judge (env : CgroupEnv) (operatorUid : ℚ) (durationMs : Int) : ProbeResult CgroupDetails :=
  let uid := textOf env.fractionText operatorUid
  match readControllers env (rootPath env) with
  | none =>
    result .unknown (rootPath env ++ " not readable — doctor container is missing the host cgroup mount; refresh the doctor " ++
      "quadlet via signalk-universal-installer to enable this probe") none durationMs
  | some rootControllers =>
    if missing rootControllers ≠ [] then layerOne env rootControllers durationMs
    else
      match readControllers env (slicePath env operatorUid) with
      | none =>
        result .unknown ("Root cgroup OK (" ++ ", ".intercalate rootControllers ++ ") but " ++ slicePath env operatorUid ++
          " not readable — user slice not materialised yet") (some (.noSlice rootControllers (slicePath env operatorUid)))
          durationMs
      | some userControllers =>
        if missing userControllers ≠ [] then
          result .warn ("Layer 2 — user-" ++ uid ++ ".slice missing delegated controller(s) " ++
            ", ".intercalate (missing userControllers) ++ ". Container resource limits will silently no-op. Remediation:\n" ++
            RECIPE_USER_SLICE_DELEGATION)
            (some (.slice rootControllers userControllers (missing userControllers) RECIPE_USER_SLICE_DELEGATION)) durationMs
        else
          result .ok ("both layers OK (root: " ++ " ".intercalate rootControllers ++ " | user-" ++ uid ++ ".slice: " ++
            " ".intercalate userControllers ++ ")") (some (.both rootControllers userControllers)) durationMs

/-- One probe of a run, over the uid cached so far. -/
def probeCgroupDelegation (cachedHostUid : Option ℚ) (env : CgroupEnv) (durationMs : Int) :
    ProbeResult CgroupDetails × Option ℚ :=
  let operatorUid := resolveHostUid env cachedHostUid
  (judge env operatorUid durationMs, some operatorUid)

/-- The probes of one process, each with what it finds and the time it takes. -/
def probeRuns : Option ℚ → List (CgroupEnv × Int) → List (ProbeResult CgroupDetails)
  | _, [] => []
  | cachedHostUid, (env, durationMs) :: runs =>
    let (r, cachedHostUid) := probeCgroupDelegation cachedHostUid env durationMs
    r :: probeRuns cachedHostUid runs

/-! ## The map of the kernel -/

/-- A row of the map: `count` users from `inStart` on are those from `hostStart` on. -/
structure UidRow where
  inStart : Nat
  hostStart : Nat
  count : Nat
  inStart_lt : inStart < 2 ^ 32
  hostStart_lt : hostStart < 2 ^ 32
  count_lt : count < 2 ^ 32

abbrev UidMap := List UidRow

def UidRow.Maps (row : UidRow) (uid : Nat) : Prop := row.inStart ≤ uid ∧ uid < row.inStart + row.count

instance (row : UidRow) (uid : Nat) : Decidable (row.Maps uid) := inferInstanceAs (Decidable (_ ∧ _))

def UidRow.hostUid (row : UidRow) (uid : Nat) : Option Nat :=
  if row.Maps uid then some (row.hostStart + (uid - row.inStart)) else none

/-- The user of the host, itself where no row maps it. -/
def hostUid (m : UidMap) (uid : Nat) : Nat := (m.findSome? (fun row => row.hostUid uid)).getD uid

/-- A number in a column ten wide. -/
def column (n : Nat) : List Char := List.replicate (10 - (toString n).toList.length) ' ' ++ (toString n).toList

def UidRow.line (row : UidRow) : List Char := column row.inStart ++ ' ' :: (column row.hostStart ++ ' ' :: column row.count)

/-- The map as the kernel prints it. -/
def procText (m : UidMap) : String := String.ofList (m.flatMap (fun row => row.line ++ ['\n']))

theorem free_toString (n : Nat) : ∀ c ∈ (toString n).toList, isSpace c = false :=
  fun _ hc => JsString.isSpace_of_isDigit (NumberText.isDigit_of_mem hc)

theorem fields_column (n : Nat) (t : List Char) : fields isSpace (column n ++ ' ' :: t) = (toString n).toList :: fields isSpace t := by
  rw [column, List.append_assoc, Fields.fields_all_sep (fun c hc => by rw [List.eq_of_mem_replicate hc]; rfl),
    Fields.fields_free_append (NumberText.toString_ne_nil n) (free_toString n) rfl]

theorem fields_lastColumn (n : Nat) : fields isSpace (column n) = [(toString n).toList] := by
  rw [column, Fields.fields_all_sep (fun c hc => by rw [List.eq_of_mem_replicate hc]; rfl),
    Fields.fields_of_free (NumberText.toString_ne_nil n) (free_toString n)]

theorem words_line (row : UidRow) :
    words row.line = [(toString row.inStart).toList, (toString row.hostStart).toList, (toString row.count).toList] := by
  rw [words, UidRow.line, fields_column, fields_column, fields_lastColumn]

theorem newline_not_mem_column (n : Nat) : '\n' ∉ column n := by
  rw [column, List.mem_append, not_or]
  refine ⟨fun h => absurd (List.eq_of_mem_replicate h) (by decide), fun h => ?_⟩
  exact absurd (NumberText.isDigit_of_mem h) (by decide)

theorem newline_not_mem_line (row : UidRow) : '\n' ∉ row.line := by
  simp [UidRow.line, newline_not_mem_column]

theorem lines_procText : ∀ m : UidMap, (procText m).toList.splitOn '\n' = m.map UidRow.line ++ [[]]
  | [] => rfl
  | row :: m => by
    have ih := lines_procText m
    rw [procText, String.toList_ofList] at ih ⊢
    rw [List.flatMap_cons, List.append_assoc, List.singleton_append, List.splitOn_append_cons_self,
      List.splitOn_eq_singleton (newline_not_mem_line row), ih]
    rfl

/-- **A row of the map is read as it is meant.** -/
theorem hostUidIn_row (fl : Rounding) (uid : Nat) (row : UidRow) :
    hostUidIn fl uid (words row.line) = (row.hostUid uid).map Nat.cast := by
  have hin := row.inStart_lt
  have hhost := row.hostStart_lt
  have hcount := row.count_lt
  have hround : ∀ n : Nat, n ≤ 2 ^ 53 → fl.round (n : ℚ) = n := fun n hn => by
    have := fl.int n (by rw [abs_of_nonneg (Int.natCast_nonneg n)]; exact_mod_cast hn)
    exact_mod_cast this
  have hsum := hround (row.inStart + row.count) (by omega)
  rw [words_line, hostUidIn]
  simp only [String.ofList_toList, NumberText.number_toString fl (show row.inStart ≤ 2 ^ 53 by omega),
    NumberText.number_toString fl (show row.hostStart ≤ 2 ^ 53 by omega),
    NumberText.number_toString fl (show row.count ≤ 2 ^ 53 by omega), finite]
  rw [Nat.cast_add] at hsum
  rw [hsum]
  by_cases hmaps : row.Maps uid
  · have hdiff := hround (uid - row.inStart) (by have := hmaps.2; omega)
    have htotal := hround (row.hostStart + (uid - row.inStart)) (by have := hmaps.2; omega)
    rw [Nat.cast_sub hmaps.1] at hdiff
    rw [Nat.cast_add, Nat.cast_sub hmaps.1] at htotal
    rw [if_pos ⟨by exact_mod_cast hmaps.1, by exact_mod_cast hmaps.2⟩, hdiff, htotal, UidRow.hostUid, if_pos hmaps,
      Option.map_some, Nat.cast_add, Nat.cast_sub hmaps.1]
  · rw [if_neg (fun h => hmaps ⟨by exact_mod_cast h.1, by exact_mod_cast h.2⟩), UidRow.hostUid, if_neg hmaps]
    rfl

theorem findSome?_rows (fl : Rounding) (uid : Nat) : ∀ m : UidMap,
    (m.map UidRow.line).findSome? (fun line => hostUidIn fl uid (words line)) =
      (m.findSome? (fun row => row.hostUid uid)).map Nat.cast
  | [] => rfl
  | row :: m => by
    rw [List.map_cons, List.findSome?_cons, List.findSome?_cons, hostUidIn_row]
    cases row.hostUid uid with
    | none => exact findSome?_rows fl uid m
    | some n => rfl

/-- What the doctor takes for its user of the host, from the map it could read or from none. -/
def operatorUid (m : Option UidMap) (uid : Nat) : Nat := (m.map (hostUid · uid)).getD uid

/-- **The doctor finds its user**, as the map has it. -/
theorem resolveHostUid_eq {env : CgroupEnv} {m : Option UidMap} (hmap : env.readFile (uidMapPath env) = m.map procText) :
    resolveHostUid env none = operatorUid m env.getuid := by
  rw [resolveHostUid, hmap]
  cases m with
  | none => rfl
  | some m =>
    have hlast : ([[]] : List (List Char)).findSome? (fun line => hostUidIn env.fl env.getuid (words line)) = none := rfl
    rw [Option.map_some]
    dsimp only
    rw [lines_procText, List.findSome?_append, findSome?_rows, hlast, Option.or_none]
    show _ = ((hostUid m env.getuid : Nat) : ℚ)
    rw [hostUid]
    cases m.findSome? (fun row => row.hostUid env.getuid) <;> rfl

/-! ## The verdict -/

/-- A file that lists every controller the containers need. -/
def Delegates (env : CgroupEnv) (path : String) : Prop :=
  ∃ text, env.readFile path = some text ∧ ∀ c ∈ REQUIRED_CONTROLLERS, IsField isSpace text.toList c.toList

def Readable (env : CgroupEnv) (path : String) : Prop := ∃ text, env.readFile path = some text

/-- The controllers of a user's slice. -/
def userSlice (env : CgroupEnv) (uid : Nat) : String :=
  cgroupRoot env ++ "/user.slice/user-" ++ toString uid ++ ".slice/cgroup.controllers"

/-- **What each verdict says** of the two layers. -/
structure Verdict (env : CgroupEnv) (uid : Nat) (r : ProbeResult CgroupDetails) : Prop where
  ok_iff : r.status = .ok ↔ Delegates env (rootPath env) ∧ Delegates env (userSlice env uid)
  warn_iff : r.status = .warn ↔
    Delegates env (rootPath env) ∧ Readable env (userSlice env uid) ∧ ¬ Delegates env (userSlice env uid)
  fail_iff : r.status = .fail ↔ Readable env (rootPath env) ∧ ¬ Delegates env (rootPath env)
  unknown_iff : r.status = .unknown ↔
    ¬ Readable env (rootPath env) ∨ Delegates env (rootPath env) ∧ ¬ Readable env (userSlice env uid)

theorem required_ne_nil {c : String} (h : c ∈ REQUIRED_CONTROLLERS) : c.toList ≠ [] := by
  rcases List.mem_cons.1 h with rfl | h
  · decide
  · rw [List.mem_singleton.1 h]
    decide

theorem mem_words_iff {text w : List Char} (hw : w ≠ []) : w ∈ words text ↔ IsField isSpace text w := by
  rw [← Fields.mem_fields_iff, words]
  split
  · rename_i hnil
    rw [hnil]
    simp [hw]
  · rfl

/-- A controller is found exactly if it is a word of the file. -/
theorem contains_iff {text : List Char} {c : String} (hc : c.toList ≠ []) :
    ((words text).map String.ofList).contains c = true ↔ IsField isSpace text c.toList := by
  rw [List.contains_iff_mem, List.mem_map, ← mem_words_iff hc]
  constructor
  · rintro ⟨w, hw, rfl⟩
    rwa [String.toList_ofList]
  · exact fun h => ⟨c.toList, h, String.ofList_toList⟩

theorem missing_eq_nil_iff {text : List Char} :
    missing ((words text).map String.ofList) = [] ↔ ∀ c ∈ REQUIRED_CONTROLLERS, IsField isSpace text c.toList := by
  rw [missing, List.filter_eq_nil_iff]
  refine forall_congr' (fun c => imp_congr_right (fun hc => ?_))
  rw [← contains_iff (required_ne_nil hc)]
  simp

section
variable {env : CgroupEnv} {path : String}

theorem not_readable (h : readControllers env path = none) : ¬ Readable env path := by
  rintro ⟨text, htext⟩
  rw [readControllers, htext] at h
  cases h

theorem not_delegates (h : readControllers env path = none) : ¬ Delegates env path := fun ⟨text, htext, _⟩ =>
  not_readable h ⟨text, htext⟩

theorem readControllers_some {controllers : List String} (h : readControllers env path = some controllers) :
    Readable env path ∧ (missing controllers = [] ↔ Delegates env path) := by
  obtain ⟨text, htext, rfl⟩ := Option.map_eq_some_iff.1 h
  refine ⟨⟨text, htext⟩, ?_⟩
  rw [missing_eq_nil_iff]
  refine ⟨fun hall => ⟨text, htext, hall⟩, ?_⟩
  rintro ⟨text', htext', hall⟩
  rw [htext, Option.some.injEq] at htext'
  rwa [htext']

end

theorem slicePath_eq (env : CgroupEnv) {uid : Nat} (h : uid < 10 ^ 21) : slicePath env uid = userSlice env uid := by
  rw [slicePath, NumberText.textOf_nat _ h, userSlice]

/-- **A probe's verdict is exact.** -/
theorem judge_verdict (env : CgroupEnv) {uid : Nat} (huid : uid < 10 ^ 21) (durationMs : Int) :
    Verdict env uid (judge env uid durationMs) := by
  unfold judge
  dsimp only
  rw [slicePath_eq env huid]
  cases hroot : readControllers env (rootPath env) with
  | none =>
    have hread := not_readable hroot
    have hdel := not_delegates hroot
    constructor <;> simp [result, hread, hdel]
  | some rootControllers =>
    obtain ⟨hread, hmissing⟩ := readControllers_some hroot
    dsimp only
    by_cases hm : missing rootControllers = []
    · rw [if_neg (not_not.2 hm)]
      have hdel := hmissing.1 hm
      cases hslice : readControllers env (userSlice env uid) with
      | none =>
        have hread' := not_readable hslice
        have hdel' := not_delegates hslice
        constructor <;> simp [result, hread, hdel, hread', hdel']
      | some userControllers =>
        obtain ⟨hread', hmissing'⟩ := readControllers_some hslice
        dsimp only
        by_cases hm' : missing userControllers = []
        · have hdel' := hmissing'.1 hm'
          rw [if_neg (not_not.2 hm')]
          constructor <;> simp [result, hread, hdel, hread', hdel']
        · have hdel' : ¬ Delegates env (userSlice env uid) := fun h => hm' (hmissing'.2 h)
          rw [if_pos hm']
          constructor <;> simp [result, hread, hdel, hread', hdel']
    · have hdel : ¬ Delegates env (rootPath env) := fun h => hm (hmissing.2 h)
      rw [if_pos hm]
      constructor <;> simp [layerOne, result, hread, hdel]

/-- The uid of the first probe is that of all. -/
theorem probeRuns_cached {uid : Nat} (huid : uid < 10 ^ 21) : ∀ runs : List (CgroupEnv × Int),
    List.Forall₂ (fun run r => Verdict run.1 uid r) runs (probeRuns (some uid) runs)
  | [] => .nil
  | (env, durationMs) :: runs => .cons (judge_verdict env huid durationMs) (probeRuns_cached huid runs)

theorem UidRow.hostUid_lt {row : UidRow} {uid n : Nat} (h : row.hostUid uid = some n) : n < 2 ^ 33 := by
  have hhost := row.hostStart_lt
  have hcount := row.count_lt
  rw [UidRow.hostUid] at h
  split at h
  · rename_i hmaps
    cases h
    have := hmaps.2
    omega
  · cases h

theorem operatorUid_lt (m : Option UidMap) {uid : Nat} (huid : uid < 2 ^ 32) : operatorUid m uid < 10 ^ 21 := by
  have hsmall : 2 ^ 33 < 10 ^ 21 := by decide
  cases m with
  | none => exact huid.trans (by decide)
  | some m =>
    show hostUid m uid < 10 ^ 21
    rw [hostUid]
    cases hfound : m.findSome? (fun row => row.hostUid uid) with
    | none => exact huid.trans (by decide)
    | some n =>
      obtain ⟨row, -, hrow⟩ := List.exists_of_findSome?_eq_some hfound
      exact (UidRow.hostUid_lt hrow).trans hsmall

/-- **The controllers are those of the user the map names**, for every probe of a process.  The user is the one of the
first probe's map, or the doctor's own number if that could not be read, whatever is read later; and each verdict is
exactly what the root and the slice of that user list. -/
theorem probeRuns_verdict (m : Option UidMap) (env : CgroupEnv) (durationMs : Int) (runs : List (CgroupEnv × Int))
    (huid : env.getuid < 2 ^ 32) (hmap : env.readFile (uidMapPath env) = m.map procText) :
    List.Forall₂ (fun run r => Verdict run.1 (operatorUid m env.getuid) r) ((env, durationMs) :: runs)
      (probeRuns none ((env, durationMs) :: runs)) := by
  have hresolved := resolveHostUid_eq hmap
  have hlt := operatorUid_lt m huid
  rw [probeRuns, probeCgroupDelegation, hresolved]
  exact .cons (judge_verdict env hlt durationMs) (probeRuns_cached hlt runs)

/-- A doctor whose root is user 1000 of the host, on a host that delegates both controllers. -/
def rootlessHost : CgroupEnv where
  HOST_CGROUP_ROOT := none
  HOST_CMDLINE_PATH := none
  UID_MAP_PATH := none
  getuid := 0
  readFile := fun path =>
    if path = "/proc/self/uid_map" then some "         0       1000          1\n         1     100000      65536\n"
    else if path = "/host/cgroup/cgroup.controllers" then some "cpuset cpu io memory pids\n"
    else if path = "/host/cgroup/user.slice/user-1000.slice/cgroup.controllers" then some "cpu memory pids\n"
    else none
  fl := .exact
  fractionText := fun _ => ""

def rootlessMap : UidMap :=
  [⟨0, 1000, 1, by decide, by decide, by decide⟩, ⟨1, 100000, 65536, by decide, by decide, by decide⟩]

theorem probeRuns_verdict_rootless :
    List.Forall₂ (fun run r => Verdict run.1 1000 r) [(rootlessHost, (3 : Int))] (probeRuns none [(rootlessHost, 3)]) :=
  probeRuns_verdict (some rootlessMap) rootlessHost 3 [] (by decide) (by decide +kernel)

end CgroupDelegation
end SignalkDoctor
