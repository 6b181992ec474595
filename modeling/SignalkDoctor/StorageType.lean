import Mathlib.Data.List.Induction
import Mathlib.Data.Nat.Bitwise
import Mathlib.Data.Set.Function
import SignalkDoctor.NumberText
import SignalkDoctor.Probes
import SignalkDoctor.UnixPath
/-!
# StorageType — the disk under the data directory (`src/probes/storage-type.ts`)

`stat` gives a device number; its major and minor name a link in the host's `/sys`, and from where it leads the probe climbs
to the first directory with a queue.  A device number packs the two numbers as `makedev` does, a part of the major above
the minor (`decodeDev_makedev`).

`probeStorageType_disk` is for any partition of a disk: the verdict is that on the disk.
-/
namespace SignalkDoctor
namespace StorageType

open JsString (isWord trim)
open NumberText (finite number textOf)
open Probes (ProbeResult ProbeStatus)
open UnixPath (Name Path basename dirname render resolve segments slashed)

/-! ## Device numbers -/

/-- Over a device number that is an integer; `x.ldiff m` is `x & ~m`. -/
def decodeDev (d : Nat) : Nat × Nat :=
  (((d >>> 8) &&& 0xfff) ||| (d >>> 32).ldiff 0xfff, (d &&& 0xff) ||| (d >>> 12).ldiff 0xff)

/-- The device number of a major and a minor, the `gnu_dev_makedev` the decoder is to undo. -/
def makedev (maj min : Nat) : Nat :=
  ((maj &&& 0xfff) <<< 8) ||| (maj.ldiff 0xfff <<< 32) ||| (min &&& 0xff) ||| (min.ldiff 0xff <<< 12)

theorem testBit_fff (i : Nat) : Nat.testBit 0xfff i = decide (i < 12) := Nat.testBit_two_pow_sub_one 12 i

theorem testBit_ff (i : Nat) : Nat.testBit 0xff i = decide (i < 8) := Nat.testBit_two_pow_sub_one 8 i

/-- **What is read back**: the major, and the minor with what of the major is above its twelve bits. -/
theorem decodeDev_makedev (maj : Nat) {min : Nat} (hmin : min < 2 ^ 32) :
    decodeDev (makedev maj min) = (maj, min ||| (maj >>> 12) <<< 32) := by
  have hhigh : ∀ i, 32 ≤ i → min.testBit i = false := fun i hi =>
    Nat.testBit_lt_two_pow (hmin.trans_le (Nat.pow_le_pow_right (by decide) hi))
  unfold decodeDev makedev
  refine Prod.ext (Nat.eq_of_testBit_eq (fun i => ?_)) (Nat.eq_of_testBit_eq (fun i => ?_))
  · simp only [Nat.testBit_or, Nat.testBit_and, Nat.testBit_ldiff, Nat.testBit_shiftLeft, Nat.testBit_shiftRight,
      testBit_fff, testBit_ff]
    have hminor : 12 ≤ i → min.testBit (32 + i - 12) = false := fun hi => hhigh _ (by omega)
    by_cases hi : i < 12
    · grind
    · grind
  · simp only [Nat.testBit_or, Nat.testBit_and, Nat.testBit_ldiff, Nat.testBit_shiftLeft, Nat.testBit_shiftRight,
      testBit_fff, testBit_ff]
    have hminor := hhigh i
    by_cases hi : i < 8
    · grind
    · grind

/-- **The round trip holds for a major of twelve bits**, and for no other. -/
theorem decodeDev_makedev_iff (maj min : Nat) (hmin : min < 2 ^ 32) :
    decodeDev (makedev maj min) = (maj, min) ↔ maj < 2 ^ 12 := by
  rw [decodeDev_makedev maj hmin, Prod.mk.injEq]
  refine ⟨fun h => ?_, fun h => ⟨rfl, ?_⟩⟩
  · by_contra hlarge
    have hpos : 1 ≤ maj >>> 12 := by
      rw [Nat.shiftRight_eq_div_pow]
      exact (Nat.one_le_div_iff (by decide)).2 (not_lt.1 hlarge)
    have hover : 2 ^ 32 ≤ (maj >>> 12) <<< 32 := by
      rw [Nat.shiftLeft_eq]
      exact Nat.le_mul_of_pos_left _ hpos
    have hle := hover.trans (Nat.right_le_or (n := min))
    rw [h.2] at hle
    exact absurd hmin (not_lt.2 hle)
  · rw [Nat.shiftRight_eq_div_pow, Nat.div_eq_of_lt h]
    simp

theorem makedev_lt {maj min : Nat} (hmaj : maj < 2 ^ 12) (hmin : min < 2 ^ 32) : makedev maj min < 2 ^ 44 := by
  refine Nat.lt_pow_two_of_testBit _ (fun i hi => ?_)
  have hmajor : maj.testBit (i - 32) = false :=
    Nat.testBit_lt_two_pow (hmaj.trans_le (Nat.pow_le_pow_right (by decide) (by omega)))
  have hminor : min.testBit (i - 12) = false :=
    Nat.testBit_lt_two_pow (hmin.trans_le (Nat.pow_le_pow_right (by decide) (by omega)))
  simp only [makedev, Nat.testBit_or, Nat.testBit_and, Nat.testBit_ldiff, Nat.testBit_shiftLeft, testBit_fff, testBit_ff, hmajor,
    hminor]
  grind

theorem decodeDev_lt {d : Nat} (hd : d < 2 ^ 44) : (decodeDev d).1 < 2 ^ 12 ∧ (decodeDev d).2 < 2 ^ 32 := by
  have hhigh : ∀ i, 44 ≤ i → d.testBit i = false := fun i hi =>
    Nat.testBit_lt_two_pow (hd.trans_le (Nat.pow_le_pow_right (by decide) hi))
  constructor
  · refine Nat.lt_pow_two_of_testBit _ (fun i hi => ?_)
    simp only [decodeDev, Nat.testBit_or, Nat.testBit_and, Nat.testBit_ldiff, Nat.testBit_shiftRight, testBit_fff,
      hhigh (32 + i) (by omega)]
    grind
  · refine Nat.lt_pow_two_of_testBit _ (fun i hi => ?_)
    simp only [decodeDev, Nat.testBit_or, Nat.testBit_and, Nat.testBit_ldiff, Nat.testBit_shiftRight, testBit_ff,
      hhigh (12 + i) (by omega)]
    grind

theorem makedev_decodeDev {d : Nat} (hd : d < 2 ^ 44) : makedev (decodeDev d).1 (decodeDev d).2 = d := by
  have hhigh : ∀ i, 44 ≤ i → d.testBit i = false := fun i hi =>
    Nat.testBit_lt_two_pow (hd.trans_le (Nat.pow_le_pow_right (by decide) hi))
  refine Nat.eq_of_testBit_eq (fun i => ?_)
  simp only [makedev, decodeDev, Nat.testBit_or, Nat.testBit_and, Nat.testBit_ldiff, Nat.testBit_shiftLeft,
    Nat.testBit_shiftRight, testBit_fff, testBit_ff]
  -- the minor's low byte, the major, and the rest of the minor
  rcases Nat.lt_or_ge i 8 with h8 | h8
  · simp [h8, show ¬ 8 ≤ i by omega, show ¬ 32 ≤ i by omega, show ¬ 12 ≤ i by omega]
  · rcases Nat.lt_or_ge i 20 with h20 | h20
    · simp [h8, show ¬ i < 8 by omega, show ¬ 32 ≤ i by omega, show i - 8 < 12 by omega, show i - 12 < 8 by omega]
    · have hminor : 12 + (i - 12) = i := by omega
      have hmajor : 32 ≤ i → 32 + (i - 32) = i := by omega
      by_cases hpast : 44 ≤ i
      · simp [hhigh i hpast, hminor, hmajor (by omega), show ¬ i < 8 by omega, show ¬ i - 8 < 12 by omega,
          show ¬ i - 12 < 8 by omega, show ¬ i - 32 < 12 by omega]
      · simp [hminor, show ¬ i < 8 by omega, show ¬ i - 8 < 12 by omega, show ¬ i - 12 < 8 by omega, show 12 ≤ i by omega,
          show i - 32 < 12 by omega]

/-- **`decodeDev` reads back exactly the device numbers of a twelve-bit major**, which are all below 2^44. -/
theorem decodeDev_bijOn :
    Set.BijOn decodeDev {d | d < 2 ^ 44} {p | p.1 < 2 ^ 12 ∧ p.2 < 2 ^ 32} ∧
      (∀ maj min, maj < 2 ^ 12 → min < 2 ^ 32 → makedev maj min < 2 ^ 44 ∧ decodeDev (makedev maj min) = (maj, min)) ∧
      ∀ maj min, 2 ^ 12 ≤ maj → min < 2 ^ 32 → decodeDev (makedev maj min) ≠ (maj, min) := by
  refine ⟨⟨fun d hd => decodeDev_lt hd, fun d hd d' hd' heq => ?_, fun p hp => ?_⟩, fun maj min hmaj hmin => ?_,
    fun maj min hmaj hmin heq => ?_⟩
  · rw [← makedev_decodeDev hd, ← makedev_decodeDev hd', heq]
  · exact ⟨makedev p.1 p.2, makedev_lt hp.1 hp.2, (decodeDev_makedev_iff p.1 p.2 hp.2).2 hp.1⟩
  · exact ⟨makedev_lt hmaj hmin, (decodeDev_makedev_iff maj min hmin).2 hmaj⟩
  · exact absurd ((decodeDev_makedev_iff maj min hmin).1 heq) (not_lt.2 hmaj)

/-! ## The probe -/

/-- The environment, and the mounts of the host; none for what cannot be read. -/
structure StorageEnv where
  HOST_SYS : Option String
  DATA_DIR : Option String
  HOST_CGROUP_ROOT : Option String
  cwd : String
  /-- `stat(path).dev`, or the message of its failure. -/
  statDev : String → Except String Nat
  /-- `stat(path).isDirectory()`, and false if that fails. -/
  isDirectory : String → Bool
  readlink : String → Option String
  readFile : String → Option String
  fl : Rounding
  /-- The text of a number that is no integer. -/
  fractionText : ℚ → String

def sysRoot (env : StorageEnv) : String := env.HOST_SYS.getD "/host/sys"

def dataDir (env : StorageEnv) : String := env.DATA_DIR.getD "/data"

def cgroupRoot (env : StorageEnv) : String := env.HOST_CGROUP_ROOT.getD "/host/cgroup"

inductive StorageKind where
  | sdCard | ssd | hdd | unknown
  deriving DecidableEq, Repr

structure Disk where
  dir : List Char
  device : String
  deriving DecidableEq

/-- The loop of `resolveDisk`, with some levels left. -/
def climb (env : StorageEnv) : Nat → List Char → Option Disk
  | 0, _ => none
  | levels + 1, cur =>
    if env.isDirectory (String.ofList (UnixPath.join cur "queue".toList)) then some ⟨cur, String.ofList (basename cur)⟩
    else if dirname cur = cur then none
    else climb env levels (dirname cur)

/-- `join(sysRoot(), 'dev', 'block', maj:min)` -/
def deviceLink (env : StorageEnv) (maj min : Nat) : List Char :=
  UnixPath.join (sysRoot env).toList ("dev/block/" ++ (toString maj ++ ":" ++ toString min)).toList

def resolveDisk (env : StorageEnv) (maj min : Nat) : Option Disk :=
  let link := deviceLink env maj min
  (env.readlink (String.ofList link)).bind (fun target =>
    climb env 4 (resolve env.cwd.toList (dirname link) target.toList))

def classify (device : String) (rotational : Option ℚ) : StorageKind :=
  if "mmcblk".toList <+: device.toList then .sdCard
  else if "nvme".toList <+: device.toList then .ssd
  else if rotational = some 0 then .ssd
  else if rotational = some 1 then .hdd
  else .unknown

def readRotational (env : StorageEnv) (diskDir : List Char) : Option ℚ :=
  (env.readFile (String.ofList (UnixPath.join diskDir "queue/rotational".toList))).bind (fun raw => finite (number env.fl (trim raw)))

/-- The digits of the last `avg10=` of a line that no word character precedes; `prev` is the character before. -/
def lastAvg10 (prev : Char) : List Char → Option (List Char)
  | [] => none
  | c :: rest =>
    let digits := ((c :: rest).drop "avg10=".length).takeWhile (fun c => c.isDigit || c == '.')
    (lastAvg10 c rest).or
      (if !isWord prev ∧ "avg10=".toList <+: c :: rest ∧ digits ≠ [] then some digits else none)

/-- `/some\b[^\n]*\bavg10=([\d.]+)/` -/
def someAvg10 : List Char → Option (List Char)
  | [] => none
  | c :: rest =>
    let after := (c :: rest).drop "some".length
    (if "some".toList <+: c :: rest ∧ after.head?.all (fun c => !isWord c) then lastAvg10 'e' (after.takeWhile (fun c => c ≠ '\n'))
      else none).or (someAvg10 rest)

def readIoPressureSomeAvg10 (env : StorageEnv) : Option ℚ :=
  (env.readFile (String.ofList (UnixPath.join (cgroupRoot env).toList "io.pressure".toList))).bind (fun raw =>
    (someAvg10 raw.toList).bind (fun digits => finite (number env.fl (String.ofList digits))))

inductive StorageDetails where
  | unresolved (maj min : Nat)
  | disk (device : String) (kind : StorageKind) (rotational ioPressureSomeAvg10 : Option ℚ)
  deriving DecidableEq

def kindLabel : StorageKind → String
  | .ssd => "SSD/flash"
  | .hdd => "spinning disk"
  | _ => "unknown type"

def pressureNote (env : StorageEnv) : Option ℚ → String
  | some avg => if avg > 0 then " (I/O pressure some avg10=" ++ textOf env.fractionText avg ++ "%)" else ""
  | none => ""

def result (status : ProbeStatus) (message : String) (details : Option StorageDetails) (durationMs : Int) :
    ProbeResult StorageDetails :=
  ⟨"storage-type", "Host root storage", status, message, details, durationMs⟩

/-- `classifyRootDevice`, which took `durationMs`. -/
def classifyRootDevice (env : StorageEnv) (maj min : Nat) (durationMs : Int) : ProbeResult StorageDetails :=
  match resolveDisk env maj min with
  | none =>
    result .unknown ("could not resolve the root block device (" ++ toString maj ++ ":" ++ toString min ++ ") under " ++
      sysRoot env ++ "/dev/block — doctor container may be missing the host /sys mount; refresh the doctor quadlet via " ++
      "signalk-universal-installer to enable this probe") (some (.unresolved maj min)) durationMs
  | some disk =>
    let rotational := readRotational env disk.dir
    let kind := classify disk.device rotational
    let ioPressure := readIoPressureSomeAvg10 env
    let details := StorageDetails.disk disk.device kind rotational ioPressure
    if kind = .sdCard then
      result .warn ("root is on an SD card (" ++ disk.device ++ ")" ++ pressureNote env ioPressure ++
        " — works, but microSD I/O stalls are the usual cause of slow health/probe responses; moving root/overlay storage " ++
        "to a USB3 or NVMe SSD removes them") (some details) durationMs
    else result .ok ("root is on " ++ disk.device ++ " (" ++ kindLabel kind ++ ")") (some details) durationMs

def probeStorageType (env : StorageEnv) (durationMs : Int) : ProbeResult StorageDetails :=
  match env.statDev (dataDir env) with
  | .error message => result .unknown ("cannot stat " ++ dataDir env ++ ": " ++ message) none durationMs
  | .ok dev => classifyRootDevice env (decodeDev dev).1 (decodeDev dev).2 durationMs

/-! ## The climb -/

def queueName : Name := ⟨"queue".toList, by decide, by decide, by decide⟩

/-- Whether a directory of the tree has a queue. -/
def hasQueue (env : StorageEnv) (dir : Path) : Bool := env.isDirectory (String.ofList (render (dir ++ [queueName]) false))

theorem join_queue (dir : Path) : UnixPath.join (render dir false) "queue".toList = render (dir ++ [queueName]) false :=
  UnixPath.join_render dir [queueName] (by decide) (by decide)

theorem basename_render (dir : Path) (n : Name) : basename (render (dir ++ [n]) false) = n.text := by
  rw [basename, UnixPath.segments_render, List.map_append, List.getLast?_append]
  rfl

/-- **The climb ends at the nearest directory with a queue**, if that is within the levels. -/
theorem climb_nearest {env : StorageEnv} {dir : Path} {disk : Name} (hqueue : hasQueue env (dir ++ [disk]) = true) :
    ∀ (below : Path) (levels : Nat), below.length < levels →
      (∀ q, q ≠ [] → q <+: below → hasQueue env (dir ++ [disk] ++ q) = false) →
        climb env levels (render (dir ++ [disk] ++ below) false) =
          some ⟨render (dir ++ [disk]) false, String.ofList disk.text⟩ := by
  intro below
  induction below using List.reverseRec with
  | nil =>
    intro levels hlevels _
    obtain ⟨levels, rfl⟩ := Nat.exists_eq_add_of_lt hlevels
    have hhere : env.isDirectory (String.ofList (render (dir ++ [disk] ++ [queueName]) false)) = true := hqueue
    rw [List.append_nil, List.length_nil, Nat.zero_add, climb, join_queue, if_pos hhere, basename_render]
  | append_singleton below n ih =>
    intro levels hlevels hnone
    rw [List.length_append, List.length_singleton] at hlevels
    obtain ⟨levels, rfl⟩ : ∃ l, levels = l + 1 := ⟨levels - 1, by omega⟩
    have hhere := hnone (below ++ [n]) (by simp) List.prefix_rfl
    have hparent : dirname (render (dir ++ [disk] ++ (below ++ [n])) false) = render (dir ++ [disk] ++ below) false := by
      rw [← List.append_assoc, UnixPath.dirname_render]
    have hmoves : render (dir ++ [disk] ++ below) false ≠ render (dir ++ [disk] ++ (below ++ [n])) false := by
      intro hsame
      have := congrArg List.length (UnixPath.render_inj hsame)
      simp at this
    rw [climb, join_queue, hparent, if_neg (by simpa [hasQueue] using hhere), if_neg hmoves]
    exact ih levels (by omega) (fun q hq hlead => hnone q hq (hlead.trans (List.prefix_append ..)))

/-! ## The link of a device -/

def devName : Name := ⟨"dev".toList, by decide, by decide, by decide⟩

def blockName : Name := ⟨"block".toList, by decide, by decide, by decide⟩

theorem colon_mem (maj min : Nat) : ':' ∈ (toString maj ++ ":" ++ toString min).toList := by simp

theorem ne_slash_of_mem {n : Nat} {c : Char} (h : c ∈ (toString n).toList) : c ≠ '/' := by
  rintro rfl
  exact absurd (NumberText.isDigit_of_mem h) (by decide)

def deviceName (maj min : Nat) : Name where
  text := (toString maj ++ ":" ++ toString min).toList
  ne_nil := List.ne_nil_of_mem (colon_mem maj min)
  no_slash h := by
    simp only [String.toList_append, List.mem_append] at h
    rcases h with (h | h) | h
    · exact ne_slash_of_mem h rfl
    · revert h
      decide
    · exact ne_slash_of_mem h rfl
  no_dots := by
    constructor <;>
    · intro h
      have := colon_mem maj min
      rw [h] at this
      revert this
      decide

/-- The link of a device is an entry of `dev/block`. -/
theorem deviceLink_eq {env : StorageEnv} {sys : Path} (hsys : (sysRoot env).toList = render sys false) (maj min : Nat) :
    deviceLink env maj min = render (sys ++ [devName, blockName] ++ [deviceName maj min]) false := by
  have hseg : segments ("dev/block/" ++ (toString maj ++ ":" ++ toString min)).toList =
      [devName, blockName, deviceName maj min].map Name.text := by
    rw [String.toList_append]
    show segments ("dev".toList ++ '/' :: ("block".toList ++ '/' :: (deviceName maj min).text)) = _
    rw [UnixPath.segments_append_slash, UnixPath.segments_append_slash, UnixPath.segments_name]
    rfl
  have hlast : ("dev/block/" ++ (toString maj ++ ":" ++ toString min)).toList.getLast? ≠ some '/' := by
    rw [String.toList_append]
    show ("dev/block/".toList ++ (deviceName maj min).text).getLast? ≠ some '/'
    rw [UnixPath.getLast?_append_of_ne_nil _ (deviceName maj min).ne_nil]
    exact fun h => (deviceName maj min).no_slash (List.mem_of_getLast? h)
  rw [deviceLink, hsys, UnixPath.join_render sys _ (by simp) hseg, decide_eq_false hlast, List.append_assoc]
  rfl

/-- The link of a device in `devices`, as it is written in `dev/block`. -/
def linkText (devices : Path) : String := String.ofList ("../..".toList ++ slashed devices)

/-- **A link is followed to its device**, from the root of the tree. -/
theorem resolve_linkText (cwd : List Char) (sys : Path) {devices : Path} (hne : devices ≠ []) :
    resolve cwd (render (sys ++ [devName, blockName]) false) (linkText devices).toList = render (sys ++ devices) false := by
  have htext : (linkText devices).toList = "../..".toList ++ slashed devices := String.toList_ofList
  rw [htext]
  refine UnixPath.resolve_up cwd sys [devName, blockName] devices (by simp) ?_
  obtain ⟨n, rest, rfl⟩ := List.exists_cons_of_ne_nil hne
  have hup : segments "../..".toList = List.replicate 2 ['.', '.'] := by decide
  rw [UnixPath.slashed_cons, UnixPath.segments_append_slash, ← UnixPath.segments_slash (n.text ++ _), ← UnixPath.slashed_cons,
    UnixPath.segments_slashed, hup]
  rfl

theorem resolveDisk_eq {env : StorageEnv} {sys devices below : Path} {disk : Name} {maj min : Nat}
    (hsys : (sysRoot env).toList = render sys false)
    (hlink : env.readlink (String.ofList (render (sys ++ [devName, blockName, deviceName maj min]) false)) =
      some (linkText (devices ++ disk :: below)))
    (hqueue : hasQueue env (sys ++ devices ++ [disk]) = true) (hlevels : below.length < 4)
    (hnone : ∀ q, q ≠ [] → q <+: below → hasQueue env (sys ++ devices ++ [disk] ++ q) = false) :
    resolveDisk env maj min = some ⟨render (sys ++ devices ++ [disk]) false, String.ofList disk.text⟩ := by
  have htarget := @resolve_linkText env.cwd.toList sys (devices ++ disk :: below) (by simp)
  have hpath : sys ++ (devices ++ disk :: below) = sys ++ devices ++ [disk] ++ below := by simp
  rw [hpath] at htarget
  rw [resolveDisk, deviceLink_eq hsys, UnixPath.dirname_render, List.append_assoc]
  dsimp only [List.cons_append, List.nil_append]
  rw [hlink, Option.bind_some, htarget, climb_nearest hqueue below 4 hlevels hnone]

/-! ## The verdict -/

theorem classify_sdCard (device : List Char) (rotational : Option ℚ) :
    classify (String.ofList device) rotational = .sdCard ↔ "mmcblk".toList <+: device := by
  have htext : (String.ofList device).toList = device := String.toList_ofList
  refine ⟨fun hkind => ?_, fun h => if_pos (htext.symm ▸ h)⟩
  by_contra h
  rw [classify, htext, if_neg h] at hkind
  split_ifs at hkind

/-- **The verdict on a partition is the verdict on its disk.**  In a tree whose link for the device of the data directory
leads to a disk or up to three levels below it, where none but the disk has a queue: the probe names the disk, warns
exactly if that is an SD card, and is ok otherwise. -/
theorem probeStorageType_disk (env : StorageEnv) (sys devices below : Path) (disk : Name) (maj min : Nat) (durationMs : Int)
    (hdev : env.statDev (dataDir env) = .ok (makedev maj min)) (hmaj : maj < 2 ^ 12) (hmin : min < 2 ^ 32)
    (hsys : (sysRoot env).toList = render sys false)
    (hlink : env.readlink (String.ofList (render (sys ++ [devName, blockName, deviceName maj min]) false)) =
      some (linkText (devices ++ disk :: below)))
    (hqueue : hasQueue env (sys ++ devices ++ [disk]) = true) (hlevels : below.length < 4)
    (hnone : ∀ q, q ≠ [] → q <+: below → hasQueue env (sys ++ devices ++ [disk] ++ q) = false) :
    let r := probeStorageType env durationMs
    (∃ kind rotational ioPressure, r.details = some (.disk (String.ofList disk.text) kind rotational ioPressure)) ∧
      (r.status = .warn ↔ "mmcblk".toList <+: disk.text) ∧ (r.status = .ok ↔ ¬ "mmcblk".toList <+: disk.text) := by
  have hdisk := resolveDisk_eq hsys hlink hqueue hlevels hnone
  have hdecode := (decodeDev_makedev_iff maj min hmin).2 hmaj
  intro r
  have hr : r = probeStorageType env durationMs := rfl
  simp only [probeStorageType, hdev, hdecode, classifyRootDevice, hdisk] at hr
  have hsd := classify_sdCard disk.text (readRotational env (render (sys ++ devices ++ [disk]) false))
  by_cases h : "mmcblk".toList <+: disk.text
  · rw [if_pos (hsd.2 h)] at hr
    rw [hr]
    exact ⟨⟨_, _, _, rfl⟩, ⟨fun _ => h, fun _ => rfl⟩, ⟨fun hok => (by cases hok), fun hnot => absurd h hnot⟩⟩
  · rw [if_neg (fun hkind => h (hsd.1 hkind))] at hr
    rw [hr]
    exact ⟨⟨_, _, _, rfl⟩, ⟨fun hwarn => (by cases hwarn), fun hsd => absurd hsd h⟩, ⟨fun _ => h, fun _ => rfl⟩⟩

/-- A root on the second partition of an SD card. -/
def sdCardHost : StorageEnv where
  HOST_SYS := none
  DATA_DIR := none
  HOST_CGROUP_ROOT := none
  cwd := "/app"
  statDev := fun _ => .ok 0xb302
  isDirectory := fun path => path = "/host/sys/devices/mmc0/block/mmcblk0/queue"
  readlink := fun path =>
    if path = "/host/sys/dev/block/179:2" then some "../../devices/mmc0/block/mmcblk0/mmcblk0p2" else none
  readFile := fun _ => none
  fl := .exact
  fractionText := fun _ => ""

def hostSys : Path := [⟨"host".toList, by decide, by decide, by decide⟩, ⟨"sys".toList, by decide, by decide, by decide⟩]

def mmcDevices : Path :=
  [⟨"devices".toList, by decide, by decide, by decide⟩, ⟨"mmc0".toList, by decide, by decide, by decide⟩, blockName]

def mmcblk0 : Name := ⟨"mmcblk0".toList, by decide, by decide, by decide⟩

def mmcblk0p2 : Name := ⟨"mmcblk0p2".toList, by decide, by decide, by decide⟩

theorem probeStorageType_disk_sdCard : (probeStorageType sdCardHost 4).status = .warn :=
  ((probeStorageType_disk sdCardHost hostSys mmcDevices [mmcblk0p2] mmcblk0 179 2 4 (by decide +kernel) (by decide) (by decide)
    (by decide +kernel) (by decide +kernel) (by decide +kernel) (by decide) (fun q hne hlead => by
      rcases List.prefix_concat_iff.1 (show q <+: [] ++ [mmcblk0p2] from hlead) with rfl | hnil
      · decide +kernel
      · exact absurd (List.prefix_nil.1 hnil) hne)).2.1).2 (by decide)

end StorageType
end SignalkDoctor
