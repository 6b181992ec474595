import SignalkDoctor.DriftTypes
import SignalkDoctor.JsRecord
import SignalkDoctor.JsonText
/-!
# DriftStore — the report on disk (`src/drift/store.ts`)

`loadDriftReport` validates the parsed document (`isDriftReport`), rewrites the reason of a retired generation and
migrates each package.  What it returns is the parsed object itself, so its fields are values of the language
(`ReportObj`), not yet known to have their types.

The reason is looked up with `in`, which also finds the names every object inherits.  `loadDriftReport_wellTyped_iff`
says that the load returns a well-typed report or null exactly when no such name stands in an accepted document;
`loadDriftReport_save` that a saved report loads as it was.
-/
namespace SignalkDoctor
namespace Drift

open Json (strOrNull ofStr?)
open JsRecord (objectPrototypeKeys)

/-- A property of a parsed object: absent, a value of the document, or what every object inherits under a name. -/
inductive JsVal where
  | undefined
  | json (v : Json)
  | inherited (name : String)
  deriving DecidableEq

def JsVal.ofProp : Option Json → JsVal
  | some v => .json v
  | none => .undefined

def JsVal.truthy : JsVal → Bool
  | .undefined => false
  | .json v => v.truthy
  | .inherited _ => true

def JsVal.str? : JsVal → Option String
  | .json (.str s) => some s
  | _ => none

/-- `lastFetchError` of a loaded report, when it is an object. -/
structure StoredError where
  reason : JsVal
  detail : JsVal
  deriving DecidableEq

/-- **A loaded report**: the parsed object with its packages migrated. -/
structure ReportObj where
  signalkImageTag : JsVal
  lastScannedAt : JsVal
  lastSuccessfulScanAt : JsVal
  online : JsVal
  lastFetchError : Option StoredError
  packages : List DriftPackage
  deriving DecidableEq

/-! ## Reasons -/

def currentReasons : List String := ["unreachable", "runtime"]

def retiredReasonMap : List (String × DriftFetchReason) :=
  [("network", .unreachable), ("no-token", .unreachable), ("auth", .unreachable), ("http", .unreachable),
    ("not-found", .runtime), ("bad-payload", .runtime)]

/-- What `RETIRED_REASON_MAP[key]` is, when `key in RETIRED_REASON_MAP`. -/
def retiredReason (key : String) : Option JsVal :=
  (JsRecord.get? retiredReasonMap key).map
    (fun | .own r => .json (.str r.text) | .inherited name => .inherited name)

def isAcceptableReasonOnDisk : Option Json → Bool
  | some (.str s) => currentReasons.contains s || (retiredReason s).isSome
  | _ => false

/-- `if (fetchError.reason in RETIRED_REASON_MAP) { … if (mapped) fetchError.reason = mapped; }` -/
def rewriteReason : JsVal → JsVal
  | .json (.str s) =>
    match retiredReason s with
    | some mapped => if mapped.truthy then mapped else .json (.str s)
    | none => .json (.str s)
  | v => v

/-! ## Validation and migration -/

def isObject : Json → Bool
  | .obj _ | .arr _ => true
  | _ => false

def isString : Option Json → Bool
  | some (.str _) => true
  | _ => false

def isStringOrNull : Option Json → Bool
  | some (.str _) | some .null => true
  | _ => false

def isBoolean : Option Json → Bool
  | some (.bool _) => true
  | _ => false

def isArray : Option Json → Bool
  | some (.arr _) => true
  | _ => false

def isDriftFetchError (v : Json) : Bool :=
  decide (v = .null) || (isObject v && isAcceptableReasonOnDisk (v.get? "reason") && isString (v.get? "detail"))

def isDriftReport (v : Json) : Bool :=
  isObject v && isStringOrNull (v.get? "signalkImageTag") && isString (v.get? "lastScannedAt") &&
    isStringOrNull (v.get? "lastSuccessfulScanAt") && isBoolean (v.get? "online") &&
    -- absent in reports older than the field
    (match v.get? "lastFetchError" with | none => true | some e => isDriftFetchError e) && isArray (v.get? "packages")

/-- `CLASSIFICATIONS.has(c) ? c : 'unknown'` -/
def asClassification (v : Option Json) : DriftClassification :=
  (driftClassifications.find? (fun c => decide (v = some (.str c.text)))).getD .unknown

def asLocation (v : Option Json) : Option DriftLocation :=
  match v with
  | none => none
  | some v =>
    if isObject v then
      match v.get? "installed" with
      | some (.str installed) => some ⟨installed, asClassification (v.get? "classification")⟩
      | _ => none
    else none

/-- One on-disk entry in the two-location shape.  An entry of the single-version generation has a string `installed`:
its version is dropped, what the registry answered is kept. -/
def migratePackage (v : Json) : Option DriftPackage :=
  if isObject v then
    match v.get? "name" with
    | some (.str name) =>
      if name.length = 0 then none
      else
        let legacy := isString (v.get? "installed")
        some
          { name
            image := if legacy then none else asLocation (v.get? "image")
            dataDir := if legacy then none else asLocation (v.get? "dataDir")
            latest := strOrNull (v.get? "latest")
            etag := strOrNull (v.get? "etag")
            lastFetchedAt := strOrNull (v.get? "lastFetchedAt") }
    | _ => none
  else none

/-- `lastFetchError` of an accepted report, an absent one `null`, its reason rewritten. -/
def loadFetchError : Option Json → Option StoredError
  | none | some .null => none
  | some e => some ⟨rewriteReason (JsVal.ofProp (e.get? "reason")), JsVal.ofProp (e.get? "detail")⟩

def packagesOf : Option Json → List DriftPackage
  | some (.arr items) => items.filterMap migratePackage
  | _ => []

/-- `loadDriftReport`: `raw` is the content of the file, `none` when it cannot be read.  `null` for what throws. -/
def loadDriftReport (J : JsonCodec) (raw : Option Text) : Option ReportObj :=
  match raw.bind J.parse with
  | none => none
  | some parsed =>
    if isDriftReport parsed then
      some
        { signalkImageTag := JsVal.ofProp (parsed.get? "signalkImageTag")
          lastScannedAt := JsVal.ofProp (parsed.get? "lastScannedAt")
          lastSuccessfulScanAt := JsVal.ofProp (parsed.get? "lastSuccessfulScanAt")
          online := JsVal.ofProp (parsed.get? "online")
          lastFetchError := loadFetchError (parsed.get? "lastFetchError")
          packages := packagesOf (parsed.get? "packages") }
    else none

/-! ## Saving -/

def DriftLocation.toJson (l : DriftLocation) : Json :=
  .obj [("installed", .str l.installed), ("classification", .str l.classification.text)]

def locationJson : Option DriftLocation → Json
  | some l => l.toJson
  | none => .null

def DriftPackage.toJson (p : DriftPackage) : Json :=
  .obj [("name", .str p.name), ("image", locationJson p.image), ("dataDir", locationJson p.dataDir),
    ("latest", ofStr? p.latest), ("etag", ofStr? p.etag), ("lastFetchedAt", ofStr? p.lastFetchedAt)]

def DriftFetchError.toJson (e : DriftFetchError) : Json :=
  .obj [("reason", .str e.reason.text), ("detail", .str e.detail)]

def fetchErrorJson : Option DriftFetchError → Json
  | some e => e.toJson
  | none => .null

def DriftReport.toJson (r : DriftReport) : Json :=
  .obj [("signalkImageTag", ofStr? r.signalkImageTag), ("lastScannedAt", .str r.lastScannedAt),
    ("lastSuccessfulScanAt", ofStr? r.lastSuccessfulScanAt), ("online", .bool r.online),
    ("lastFetchError", fetchErrorJson r.lastFetchError), ("packages", .arr (r.packages.map DriftPackage.toJson))]

def saveDriftReport (J : JsonCodec) (r : DriftReport) : Text := J.stringify 2 r.toJson

def DriftReport.toObj (r : DriftReport) : ReportObj where
  signalkImageTag := .json (ofStr? r.signalkImageTag)
  lastScannedAt := .json (.str r.lastScannedAt)
  lastSuccessfulScanAt := .json (ofStr? r.lastSuccessfulScanAt)
  online := .json (.bool r.online)
  lastFetchError := r.lastFetchError.map (fun e => ⟨.json (.str e.reason.text), .json (.str e.detail)⟩)
  packages := r.packages

/-! ## What a load returns -/

/-- **Every field of the loaded report has its declared type.** -/
structure ReportObj.WellTyped (r : ReportObj) : Prop where
  signalkImageTag : r.signalkImageTag = .json .null ∨ ∃ s, r.signalkImageTag = .json (.str s)
  lastScannedAt : ∃ s, r.lastScannedAt = .json (.str s)
  lastSuccessfulScanAt : r.lastSuccessfulScanAt = .json .null ∨ ∃ s, r.lastSuccessfulScanAt = .json (.str s)
  online : ∃ b, r.online = .json (.bool b)
  lastFetchError : ∀ e, r.lastFetchError = some e →
    (∃ reason : DriftFetchReason, e.reason = .json (.str reason.text)) ∧ ∃ detail, e.detail = .json (.str detail)
  packages : ∀ p ∈ r.packages, p.name ≠ ""

def knownReason (s : String) : Prop := s ∈ currentReasons ∨ s ∈ retiredReasonMap.map Prod.fst

/-- The document's `lastFetchError` is not null and its reason is none the program ever wrote. -/
def reasonUnknown (v : Json) : Prop :=
  ∃ e, v.get? "lastFetchError" = some e ∧ e ≠ .null ∧ ∀ s, e.get? "reason" = some (.str s) → ¬ knownReason s

/-- The document is a report whose `lastFetchError.reason` is a name every object inherits. -/
def reasonInherited (v : Json) : Prop :=
  isDriftReport v = true ∧ ∃ e s, v.get? "lastFetchError" = some e ∧ e.get? "reason" = some (.str s) ∧
    s ∈ objectPrototypeKeys

theorem isString_iff {v : Option Json} : isString v = true ↔ ∃ s, v = some (.str s) := by
  unfold isString
  split <;> simp_all

theorem isStringOrNull_iff {v : Option Json} : isStringOrNull v = true ↔ v = some .null ∨ ∃ s, v = some (.str s) := by
  unfold isStringOrNull
  split <;> simp_all

theorem isBoolean_iff {v : Option Json} : isBoolean v = true ↔ ∃ b, v = some (.bool b) := by
  unfold isBoolean
  split <;> simp_all

structure Accepted (v : Json) : Prop where
  signalkImageTag : v.get? "signalkImageTag" = some .null ∨ ∃ s, v.get? "signalkImageTag" = some (.str s)
  lastScannedAt : ∃ s, v.get? "lastScannedAt" = some (.str s)
  lastSuccessfulScanAt : v.get? "lastSuccessfulScanAt" = some .null ∨ ∃ s, v.get? "lastSuccessfulScanAt" = some (.str s)
  online : ∃ b, v.get? "online" = some (.bool b)
  lastFetchError : ∀ e, v.get? "lastFetchError" = some e → e ≠ .null →
    (∃ s, e.get? "reason" = some (.str s) ∧ isAcceptableReasonOnDisk (some (.str s)) = true) ∧
      ∃ d, e.get? "detail" = some (.str d)

theorem isAcceptableReasonOnDisk_str {v : Option Json} (h : isAcceptableReasonOnDisk v = true) :
    ∃ s, v = some (.str s) ∧ isAcceptableReasonOnDisk (some (.str s)) = true := by
  unfold isAcceptableReasonOnDisk at h
  split at h
  · rename_i s
    exact ⟨s, rfl, h⟩
  · cases h

theorem isDriftReport_accepted {v : Json} (h : isDriftReport v = true) : Accepted v := by
  unfold isDriftReport at h
  simp only [Bool.and_eq_true] at h
  obtain ⟨⟨⟨⟨⟨⟨-, htag⟩, hscan⟩, hsucc⟩, honline⟩, herr⟩, -⟩ := h
  refine ⟨isStringOrNull_iff.1 htag, isString_iff.1 hscan, isStringOrNull_iff.1 hsucc, isBoolean_iff.1 honline, ?_⟩
  intro e he hne
  rw [he] at herr
  simp only [isDriftFetchError, Bool.or_eq_true, decide_eq_true_eq, Bool.and_eq_true] at herr
  obtain ⟨⟨-, hreason⟩, hdetail⟩ := herr.resolve_left hne
  exact ⟨isAcceptableReasonOnDisk_str hreason, isString_iff.1 hdetail⟩

theorem isAcceptableReasonOnDisk_iff (s : String) :
    isAcceptableReasonOnDisk (some (.str s)) = true ↔ knownReason s ∨ s ∈ objectPrototypeKeys := by
  have hin := JsRecord.get?_isSome_iff retiredReasonMap s
  unfold knownReason
  rw [or_assoc, ← hin]
  simp [isAcceptableReasonOnDisk, retiredReason]

theorem rewriteReason_inherited {s : String} (h : s ∈ objectPrototypeKeys) :
    rewriteReason (.json (.str s)) = .inherited s := by
  have hall : ∀ s ∈ objectPrototypeKeys, rewriteReason (.json (.str s)) = .inherited s := by decide
  exact hall s h

theorem rewriteReason_known {s : String} (h : knownReason s) :
    ∃ reason : DriftFetchReason, rewriteReason (.json (.str s)) = .json (.str reason.text) := by
  have hall : ∀ s ∈ currentReasons ++ retiredReasonMap.map Prod.fst,
      rewriteReason (.json (.str s)) = .json (.str "unreachable") ∨
        rewriteReason (.json (.str s)) = .json (.str "runtime") := by decide
  rcases hall s (List.mem_append.2 h) with hu | hr
  · exact ⟨.unreachable, hu⟩
  · exact ⟨.runtime, hr⟩

theorem migratePackage_name {v : Json} {p : DriftPackage} (h : migratePackage v = some p) : p.name ≠ "" := by
  unfold migratePackage at h
  split at h
  · split at h
    · rename_i name _
      split at h
      · cases h
      · rename_i hlen
        cases h
        intro hname
        exact hlen (String.length_eq_zero_iff.2 hname)
    · cases h
  · cases h

theorem packagesOf_name {v : Option Json} {p : DriftPackage} (h : p ∈ packagesOf v) : p.name ≠ "" := by
  unfold packagesOf at h
  split at h
  · obtain ⟨_, _, hm⟩ := List.mem_filterMap.1 h
    exact migratePackage_name hm
  · cases h

/-- The load of a document that is no report with an inherited reason is well-typed. -/
theorem loadDriftReport_wellTyped {J : JsonCodec} {raw : Option Text} {v : Json} (hv : raw.bind J.parse = some v)
    (hin : ¬ reasonInherited v) (r : ReportObj) (hr : loadDriftReport J raw = some r) : r.WellTyped := by
  simp only [loadDriftReport, hv] at hr
  split at hr
  · rename_i hacc
    cases hr
    have ha := isDriftReport_accepted hacc
    refine ⟨?_, ?_, ?_, ?_, ?_, fun p hp => packagesOf_name hp⟩
    · rcases ha.signalkImageTag with h | ⟨s, h⟩ <;> simp [h, JsVal.ofProp]
    · obtain ⟨s, h⟩ := ha.lastScannedAt
      exact ⟨s, by simp [h, JsVal.ofProp]⟩
    · rcases ha.lastSuccessfulScanAt with h | ⟨s, h⟩ <;> simp [h, JsVal.ofProp]
    · obtain ⟨b, h⟩ := ha.online
      exact ⟨b, by simp [h, JsVal.ofProp]⟩
    · intro e he
      simp only [loadFetchError] at he
      split at he
      · cases he
      · cases he
      · rename_i e' hne' he'
        cases he
        obtain ⟨⟨s, hs, hacc'⟩, d, hd⟩ := ha.lastFetchError e' he' hne'
        refine ⟨?_, d, by simp [hd, JsVal.ofProp]⟩
        rw [hs]
        have hknown : knownReason s :=
          ((isAcceptableReasonOnDisk_iff s).1 hacc').resolve_right (fun hp => hin ⟨hacc, e', s, he', hs, hp⟩)
        exact rewriteReason_known hknown
  · cases hr

/-- A document with an unknown reason that is no name every object inherits is refused. -/
theorem loadDriftReport_unknown {J : JsonCodec} {raw : Option Text} {v : Json} (hv : raw.bind J.parse = some v)
    (hin : ¬ reasonInherited v) (hu : reasonUnknown v) : loadDriftReport J raw = none := by
  simp only [loadDriftReport, hv]
  split
  · rename_i hacc
    obtain ⟨e, he, hne, hnot⟩ := hu
    obtain ⟨⟨s, hs, hacc'⟩, -⟩ := (isDriftReport_accepted hacc).lastFetchError e he hne
    rcases (isAcceptableReasonOnDisk_iff s).1 hacc' with hk | hp
    · exact absurd hk (hnot s hs)
    · exact absurd ⟨hacc, e, s, he, hs, hp⟩ hin
  · rfl

/-- **The load returns a well-typed report or null, and null for an unknown reason, exactly when the file is no report
whose reason is a name every object inherits.** -/
theorem loadDriftReport_wellTyped_iff (J : JsonCodec) (raw : Option Text) :
    ((∀ r, loadDriftReport J raw = some r → r.WellTyped) ∧
        ∀ v, raw.bind J.parse = some v → reasonUnknown v → loadDriftReport J raw = none) ↔
      ∀ v, raw.bind J.parse = some v → ¬ reasonInherited v := by
  constructor
  · rintro ⟨htyped, -⟩ v hv ⟨hacc, e, s, he, hs, hp⟩
    have hne : e ≠ .null := fun h => by rw [h] at hs; cases hs
    have hload : loadFetchError (some e) = some ⟨.inherited s, JsVal.ofProp (e.get? "detail")⟩ := by
      unfold loadFetchError
      split
      · rename_i heq; cases heq
      · rename_i heq; cases heq; exact absurd rfl hne
      · rename_i heq
        cases heq
        rw [hs]
        exact congrArg (fun r => some (StoredError.mk r _)) (rewriteReason_inherited hp)
    have hr : ∃ r, loadDriftReport J raw = some r ∧
        r.lastFetchError = some ⟨.inherited s, JsVal.ofProp (e.get? "detail")⟩ := by
      simp only [loadDriftReport, hv, hacc, if_true, he]
      exact ⟨_, rfl, hload⟩
    obtain ⟨r, hr, herr⟩ := hr
    obtain ⟨⟨reason, hreason⟩, -⟩ := (htyped r hr).lastFetchError _ herr
    cases hreason
  · intro hin
    constructor
    · intro r hr
      cases hv : raw.bind J.parse with
      | none => simp [loadDriftReport, hv] at hr
      | some v => exact loadDriftReport_wellTyped hv (hin v hv) r hr
    · intro v hv hu
      exact loadDriftReport_unknown hv (hin v hv) hu

/-- A report a hand edit has given the reason `constructor`. -/
def editedReport : Json :=
  .obj [("signalkImageTag", .null), ("lastScannedAt", .str "2026-05-24T00:00:00.000Z"), ("lastSuccessfulScanAt", .null),
    ("online", .bool false), ("lastFetchError", .obj [("reason", .str "constructor"), ("detail", .str "x")]),
    ("packages", .arr [])]

/-- The load of `editedReport` keeps the report, its reason the inherited `Object` function. -/
theorem loadDriftReport_edited :
    ¬ ∀ (J : JsonCodec) (raw : Option Text), (∀ r, loadDriftReport J raw = some r → r.WellTyped) ∧
      ∀ v, raw.bind J.parse = some v → reasonUnknown v → loadDriftReport J raw = none := by
  intro h
  have hparse : (some (jsonText.stringify 2 editedReport)).bind jsonText.parse = some editedReport :=
    jsonText.parse_stringify_self 2 editedReport (by decide)
  have hload : loadDriftReport jsonText (some (jsonText.stringify 2 editedReport)) =
      some ⟨.json .null, .json (.str "2026-05-24T00:00:00.000Z"), .json .null, .json (.bool false),
        some ⟨.inherited "constructor", .json (.str "x")⟩, []⟩ := by
    simp only [loadDriftReport, hparse]
    decide
  obtain ⟨⟨reason, hreason⟩, -⟩ := ((h jsonText _).1 _ hload).lastFetchError _ rfl
  cases hreason

/-! ## A saved report -/

@[simp] theorem wf_locationJson (l : Option DriftLocation) : (locationJson l).wf = true := by
  cases l with
  | none => rfl
  | some l =>
    simp only [locationJson, DriftLocation.toJson, Json.wf, Json.wfFields, Bool.and_true, List.map_cons, List.map_nil]
    decide

@[simp] theorem DriftPackage.wf_toJson (p : DriftPackage) : p.toJson.wf = true := by
  simp only [DriftPackage.toJson, Json.wf, Json.wfFields, wf_locationJson, Json.wf_ofStr?, Bool.and_true, List.map_cons,
    List.map_nil]
  decide

theorem wf_fetchErrorJson (e : Option DriftFetchError) : (fetchErrorJson e).wf = true := by
  cases e with
  | none => rfl
  | some e =>
    simp only [fetchErrorJson, DriftFetchError.toJson, Json.wf, Json.wfFields, Bool.and_true, List.map_cons, List.map_nil]
    decide

theorem DriftReport.wf_toJson (r : DriftReport) : r.toJson.wf = true := by
  have hp : Json.wfList (r.packages.map DriftPackage.toJson) = true := by
    rw [Json.wfList_eq, List.all_eq_true]
    intro v hv
    obtain ⟨p, -, rfl⟩ := List.mem_map.1 hv
    exact p.wf_toJson
  simp only [DriftReport.toJson, Json.wf, Json.wfFields, wf_fetchErrorJson, hp, Json.wf_ofStr?, Bool.and_true,
    List.map_cons, List.map_nil]
  decide

theorem asClassification_text (c : DriftClassification) : asClassification (some (.str c.text)) = c := by
  cases c <;> rfl

theorem asLocation_locationJson (l : Option DriftLocation) : asLocation (some (locationJson l)) = l := by
  cases l with
  | none => rfl
  | some l => exact congrArg (fun c => some (DriftLocation.mk l.installed c)) (asClassification_text l.classification)

theorem migratePackage_toJson {p : DriftPackage} (h : p.name ≠ "") : migratePackage p.toJson = some p := by
  have hlen : ¬ p.name.length = 0 := fun h0 => h (String.length_eq_zero_iff.1 h0)
  have himage := asLocation_locationJson p.image
  have hdataDir := asLocation_locationJson p.dataDir
  simp [migratePackage, DriftPackage.toJson, isObject, isString, Json.get?, hlen, himage, hdataDir]

theorem isDriftReport_toJson (r : DriftReport) : isDriftReport r.toJson = true := by
  obtain ⟨tag, scanned, succ, online, err, pkgs⟩ := r
  have hnull : ∀ s : Option String, isStringOrNull (some (ofStr? s)) = true := fun s => by cases s <;> rfl
  have herr : isDriftFetchError (fetchErrorJson err) = true := by
    rcases err with - | ⟨reason, detail⟩
    · rfl
    · cases reason <;> rfl
  simp [isDriftReport, DriftReport.toJson, isObject, Json.get?, hnull, isString, isBoolean, isArray, herr]

theorem loadFetchError_fetchErrorJson (e : Option DriftFetchError) :
    loadFetchError (some (fetchErrorJson e)) = e.map (fun e => ⟨.json (.str e.reason.text), .json (.str e.detail)⟩) := by
  rcases e with - | ⟨reason, detail⟩
  · rfl
  · cases reason <;> rfl

theorem filterMap_migratePackage : ∀ pkgs : List DriftPackage, (∀ p ∈ pkgs, p.name ≠ "") →
    (pkgs.map DriftPackage.toJson).filterMap migratePackage = pkgs
  | [], _ => rfl
  | p :: ps, h => by
    rw [List.map_cons, List.filterMap_cons, migratePackage_toJson (h p (List.mem_cons_self ..))]
    simp only
    rw [filterMap_migratePackage ps (fun q hq => h q (List.mem_cons_of_mem _ hq))]

/-- **A saved report with named packages loads as it was.** -/
theorem loadDriftReport_save (J : JsonCodec) (r : DriftReport) (h : ∀ p ∈ r.packages, p.name ≠ "") :
    loadDriftReport J (some (saveDriftReport J r)) = some r.toObj := by
  have hparse : (some (saveDriftReport J r)).bind J.parse = some r.toJson := J.parse_stringify_self 2 _ r.wf_toJson
  have hpkgs : packagesOf (r.toJson.get? "packages") = r.packages := filterMap_migratePackage r.packages h
  have herr := loadFetchError_fetchErrorJson r.lastFetchError
  simp only [loadDriftReport, hparse, isDriftReport_toJson, if_true, hpkgs]
  simp [DriftReport.toObj, DriftReport.toJson, Json.get?, JsVal.ofProp, herr]

end Drift
end SignalkDoctor
