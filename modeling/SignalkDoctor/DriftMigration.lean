import Mathlib.Data.List.Forall2
import SignalkDoctor.DriftStore
/-!
# DriftMigration — a report of an earlier generation (`src/drift/store.ts`)

A stored report may stem from any earlier release: without `lastFetchError`, with a reason since retired, each package
entry in the single-version or in the two-location shape.  `Written` says what such a document is, `Migrated` what
becomes of an entry.  `loadDriftReport_migrates` puts the two uses of the loader together: it is the inverse of the
writer on the reports of today, and on an earlier document it keeps what is still meaningful.
-/
namespace SignalkDoctor
namespace Drift

open JsRecord (objectPrototypeKeys)

/-- An entry of the single-version generation. -/
def Legacy (v : Json) : Prop := ∃ installed, v.get? "installed" = some (.str installed)

/-- A location as the two-location generation writes it, if it has a string `installed` at all. -/
def LocationWritten (v : Option Json) : Prop :=
  ∀ l installed, v = some l → l.get? "installed" = some (.str installed) →
    ∃ c : DriftClassification, l.get? "classification" = some (.str c.text)

/-- **A document some generation of the program has written**, `items` its package entries. -/
structure Written (v : Json) (items : List Json) : Prop where
  signalkImageTag : v.get? "signalkImageTag" = some .null ∨ ∃ s, v.get? "signalkImageTag" = some (.str s)
  lastScannedAt : ∃ s, v.get? "lastScannedAt" = some (.str s)
  lastSuccessfulScanAt : v.get? "lastSuccessfulScanAt" = some .null ∨ ∃ s, v.get? "lastSuccessfulScanAt" = some (.str s)
  online : ∃ b, v.get? "online" = some (.bool b)
  lastFetchError : ∀ e, v.get? "lastFetchError" = some e → e = .null ∨
    ∃ s d, e.get? "reason" = some (.str s) ∧ knownReason s ∧ e.get? "detail" = some (.str d)
  packages : v.get? "packages" = some (.arr items)
  entries : ∀ item ∈ items, Legacy item ∨ LocationWritten (item.get? "image") ∧ LocationWritten (item.get? "dataDir")

def isNamed (v : Json) : Bool :=
  match v.get? "name" with
  | some (.str name) => name != ""
  | _ => false

/-- The string is the property's, and missing where the property is no string. -/
def KeptString (v : Option Json) (s : Option String) : Prop := ∀ t, s = some t ↔ v = some (.str t)

/-- The location is the one on disk, and missing only where none with a string `installed` is there. -/
def KeptLocation (v : Option Json) (l : Option DriftLocation) : Prop :=
  (∀ installed c, l = some ⟨installed, c⟩ ↔ ∃ w, v = some w ∧ w.get? "installed" = some (.str installed) ∧
    w.get? "classification" = some (.str c.text)) ∧
  (l = none ↔ ∀ w installed, v = some w → w.get? "installed" ≠ some (.str installed))

/-- **What becomes of a named entry.** -/
structure Migrated (v : Json) (p : DriftPackage) : Prop where
  name : v.get? "name" = some (.str p.name)
  latest : KeptString (v.get? "latest") p.latest
  etag : KeptString (v.get? "etag") p.etag
  lastFetchedAt : KeptString (v.get? "lastFetchedAt") p.lastFetchedAt
  legacy : Legacy v → p.image = none ∧ p.dataDir = none
  current : ¬ Legacy v → KeptLocation (v.get? "image") p.image ∧ KeptLocation (v.get? "dataDir") p.dataDir

/-! ## An entry -/

theorem keptString_strOrNull (v : Option Json) : KeptString v (Json.strOrNull v) := by
  intro t
  unfold Json.strOrNull
  split <;> simp_all

theorem legacy_iff {v : Json} : isString (v.get? "installed") = true ↔ Legacy v := isString_iff

theorem isObject_of_get? {v w : Json} {k : String} (h : v.get? k = some w) : isObject v = true := by
  cases v with
  | obj fields => rfl
  | _ => simp [Json.get?] at h

theorem DriftClassification.text_inj {c d : DriftClassification} (h : c.text = d.text) : c = d := by
  have hc := asClassification_text c
  rw [h, asClassification_text] at hc
  exact hc.symm

/-- A location in the current shape is read as it stands. -/
theorem keptLocation_asLocation {v : Option Json} (h : LocationWritten v) : KeptLocation v (asLocation v) := by
  cases hv : v with
  | none => exact ⟨fun installed c => by simp [asLocation], by simp [asLocation]⟩
  | some w =>
    by_cases hi : ∃ installed, w.get? "installed" = some (.str installed)
    · obtain ⟨installed, hi⟩ := hi
      obtain ⟨c, hc⟩ := h w installed hv hi
      have hread : asLocation (some w) = some ⟨installed, c⟩ := by
        simp only [asLocation, isObject_of_get? hi, if_true, hi, hc, asClassification_text]
      rw [hread]
      refine ⟨fun installed' c' => ⟨fun heq => ?_, fun ⟨w', hw', hi', hc'⟩ => ?_⟩, ⟨fun heq => (by cases heq), fun hno => ?_⟩⟩
      · cases heq
        exact ⟨w, rfl, hi, hc⟩
      · cases hw'
        rw [hi] at hi'
        rw [hc] at hc'
        cases hi'
        rw [DriftClassification.text_inj (Json.str.inj (Option.some.inj hc'))]
      · exact absurd hi (hno w installed rfl)
    · have hread : asLocation (some w) = none := by
        unfold asLocation
        simp only
        split
        · split
          · rename_i installed heq
            exact absurd ⟨installed, heq⟩ hi
          · rfl
        · rfl
      rw [hread]
      refine ⟨fun installed c => ⟨fun heq => (by cases heq), fun ⟨w', hw', hi', _⟩ => ?_⟩, ⟨fun _ w' installed hw' hi' => ?_, fun _ => rfl⟩⟩
      · cases hw'
        exact absurd ⟨installed, hi'⟩ hi
      · cases hw'
        exact hi ⟨installed, hi'⟩

theorem migratePackage_unnamed {v : Json} (h : isNamed v = false) : migratePackage v = none := by
  unfold isNamed at h
  unfold migratePackage
  split
  · split
    · rename_i name hname
      simp only [hname, bne_eq_false_iff_eq] at h
      subst h
      rfl
    · rfl
  · rfl

/-- **A named entry of either shape becomes the package that keeps what it holds.** -/
theorem migratePackage_migrated {v : Json} (hn : isNamed v = true)
    (hv : Legacy v ∨ LocationWritten (v.get? "image") ∧ LocationWritten (v.get? "dataDir")) :
    ∃ p, migratePackage v = some p ∧ Migrated v p := by
  unfold isNamed at hn
  split at hn
  · rename_i name hname
    have hlen : ¬ name.length = 0 := fun h0 => by simp [String.length_eq_zero_iff.1 h0] at hn
    by_cases hl : Legacy v
    · refine ⟨⟨name, none, none, _, _, _⟩, ?_, ⟨hname, keptString_strOrNull _, keptString_strOrNull _,
        keptString_strOrNull _, fun _ => ⟨rfl, rfl⟩, fun hnl => absurd hl hnl⟩⟩
      simp only [migratePackage, isObject_of_get? hname, if_true, hname, hlen, if_false, legacy_iff.2 hl]
      rfl
    · obtain ⟨himage, hdataDir⟩ := hv.resolve_left hl
      have hnl : isString (v.get? "installed") = false := by
        rw [← Bool.not_eq_true, legacy_iff]
        exact hl
      refine ⟨⟨name, asLocation (v.get? "image"), asLocation (v.get? "dataDir"), _, _, _⟩, ?_, ⟨hname,
        keptString_strOrNull _, keptString_strOrNull _, keptString_strOrNull _, fun hl' => absurd hl' hl,
        fun _ => ⟨keptLocation_asLocation himage, keptLocation_asLocation hdataDir⟩⟩⟩
      simp only [migratePackage, isObject_of_get? hname, if_true, hname, hlen, if_false, hnl, Bool.false_eq_true]
      rfl
  · cases hn

theorem filterMap_migrated : ∀ items : List Json,
    (∀ item ∈ items, Legacy item ∨ LocationWritten (item.get? "image") ∧ LocationWritten (item.get? "dataDir")) →
      List.Forall₂ Migrated (items.filter isNamed) (items.filterMap migratePackage)
  | [], _ => .nil
  | v :: vs, h => by
    have ih := filterMap_migrated vs (fun w hw => h w (List.mem_cons_of_mem _ hw))
    cases hn : isNamed v with
    | false => rwa [List.filter_cons_of_neg (by simp [hn]), List.filterMap_cons_none (migratePackage_unnamed hn)]
    | true =>
      obtain ⟨p, hp, hm⟩ := migratePackage_migrated hn (h v (List.mem_cons_self ..))
      rw [List.filter_cons_of_pos hn, List.filterMap_cons_some hp]
      exact .cons hm ih

/-! ## The document -/

theorem rewriteReason_unreachable {s : String} (h : s ∈ ["unreachable", "network", "no-token", "auth", "http"]) :
    rewriteReason (.json (.str s)) = .json (.str DriftFetchReason.unreachable.text) := by
  have hall : ∀ s ∈ ["unreachable", "network", "no-token", "auth", "http"],
      rewriteReason (.json (.str s)) = .json (.str DriftFetchReason.unreachable.text) := by decide
  exact hall s h

theorem rewriteReason_runtime {s : String} (h : s ∈ ["runtime", "not-found", "bad-payload"]) :
    rewriteReason (.json (.str s)) = .json (.str DriftFetchReason.runtime.text) := by
  have hall : ∀ s ∈ ["runtime", "not-found", "bad-payload"],
      rewriteReason (.json (.str s)) = .json (.str DriftFetchReason.runtime.text) := by decide
  exact hall s h

theorem isDriftReport_written {v : Json} {items : List Json} (h : Written v items) : isDriftReport v = true := by
  obtain ⟨s, hscan⟩ := h.lastScannedAt
  have hpkgs : isArray (v.get? "packages") = true := by rw [h.packages]; rfl
  simp only [isDriftReport, isObject_of_get? hscan, isStringOrNull_iff.2 h.signalkImageTag,
    isString_iff.2 h.lastScannedAt, isStringOrNull_iff.2 h.lastSuccessfulScanAt, isBoolean_iff.2 h.online, hpkgs,
    Bool.and_true, Bool.true_and]
  cases he : v.get? "lastFetchError" with
  | none => rfl
  | some e =>
    rcases h.lastFetchError e he with rfl | ⟨s, d, hr, hk, hd⟩
    · rfl
    · have hacc := (isAcceptableReasonOnDisk_iff s).2 (.inl hk)
      simp [isDriftFetchError, isObject_of_get? hr, hr, hd, hacc, isString]

/-- What the load makes of the document's `lastFetchError`. -/
def ErrorCarried (v : Json) (r : ReportObj) : Prop :=
  (v.get? "lastFetchError" = none ∨ v.get? "lastFetchError" = some .null → r.lastFetchError = none) ∧
  ∀ e s d, v.get? "lastFetchError" = some e → e.get? "reason" = some (.str s) → e.get? "detail" = some (.str d) →
    (s ∈ ["unreachable", "network", "no-token", "auth", "http"] →
      r.lastFetchError = some ⟨.json (.str DriftFetchReason.unreachable.text), .json (.str d)⟩) ∧
    (s ∈ ["runtime", "not-found", "bad-payload"] →
      r.lastFetchError = some ⟨.json (.str DriftFetchReason.runtime.text), .json (.str d)⟩)

theorem errorCarried_load {v : Json} {r : ReportObj} (hr : r.lastFetchError = loadFetchError (v.get? "lastFetchError")) :
    ErrorCarried v r := by
  constructor
  · rintro (h | h) <;> rw [hr, h] <;> rfl
  · intro e s d he hs hd
    have hload : r.lastFetchError = some ⟨rewriteReason (.json (.str s)), .json (.str d)⟩ := by
      rw [hr, he]
      unfold loadFetchError
      split
      · rename_i h; cases h
      · rename_i h; cases h; simp [Json.get?] at hs
      · rename_i h; cases h; simp [hs, hd, JsVal.ofProp]
    exact ⟨fun h => by rw [hload, rewriteReason_unreachable h], fun h => by rw [hload, rewriteReason_runtime h]⟩

/-- **The loader is the inverse of the writer, and a migration of every earlier document.** -/
theorem loadDriftReport_migrates (J : JsonCodec) :
    (∀ r : DriftReport, (∀ p ∈ r.packages, p.name ≠ "") → loadDriftReport J (some (saveDriftReport J r)) = some r.toObj) ∧
    ∀ raw v items, J.parse raw = some v → Written v items → ∃ r, loadDriftReport J (some raw) = some r ∧
      r.WellTyped ∧ ErrorCarried v r ∧ List.Forall₂ Migrated (items.filter isNamed) r.packages := by
  refine ⟨fun r h => loadDriftReport_save J r h, fun raw v items hv hw => ?_⟩
  have hacc := isDriftReport_written hw
  have hin : ¬ reasonInherited v := by
    rintro ⟨-, e, s, he, hs, hp⟩
    rcases hw.lastFetchError e he with rfl | ⟨s', d, hs', hk, -⟩
    · simp [Json.get?] at hs
    · rw [hs, Option.some.injEq, Json.str.injEq] at hs'
      subst hs'
      have hall : ∀ s ∈ objectPrototypeKeys, ¬ (s ∈ currentReasons ∨ s ∈ retiredReasonMap.map Prod.fst) := by decide
      exact hall s hp hk
  obtain ⟨r, hr, herr, hpkgs⟩ : ∃ r, loadDriftReport J (some raw) = some r ∧
      r.lastFetchError = loadFetchError (v.get? "lastFetchError") ∧ r.packages = items.filterMap migratePackage := by
    simp only [loadDriftReport, Option.bind_some, hv, hacc, if_true]
    exact ⟨_, rfl, rfl, by rw [hw.packages]; rfl⟩
  refine ⟨r, hr, loadDriftReport_wellTyped (v := v) (by simpa using hv) hin r hr, errorCarried_load herr, ?_⟩
  rw [hpkgs]
  exact filterMap_migrated items hw.entries

/-- A report of the HTTP era with an entry of each shape and one without a name. -/
def httpEraReport : Json :=
  .obj [("signalkImageTag", .null), ("lastScannedAt", .str "2026-05-24T00:00:00.000Z"), ("lastSuccessfulScanAt", .null),
    ("online", .bool false), ("lastFetchError", .obj [("reason", .str "bad-payload"), ("detail", .str "HTTP 502")]),
    ("packages", .arr
      [.obj [("name", .str "@signalk/streams"), ("installed", .str "4.0.0"), ("latest", .str "4.1.0"), ("etag", .null)],
        .obj [("latest", .str "1.0.0")],
        .obj [("name", .str "@canboat/ts-pgns"), ("dataDir", .obj [("installed", .str "1.11.18"),
          ("classification", .str "minor")]), ("image", .null), ("latest", .str "1.12.0")]])]

theorem loadDriftReport_migrates_httpEra :
    ∃ r, loadDriftReport jsonText (some (jsonText.stringify 2 httpEraReport)) = some r ∧ r.WellTyped ∧
      ErrorCarried httpEraReport r ∧ ∃ items, Written httpEraReport items ∧
        List.Forall₂ Migrated (items.filter isNamed) r.packages := by
  have hw : Written httpEraReport _ := {
    signalkImageTag := .inl rfl
    lastScannedAt := ⟨_, rfl⟩
    lastSuccessfulScanAt := .inl rfl
    online := ⟨_, rfl⟩
    lastFetchError := fun e he => by
      cases he
      exact .inr ⟨_, _, rfl, .inr (by decide), rfl⟩
    packages := rfl
    entries := fun item hm => by
      simp only [List.mem_cons, List.not_mem_nil, or_false] at hm
      rcases hm with rfl | rfl | rfl
      · exact .inl ⟨_, rfl⟩
      · exact .inr ⟨fun _ _ h => (by cases h), fun _ _ h => (by cases h)⟩
      · refine .inr ⟨fun l _ hl hi => ?_, fun l _ hl _ => ?_⟩
        · cases hl
          cases hi
        · cases hl
          exact ⟨.minor, rfl⟩ }
  obtain ⟨r, hr, htyped, herr, hpkgs⟩ := (loadDriftReport_migrates jsonText).2 _ httpEraReport _
    (jsonText.parse_stringify_self 2 httpEraReport (by decide)) hw
  exact ⟨r, hr, htyped, herr, _, hw, hpkgs⟩

end Drift
end SignalkDoctor
