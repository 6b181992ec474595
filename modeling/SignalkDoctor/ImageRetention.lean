import Mathlib.Data.Set.Card
import SignalkDoctor.Collation
import SignalkDoctor.Double
import SignalkDoctor.Json
import SignalkDoctor.TagClassifier
/-!
# ImageRetention — the old images of a repository (`src/image-retention.ts`)

`pruneOldImagesFor` collects the repository's tags from the image listing, protects the ids of the running image and of
the rolling tags, then the newest `keep` other semver ids, and removes every tag whose id is not protected.
`pruneOldImagesFor_retains` says which tags are kept, removed and skipped, and which removals are asked for.
-/
namespace SignalkDoctor
namespace ImageRetention

open Comparator (Lawful sort)
open Tags (IsPrerelease isSemverTag compareSemver)

/-! ## The listing -/

structure ImageInfo where
  Id : String
  RepoTags : List String
  Created : Int
  deriving DecidableEq, Repr

/-- `RepoTags`: a missing one or a `null` is none, as an empty array is. -/
def repoTags : Option Json → Option (List String)
  | none => some []
  | some .null => some []
  | some (.arr items) => items.mapM (fun item => match item with | .str s => some s | _ => none)
  | some _ => none

/-- `isImageInfo` -/
def imageInfo (value : Json) : Option ImageInfo :=
  match value.get? "Id", value.get? "Created", repoTags (value.get? "RepoTags") with
  | some (.str id), some (.num created), some tags => some ⟨id, tags, created⟩
  | _, _, _ => none

/-- The well-formed rows of a listing. -/
def imagesOf : Json → List ImageInfo
  | .arr rows => rows.filterMap imageInfo
  | _ => []

def inspectImageId (value : Json) : Option String :=
  match value.get? "Image" with
  | some (.str image) => if image ≠ "" then some image else none
  | _ => none

structure TaggedImage where
  repoTag : String
  tag : String
  id : String
  created : Int
  deriving DecidableEq, Repr

/-- What stands before and after the last colon. -/
def splitLastColon (s : String) : Option (String × String) :=
  match s.toList.reverse.dropWhile (fun c => c ≠ ':') with
  | [] => none
  | _ :: repo => some (String.ofList repo.reverse, String.ofList (s.toList.reverse.takeWhile (fun c => c ≠ ':')).reverse)

/-- `repoPrefix.replace(/^ghcr\.io\//, '')` -/
def bareRepo (repoPrefix : String) : String :=
  if "ghcr.io/".toList <+: repoPrefix.toList then String.ofList (repoPrefix.toList.drop 8) else repoPrefix

def repoMatches (repo repoPrefix : String) : Bool :=
  repo == repoPrefix || repo == bareRepo repoPrefix || repo == "ghcr.io/" ++ bareRepo repoPrefix

def taggedImage (repoPrefix : String) (img : ImageInfo) (repoTag : String) : Option TaggedImage :=
  match splitLastColon repoTag with
  | none => none
  | some (repo, tag) =>
    if tag = "<none>" ∨ repo = "<none>" then none
    else if repoMatches repo repoPrefix then some ⟨repoTag, tag, img.Id, img.Created⟩
    else none

/-- The repository's tags, in listing order. -/
def taggedImages (repoPrefix : String) (images : List ImageInfo) : List TaggedImage :=
  images.flatMap (fun img => img.RepoTags.filterMap (taggedImage repoPrefix img))

/-! ## The retention -/

def isSafeInteger : JsNumber → Bool
  | .finite q => q.isInt && decide (q.num.natAbs < 2 ^ 53)
  | _ => false

structure RetentionOptions where
  keep : Option JsNumber
  protectTags : List String
  deriving DecidableEq

/-- `keep`, 1 where there is none or it is no count. -/
def RetentionOptions.keepCount (opts : RetentionOptions) : Nat :=
  match opts.keep with
  | some (.finite keep) => if !isSafeInteger (.finite keep) || keep < 0 then 1 else keep.num.toNat
  | _ => 1

def RetentionOptions.rollingTags (opts : RetentionOptions) : List String := "latest" :: "dirkwa" :: opts.protectTags

structure RetentionResult where
  removed : List String
  kept : List String
  skipped : List String
  deriving DecidableEq, Repr

/-- `getImage(ref).remove({ force })` -/
structure RemoveCall where
  ref : String
  force : Bool
  deriving DecidableEq, Repr

/-- The walk over the semver tags, newest first: the ids protected after it. -/
def keepNewest (keep : Nat) : List TaggedImage → Nat → List String → List String
  | [], _, ids => ids
  | t :: ts, kept, ids =>
    if keep ≤ kept then ids
    else if t.id ∈ ids then keepNewest keep ts kept ids
    else keepNewest keep ts (kept + 1) (ids ++ [t.id])

/-- One turn of the loop that removes. -/
def removeTag (ids : List String) (removes : String → Bool) (acc : RetentionResult × List RemoveCall) (t : TaggedImage) :
    RetentionResult × List RemoveCall :=
  if t.id ∈ ids then ({ acc.1 with kept := acc.1.kept ++ [t.repoTag] }, acc.2)
  else
    (if removes t.repoTag then { acc.1 with removed := acc.1.removed ++ [t.repoTag] }
      else { acc.1 with skipped := acc.1.skipped ++ [t.repoTag] },
      acc.2 ++ [⟨t.repoTag, false⟩])

/-- What a call of `pruneOldImagesFor` finds: a runtime, its listing and inspection unless they fail, and what each
removal does. -/
structure Runtime where
  available : Bool
  listed : Option Json
  inspected : Option Json
  removes : String → Bool

section
variable (localeCompare : String → String → Int)

def semverNewestFirst (tagged : List TaggedImage) : List TaggedImage :=
  sort (fun a b => compareSemver localeCompare b.tag a.tag) (tagged.filter (fun t => isSemverTag t.tag))

/-- The protected ids before the walk: the running image's and those of the rolling tags. -/
def protectedIds (opts : RetentionOptions) (inspected : Option Json) (tagged : List TaggedImage) : List String :=
  (inspected.bind inspectImageId).toList ++ (tagged.filter (fun t => opts.rollingTags.contains t.tag)).map (·.id)

/-- The result, and the removals asked for. -/
def pruneOldImagesFor (repoPrefix : String) (opts : RetentionOptions) (rt : Runtime) :
    RetentionResult × List RemoveCall :=
  let empty := (⟨[], [], []⟩, [])
  if !rt.available then empty
  else
    match rt.listed with
    | none => empty
    | some listed =>
      let tagged := taggedImages repoPrefix (imagesOf listed)
      if tagged = [] then empty
      else
        let ids := keepNewest opts.keepCount (semverNewestFirst localeCompare tagged) 0 (protectedIds opts rt.inspected tagged)
        tagged.foldl (removeTag ids rt.removes) empty

end

/-! ## What is asked of it -/

/-- A tag of the repository, its host written or not: the name and the tag stand around the last colon. -/
def OfRepo (repoPrefix repoTag tag : String) : Prop :=
  ∃ repo, repoTag = repo ++ ":" ++ tag ∧ ':' ∉ tag.toList ∧ tag ≠ "<none>" ∧ repo ≠ "<none>" ∧
    (repo = bareRepo repoPrefix ∨ repo = "ghcr.io/" ++ bareRepo repoPrefix)

def listedTags (images : List ImageInfo) : List String := images.flatMap (·.RepoTags)

/-- The tag resolves to the id. -/
def Resolves (images : List ImageInfo) (repoTag id : String) : Prop := ∃ img ∈ images, repoTag ∈ img.RepoTags ∧ img.Id = id

/-- The tag is one of the repository's, and resolves to the id. -/
def HasTag (repoPrefix : String) (images : List ImageInfo) (id repoTag tag : String) : Prop :=
  OfRepo repoPrefix repoTag tag ∧ Resolves images repoTag id

/-- The running image's id, or that of a rolling tag. -/
def Spared (repoPrefix : String) (images : List ImageInfo) (opts : RetentionOptions) (running id : String) : Prop :=
  id = running ∨ ∃ repoTag tag, HasTag repoPrefix images id repoTag tag ∧ tag ∈ opts.rollingTags

/-- **The ids that the walk is about**: those not spared that carry a semver tag. -/
def Candidates (repoPrefix : String) (images : List ImageInfo) (opts : RetentionOptions) (running : String) : Set String :=
  {id | ¬ Spared repoPrefix images opts running id ∧
    ∃ repoTag tag, HasTag repoPrefix images id repoTag tag ∧ isSemverTag tag = true}

/-- A newest semver tag of an id. -/
def NewestTag (localeCompare : String → String → Int) (repoPrefix : String) (images : List ImageInfo)
    (id tag : String) : Prop :=
  (∃ repoTag, HasTag repoPrefix images id repoTag tag) ∧ isSemverTag tag = true ∧
    ∀ repoTag' tag', HasTag repoPrefix images id repoTag' tag' → isSemverTag tag' = true →
      compareSemver localeCompare tag' tag ≤ 0

/-- **What a prune does.** -/
structure Retains (localeCompare : String → String → Int) (repoPrefix : String) (images : List ImageInfo)
    (opts : RetentionOptions) (running : String) (removes : String → Bool) (r : RetentionResult)
    (calls : List RemoveCall) : Prop where
  /-- The three lists share the repository's tags, each in listing order. -/
  partition : (r.kept ++ r.removed ++ r.skipped).Nodup ∧
    ∀ t, t ∈ r.kept ++ r.removed ++ r.skipped ↔ t ∈ listedTags images ∧ ∃ tag, OfRepo repoPrefix t tag
  in_order : r.kept.Sublist (listedTags images) ∧ r.removed.Sublist (listedTags images) ∧
    r.skipped.Sublist (listedTags images)
  own_repo : ∀ call ∈ calls, ∃ tag, OfRepo repoPrefix call.ref tag
  /-- No tag of a spared id is touched. -/
  spares : ∀ call ∈ calls, ∀ id, Resolves images call.ref id → ¬ Spared repoPrefix images opts running id
  /-- Of the candidates, `keep` are kept, and no kept one is older than one that is not. -/
  keeps : ∃ K ⊆ Candidates repoPrefix images opts running,
    (Candidates repoPrefix images opts running).Finite ∧
    K.ncard = min opts.keepCount (Candidates repoPrefix images opts running).ncard ∧
    (∀ x ∈ K, ∀ y ∈ Candidates repoPrefix images opts running, y ∉ K → ∀ a b,
      NewestTag localeCompare repoPrefix images x a → NewestTag localeCompare repoPrefix images y b →
        0 ≤ compareSemver localeCompare a b) ∧
    /- a tag is kept exactly when its id is spared or among the kept candidates, and else one removal is asked for -/
    ∀ id repoTag tag, HasTag repoPrefix images id repoTag tag →
      (repoTag ∈ r.kept ↔ Spared repoPrefix images opts running id ∨ id ∈ K) ∧
        calls.count ⟨repoTag, false⟩ = if repoTag ∈ r.kept then 0 else 1
  /-- The removals asked for, none of them forced, are in listing order, and their outcomes are what is reported. -/
  asks : (calls.map (·.ref)).Sublist (listedTags images) ∧ (∀ call ∈ calls, call.force = false) ∧
    (∀ t, t ∈ r.removed ↔ ⟨t, false⟩ ∈ calls ∧ removes t = true) ∧
      ∀ t, t ∈ r.skipped ↔ ⟨t, false⟩ ∈ calls ∧ removes t = false

/-! ## The repository's tags -/

theorem toList_colon (repo tag : String) : (repo ++ ":" ++ tag).toList = repo.toList ++ ':' :: tag.toList := by
  rw [String.toList_append, String.toList_append, List.append_assoc]
  rfl

theorem splitLastColon_eq_some_iff {s repo tag : String} :
    splitLastColon s = some (repo, tag) ↔ s = repo ++ ":" ++ tag ∧ ':' ∉ tag.toList := by
  have hspan := List.takeWhile_append_dropWhile (p := fun c => decide (c ≠ ':')) (l := s.toList.reverse)
  unfold splitLastColon
  constructor
  · intro h
    split at h
    · cases h
    · rename_i c repo' hdrop
      cases h
      have hc : c = ':' := by
        have hhead := List.head?_dropWhile_not (fun c => decide (c ≠ ':')) s.toList.reverse
        rw [hdrop] at hhead
        simpa using hhead
      subst hc
      rw [hdrop] at hspan
      constructor
      · rw [← String.toList_inj, toList_colon, String.toList_ofList, String.toList_ofList]
        have hrev := congrArg List.reverse hspan
        rw [List.reverse_reverse, List.reverse_append, List.reverse_cons, List.append_assoc] at hrev
        exact hrev.symm
      · rw [String.toList_ofList, List.mem_reverse]
        intro hmem
        have hall := List.all_eq_true.1 (List.all_takeWhile (p := fun c => decide (c ≠ ':')) (l := s.toList.reverse)) _ hmem
        exact absurd rfl (of_decide_eq_true hall)
  · rintro ⟨rfl, htag⟩
    have hrev : (repo ++ ":" ++ tag).toList.reverse = tag.toList.reverse ++ ':' :: repo.toList.reverse := by
      rw [toList_colon, List.reverse_append, List.reverse_cons, List.append_assoc]
      rfl
    have hall : ∀ c ∈ tag.toList.reverse, decide (c ≠ ':') = true := by
      intro c hc
      refine decide_eq_true (fun he => htag ?_)
      exact he ▸ List.mem_reverse.1 hc
    rw [hrev, List.dropWhile_append_of_pos hall, List.takeWhile_append_of_pos hall]
    simp

theorem repoMatches_iff {repo repoPrefix : String} :
    repoMatches repo repoPrefix = true ↔ repo = bareRepo repoPrefix ∨ repo = "ghcr.io/" ++ bareRepo repoPrefix := by
  -- the given name is one of the two forms itself
  have hform : repoPrefix = bareRepo repoPrefix ∨ repoPrefix = "ghcr.io/" ++ bareRepo repoPrefix := by
    unfold bareRepo
    split
    · rename_i hpre
      obtain ⟨rest, hrest⟩ := hpre
      right
      have hbare : (String.ofList (repoPrefix.toList.drop 8)).toList = rest := by
        rw [String.toList_ofList, ← hrest]
        exact List.drop_left' (by decide)
      rw [← String.toList_inj, String.toList_append, hbare, hrest]
    · exact .inl rfl
  simp only [repoMatches, Bool.or_eq_true, beq_iff_eq]
  constructor
  · rintro ((h | h) | h)
    · rcases hform with hf | hf
      · exact .inl (h.trans hf)
      · exact .inr (h.trans hf)
    · exact .inl h
    · exact .inr h
  · rintro (h | h)
    · exact .inl (.inr h)
    · exact .inr h

theorem taggedImage_eq_some_iff {repoPrefix repoTag : String} {img : ImageInfo} {t : TaggedImage} :
    taggedImage repoPrefix img repoTag = some t ↔
      OfRepo repoPrefix repoTag t.tag ∧ t = ⟨repoTag, t.tag, img.Id, img.Created⟩ := by
  unfold taggedImage
  constructor
  · intro h
    split at h
    · cases h
    · rename_i repo tag hsplit
      obtain ⟨hs, hcolon⟩ := splitLastColon_eq_some_iff.1 hsplit
      split at h
      · cases h
      · rename_i hnone
        split at h
        · rename_i hmatch
          cases h
          exact ⟨⟨repo, hs, hcolon, fun h => hnone (.inl h), fun h => hnone (.inr h), repoMatches_iff.1 hmatch⟩, rfl⟩
        · cases h
  · rintro ⟨⟨repo, hs, hcolon, htag, hrepo, hmatch⟩, ht⟩
    rw [splitLastColon_eq_some_iff.2 ⟨hs, hcolon⟩]
    simp only
    rw [if_neg (fun h => h.elim htag hrepo), if_pos (repoMatches_iff.2 hmatch)]
    exact congrArg some ht.symm

/-- **The tags collected are the repository's in the well-formed rows, with their ids.** -/
theorem hasTag_iff {repoPrefix : String} {images : List ImageInfo} {id repoTag tag : String} :
    HasTag repoPrefix images id repoTag tag ↔
      ∃ t ∈ taggedImages repoPrefix images, t.repoTag = repoTag ∧ t.tag = tag ∧ t.id = id := by
  simp only [taggedImages, List.mem_flatMap, List.mem_filterMap]
  constructor
  · rintro ⟨hof, img, himg, hmem, rfl⟩
    have ht : taggedImage repoPrefix img repoTag = some ⟨repoTag, tag, img.Id, img.Created⟩ :=
      taggedImage_eq_some_iff.2 ⟨hof, rfl⟩
    exact ⟨_, ⟨img, himg, repoTag, hmem, ht⟩, rfl, rfl, rfl⟩
  · rintro ⟨t, ⟨img, himg, repoTag', hmem, ht⟩, rfl, rfl, rfl⟩
    obtain ⟨hof, ht⟩ := taggedImage_eq_some_iff.1 ht
    have hname := congrArg TaggedImage.repoTag ht
    have hid := congrArg TaggedImage.id ht
    exact ⟨hname ▸ hof, img, himg, hname ▸ hmem, hid.symm⟩

theorem map_filterMap_sublist (repoPrefix : String) (img : ImageInfo) : ∀ tags : List String,
    ((tags.filterMap (taggedImage repoPrefix img)).map (·.repoTag)).Sublist tags
  | [] => List.Sublist.refl _
  | tag :: tags => by
    have ih := map_filterMap_sublist repoPrefix img tags
    rw [List.filterMap_cons]
    cases ht : taggedImage repoPrefix img tag with
    | none => exact ih.cons _
    | some t =>
      have hname : t.repoTag = tag := by rw [(taggedImage_eq_some_iff.1 ht).2]
      rw [List.map_cons, hname]
      exact ih.cons_cons _

/-- They are in listing order. -/
theorem map_taggedImages_sublist (repoPrefix : String) : ∀ images : List ImageInfo,
    ((taggedImages repoPrefix images).map (·.repoTag)).Sublist (listedTags images)
  | [] => List.Sublist.refl _
  | img :: images => by
    have ih := map_taggedImages_sublist repoPrefix images
    rw [taggedImages, List.flatMap_cons, List.map_append, listedTags, List.flatMap_cons]
    exact (map_filterMap_sublist repoPrefix img img.RepoTags).append ih

/-! ## The walk -/

/-- What a walk over `L` has added to `ids`: the first ids it meets up to `keep`, each behind no tag of an id left out. -/
structure Added (R : TaggedImage → TaggedImage → Prop) (keep kept : Nat) (L : List TaggedImage) (ids K : List String) :
    Prop where
  nodup : K.Nodup
  fresh : ∀ x ∈ K, x ∉ ids ∧ ∃ t ∈ L, t.id = x
  full : kept + K.length = keep ∨ kept + K.length ≤ keep ∧ ∀ t ∈ L, t.id ∈ ids ++ K
  newest : ∀ x ∈ K, ∀ t ∈ L, t.id ∉ ids ++ K → ∃ s ∈ L, s.id = x ∧ R s t

section
variable {R : TaggedImage → TaggedImage → Prop} {keep kept : Nat} {t : TaggedImage} {L : List TaggedImage}
  {ids K : List String}

/-- A tag of an id there already adds nothing. -/
theorem Added.skip (h : Added R keep kept L ids K) (hmem : t.id ∈ ids) : Added R keep kept (t :: L) ids K where
  nodup := h.nodup
  fresh x hx := by
    obtain ⟨hout, u, hu, hid⟩ := h.fresh x hx
    exact ⟨hout, u, List.mem_cons_of_mem _ hu, hid⟩
  full := h.full.imp_right (fun hall => ⟨hall.1, fun u hu => by
    rcases List.mem_cons.1 hu with rfl | hu
    · exact List.mem_append_left _ hmem
    · exact hall.2 u hu⟩)
  newest x hx u hu hout := by
    have huL : u ∈ L := by
      rcases List.mem_cons.1 hu with rfl | hu
      · exact absurd (List.mem_append_left _ hmem) hout
      · exact hu
    obtain ⟨s, hs, hid, hR⟩ := h.newest x hx u huL hout
    exact ⟨s, List.mem_cons_of_mem _ hs, hid, hR⟩

/-- A tag of a new id adds it, before what the rest adds. -/
theorem Added.take (h : Added R keep (kept + 1) L (ids ++ [t.id]) K) (hmem : t.id ∉ ids) (hR : ∀ u ∈ L, R t u) :
    Added R keep kept (t :: L) ids (t.id :: K) := by
  have happ : ids ++ [t.id] ++ K = ids ++ t.id :: K := by rw [List.append_assoc, List.singleton_append]
  have hfull := h.full
  rw [happ] at hfull
  refine ⟨List.nodup_cons.2 ⟨fun hK => ?_, h.nodup⟩, ?_, ?_, ?_⟩
  · exact (h.fresh _ hK).1 (List.mem_append_right _ (List.mem_singleton.2 rfl))
  · intro x hx
    rcases List.mem_cons.1 hx with rfl | hx
    · exact ⟨hmem, t, List.mem_cons_self .., rfl⟩
    · obtain ⟨hout, u, hu, hid⟩ := h.fresh x hx
      exact ⟨fun hids => hout (List.mem_append_left _ hids), u, List.mem_cons_of_mem _ hu, hid⟩
  · rw [List.length_cons]
    refine hfull.imp (fun hlen => by omega) (fun hall => ⟨by omega, fun u hu => ?_⟩)
    rcases List.mem_cons.1 hu with rfl | hu
    · exact List.mem_append_right _ (List.mem_cons_self ..)
    · exact hall.2 u hu
  · intro x hx u hu hout
    have huL : u ∈ L := by
      rcases List.mem_cons.1 hu with rfl | hu
      · exact absurd (List.mem_append_right _ (List.mem_cons_self ..)) hout
      · exact hu
    rcases List.mem_cons.1 hx with rfl | hx
    · exact ⟨t, List.mem_cons_self .., rfl, hR u huL⟩
    · obtain ⟨s, hs, hid, hsu⟩ := h.newest x hx u huL (happ ▸ hout)
      exact ⟨s, List.mem_cons_of_mem _ hs, hid, hsu⟩

end

/-- **What the walk adds to the protected ids.** -/
theorem keepNewest_spec {R : TaggedImage → TaggedImage → Prop} (keep : Nat) : ∀ (L : List TaggedImage) (kept : Nat)
    (ids : List String), L.Pairwise R → kept ≤ keep →
      ∃ K : List String, keepNewest keep L kept ids = ids ++ K ∧ Added R keep kept L ids K
  | [], kept, ids, _, hle => by
    refine ⟨[], by simp [keepNewest], List.nodup_nil, ?_, .inr ⟨hle, ?_⟩, ?_⟩ <;> simp
  | t :: L, kept, ids, hs, hle => by
    rw [List.pairwise_cons] at hs
    rw [keepNewest]
    by_cases hfull : keep ≤ kept
    · rw [if_pos hfull]
      refine ⟨[], by simp, List.nodup_nil, by simp, .inl ?_, by simp⟩
      rw [List.length_nil]
      omega
    · rw [if_neg hfull]
      by_cases hmem : t.id ∈ ids
      · rw [if_pos hmem]
        obtain ⟨K, heq, hK⟩ := keepNewest_spec keep L kept ids hs.2 hle
        exact ⟨K, heq, hK.skip hmem⟩
      · rw [if_neg hmem]
        obtain ⟨K, heq, hK⟩ := keepNewest_spec keep L (kept + 1) (ids ++ [t.id]) hs.2 (by omega)
        rw [List.append_assoc, List.singleton_append] at heq
        exact ⟨t.id :: K, heq, hK.take hmem hs.1⟩

/-! ## The removals -/

/-- The tags kept, given the ids protected after the walk. -/
def keptTags (ids : List String) (tagged : List TaggedImage) : List String :=
  (tagged.filter (fun t => decide (t.id ∈ ids))).map (·.repoTag)

/-- The tags whose removal is asked for and has the outcome. -/
def askedTags (ids : List String) (removes : String → Bool) (outcome : Bool) (tagged : List TaggedImage) : List String :=
  (tagged.filter (fun t => !decide (t.id ∈ ids) && removes t.repoTag == outcome)).map (·.repoTag)

def removeCalls (ids : List String) (tagged : List TaggedImage) : List RemoveCall :=
  (tagged.filter (fun t => !decide (t.id ∈ ids))).map (fun t => ⟨t.repoTag, false⟩)

theorem foldl_removeTag (ids : List String) (removes : String → Bool) : ∀ (ts : List TaggedImage) (r : RetentionResult)
    (calls : List RemoveCall), ts.foldl (removeTag ids removes) (r, calls) =
      (⟨r.removed ++ askedTags ids removes true ts, r.kept ++ keptTags ids ts, r.skipped ++ askedTags ids removes false ts⟩,
        calls ++ removeCalls ids ts)
  | [], r, calls => by simp [askedTags, keptTags, removeCalls]
  | t :: ts, r, calls => by
    rw [List.foldl_cons, removeTag]
    by_cases hmem : t.id ∈ ids
    · rw [if_pos hmem, foldl_removeTag ids removes ts]
      simp [askedTags, keptTags, removeCalls, hmem]
    · rw [if_neg hmem, foldl_removeTag ids removes ts]
      cases hrem : removes t.repoTag <;> simp [askedTags, keptTags, removeCalls, hmem, hrem]

/-- **A prune asks for the removal of what is not protected after the walk.** -/
theorem pruneOldImagesFor_eq (localeCompare : String → String → Int) (repoPrefix : String) (opts : RetentionOptions)
    (listed : Json) (inspected : Option Json) (removes : String → Bool) :
    let tagged := taggedImages repoPrefix (imagesOf listed)
    let ids := keepNewest opts.keepCount (semverNewestFirst localeCompare tagged) 0 (protectedIds opts inspected tagged)
    pruneOldImagesFor localeCompare repoPrefix opts ⟨true, some listed, inspected, removes⟩ =
      (⟨askedTags ids removes true tagged, keptTags ids tagged, askedTags ids removes false tagged⟩,
        removeCalls ids tagged) := by
  intro tagged ids
  unfold pruneOldImagesFor
  simp only [Bool.not_true, Bool.false_eq_true, if_false]
  by_cases hnone : taggedImages repoPrefix (imagesOf listed) = []
  · rw [if_pos hnone]
    simp only [tagged, hnone]
    rfl
  · rw [if_neg hnone, foldl_removeTag]
    rfl

section
variable {ids : List String} {removes : String → Bool} {tagged : List TaggedImage}

theorem mem_removeCalls {t : String} :
    ⟨t, false⟩ ∈ removeCalls ids tagged ↔ ∃ u ∈ tagged, u.id ∉ ids ∧ u.repoTag = t := by
  simp [removeCalls, and_assoc]

theorem mem_askedTags {outcome : Bool} {t : String} :
    t ∈ askedTags ids removes outcome tagged ↔ ⟨t, false⟩ ∈ removeCalls ids tagged ∧ removes t = outcome := by
  rw [mem_removeCalls, askedTags, List.mem_map]
  constructor
  · rintro ⟨u, hu, rfl⟩
    simp only [List.mem_filter, Bool.and_eq_true, Bool.not_eq_true', decide_eq_false_iff_not, beq_iff_eq] at hu
    exact ⟨⟨u, hu.1, hu.2.1, rfl⟩, hu.2.2⟩
  · rintro ⟨⟨u, hu, hout, rfl⟩, hrem⟩
    exact ⟨u, List.mem_filter.2 ⟨hu, by simp [hout, hrem]⟩, rfl⟩

/-- The three lists, together, are the tags. -/
theorem perm_tags : (keptTags ids tagged ++ askedTags ids removes true tagged ++ askedTags ids removes false tagged).Perm
    (tagged.map (·.repoTag)) := by
  have hout := List.filter_append_perm (fun t : TaggedImage => removes t.repoTag)
    (tagged.filter (fun t => !decide (t.id ∈ ids)))
  rw [List.filter_filter, List.filter_filter] at hout
  have hasked : (askedTags ids removes true tagged ++ askedTags ids removes false tagged).Perm
      ((tagged.filter (fun t => !decide (t.id ∈ ids))).map (·.repoTag)) := by
    rw [askedTags, askedTags, ← List.map_append]
    refine List.Perm.map _ ?_
    simpa [Bool.and_comm] using hout
  rw [List.append_assoc]
  refine (hasked.append_left _).trans ?_
  rw [keptTags, ← List.map_append]
  exact (List.filter_append_perm (fun t : TaggedImage => decide (t.id ∈ ids)) tagged).map _

variable (hnd : (tagged.map (·.repoTag)).Nodup)
include hnd

theorem mem_keptTags {t : TaggedImage} (ht : t ∈ tagged) : t.repoTag ∈ keptTags ids tagged ↔ t.id ∈ ids := by
  rw [keptTags, List.mem_map]
  constructor
  · rintro ⟨u, hu, hname⟩
    obtain ⟨hu, hid⟩ := List.mem_filter.1 hu
    rw [← List.inj_on_of_nodup_map hnd hu ht hname]
    exact of_decide_eq_true hid
  · exact fun hid => ⟨t, List.mem_filter.2 ⟨ht, decide_eq_true hid⟩, rfl⟩

/-- One removal is asked for where the tag is not kept. -/
theorem count_removeCalls {t : TaggedImage} (ht : t ∈ tagged) :
    (removeCalls ids tagged).count ⟨t.repoTag, false⟩ = if t.repoTag ∈ keptTags ids tagged then 0 else 1 := by
  have hcalls : (removeCalls ids tagged).Nodup := by
    have hout := (List.filter_sublist (l := tagged) (p := fun t => !decide (t.id ∈ ids))).map (·.repoTag) |>.nodup hnd
    refine List.Nodup.of_map (fun call : RemoveCall => call.ref) ?_
    rwa [removeCalls, List.map_map]
  by_cases hid : t.id ∈ ids
  · rw [if_pos ((mem_keptTags hnd ht).2 hid)]
    refine List.count_eq_zero_of_not_mem (fun hmem => ?_)
    obtain ⟨u, hu, hout, hname⟩ := mem_removeCalls.1 hmem
    exact hout (List.inj_on_of_nodup_map hnd hu ht hname ▸ hid)
  · rw [if_neg (fun h => hid ((mem_keptTags hnd ht).1 h))]
    exact List.count_eq_one_of_mem hcalls (mem_removeCalls.2 ⟨t, ht, hid, rfl⟩)

end

/-! ## The ids that are kept -/

section
variable {localeCompare : String → String → Int} (repoPrefix : String) (opts : RetentionOptions) (images : List ImageInfo)
  {inspected : Json} {running : String}

theorem mem_protectedIds_iff (hrunning : inspectImageId inspected = some running) (id : String) :
    id ∈ protectedIds opts (some inspected) (taggedImages repoPrefix images) ↔
      Spared repoPrefix images opts running id := by
  simp only [protectedIds, Option.bind_some, hrunning, Option.toList_some, List.singleton_append, List.mem_cons,
    List.mem_map, List.mem_filter, List.contains_iff_mem, Spared]
  refine or_congr_right ?_
  constructor
  · rintro ⟨t, ⟨ht, hroll⟩, rfl⟩
    exact ⟨t.repoTag, t.tag, hasTag_iff.2 ⟨t, ht, rfl, rfl, rfl⟩, hroll⟩
  · rintro ⟨repoTag, tag, hhas, hroll⟩
    obtain ⟨t, ht, rfl, rfl, rfl⟩ := hasTag_iff.1 hhas
    exact ⟨t, ⟨ht, hroll⟩, rfl⟩

theorem mem_semverNewestFirst {tagged : List TaggedImage} {t : TaggedImage} :
    t ∈ semverNewestFirst localeCompare tagged ↔ t ∈ tagged ∧ isSemverTag t.tag = true := by
  rw [semverNewestFirst, Comparator.mem_sort, List.mem_filter]

/-- No tag of the walk is older than one behind it. -/
theorem pairwise_semverNewestFirst (hlc : Lawful IsPrerelease localeCompare) (tagged : List TaggedImage) :
    (semverNewestFirst localeCompare tagged).Pairwise (fun s t => compareSemver localeCompare t.tag s.tag ≤ 0) :=
  Comparator.pairwise_sort ((Tags.lawful_compareSemver hlc).swap.comap TaggedImage.tag)
    (fun _ ht => (List.mem_filter.1 ht).2)

variable (localeCompare) in
theorem mem_candidates_iff (hrunning : inspectImageId inspected = some running) (id : String) :
    id ∈ Candidates repoPrefix images opts running ↔
      id ∉ protectedIds opts (some inspected) (taggedImages repoPrefix images) ∧
        ∃ t ∈ semverNewestFirst localeCompare (taggedImages repoPrefix images), t.id = id := by
  rw [mem_protectedIds_iff repoPrefix opts images hrunning, Candidates, Set.mem_ofPred_eq]
  refine and_congr_right (fun _ => ?_)
  constructor
  · rintro ⟨repoTag, tag, hhas, hsemver⟩
    obtain ⟨t, ht, -, rfl, hid⟩ := hasTag_iff.1 hhas
    exact ⟨t, mem_semverNewestFirst.2 ⟨ht, hsemver⟩, hid⟩
  · rintro ⟨t, ht, rfl⟩
    obtain ⟨ht, hsemver⟩ := mem_semverNewestFirst.1 ht
    exact ⟨t.repoTag, t.tag, hasTag_iff.2 ⟨t, ht, rfl, rfl, rfl⟩, hsemver⟩

theorem candidates_finite (running : String) : (Candidates repoPrefix images opts running).Finite := by
  refine ((taggedImages repoPrefix images).map (·.id)).toFinset.finite_toSet.subset (fun id hid => ?_)
  obtain ⟨-, repoTag, tag, hhas, -⟩ := hid
  obtain ⟨t, ht, -, -, rfl⟩ := hasTag_iff.1 hhas
  simpa using ⟨t, ht, rfl⟩

/-- **The walk keeps the newest candidates.** -/
theorem keepNewest_candidates (hlc : Lawful IsPrerelease localeCompare) (hrunning : inspectImageId inspected = some running) :
    ∃ K : List String,
      keepNewest opts.keepCount (semverNewestFirst localeCompare (taggedImages repoPrefix images)) 0
          (protectedIds opts (some inspected) (taggedImages repoPrefix images)) =
        protectedIds opts (some inspected) (taggedImages repoPrefix images) ++ K ∧
      {x | x ∈ K} ⊆ Candidates repoPrefix images opts running ∧
      {x | x ∈ K}.ncard = min opts.keepCount (Candidates repoPrefix images opts running).ncard ∧
      ∀ x ∈ K, ∀ y ∈ Candidates repoPrefix images opts running, y ∉ K → ∀ a b,
        NewestTag localeCompare repoPrefix images x a → NewestTag localeCompare repoPrefix images y b →
          0 ≤ compareSemver localeCompare a b := by
  obtain ⟨K, heq, hK⟩ := keepNewest_spec opts.keepCount _ 0
    (protectedIds opts (some inspected) (taggedImages repoPrefix images))
    (pairwise_semverNewestFirst hlc (taggedImages repoPrefix images)) (Nat.zero_le _)
  have hlaw := Tags.lawful_compareSemver hlc
  have hsub : {x | x ∈ K} ⊆ Candidates repoPrefix images opts running :=
    fun x hx => (mem_candidates_iff localeCompare repoPrefix opts images hrunning x).2 (hK.fresh x hx)
  have hfin := candidates_finite repoPrefix opts images running
  have hcard : {x | x ∈ K}.ncard = K.length := by
    rw [← List.toFinset_card_of_nodup hK.nodup, ← Set.ncard_coe_finset]
    congr 1
    ext x
    simp
  refine ⟨K, heq, hsub, ?_, ?_⟩
  · have hle := Set.ncard_le_ncard hsub hfin
    rw [hcard] at hle ⊢
    rcases hK.full with hfull | ⟨hlt, hall⟩
    · rw [Nat.zero_add] at hfull
      rw [Nat.min_eq_left (hfull ▸ hle), hfull]
    · have hsup : Candidates repoPrefix images opts running ⊆ {x | x ∈ K} := by
        intro x hx
        obtain ⟨hout, t, ht, rfl⟩ := (mem_candidates_iff localeCompare repoPrefix opts images hrunning x).1 hx
        exact (List.mem_append.1 (hall t ht)).resolve_left hout
      rw [Set.Subset.antisymm hsup hsub, hcard, Nat.min_eq_right (by omega)]
  · rintro x hx y hy hyK a b ⟨⟨repoTag, hhas⟩, ha, hnewest⟩ ⟨⟨repoTag', hhas'⟩, hb, -⟩
    obtain ⟨hout, -⟩ := (mem_candidates_iff localeCompare repoPrefix opts images hrunning y).1 hy
    obtain ⟨t, ht, -, htag, hid⟩ := hasTag_iff.1 hhas'
    have htL : t ∈ semverNewestFirst localeCompare (taggedImages repoPrefix images) :=
      mem_semverNewestFirst.2 ⟨ht, htag ▸ hb⟩
    -- some tag of the kept id comes before the other's newest in the walk
    obtain ⟨s, hs, hsid, hR⟩ := hK.newest x hx t htL (by
      rw [hid, List.mem_append]
      exact fun h => h.elim hout hyK)
    obtain ⟨hs, hsemver⟩ := mem_semverNewestFirst.1 hs
    have hle := hnewest s.repoTag s.tag (hasTag_iff.2 ⟨s, hs, rfl, rfl, hsid⟩) hsemver
    rw [htag] at hR
    exact (hlaw.anti ha hb).2 (hlaw.trans hb hsemver ha hR hle)

end

/-! ## The removals asked for -/

section
variable {repoPrefix : String} {images : List ImageInfo} {ids : List String}

theorem hasTag_of_mem {t : TaggedImage} (ht : t ∈ taggedImages repoPrefix images) :
    HasTag repoPrefix images t.id t.repoTag t.tag :=
  hasTag_iff.2 ⟨t, ht, rfl, rfl, rfl⟩

theorem mem_tags_iff {t : String} : t ∈ (taggedImages repoPrefix images).map (·.repoTag) ↔
    t ∈ listedTags images ∧ ∃ tag, OfRepo repoPrefix t tag := by
  constructor
  · intro ht
    obtain ⟨u, hu, rfl⟩ := List.mem_map.1 ht
    exact ⟨(map_taggedImages_sublist repoPrefix images).subset ht, u.tag, (hasTag_of_mem hu).1⟩
  · rintro ⟨hlisted, tag, hof⟩
    obtain ⟨img, himg, hmem⟩ := List.mem_flatMap.1 hlisted
    obtain ⟨u, hu, hname, -, -⟩ := hasTag_iff.1 ⟨hof, img, himg, hmem, rfl⟩
    exact List.mem_map.2 ⟨u, hu, hname⟩

/-- Any selection of the tags is in listing order. -/
theorem filter_sublist_listed (p : TaggedImage → Bool) :
    (((taggedImages repoPrefix images).filter p).map (·.repoTag)).Sublist (listedTags images) :=
  (List.filter_sublist.map _).trans (map_taggedImages_sublist repoPrefix images)

theorem ownRepo_of_mem_removeCalls {call : RemoveCall} (h : call ∈ removeCalls ids (taggedImages repoPrefix images)) :
    ∃ tag, OfRepo repoPrefix call.ref tag := by
  obtain ⟨u, hu, rfl⟩ := List.mem_map.1 h
  exact ⟨u.tag, (hasTag_of_mem (List.mem_filter.1 hu).1).1⟩

theorem force_of_mem_removeCalls {call : RemoveCall} (h : call ∈ removeCalls ids (taggedImages repoPrefix images)) :
    call.force = false := by
  obtain ⟨u, -, rfl⟩ := List.mem_map.1 h
  rfl

/-- A removal is asked for no tag of a kept id, each tag being listed once. -/
theorem not_mem_of_mem_removeCalls (honce : (listedTags images).Nodup) {call : RemoveCall}
    (h : call ∈ removeCalls ids (taggedImages repoPrefix images)) {id : String} (hres : Resolves images call.ref id) :
    id ∉ ids := by
  have hnd := (map_taggedImages_sublist repoPrefix images).nodup honce
  obtain ⟨u, hu, rfl⟩ := List.mem_map.1 h
  obtain ⟨hu, hout⟩ := List.mem_filter.1 hu
  obtain ⟨v, hv, hname, -, hid⟩ := hasTag_iff.1 ⟨(hasTag_of_mem hu).1, hres⟩
  have hsame : u.id = id := by rw [← hid, List.inj_on_of_nodup_map hnd hv hu hname]
  rw [← hsame]
  simpa using hout

end

/-! ## The prune -/

/-- **A prune keeps and removes what it should**, for any listing, options and outcomes of the removals. -/
theorem pruneOldImagesFor_retains (localeCompare : String → String → Int) (hlc : Lawful IsPrerelease localeCompare)
    (repoPrefix : String) (opts : RetentionOptions) (listed inspected : Json) (running : String)
    (hrunning : inspectImageId inspected = some running) (removes : String → Bool)
    (honce : (listedTags (imagesOf listed)).Nodup) :
    Retains localeCompare repoPrefix (imagesOf listed) opts running removes
      (pruneOldImagesFor localeCompare repoPrefix opts ⟨true, some listed, some inspected, removes⟩).1
      (pruneOldImagesFor localeCompare repoPrefix opts ⟨true, some listed, some inspected, removes⟩).2 := by
  obtain ⟨K, hids, hKsub, hKcard, hKnewest⟩ := keepNewest_candidates repoPrefix opts (imagesOf listed) hlc hrunning
  have hspared := mem_protectedIds_iff repoPrefix opts (imagesOf listed) hrunning
  have heq := pruneOldImagesFor_eq localeCompare repoPrefix opts listed (some inspected) removes
  simp only [hids] at heq
  rw [heq]
  generalize protectedIds opts (some inspected) (taggedImages repoPrefix (imagesOf listed)) = P at hspared
  have hnd := (map_taggedImages_sublist repoPrefix (imagesOf listed)).nodup honce
  refine ⟨⟨perm_tags.nodup_iff.2 hnd, fun t => ?_⟩, ⟨filter_sublist_listed _, filter_sublist_listed _, filter_sublist_listed _⟩,
    fun call hcall => ownRepo_of_mem_removeCalls hcall, ?_, ?_, ?_, fun call hcall => force_of_mem_removeCalls hcall,
    fun t => mem_askedTags, fun t => mem_askedTags⟩
  · rw [perm_tags.mem_iff, mem_tags_iff]
  · intro call hcall id hres hsp
    exact not_mem_of_mem_removeCalls honce hcall hres (List.mem_append_left _ ((hspared id).2 hsp))
  · refine ⟨{x | x ∈ K}, hKsub, candidates_finite repoPrefix opts (imagesOf listed) running, hKcard, hKnewest,
      fun id repoTag tag htag => ?_⟩
    obtain ⟨u, hu, rfl, rfl, rfl⟩ := hasTag_iff.1 htag
    refine ⟨?_, count_removeCalls hnd hu⟩
    rw [mem_keptTags hnd hu, List.mem_append, hspared]
    rfl
  · rw [removeCalls, List.map_map]
    exact filter_sublist_listed _

/-- The running image, the version before it and an older one. -/
def doctorImages : Json :=
  .arr [.obj [("Id", .str "sha256:NEW"), ("RepoTags", .arr [.str "ghcr.io/dirkwa/signalk-doctor-server:0.7.21",
      .str "ghcr.io/dirkwa/signalk-doctor-server:latest"]), ("Created", .num 500)],
    .obj [("Id", .str "sha256:PREV"), ("RepoTags", .arr [.str "ghcr.io/dirkwa/signalk-doctor-server:0.7.20"]),
      ("Created", .num 400)],
    .null,
    .obj [("Id", .str "sha256:OLD"), ("RepoTags", .arr [.str "ghcr.io/dirkwa/signalk-doctor-server:0.7.18"]),
      ("Created", .num 300)]]

theorem pruneOldImagesFor_retains_doctor :
    Retains Collation.localeCompare "ghcr.io/dirkwa/signalk-doctor-server" (imagesOf doctorImages) ⟨none, []⟩ "sha256:NEW"
      (fun _ => true)
      (pruneOldImagesFor Collation.localeCompare "ghcr.io/dirkwa/signalk-doctor-server" ⟨none, []⟩
        ⟨true, some doctorImages, some (.obj [("Image", .str "sha256:NEW")]), fun _ => true⟩).1
      (pruneOldImagesFor Collation.localeCompare "ghcr.io/dirkwa/signalk-doctor-server" ⟨none, []⟩
        ⟨true, some doctorImages, some (.obj [("Image", .str "sha256:NEW")]), fun _ => true⟩).2 :=
  pruneOldImagesFor_retains Collation.localeCompare (Collation.lawful_localeCompare.mono (fun _ _ => trivial)) _ _ _ _ _
    (by decide +kernel) _ (by decide +kernel)

end ImageRetention
end SignalkDoctor
