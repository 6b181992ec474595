import SignalkDoctor.Installed
import SignalkDoctor.Registry
import SignalkDoctor.Steps
import SignalkDoctor.TagOrder
/-!
# Ghcr — the tags of an image and the check for an update (`src/ghcr.ts`, `src/errors.ts`, `src/routes/self.ts`)

`listTags` asks the registry for a token, for the names and for the manifest of each of the last 80 names, and keeps what it
got for six hours.  A run interleaves any calls of it, each of them waiting for responses of its own.

`listTags_complete_iff`: an answer has every name whose manifest is not gone, and the check for an update says what it would
say of all of them, exactly when no manifest request of the listing it stems from failed in another way than by a 404.
-/
namespace SignalkDoctor
namespace Ghcr

open Comparator (sort)
open Collation (localeCompare)
open Drift (CategorizedError ErrorKind encodeURIComponent)
open Steps (exec exec_inv')
open Tags (Channel classifyChannel compareSemver latestStable)

/-! ## Errors -/

def occurs (raw : List Char) (pattern : String) : Bool := raw.tails.any (fun t => decide (pattern.toList <+: t))

/-- `/HTTP 5\d\d/` -/
def http5xx (raw : List Char) : Bool :=
  raw.tails.any (fun t => decide ("HTTP 5".toList <+: t) &&
    match t.drop 6 with
    | c :: d :: _ => c.isDigit && d.isDigit
    | _ => false)

def isWordChar (c : Char) : Bool := c.isAlphanum || c == '_'

/-- `/\bfetch failed\b/i`, of a text in lower case; `before` is the character in front of it. -/
def fetchFailed : Option Char → List Char → Bool
  | _, [] => false
  | before, c :: cs =>
    (!before.any isWordChar && decide ("fetch failed".toList <+: c :: cs) && !((c :: cs).drop 12).head?.any isWordChar) ||
      fetchFailed (some c) cs

def categorizeError (raw : String) : CategorizedError :=
  let text := raw.toList
  let lower := text.map Char.toLower
  if ["ENOTFOUND", "ECONNREFUSED", "EHOSTUNREACH", "ETIMEDOUT", "ECONNRESET", "EAI_AGAIN", "UND_ERR"].any (occurs text) ||
      ["no route to host", "network is unreachable"].any (occurs lower) then
    ⟨.network, "Could not reach the registry. Check connectivity and try again.", raw⟩
  else if ["unauthorized", "authentication required", "denied: requested access"].any (occurs lower) then
    ⟨.auth, "Registry authentication failed.", raw⟩
  else if http5xx text || occurs text "HTTP 429" || fetchFailed none lower ||
      ["503 service unavailable", "502 bad gateway"].any (occurs lower) then
    ⟨.registryUnavailable, "The registry is temporarily unavailable. Try again in a moment.", raw⟩
  else if ["no space left", "enospc", "disk quota"].any (occurs lower) then
    ⟨.disk, "Disk full. Free space and retry.", raw⟩
  else if ["permission denied", "eacces", "eperm", "operation not permitted"].any (occurs lower) then
    ⟨.permission, "Permission denied. Check container socket and mount permissions.", raw⟩
  else if ["no such image", "no such container", "enoent", "not found"].any (occurs lower) then
    ⟨.notFound, "Resource not found.", raw⟩
  else ⟨.unknown, "Unexpected error. See logs for details.", raw⟩

example : (categorizeError "manifest: HTTP 500").kind = .registryUnavailable := by decide +kernel

/-! ## The requests -/

/-- `res.ok` -/
def isOk (status : Nat) : Bool := 200 ≤ status && status ≤ 299

/-- What the language knows of dates: `Date.parse`, with `none` for an invalid date, and `toISOString`. -/
structure Dates where
  parse : String → Option Int
  toISOString : Int → String

/-- A response; its body, as far as it is read, or what `res.json()` threw. -/
inductive TokenOutcome where
  | threw (msg : String)
  | response (status : Nat) (token : Except String (Option String))

/-- `body.token ?? null`; the empty one counts as none. -/
def getAnonToken (image : String) (fetch : String → TokenOutcome) : Option String :=
  match fetch ("https://ghcr.io/token?scope=repository:" ++ image ++ ":pull&service=ghcr.io") with
  | .threw _ => none
  | .response status token =>
    if ¬ isOk status then none
    else
      match token with
      | .error _ => none
      | .ok token => token.filter (fun t => decide (t ≠ ""))

inductive PageOutcome where
  | threw (msg : String)
  | response (status : Nat) (link : Option String) (tags : Except String (Option (List String)))

/-- `/rel="?next"?/i`, of a text in lower case. -/
def hasNext (link : List Char) : Bool :=
  link.tails.any (fun t => decide ("rel=next".toList <+: t) || decide ("rel=\"next".toList <+: t))

/-- `/<([^>]+)>/`: group 1 of the first match. -/
def angled : List Char → Option (List Char)
  | [] => none
  | c :: cs =>
    let inside := cs.takeWhile (fun d => d ≠ '>')
    if c = '<' ∧ inside ≠ [] ∧ inside.length < cs.length then some inside else angled cs

/-- The URL of the next page; `resolve` is `new URL(_, 'https://ghcr.io')`, which throws on what is no URL. -/
def nextUrl (resolve : String → Option String) (link : Option String) : Except String (Option String) :=
  match link with
  | none => .ok none
  | some link =>
    if ¬ hasNext (link.toList.map Char.toLower) then .ok none
    else
      match angled link.toList with
      | none => .ok none
      | some target =>
        match resolve (String.ofList target) with
        | some url => .ok (some url)
        | none => .error "Invalid URL"

/-- The loop over the pages, `all` being the names so far; `none` where a page has not been answered. -/
def fetchPages (resolve : String → Option String) (all : List String) :
    String → List (String → PageOutcome) → Option (Except String (List String))
  | _, [] => none
  | url, fetch :: pages =>
    match fetch url with
    | .threw msg => some (.error msg)
    | .response status link body =>
      if ¬ isOk status then some (.error ("tags/list: HTTP " ++ toString status))
      else
        match body with
        | .error msg => some (.error msg)
        | .ok tags =>
          match nextUrl resolve link with
          | .error msg => some (.error msg)
          | .ok none => some (.ok (all ++ tags.getD []))
          | .ok (some url) => fetchPages resolve (all ++ tags.getD []) url pages

def fetchTagList (resolve : String → Option String) (image : String) (pages : List (String → PageOutcome)) :
    Option (Except String (List String)) :=
  fetchPages resolve [] ("https://ghcr.io/v2/" ++ image ++ "/tags/list?n=100") pages

structure ManifestRequest where
  url : String
  authorization : String
  deriving DecidableEq, Repr

def manifestRequest (image tag token : String) : ManifestRequest :=
  ⟨"https://ghcr.io/v2/" ++ image ++ "/manifests/" ++ String.ofList (encodeURIComponent tag), "Bearer " ++ token⟩

inductive ManifestOutcome where
  | threw (msg : String)
  | response (status : Nat) (contentDigest lastModified : Option String) (receivedAt : Int) (body : Except String Json)

structure ManifestDigest where
  digest : String
  size : Nat
  pushedAt : String
  deriving DecidableEq, Repr

/-- `lastMod ? new Date(lastMod).toISOString() : new Date().toISOString()` -/
def pushedDate (D : Dates) (lastMod : String) (receivedAt : Int) : Except String String :=
  if lastMod = "" then .ok (D.toISOString receivedAt)
  else
    match D.parse lastMod with
    | some t => .ok (D.toISOString t)
    | none => .error "Invalid time value"

def fetchManifestDigest (D : Dates) (fetch : ManifestRequest → ManifestOutcome) (image tag token : String) :
    Except String ManifestDigest :=
  match fetch (manifestRequest image tag token) with
  | .threw msg => .error msg
  | .response status contentDigest lastModified receivedAt body => do
    if ¬ isOk status then throw ("manifest: HTTP " ++ toString status)
    let digest := contentDigest.getD ""
    let pushedAt ← pushedDate D (lastModified.getD "") receivedAt
    let _ ← body
    return ⟨digest, 0, pushedAt⟩

/-! ## `listTags` -/

structure Tag where
  name : String
  channel : Channel
  digest : String
  pushedAt : String
  deriving DecidableEq, Repr

structure CacheEntry where
  tags : List Tag
  fetchedAt : Int

def TTL_MS : Int := 6 * 60 * 60 * 1000

def MAX : Nat := 80

inductive ListTagsResult where
  | ok (tags : List Tag) (cachedAt : String)
  | error (error : CategorizedError)

/-- What the requests of one call are answered with. -/
structure Responses where
  token : String → TokenOutcome
  pages : List (String → PageOutcome)
  manifest : ManifestRequest → ManifestOutcome

/-- What a call has learnt when it comes to the manifests, and what these requests will be answered with. -/
structure Listing where
  image : String
  token : String
  tagNames : List String
  manifest : ManifestRequest → ManifestOutcome

/-- The token and the names. -/
def listing (resolve : String → Option String) (image : String) (net : Responses) : Option (Except String Listing) :=
  match getAnonToken image net.token with
  | none => some (.error "ghcr: failed to obtain anonymous pull token")
  | some token =>
    match fetchTagList resolve image net.pages with
    | none => none
    | some (.error msg) => some (.error msg)
    | some (.ok tagNames) => some (.ok ⟨image, token, tagNames, net.manifest⟩)

/-- `tagNames.slice(-MAX)` -/
def Listing.subset (l : Listing) : List String := l.tagNames.drop (l.tagNames.length - MAX)

/-- One turn of the loop: a tag whose manifest cannot be fetched is skipped. -/
def Listing.tag (l : Listing) (D : Dates) (name : String) : Option Tag :=
  match fetchManifestDigest D l.manifest l.image name l.token with
  | .ok d => some ⟨name, classifyChannel name, d.digest, d.pushedAt⟩
  | .error _ => none

def Listing.tags (l : Listing) (D : Dates) : List Tag := l.subset.filterMap (l.tag D)

/-- The answer without a request: the cached tags, unless `force` is set or they are six hours old. -/
def cachedAnswer (D : Dates) (cached : Option CacheEntry) (force : Bool) (now : Int) : Option ListTagsResult :=
  match cached with
  | some cached =>
    if ¬ force ∧ now - cached.fetchedAt < TTL_MS then some (.ok cached.tags (D.toISOString cached.fetchedAt)) else none
  | none => none

/-! ## `GET /api/self/check-update` -/

structure CheckUpdateResponse where
  current : String
  latest : Option String
  updateAvailable : Bool
  cachedAt : Option String
  updateVia : String
  error : Option String
  deriving DecidableEq, Repr

def UPDATE_VIA : String := "signalk-updater-server"

def checkUpdate (cachedCurrent : String) : ListTagsResult → CheckUpdateResponse
  | .error error => ⟨cachedCurrent, none, false, none, UPDATE_VIA, some error.userMessage⟩
  | .ok tags cachedAt =>
    let stable := sort (fun a b => compareSemver localeCompare b.name a.name) (tags.filter (fun t => t.channel == .stable))
    let latest := stable.head?.map (·.name)
    let updateAvailable := match latest with
      | some latest => cachedCurrent != "unknown" && decide (compareSemver localeCompare latest cachedCurrent > 0)
      | none => false
    ⟨cachedCurrent, latest, updateAvailable, some cachedAt, UPDATE_VIA, none⟩

/-! ## Runs -/

/-- The listing that the tags of an answer stem from, and when it went into the cache. -/
structure Source where
  listing : Listing
  fetchedAt : Int

/-- What a call returned, at `moment` of the clock. -/
structure Answer where
  image : String
  moment : Int
  result : ListTagsResult
  source : Option Source

/-- **The state**: the cache, where its entries stem from, the calls whose requests are not all answered, and the answers so
far. -/
structure World where
  cache : String → Option CacheEntry
  sources : String → Option Source
  pending : List String
  answers : List Answer

def World.init : World := ⟨fun _ => none, fun _ => none, [], []⟩

inductive Event where
  /-- A call of `listTags`. -/
  | call (image : String) (force : Bool) (now : Int)
  /-- The last response a call waits for: `Date.now()` is `fetchedAt` when the entry is made, `returnedAt` afterwards. -/
  | fetched (i : Nat) (net : Responses) (fetchedAt returnedAt : Int)

section
variable (D : Dates) (resolve : String → Option String)

def World.fetched (w : World) (image : String) (l : Listing) (fetchedAt returnedAt : Int) : World :=
  { w with
    cache := Function.update w.cache image (some ⟨l.tags D, fetchedAt⟩)
    sources := Function.update w.sources image (some ⟨l, fetchedAt⟩)
    answers := w.answers ++ [⟨image, fetchedAt, .ok (l.tags D) (D.toISOString returnedAt), some ⟨l, fetchedAt⟩⟩] }

def step (w : World) : Event → Option World
  | .call image force now =>
    match cachedAnswer D (w.cache image) force now with
    | some result => some { w with answers := w.answers ++ [⟨image, now, result, w.sources image⟩] }
    | none => some { w with pending := w.pending ++ [image] }
  | .fetched i net fetchedAt returnedAt =>
    match w.pending[i]? with
    | none => none
    | some image =>
      match listing resolve image net with
      | none => none
      | some (.error msg) => some { w with
        pending := w.pending.eraseIdx i
        answers := w.answers ++ [⟨image, returnedAt, .error (categorizeError msg), none⟩] }
      | some (.ok l) => some (World.fetched D { w with pending := w.pending.eraseIdx i } image l fetchedAt returnedAt)

end

/-! ## What an answer is to have -/

def Listing.outcome (l : Listing) (name : String) : ManifestOutcome := l.manifest (manifestRequest l.image name l.token)

def ManifestOutcome.notFound : ManifestOutcome → Bool
  | .threw _ => false
  | .response status _ _ _ _ => status == 404

/-- The last 80 names, without those whose manifest is gone. -/
def Listing.complete (l : Listing) : List String := l.subset.filter (fun name => !(l.outcome name).notFound)

/-- **No name is missing whose manifest is not gone, and the check for an update, whatever version runs, says what it would
say of all these names.** -/
def Answer.Complete (a : Answer) (l : Listing) (tags : List Tag) : Prop :=
  (∀ name ∈ l.subset, (l.outcome name).notFound = false → ∃ t ∈ tags, t.name = name) ∧
    ∀ current, (checkUpdate current a.result).latest = latestStable l.complete ∧
      (checkUpdate current a.result).updateAvailable = Tags.updateAvailable l.complete current

/-- **The request was answered**: by a 404, or with a body and, unless it has none, a valid date. -/
def ManifestOutcome.Answered (D : Dates) : ManifestOutcome → Prop
  | .threw _ => False
  | .response status _ lastModified _ body =>
    status = 404 ∨ isOk status = true ∧ body.isOk = true ∧
      (lastModified.getD "" = "" ∨ (D.parse (lastModified.getD "")).isSome = true)

/-! ## One listing -/

theorem isOk_ne_notFound {status : Nat} (h : isOk status = true) : status ≠ 404 := by
  rintro rfl
  exact absurd h (by decide)

theorem pushedDate_isOk (D : Dates) (lastMod : String) (receivedAt : Int) :
    (pushedDate D lastMod receivedAt).isOk = true ↔ lastMod = "" ∨ (D.parse lastMod).isSome = true := by
  unfold pushedDate
  by_cases h : lastMod = ""
  · rw [if_pos h]
    exact iff_of_true rfl (.inl h)
  · rw [if_neg h, or_iff_right h]
    cases D.parse lastMod <;> rfl

/-- **A manifest is fetched** where its request was answered, and not by a 404. -/
theorem fetchManifestDigest_isOk (D : Dates) (fetch : ManifestRequest → ManifestOutcome) (image tag token : String) :
    (fetchManifestDigest D fetch image tag token).isOk = true ↔
      (fetch (manifestRequest image tag token)).Answered D ∧ (fetch (manifestRequest image tag token)).notFound = false := by
  unfold fetchManifestDigest
  cases fetch (manifestRequest image tag token) with
  | threw msg =>
    constructor
    · intro h
      cases h
    · intro h
      exact h.1.elim
  | response status contentDigest lastModified receivedAt body =>
    simp only [ManifestOutcome.Answered, ManifestOutcome.notFound, beq_eq_false_iff_ne, ← pushedDate_isOk D _ receivedAt]
    by_cases hok : isOk status = true
    · have hstatus := isOk_ne_notFound hok
      rw [if_neg (not_not_intro hok), or_iff_right hstatus, and_iff_left hstatus, and_iff_right hok, and_comm]
      cases pushedDate D (lastModified.getD "") receivedAt with
      | error msg => exact iff_of_false Bool.false_ne_true (fun h => Bool.false_ne_true h.1)
      | ok date =>
        cases body with
        | error msg => exact iff_of_false Bool.false_ne_true (fun h => Bool.false_ne_true h.2)
        | ok v => exact iff_of_true rfl ⟨rfl, rfl⟩
    · rw [if_pos hok]
      constructor
      · intro h
        cases h
      · rintro ⟨hanswered, hstatus⟩
        rcases hanswered with h404 | h200
        · exact absurd h404 hstatus
        · exact absurd h200.1 hok

theorem tag_name {l : Listing} {D : Dates} {name : String} {t : Tag} (h : l.tag D name = some t) :
    t.name = name ∧ t.channel = classifyChannel name := by
  unfold Listing.tag at h
  split at h
  · rw [← Option.some.inj h]
    exact ⟨rfl, rfl⟩
  · cases h

theorem tag_isSome (l : Listing) (D : Dates) (name : String) : (l.tag D name).isSome = true ↔
    (l.outcome name).Answered D ∧ (l.outcome name).notFound = false := by
  rw [Listing.outcome, ← fetchManifestDigest_isOk, Listing.tag]
  cases fetchManifestDigest D l.manifest l.image name l.token <;> rfl

theorem mem_tags {l : Listing} {D : Dates} {t : Tag} (h : t ∈ l.tags D) : t.channel = classifyChannel t.name := by
  obtain ⟨name, -, ht⟩ := List.mem_filterMap.1 h
  obtain ⟨hname, hchannel⟩ := tag_name ht
  rw [hname, hchannel]

/-- **The names listed are those whose manifest was fetched.** -/
theorem map_name_tags (l : Listing) (D : Dates) :
    (l.tags D).map (·.name) = l.subset.filter (fun name => (l.tag D name).isSome) := by
  unfold Listing.tags
  induction l.subset with
  | nil => rfl
  | cons name names ih =>
    rw [List.filterMap_cons, List.filter_cons]
    cases ht : l.tag D name with
    | none => exact ih
    | some t => rw [List.map_cons, ih, (tag_name ht).1]; rfl

theorem map_name_tags_complete {l : Listing} {D : Dates} (h : ∀ name ∈ l.subset, (l.outcome name).Answered D) :
    (l.tags D).map (·.name) = l.complete := by
  rw [map_name_tags, Listing.complete]
  refine List.filter_congr (fun name hname => ?_)
  rw [Bool.eq_iff_iff, tag_isSome, Bool.not_eq_true']
  exact and_iff_right (h name hname)

theorem exists_tag_iff {l : Listing} {D : Dates} {name : String} (hname : name ∈ l.subset) :
    (∃ t ∈ l.tags D, t.name = name) ↔ (l.outcome name).Answered D ∧ (l.outcome name).notFound = false := by
  rw [← tag_isSome]
  constructor
  · rintro ⟨t, ht, rfl⟩
    obtain ⟨name, -, htag⟩ := List.mem_filterMap.1 ht
    rw [(tag_name htag).1, htag]
    rfl
  · intro h
    obtain ⟨t, ht⟩ := Option.isSome_iff_exists.1 h
    exact ⟨t, List.mem_filterMap.2 ⟨name, hname, ht⟩, (tag_name ht).1⟩

/-! ## The check for an update -/

theorem latest_eq {tags : List Tag} (h : ∀ t ∈ tags, t.channel = classifyChannel t.name) :
    (sort (fun a b => compareSemver localeCompare b.name a.name) (tags.filter (fun t => t.channel == .stable))).head?.map
      (·.name) = latestStable (tags.map (·.name)) := by
  have hfilter : (tags.filter (fun t => t.channel == .stable)).map (·.name) =
      (tags.map (·.name)).filter (fun name => classifyChannel name == .stable) := by
    rw [List.filter_map]
    exact congrArg _ (List.filter_congr (fun t ht => by rw [h t ht]; rfl))
  rw [latestStable, ← hfilter, ← List.head?_map, sort, sort]
  congr 1
  exact List.map_mergeSort (fun _ _ _ _ => rfl)

theorem checkUpdate_ok {tags : List Tag} (h : ∀ t ∈ tags, t.channel = classifyChannel t.name) (current cachedAt : String) :
    (checkUpdate current (.ok tags cachedAt)).latest = latestStable (tags.map (·.name)) ∧
      (checkUpdate current (.ok tags cachedAt)).updateAvailable = Tags.updateAvailable (tags.map (·.name)) current := by
  unfold checkUpdate Tags.updateAvailable
  rw [← latest_eq h]
  exact ⟨rfl, rfl⟩

/-- **The tags of a listing are complete exactly when every request was answered.** -/
theorem complete_iff (D : Dates) (l : Listing) (image : String) (moment : Int) (cachedAt : String) (source : Option Source) :
    (Answer.mk image moment (.ok (l.tags D) cachedAt) source).Complete l (l.tags D) ↔
      ∀ name ∈ l.subset, (l.outcome name).Answered D := by
  constructor
  · rintro ⟨hnames, -⟩ name hname
    by_cases h : (l.outcome name).notFound = true
    · cases houtcome : l.outcome name with
      | threw msg =>
        rw [houtcome] at h
        cases h
      | response status _ _ _ _ =>
        rw [houtcome] at h
        exact .inl (eq_of_beq h)
    · exact ((exists_tag_iff hname).1 (hnames name hname (eq_false_of_ne_true h))).1
  · intro h
    refine ⟨fun name hname hfound => (exists_tag_iff hname).2 ⟨h name hname, hfound⟩, fun current => ?_⟩
    rw [← map_name_tags_complete h]
    exact checkUpdate_ok (fun t ht => mem_tags ht) current cachedAt

/-! ## Whole runs -/

/-- **An entry and an answer have the tags of their source, and none is six hours old.** -/
structure Stems (D : Dates) (w : World) : Prop where
  cached : ∀ image cached, w.cache image = some cached →
    ∃ l, w.sources image = some ⟨l, cached.fetchedAt⟩ ∧ cached.tags = l.tags D
  answered : ∀ a ∈ w.answers, ∀ tags cachedAt, a.result = .ok tags cachedAt →
    ∃ l fetchedAt, a.source = some ⟨l, fetchedAt⟩ ∧ tags = l.tags D ∧ a.moment - fetchedAt < TTL_MS

theorem Stems.init (D : Dates) : Stems D World.init where
  cached := fun _ _ h => nomatch h
  answered := fun _ ha => nomatch ha

theorem Stems.fetched {D : Dates} {w : World} (h : Stems D w) (pending : List String) (image : String) (l : Listing)
    (fetchedAt returnedAt : Int) : Stems D (World.fetched D { w with pending := pending } image l fetchedAt returnedAt) where
  cached := fun other cached hcached => by
    simp only [World.fetched] at hcached ⊢
    by_cases hother : other = image
    · subst hother
      rw [Function.update_self, Option.some.injEq] at hcached
      rw [Function.update_self, ← hcached]
      exact ⟨l, rfl, rfl⟩
    · rw [Function.update_of_ne hother] at hcached ⊢
      exact h.cached other cached hcached
  answered := by
    refine List.forall_mem_append.2 ⟨h.answered, List.forall_mem_singleton.2 (fun tags cachedAt hresult => ?_)⟩
    cases hresult
    refine ⟨l, fetchedAt, rfl, rfl, ?_⟩
    rw [Int.sub_self]
    decide

theorem Stems.cachedAnswer {D : Dates} {w : World} (h : Stems D w) {image : String} {force : Bool} {now : Int}
    {result : ListTagsResult} (hanswer : cachedAnswer D (w.cache image) force now = some result) :
    Stems D { w with answers := w.answers ++ [⟨image, now, result, w.sources image⟩] } where
  cached := h.cached
  answered := by
    refine List.forall_mem_append.2 ⟨h.answered, List.forall_mem_singleton.2 (fun tags cachedAt hresult => ?_)⟩
    unfold Ghcr.cachedAnswer at hanswer
    split at hanswer
    · rename_i cached hcached
      split at hanswer
      · rename_i hfresh
        obtain ⟨l, hsource, htags⟩ := h.cached image cached hcached
        cases (Option.some.inj hanswer).trans hresult
        exact ⟨l, cached.fetchedAt, hsource, htags, hfresh.2⟩
      · cases hanswer
    · cases hanswer

theorem Stems.step {D : Dates} {resolve : String → Option String} {w v : World} (h : Stems D w) {e : Event}
    (he : step D resolve w e = some v) : Stems D v := by
  cases e with
  | call image force now =>
    simp only [Ghcr.step] at he
    split at he
    · rename_i result hanswer
      rw [← Option.some.inj he]
      exact h.cachedAnswer hanswer
    · rw [← Option.some.inj he]
      exact ⟨h.cached, h.answered⟩
  | fetched i net fetchedAt returnedAt =>
    simp only [Ghcr.step] at he
    split at he
    · cases he
    · rename_i image _
      split at he
      · cases he
      · rename_i msg _
        rw [← Option.some.inj he]
        refine ⟨h.cached, List.forall_mem_append.2 ⟨h.answered, List.forall_mem_singleton.2 (fun _ _ hresult => ?_)⟩⟩
        cases hresult
      · rename_i l _
        rw [← Option.some.inj he]
        exact h.fetched (w.pending.eraseIdx i) image l fetchedAt returnedAt

/-- **An answer is complete exactly when every manifest request of the listing it stems from was answered**, and it stems
from one less than six hours old. -/
theorem listTags_complete_iff (D : Dates) (resolve : String → Option String) {es : List Event} {w : World}
    (h : exec (step D resolve) World.init es = some w) : ∀ a ∈ w.answers, ∀ tags cachedAt, a.result = .ok tags cachedAt →
      ∃ l fetchedAt, a.source = some ⟨l, fetchedAt⟩ ∧ tags = l.tags D ∧ a.moment - fetchedAt < TTL_MS ∧
        (a.Complete l tags ↔ ∀ name ∈ l.subset, (l.outcome name).Answered D) := by
  intro a ha tags cachedAt hresult
  have hstems := exec_inv' (fun _ _ _ hI he => Stems.step hI he) es World.init w (Stems.init D) h
  obtain ⟨l, fetchedAt, hsource, htags, hfresh⟩ := hstems.answered a ha tags cachedAt hresult
  refine ⟨l, fetchedAt, hsource, htags, hfresh, ?_⟩
  obtain ⟨image, moment, result, source⟩ := a
  cases hresult
  rw [htags]
  exact complete_iff D l image moment cachedAt source

def Responses.oneRelease (name : String) (manifest : ManifestOutcome) : Responses where
  token := fun _ => .response 200 (.ok (some "anonymous"))
  pages := [fun _ => .response 200 none (.ok (some [name]))]
  manifest := fun _ => manifest

theorem listing_oneRelease (resolve : String → Option String) (image name : String) (manifest : ManifestOutcome) :
    listing resolve image (.oneRelease name manifest) = some (.ok ⟨image, "anonymous", [name], fun _ => manifest⟩) := by
  have htoken : getAnonToken image (Responses.oneRelease name manifest).token = some "anonymous" := by
    simp [getAnonToken, Responses.oneRelease, isOk, Option.filter]
  rw [listing, htoken]
  rfl

/-- **A call that fetches, and one that finds its entry a moment before it is six hours old.** -/
theorem exec_oneRelease (D : Dates) (resolve : String → Option String) (image name : String) (manifest : ManifestOutcome) :
    ∃ w, exec (step D resolve) World.init [.call image false 0, .fetched 0 (.oneRelease name manifest) 0 0,
        .call image false (TTL_MS - 1)] = some w ∧
      ⟨image, TTL_MS - 1, .ok (Listing.tags ⟨image, "anonymous", [name], fun _ => manifest⟩ D) (D.toISOString 0),
        some ⟨⟨image, "anonymous", [name], fun _ => manifest⟩, 0⟩⟩ ∈ w.answers := by
  let l : Listing := ⟨image, "anonymous", [name], fun _ => manifest⟩
  let waiting : World := { World.init with pending := [image] }
  let fetched : World := World.fetched D { waiting with pending := [] } image l 0 0
  have hcall : step D resolve World.init (.call image false 0) = some waiting := rfl
  have hfetched : step D resolve waiting (.fetched 0 (.oneRelease name manifest) 0 0) = some fetched := by
    have hpending : waiting.pending[0]? = some image := rfl
    simp only [step, hpending, listing_oneRelease]
    rfl
  have hcached : cachedAnswer D (fetched.cache image) false (TTL_MS - 1) = some (.ok (l.tags D) (D.toISOString 0)) := by
    have hentry : fetched.cache image = some ⟨l.tags D, 0⟩ := Function.update_self ..
    rw [hentry]
    rfl
  have hsource : fetched.sources image = some ⟨l, 0⟩ := Function.update_self ..
  let answer : Answer := ⟨image, TTL_MS - 1, .ok (l.tags D) (D.toISOString 0), some ⟨l, 0⟩⟩
  refine ⟨{ fetched with answers := fetched.answers ++ [answer] }, ?_, ?_⟩
  · rw [exec, hcall, Option.bind_some, exec, hfetched, Option.bind_some, exec, step, hcached, hsource]
    rfl
  · exact List.mem_append_right _ (List.mem_singleton_self _)

theorem listTags_complete_iff_release : ∃ w, exec (step ⟨fun _ => none, fun _ => "1970-01-01T00:00:00.000Z"⟩ some) World.init
    [.call "dirkwa/signalk-doctor-server" false 0,
      .fetched 0 (.oneRelease "1.1.0" (.response 200 (some "sha256:00") none 0 (.ok .null))) 0 0,
      .call "dirkwa/signalk-doctor-server" false (TTL_MS - 1)] = some w ∧
    ∃ a ∈ w.answers, a.moment = TTL_MS - 1 ∧ ∃ l tags, a.Complete l tags := by
  obtain ⟨w, hw, ha⟩ := exec_oneRelease ⟨fun _ => none, fun _ => "1970-01-01T00:00:00.000Z"⟩ some
    "dirkwa/signalk-doctor-server" "1.1.0" (.response 200 (some "sha256:00") none 0 (.ok .null))
  obtain ⟨l, fetchedAt, hsource, -, -, hiff⟩ := listTags_complete_iff _ _ hw _ ha _ _ rfl
  cases hsource
  exact ⟨w, hw, _, ha, rfl, _, _, hiff.2 (fun _ _ => .inr ⟨rfl, rfl, .inl rfl⟩)⟩

/-- **Where the manifest of the newest release answers HTTP 500, the check for an update finds none** for six hours. -/
theorem listTags_complete_http500 : ∃ w, exec (step ⟨fun _ => none, fun _ => "1970-01-01T00:00:00.000Z"⟩ some) World.init
    [.call "dirkwa/signalk-doctor-server" false 0,
      .fetched 0 (.oneRelease "1.1.0" (.response 500 none none 0 (.ok .null))) 0 0,
      .call "dirkwa/signalk-doctor-server" false (TTL_MS - 1)] = some w ∧
    ∃ a ∈ w.answers, ∃ l tags cachedAt, a.moment = TTL_MS - 1 ∧ a.result = .ok tags cachedAt ∧ a.source = some ⟨l, 0⟩ ∧
      "1.1.0" ∈ l.subset ∧ (l.outcome "1.1.0").notFound = false ∧ (¬ ∃ t ∈ tags, t.name = "1.1.0") ∧
      (checkUpdate "1.0.0" a.result).updateAvailable = false ∧ Tags.updateAvailable l.complete "1.0.0" = true := by
  obtain ⟨w, hw, ha⟩ := exec_oneRelease ⟨fun _ => none, fun _ => "1970-01-01T00:00:00.000Z"⟩ some
    "dirkwa/signalk-doctor-server" "1.1.0" (.response 500 none none 0 (.ok .null))
  have hstable : latestStable ["1.1.0"] = some "1.1.0" := by
    have hchannel : (classifyChannel "1.1.0" == .stable) = true := by decide +kernel
    rw [latestStable, List.filter_cons, hchannel, if_pos rfl, List.filter_nil, sort, List.mergeSort_singleton]
    rfl
  have hupdate : Tags.updateAvailable ["1.1.0"] "1.0.0" = true := by
    rw [Tags.updateAvailable, hstable]
    decide +kernel
  have hnone : checkUpdate "1.0.0" (.ok [] "1970-01-01T00:00:00.000Z") =
      ⟨"1.0.0", none, false, some "1970-01-01T00:00:00.000Z", UPDATE_VIA, none⟩ := by
    simp [checkUpdate, sort]
  refine ⟨w, hw, _, ha, _, _, _, rfl, rfl, rfl, List.mem_singleton_self _, rfl, fun h => ?_, ?_, hupdate⟩
  · obtain ⟨t, ht, -⟩ := h
    cases ht
  · exact congrArg CheckUpdateResponse.updateAvailable hnone

end Ghcr
end SignalkDoctor
