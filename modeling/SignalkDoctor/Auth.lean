import SignalkDoctor.JsString
/-!
# Auth — the bearer token (`src/auth.ts`, `src/routes/session.ts`)

Two paths read the token file: `loadToken` keeps the first non-empty token it read, for as long as the path is the
same; `GET /api/session` reads the file on each request.  So what is cached is the first token that any request found in
the file (`cachedToken_after`), and `requireToken_current_iff` says, after any history, exactly on which requests the gate
decides as the file's present content would: those that present neither the first token found nor the current one, unless
the two agree.
-/
namespace SignalkDoctor
namespace Auth

open JsString (trim isSpace isLineEnd)

inductive Header where
  | absent
  | one (s : String)
  | many (ss : List String)
  deriving DecidableEq, Repr

structure Request where
  authorization : Option String
  xSkAuth : Header
  deriving DecidableEq, Repr

/-- A refusal: status code and error text. -/
structure Reply where
  code : Nat
  error : String
  deriving DecidableEq, Repr

structure TokenCache where
  cachedToken : Option String
  cachedFromPath : Option String
  deriving DecidableEq, Repr

def fileToken (file : Option String) : Option String :=
  match file with
  | none => none
  | some raw => if (trim raw).length > 0 then some (trim raw) else none

/-- `loadToken`: the cached token of this path, else the file's, which is then cached.  `file` is what a read of the
path gives now, `none` when it fails. -/
def loadToken (path : String) (file : Option String) (c : TokenCache) : Option String × TokenCache :=
  match c.cachedToken with
  | some t =>
    if t ≠ "" ∧ c.cachedFromPath = some path then (some t, c)
    else
      match fileToken file with
      | some raw => (some raw, ⟨some raw, some path⟩)
      | none => (none, c)
  | none =>
    match fileToken file with
    | some raw => (some raw, ⟨some raw, some path⟩)
    | none => (none, c)

/-- `auth.match(/^Bearer\s+(.+)$/i)?.[1]`: the white space is taken greedily, and given back a character at a time
when nothing is left for the token. -/
def bearerMatch (auth : String) : Option String :=
  let cs := auth.toList
  if (cs.take 6).map Char.toLower = ['b', 'e', 'a', 'r', 'e', 'r'] then
    let ws := (cs.drop 6).takeWhile isSpace
    let body := (cs.drop 6).dropWhile isSpace
    match body with
    | [] =>
      match ws.reverse with
      | last :: _ :: _ => if isLineEnd last then none else some (String.ofList [last])
      | _ => none
    | _ => if ws = [] ∨ body.any isLineEnd then none else some (String.ofList body)
  else none

def extractToken (req : Request) : Option String :=
  let bearer :=
    match req.authorization with
    | some auth => if auth ≠ "" then (bearerMatch auth).map trim else none
    | none => none
  match bearer with
  | some t => some t
  | none =>
    match req.xSkAuth with
    | .one xauth => if xauth.length > 0 then some (trim xauth) else none
    | _ => none

/-- `requireToken`: the refusal it sends, or `none` when the request goes through. -/
def requireToken (path : String) (file : Option String) (req : Request) (c : TokenCache) : Option Reply × TokenCache :=
  match loadToken path file c with
  | (none, c') => (some ⟨503, "auth not initialized: token file missing"⟩, c')
  | (some expected, c') => (if extractToken req ≠ some expected then some ⟨401, "unauthorized"⟩ else none, c')

/-- `GET /api/session`: the token, or the refusal. -/
def session (file : Option String) : Except Reply String :=
  match file with
  | none => .error ⟨503, "auth not initialized: token file unreadable"⟩
  | some raw => if trim raw = "" then .error ⟨503, "auth not initialized: empty token file"⟩ else .ok (trim raw)

/-! ## Histories -/

/-- What happens to the server: the file changes, a request meets the gate, the webapp asks for the token. -/
inductive Event where
  | file (content : Option String)
  | request (req : Request)
  | session
  deriving DecidableEq, Repr

structure Server where
  file : Option String
  cache : TokenCache
  deriving DecidableEq, Repr

def Server.start : Server := ⟨none, ⟨none, none⟩⟩

def Server.event (path : String) (s : Server) : Event → Server
  | .file content => { s with file := content }
  | .request req => { s with cache := (requireToken path s.file req s.cache).2 }
  | .session => s

def Server.after (path : String) (history : List Event) : Server := history.foldl (Server.event path) .start

def Server.admits (path : String) (s : Server) (req : Request) : Prop := (requireToken path s.file req s.cache).1 = none

/-- The file's content at the end of a history. -/
def fileAfter (history : List Event) : Option String :=
  history.foldl (fun file e => match e with | .file content => content | _ => file) none

/-- What the requests of a history find in the file, from a content of it on. -/
def tokensFound (file : Option String) : List Event → List String
  | [] => []
  | .file content :: history => tokensFound content history
  | .request _ :: history => (fileToken file).toList ++ tokensFound file history
  | .session :: history => tokensFound file history

/-- The first token a request of the history found: the trimmed content of the file at that moment, not empty. -/
def firstFound (history : List Event) : Option String := (tokensFound none history).head?

def presentsCurrent (history : List Event) (req : Request) : Prop :=
  ∃ t, fileToken (fileAfter history) = some t ∧ extractToken req = some t

/-- **The request is none a rotation can misjudge**: no request has found a token yet, or the first one found is still the
file's, or the request presents neither of the two. -/
def undisputed (history : List Event) (req : Request) : Prop :=
  firstFound history = none ∨ firstFound history = fileToken (fileAfter history) ∨
    ∀ t, extractToken req = some t → firstFound history ≠ some t ∧ fileToken (fileAfter history) ≠ some t

theorem fileToken_ne_empty {file : Option String} {t : String} (h : fileToken file = some t) : t ≠ "" := by
  unfold fileToken at h
  split at h
  · cases h
  · split at h
    · rename_i hlen
      cases h
      intro he
      rw [he] at hlen
      exact absurd hlen (by decide)
    · cases h

theorem session_eq_fileToken (file : Option String) (t : String) : session file = .ok t ↔ fileToken file = some t := by
  unfold session fileToken
  cases file with
  | none => simp
  | some raw =>
    by_cases h : trim raw = ""
    · simp [h]
    · have hlen : (trim raw).length > 0 := Nat.pos_of_ne_zero (fun he => h (String.length_eq_zero_iff.1 he))
      simp [h, hlen]

def Server.Cached (path : String) (s : Server) : Prop :=
  ∀ t, s.cache.cachedToken = some t → t ≠ "" ∧ s.cache.cachedFromPath = some path

theorem loadToken_eq {path : String} {s : Server} (h : s.Cached path) :
    loadToken path s.file s.cache = (s.cache.cachedToken.or (fileToken s.file),
      if s.cache.cachedToken = none ∧ fileToken s.file ≠ none then ⟨fileToken s.file, some path⟩ else s.cache) := by
  unfold loadToken
  cases hc : s.cache.cachedToken with
  | some t => simp [h t hc]
  | none => cases fileToken s.file <;> simp

theorem requireToken_cache (path : String) (file : Option String) (req : Request) (c : TokenCache) :
    (requireToken path file req c).2 = (loadToken path file c).2 := by
  unfold requireToken
  split <;> rename_i heq <;> rw [heq]

theorem cached_event {path : String} {s : Server} (h : s.Cached path) (e : Event) : (s.event path e).Cached path := by
  cases e with
  | file content => exact h
  | session => exact h
  | request req =>
    intro t ht
    simp only [Server.event, requireToken_cache, loadToken_eq h] at ht ⊢
    by_cases hn : s.cache.cachedToken = none ∧ fileToken s.file ≠ none
    · rw [if_pos hn] at ht ⊢
      exact ⟨fileToken_ne_empty ht, rfl⟩
    · rw [if_neg hn] at ht ⊢
      exact h t ht

/-- A request caches what it finds, unless a token is cached. -/
theorem cachedToken_request {path : String} {s : Server} (h : s.Cached path) (req : Request) :
    (s.event path (.request req)).cache.cachedToken = s.cache.cachedToken.or (fileToken s.file) := by
  simp only [Server.event, requireToken_cache, loadToken_eq h]
  cases hc : s.cache.cachedToken with
  | some t => simp [hc]
  | none => cases hf : fileToken s.file <;> simp [hc]

theorem cachedToken_foldl (path : String) : ∀ (history : List Event) (s : Server), s.Cached path →
    (history.foldl (Server.event path) s).Cached path ∧
      (history.foldl (Server.event path) s).cache.cachedToken =
        s.cache.cachedToken.or (tokensFound s.file history).head?
  | [], s, h => ⟨h, by simp [tokensFound]⟩
  | e :: history, s, h => by
    obtain ⟨hcached, htoken⟩ := cachedToken_foldl path history (s.event path e) (cached_event h e)
    rw [List.foldl_cons]
    refine ⟨hcached, htoken.trans ?_⟩
    cases e with
    | file content => rfl
    | session => rfl
    | request req =>
      rw [cachedToken_request h, tokensFound, Option.or_assoc]
      cases fileToken s.file <;> rfl

theorem cached_after (path : String) (history : List Event) : (Server.after path history).Cached path :=
  (cachedToken_foldl path history .start (fun t ht => by cases ht)).1

/-- **What is cached is the first token a request found.** -/
theorem cachedToken_after (path : String) (history : List Event) :
    (Server.after path history).cache.cachedToken = firstFound history :=
  (cachedToken_foldl path history .start (fun t ht => by cases ht)).2

theorem file_after (path : String) (history : List Event) : (Server.after path history).file = fileAfter history := by
  have hall : ∀ (history : List Event) (s : Server), (history.foldl (Server.event path) s).file =
      history.foldl (fun file e => match e with | .file content => content | _ => file) s.file := by
    intro history
    induction history with
    | nil => intro s; rfl
    | cons e history ih =>
      intro s
      rw [List.foldl_cons, List.foldl_cons, ih]
      cases e <;> rfl
  exact hall history .start

theorem admits_iff (path : String) (history : List Event) (req : Request) :
    (Server.after path history).admits path req ↔
      ∃ t, (firstFound history).or (fileToken (fileAfter history)) = some t ∧ extractToken req = some t := by
  unfold Server.admits requireToken
  rw [loadToken_eq (cached_after path history), cachedToken_after, file_after]
  cases (firstFound history).or (fileToken (fileAfter history)) with
  | none => simp
  | some t => simp

/-- **After any history the gate decides a request as the file's present content would, exactly when no rotation can
misjudge it.**  So the token that `GET /api/session` returns now is accepted exactly if no request has found another one
before. -/
theorem requireToken_current_iff (path : String) (history : List Event) (req : Request) :
    (((Server.after path history).admits path req ↔ presentsCurrent history req) ↔ undisputed history req) ∧
      ∀ t, session (fileAfter history) = .ok t → extractToken req = some t →
        ((Server.after path history).admits path req ↔ ∀ u, firstFound history = some u → u = t) := by
  rw [admits_iff]
  constructor
  · unfold presentsCurrent undisputed
    cases hc : firstFound history with
    | none => simp
    | some c =>
      by_cases hf : fileToken (fileAfter history) = some c
      · simp [hf]
      · have hne : ¬ some c = fileToken (fileAfter history) := fun h => hf h.symm
        simp only [Option.some_or, reduceCtorEq, false_or, hne]
        constructor
        · intro h t ht
          refine ⟨fun hct => ?_, fun hft => ?_⟩
          · obtain ⟨u, hu, hut⟩ := h.1 ⟨t, hct, ht⟩
            rw [ht] at hut
            exact hne (hct.trans (hut ▸ hu.symm))
          · obtain ⟨u, hu, hut⟩ := h.2 ⟨t, hft, ht⟩
            rw [ht] at hut
            exact hne (hu.trans (hut ▸ hft.symm))
        · intro h
          constructor
          · rintro ⟨t, hct, ht⟩
            exact absurd hct (h t ht).1
          · rintro ⟨t, hft, ht⟩
            exact absurd hft (h t ht).2
  · intro t hsession ht
    rw [(session_eq_fileToken _ t).1 hsession, ht]
    cases hc : firstFound history with
    | none => simp
    | some c => simp [eq_comm]

/-- A request finds the token, `GET /api/session` returns it, and it is accepted. -/
theorem requireToken_current_iff_unchanged :
    (Server.after "/data/token" [.file (some "one\n"), .request ⟨none, .absent⟩, .session]).admits "/data/token"
      ⟨some "Bearer one", .absent⟩ := by
  have hsession := (session_eq_fileToken (fileAfter [.file (some "one\n"), .request ⟨none, .absent⟩, .session]) "one").2
    (by decide +kernel)
  refine ((requireToken_current_iff _ _ _).2 "one" hsession (by decide +kernel)).2 (fun u hu => ?_)
  have hfirst : firstFound [.file (some "one\n"), .request ⟨none, .absent⟩, .session] = some "one" := by decide +kernel
  exact (Option.some.inj (hfirst.symm.trans hu)).symm

/-- The token file is replaced after the first request: the gate refuses the token `GET /api/session` returns. -/
theorem requireToken_stale :
    ¬ ∀ (path : String) (history : List Event) (req : Request),
      (Server.after path history).admits path req ↔ presentsCurrent history req := by
  intro h
  have h1 := (h "/data/token" [.file (some "old\n"), .request ⟨some "Bearer old", .absent⟩, .file (some "new\n"), .session]
    ⟨some "Bearer new", .absent⟩).2 ⟨"new", by decide +kernel, by decide +kernel⟩
  exact absurd h1 (by unfold Server.admits; decide +kernel)

end Auth
end SignalkDoctor
