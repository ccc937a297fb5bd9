import AiStudio.Data.Number
import AiStudio.Data.Pieces
import AiStudio.Runtime.Store
import Mathlib.Data.Set.Function

/-!
# The search cache

Embeds `runtime/search/cache.py` and `runtime/search/gateway.py`: the key of a search, the rows
of `search_cache`, and `search`, which asks the policy engine, then the cache, then a provider.
The database stamps a row and the host reads its expiry, each with its own clock, so both are
part of the state.

- `transparent_of_agree`: what a run serves from the cache is what some provider answered.
- `stale_hit`: the host's clock may be behind, and then an answer is served past its time.
-/

set_option autoImplicit false

namespace AiStudio.Runtime.Search

open AiStudio.Data
open AiStudio.Runtime.Policy (PolicyConfig PolicyRequest)

/-! ## Results and rows -/

/-- `SearchResult`. -/
structure SearchResult where
  title : String
  url : String
  snippet : String := ""
  score : Number := .finite 0

/-- A value in the JSON object of a result. -/
inductive Field where
  | text (s : String)
  | number (x : Number)

/-- `model_dump`. -/
def SearchResult.dump (r : SearchResult) : List (String × Field) :=
  [("title", .text r.title), ("url", .text r.url), ("snippet", .text r.snippet),
    ("score", .number r.score)]

/-- A field of type `str`, which must be there unless it has a default. -/
def textField (doc : List (String × Field)) (name : String) (default : Option String) :
    Except Exn String :=
  match doc.lookup name, default with
  | some (.text s), _ => .ok s
  | some (.number _), _ => .error (.valueError (name ++ ": Input should be a valid string"))
  | none, some default => .ok default
  | none, none => .error (.valueError (name ++ ": Field required"))

/-- `model_validate`. Only `put` writes the column, so that a score is never a text. -/
def SearchResult.validate (doc : List (String × Field)) : Except Exn SearchResult := do
  let title ← textField doc "title" none
  let url ← textField doc "url" none
  let snippet ← textField doc "snippet" (some "")
  match doc.lookup "score" with
  | none => return { title, url, snippet }
  | some (.number score) => return { title, url, snippet, score }
  | some (.text _) => .error (.valueError "score: Input should be a valid number")

/-- `_results_to_json`. -/
def resultsToJson (results : List SearchResult) : List (List (String × Field)) :=
  results.map SearchResult.dump

/-- `_json_to_results`. -/
def jsonToResults (raw : List (List (String × Field))) : Except Exn (List SearchResult) :=
  raw.mapM SearchResult.validate

/-- PostgreSQL takes a text without a NUL. -/
def storableText (s : String) : Bool := !s.toList.contains '\x00'

/-- `jsonb` takes no NUL, and no number that is not finite. -/
def Field.storable : Field → Bool
  | text s => storableText s
  | number x => x.isFinite

/-- The primary key of `search_cache`. -/
structure Key where
  queryHash : String
  provider : String
  k : Int
  deriving DecidableEq

/-- A row of `search_cache`. -/
structure CachedSearch where
  query : String
  results : List (List (String × Field))
  createdAt : Time
  expiresAt : Option Time

/-- `is_expired`. -/
def isExpired (expiresAt : Option Time) (now : Time) : Bool := expiresAt.any (· ≤ now)

/-! ## Keys -/

/-- What the code takes from the library: `str.lower` and SHA-256 of a text, in digits. -/
structure Library where
  lower : String → String
  sha256 : String → String

namespace Library

variable (lib : Library)

/-- `normalize_query`. -/
def normalizeQuery (query : String) : String :=
  lib.lower (" ".intercalate ((pieces isSpace query.toList).map String.ofList))

/-- The text that is hashed. -/
def material (query provider : String) (k : Int) : String :=
  lib.normalizeQuery query ++ "\x00" ++ provider ++ "\x00" ++ toString k

/-- `query_hash`. -/
def queryHash (query provider : String) (k : Int) : String :=
  lib.sha256 (lib.material query provider k)

end Library

/-! ## Providers -/

/-- A `SearchProvider`. -/
structure Provider where
  name : String
  available : Bool
  search : String → Int → Except Exn (List SearchResult)

/-- What the environment offers: whether `SEARCH_DRY_RUN` is set, the provider without a key, and
`get_adapter`. -/
structure Backends where
  dryRunForced : Bool
  dryRun : Provider
  getAdapter : String → Option Provider

/-- `resolve_provider`. -/
def Backends.resolveProvider (backends : Backends) (name : String) : Provider :=
  if backends.dryRunForced || name = "dryrun" then backends.dryRun
  else
    match backends.getAdapter name with
    | some adapter => if adapter.available then adapter else backends.dryRun
    | none => backends.dryRun

/-! ## The state -/

/-- `SearchConfig`. -/
structure SearchConfig where
  defaultProvider : String := "dryrun"
  ttlS : Option Int := some 3600
  rememberResults : Bool := false

/-- The events of a search. -/
inductive SearchEvent where
  | denied (key : Key) (decision : Policy.Decision)
  | cacheHit (key : Key) (count : Nat)
  | cacheMiss (key : Key)
  | providerCall (key : Key) (servedBy : String) (dryRun : Bool) (count latencyMs : Nat)

/-- A call of a provider, and when it came back; without an answer it raised. -/
structure ProviderCall where
  query : String
  provider : String
  k : Int
  ttlS : Option Int
  time : Time
  answer : Option (List SearchResult)

/-- What a search does beyond its return. -/
inductive Deed where
  | cacheRead (key : Key)
  | cacheWrite (key : Key)
  | called (call : ProviderCall)
  | event (e : SearchEvent)
  | remembered (summary : String)

/-- The cache, the clocks of the database and of the host, and what was done so far. -/
structure World where
  cache : Table Key CachedSearch
  clock : Time
  hostClock : Time
  trail : List Deed

namespace World

/-- A cache that was never written. -/
def initial (clock hostClock : Time) : World := ⟨.empty, clock, hostClock, []⟩

def note (w : World) (d : Deed) : World := { w with trail := w.trail ++ [d] }

/-- `sink.emit(make_event(..))`. -/
def emit (w : World) (workstream : String) (e : SearchEvent) : Except Exn World :=
  (requireWorkstream workstream).map fun _ => w.note (.event e)

/-- Both clocks go on; the host's may be set. -/
def wait (w : World) (elapsed : Nat) (shift : Int) : World :=
  { w with clock := w.clock + elapsed, hostClock := w.hostClock + shift }

/-- `now() + make_interval(secs => ttl_s)`. -/
def expiry (w : World) (ttlS : Int) : Time := w.clock + ttlS * 1000000

end World

/-! ## A call -/

/-- The arguments of `search`, and what its surroundings do meanwhile: how the clocks move while
the provider works, and what the database raises. -/
structure Call where
  connected : Bool
  ownCache : Bool := false
  role : String
  query : String
  k : Int := 5
  provider : Option String := none
  /-- `ttl_s`; `none` when it is left out. -/
  ttlS : Option (Option Int) := none
  config : SearchConfig := {}
  policy : PolicyConfig
  providerImpl : Option Provider := none
  backends : Backends
  workstream : String := "productivity"
  elapsed : Nat := 0
  shift : Int := 0
  latencyMs : Nat := 0
  readFault : Option Exn := none
  writeFault : Option Exn := none

namespace Call

variable (c : Call)

/-- `provider or config.default_provider`. -/
def providerName : String :=
  match c.provider with
  | some name => if name = "" then c.config.defaultProvider else name
  | none => c.config.defaultProvider

/-- There is a cache: one that is given, or that of the connection. -/
def hasCache : Bool := c.ownCache || c.connected

/-- The key of the search. -/
def key (lib : Library) : Key :=
  ⟨lib.queryHash c.query c.providerName c.k, c.providerName, c.k⟩

/-- The authorization that is asked for. -/
def request : PolicyRequest where
  role := c.role
  tool := "search"
  requiredCapabilities := {.netFetch}

/-- The decision of the policy engine. -/
def decision : Policy.Decision := Policy.decide c.request c.policy

/-- `config.ttl_s if ttl_s is _UNSET else ttl_s`. -/
def ttl : Option Int := c.ttlS.getD c.config.ttlS

/-- `SearchCache.get`, and the results if the row is not expired. -/
def lookup (lib : Library) (w : World) : Except Exn (Option (List SearchResult)) :=
  if !c.hasCache then .ok none
  else
    match c.readFault with
    | some e => .error e
    | none =>
        if !storableText c.providerName then .error (.dataError "text field with a NUL")
        else
          match w.cache.find? (c.key lib) with
          | none => .ok none
          | some row => do
              let results ← jsonToResults row.results
              return if isExpired row.expiresAt w.hostClock then none else some results

/-- The row that `SearchCache.put` writes. -/
def row (results : List SearchResult) (w : World) : CachedSearch where
  query := c.query
  results := resultsToJson results
  createdAt := w.clock
  expiresAt := c.ttl.map w.expiry

/-- The columns take the values. -/
def storable (results : List SearchResult) : Bool :=
  storableText c.query && storableText c.providerName &&
    (resultsToJson results).all (·.all (·.2.storable)) && -2147483648 ≤ c.k && c.k ≤ 2147483647

/-- `SearchCache.put`. -/
def put (lib : Library) (results : List SearchResult) (w : World) : Except Exn World :=
  if !c.hasCache then .ok w
  else
    match c.writeFault with
    | some e => .error e
    | none =>
        if c.storable results then
          .ok { w with cache := w.cache.upsert (c.key lib) (c.row results w) }
        else .error (.dataError "value out of the range of its column")

/-- `_remember_results`: the text that is remembered. -/
def summary (results : List SearchResult) : String :=
  "search:" ++ c.query ++ "\n" ++
    "\n".intercalate ((results.take 5).map fun r => "- " ++ r.title ++ " (" ++ r.url ++ ")")

/-- The end of a search that missed: two events, and the memory. Both events are of one
workstream, so the second is never refused. -/
def report (lib : Library) (impl : Provider) (results : List SearchResult) (w : World) :
    Except Exn World := do
  let w ← w.emit c.workstream (.cacheMiss (c.key lib))
  let w ← w.emit c.workstream (.providerCall (c.key lib) impl.name
    (impl.name = "dryrun" && c.providerName ≠ "dryrun") results.length c.latencyMs)
  return if c.config.rememberResults && c.connected && !results.isEmpty then
    w.note (.remembered (c.summary results)) else w

/-- The call of the provider, as it is recorded. -/
def asked (answer : Option (List SearchResult)) (w : World) : ProviderCall :=
  ⟨c.query, c.providerName, c.k, c.ttl, w.clock, answer⟩

end Call

/-- What a search raises. -/
inductive Raised where
  | searchDenied (decision : Policy.Decision)
  | exn (e : Exn)

/-- What a search returns or raises, and the state it leaves. -/
abbrev Outcome := Except Raised (List SearchResult) × World

/-- The rest of a search that missed: the provider, the cache, the events. -/
def fetch (lib : Library) (c : Call) (w : World) : Outcome :=
  let impl := c.providerImpl.getD (c.backends.resolveProvider c.providerName)
  let w := w.wait c.elapsed c.shift
  match impl.search c.query c.k with
  | .error e => (.error (.exn e), w.note (.called (c.asked none w)))
  | .ok results =>
      let w := w.note (.called (c.asked (some results) w))
      let w := if c.hasCache then w.note (.cacheWrite (c.key lib)) else w
      match c.put lib results w with
      | .error e => (.error (.exn e), w)
      | .ok w =>
          match c.report lib impl results w with
          | .error e => (.error (.exn e), w)
          | .ok w => (.ok results, w)

/-- `search`: first the policy, then the cache, then the provider. -/
def search (lib : Library) (c : Call) (w : World) : Outcome :=
  if c.decision.effect ≠ .allow then
    match w.emit c.workstream (.denied (c.key lib) c.decision) with
    | .error e => (.error (.exn e), w)
    | .ok w => (.error (.searchDenied c.decision), w)
  else
    let w := if c.hasCache then w.note (.cacheRead (c.key lib)) else w
    match c.lookup lib w with
    | .error e => (.error (.exn e), w)
    | .ok (some results) =>
        match w.emit c.workstream (.cacheHit (c.key lib) results.length) with
        | .error e => (.error (.exn e), w)
        | .ok w => (.ok results, w)
    | .ok none => fetch lib c w

/-! ## Results come back -/

@[simp] theorem validate_dump (r : SearchResult) : SearchResult.validate r.dump = .ok r := by
  obtain ⟨title, url, snippet, score⟩ := r
  rfl

theorem jsonToResults_resultsToJson (results : List SearchResult) :
    jsonToResults (resultsToJson results) = .ok results := by
  unfold jsonToResults resultsToJson
  induction results with
  | nil => rfl
  | cons r results ih => rw [List.map_cons, List.mapM_cons, validate_dump, ih]; rfl

/-! ## What a call does -/

namespace World

variable {w w' : World}

@[simp] theorem note_trail (d : Deed) : (w.note d).trail = w.trail ++ [d] := rfl
@[simp] theorem note_cache (d : Deed) : (w.note d).cache = w.cache := rfl
@[simp] theorem note_clock (d : Deed) : (w.note d).clock = w.clock := rfl

theorem emit_eq_ok {workstream : String} {e : SearchEvent} (h : w.emit workstream e = .ok w') :
    w' = w.note (.event e) := by
  unfold emit at h
  cases hname : requireWorkstream workstream with
  | error exn =>
      rw [hname] at h
      cases h
  | ok name =>
      rw [hname] at h
      exact (Except.ok.inj h).symm

end World

/-- The call only adds to the trail, and leaves the cache as it is. -/
structure Adds (w w' : World) : Prop where
  cache : w'.cache = w.cache
  trail : w.trail <+: w'.trail

theorem Adds.refl (w : World) : Adds w w := ⟨rfl, List.prefix_rfl⟩

theorem Adds.trans {w w' w'' : World} (h : Adds w w') (h' : Adds w' w'') : Adds w w'' :=
  ⟨h'.cache.trans h.cache, h.trail.trans h'.trail⟩

theorem adds_note (w : World) (d : Deed) : Adds w (w.note d) := ⟨rfl, List.prefix_append _ _⟩

theorem adds_wait (w : World) (elapsed : Nat) (shift : Int) : Adds w (w.wait elapsed shift) :=
  ⟨rfl, List.prefix_rfl⟩

theorem adds_emit {w w' : World} {workstream : String} {e : SearchEvent}
    (h : w.emit workstream e = .ok w') : Adds w w' := by
  rw [World.emit_eq_ok h]
  exact adds_note w _

theorem adds_report {lib : Library} {c : Call} {impl : Provider} {results : List SearchResult}
    {w w' : World} (h : c.report lib impl results w = .ok w') : Adds w w' := by
  unfold Call.report at h
  cases hmiss : w.emit c.workstream (.cacheMiss (c.key lib)) with
  | error e =>
      rw [hmiss] at h
      cases h
  | ok w₁ =>
      rw [hmiss] at h
      change (w₁.emit _ _ >>= fun w₂ => _) = _ at h
      cases hcall : w₁.emit c.workstream (.providerCall (c.key lib) impl.name
          (impl.name = "dryrun" && c.providerName ≠ "dryrun") results.length c.latencyMs) with
      | error e =>
          rw [hcall] at h
          cases h
      | ok w₂ =>
          rw [hcall] at h
          obtain rfl := Except.ok.inj h
          have hevents : Adds w w₂ := (adds_emit hmiss).trans (adds_emit hcall)
          split
          · exact hevents.trans (adds_note _ _)
          · exact hevents

/-- **What `put` does**: nothing, or the row is written. -/
theorem put_eq_ok {lib : Library} {c : Call} {results : List SearchResult} {w w' : World}
    (h : c.put lib results w = .ok w') :
    w' = w ∨ w' = { w with cache := w.cache.upsert (c.key lib) (c.row results w) } := by
  unfold Call.put at h
  split at h
  · exact .inl (Except.ok.inj h).symm
  · split at h
    · cases h
    · split at h
      · exact .inr (Except.ok.inj h).symm
      · cases h

/-- **What `get` serves**: the results of the row under the key, which has not expired on the
clock of the host. -/
theorem lookup_eq_some {lib : Library} {c : Call} {w : World} {results : List SearchResult}
    (h : c.lookup lib w = .ok (some results)) :
    ∃ row, w.cache.find? (c.key lib) = some row ∧ jsonToResults row.results = .ok results ∧
      isExpired row.expiresAt w.hostClock = false := by
  unfold Call.lookup at h
  split at h
  · cases h
  · split at h
    · cases h
    · split at h
      · cases h
      · split at h
        · cases h
        · rename_i row hrow
          cases hread : jsonToResults row.results with
          | error e =>
              rw [hread] at h
              cases h
          | ok read =>
              rw [hread] at h
              have hfresh := Except.ok.inj h
              split at hfresh
              · cases hfresh
              · rename_i hexpired
                obtain rfl := Option.some.inj hfresh
                exact ⟨row, hrow, hread, by simpa using hexpired⟩

/-- What a search that missed leaves: the provider was called, and the cache is the old one or
has the answer under the key. -/
structure Fetched (lib : Library) (c : Call) (w w' : World) (answer : Option (List SearchResult)) :
    Prop where
  trail : w.trail ++ [.called (c.asked answer (w.wait c.elapsed c.shift))] <+: w'.trail
  cache : w'.cache = w.cache ∨ ∃ results, answer = some results ∧
    w'.cache = w.cache.upsert (c.key lib) (c.row results (w.wait c.elapsed c.shift))

theorem Fetched.trans {lib : Library} {c : Call} {w w' w'' : World}
    {answer : Option (List SearchResult)} (h : Fetched lib c w w' answer) (h' : Adds w' w'') :
    Fetched lib c w w'' answer where
  trail := h.trail.trans h'.trail
  cache := by
    rw [h'.cache]
    exact h.cache

/-- The row depends on the clock of the database alone. -/
theorem row_congr (c : Call) (results : List SearchResult) {w w' : World}
    (h : w'.clock = w.clock) : c.row results w' = c.row results w := by
  simp only [Call.row, h, CachedSearch.mk.injEq, true_and]
  exact congrArg (Option.map · c.ttl) (funext fun ttl => by rw [World.expiry, World.expiry, h])

theorem fetched_fetch (lib : Library) (c : Call) (w : World) :
    ∃ answer, Fetched lib c w (fetch lib c w).2 answer := by
  unfold fetch
  generalize c.providerImpl.getD (c.backends.resolveProvider c.providerName) = impl
  dsimp only
  split
  · exact ⟨none, List.prefix_rfl, .inl rfl⟩
  · rename_i results hsearch
    refine ⟨some results, ?_⟩
    generalize hcalled : (w.wait c.elapsed c.shift).note
      (.called (c.asked (some results) (w.wait c.elapsed c.shift))) = w₂
    generalize hwritten : (if c.hasCache then w₂.note (.cacheWrite (c.key lib)) else w₂) = w₃
    have hadds : Adds w₂ w₃ ∧ w₃.clock = w₂.clock := by
      rw [← hwritten]
      split
      · exact ⟨adds_note _ _, rfl⟩
      · exact ⟨.refl _, rfl⟩
    have hrow : c.row results w₃ = c.row results (w.wait c.elapsed c.shift) := by
      refine row_congr c results (hadds.2.trans ?_)
      rw [← hcalled, World.note_clock]
    have htrail : w.trail ++ [.called (c.asked (some results) (w.wait c.elapsed c.shift))] <+:
        w₃.trail := by
      have := hadds.1.trail
      rwa [← hcalled] at this
    have hcache : w₃.cache = w.cache := by
      rw [hadds.1.cache, ← hcalled]
      rfl
    have hkept : Fetched lib c w w₃ (some results) := ⟨htrail, .inl hcache⟩
    cases hput : c.put lib results w₃ with
    | error e => exact hkept
    | ok w₄ =>
        have hstored : Fetched lib c w w₄ (some results) := by
          rcases put_eq_ok hput with rfl | rfl
          · exact hkept
          · exact ⟨htrail, .inr ⟨results, rfl, by rw [← hrow, ← hcache]⟩⟩
        dsimp only
        cases hreport : c.report lib impl results w₄ with
        | error e => exact hstored
        | ok w₅ => exact hstored.trans (adds_report hreport)

/-- **What a search does.** -/
inductive Searched (lib : Library) (c : Call) (w : World) : Outcome → Prop where
  | denied (w' : World) (r : Raised) (hdenied : c.decision.effect ≠ .allow)
      (hevents : w' = w ∨ w' = w.note (.event (.denied (c.key lib) c.decision))) :
      Searched lib c w (.error r, w')
  | refused (w' : World) (e : Exn) (hallowed : c.decision.effect = .allow) (hadds : Adds w w') :
      Searched lib c w (.error (.exn e), w')
  | hit (w' : World) (results : List SearchResult) (row : CachedSearch)
      (hallowed : c.decision.effect = .allow) (hadds : Adds w w')
      (hrow : w.cache.find? (c.key lib) = some row)
      (hread : jsonToResults row.results = .ok results)
      (hfresh : isExpired row.expiresAt w.hostClock = false) : Searched lib c w (.ok results, w')
  | missed (w₁ : World) (hallowed : c.decision.effect = .allow) (hadds : Adds w w₁)
      (hclock : w₁.clock = w.clock) :
      Searched lib c w (fetch lib c w₁)

theorem searched_search (lib : Library) (c : Call) (w : World) :
    Searched lib c w (search lib c w) := by
  unfold search
  split
  · rename_i hdenied
    cases hemit : w.emit c.workstream (.denied (c.key lib) c.decision) with
    | error e => exact .denied w _ hdenied (.inl rfl)
    | ok w' => exact .denied w' _ hdenied (.inr (World.emit_eq_ok hemit))
  · rename_i hallowed
    rw [ne_eq, not_not] at hallowed
    dsimp only
    generalize hasked : (if c.hasCache then w.note (.cacheRead (c.key lib)) else w) = w₁
    have hadds : Adds w w₁ ∧ w₁.clock = w.clock ∧ w₁.hostClock = w.hostClock := by
      rw [← hasked]
      split
      · exact ⟨adds_note _ _, rfl, rfl⟩
      · exact ⟨.refl _, rfl, rfl⟩
    obtain ⟨hadds, hclock, hhost⟩ := hadds
    cases hlookup : c.lookup lib w₁ with
    | error e => exact .refused w₁ e hallowed hadds
    | ok found =>
        cases found with
        | none => exact .missed w₁ hallowed hadds hclock
        | some results =>
            obtain ⟨row, hrow, hread, hfresh⟩ := lookup_eq_some hlookup
            rw [hadds.cache] at hrow
            rw [hhost] at hfresh
            dsimp only
            cases hemit : w₁.emit c.workstream (.cacheHit (c.key lib) results.length) with
            | error e => exact .refused w₁ e hallowed hadds
            | ok w' =>
                exact .hit w' results row hallowed (hadds.trans (adds_emit hemit)) hrow hread hfresh

/-! ## Transparency -/

section Transparency

variable (lib : Library) (w : World) (c : Call)

/-- What the call adds to the trail. -/
def deeds : List Deed := (search lib c w).2.trail.drop w.trail.length

/-- The call returns the results without a call of a provider. -/
def Served (results : List SearchResult) : Prop :=
  (search lib c w).1 = .ok results ∧ ∀ a, .called a ∉ deeds lib w c

/-- A provider answered the results to a search with the same normalized query, provider and
number, less than its time to live ago. -/
def Answered (results : List SearchResult) : Prop :=
  ∃ a, .called a ∈ w.trail ∧ lib.normalizeQuery a.query = lib.normalizeQuery c.query ∧
    a.provider = c.providerName ∧ a.k = c.k ∧ a.answer = some results ∧
      ∀ ttlS, a.ttlS = some ttlS → w.clock - a.time < ttlS * 1000000

/-- What is served from the cache was answered, and a call that is denied asks neither the cache
nor a provider. -/
structure Transparent : Prop where
  answered : ∀ results, Served lib w c results → Answered lib w c results
  denied : c.decision.effect ≠ .allow →
    (∀ d ∈ deeds lib w c, ∃ e, d = .event e) ∧ (search lib c w).2.cache = w.cache

/-- What has expired under the key of the call by the clock of the database has expired by the
clock of the host. -/
def Agree : Prop :=
  ∀ row, w.cache.find? (c.key lib) = some row →
    isExpired row.expiresAt w.clock = true → isExpired row.expiresAt w.hostClock = true

variable {w c}

/-- **A call that is denied** does nothing but tell so. -/
theorem denied_deeds (hdenied : c.decision.effect ≠ .allow) :
    (∀ d ∈ deeds lib w c, ∃ e, d = .event e) ∧ (search lib c w).2.cache = w.cache := by
  unfold deeds
  have hsearched := searched_search lib c w
  generalize search lib c w = out at hsearched ⊢
  cases hsearched with
  | denied w' r _ hevents =>
      rcases hevents with rfl | rfl
      · simp
      · simp
  | refused w' e hallowed => exact absurd hallowed hdenied
  | hit w' results row hallowed => exact absurd hallowed hdenied
  | missed w₁ hallowed => exact absurd hallowed hdenied

/-- **What is served comes from the row under the key**, which has not expired on the clock of
the host. -/
theorem row_of_served {results : List SearchResult} (h : Served lib w c results) :
    ∃ row, w.cache.find? (c.key lib) = some row ∧ jsonToResults row.results = .ok results ∧
      isExpired row.expiresAt w.hostClock = false := by
  obtain ⟨hreturns, hnone⟩ := h
  unfold deeds at hnone
  have hsearched := searched_search lib c w
  generalize search lib c w = out at hsearched hreturns hnone
  cases hsearched with
  | denied w' r => cases hreturns
  | refused w' e => cases hreturns
  | hit w' served row hallowed hadds hrow hread hfresh =>
      obtain rfl := Except.ok.inj hreturns
      exact ⟨row, hrow, hread, hfresh⟩
  | missed w₁ hallowed hadds hclock =>
      obtain ⟨answer, hfetched⟩ := fetched_fetch lib c w₁
      refine absurd ?_ (hnone (c.asked answer (w₁.wait c.elapsed c.shift)))
      obtain ⟨new, hnew⟩ := hadds.trail
      obtain ⟨rest, hrest⟩ := hfetched.trail
      rw [← hrest, ← hnew]
      simp

end Transparency

/-! ## Runs -/

/-- A search, or time that goes by. -/
inductive Act where
  | search (c : Call)
  | wait (elapsed : Nat) (shift : Int)

section Runs

variable (lib : Library)

/-- The state after an act. -/
def step (w : World) : Act → World
  | .search c => (search lib c w).2
  | .wait elapsed shift => w.wait elapsed shift

/-- The property holds at every search of a run. -/
def Along (P : World → Call → Prop) (w : World) : List Act → Prop
  | [] => True
  | act :: acts => (∀ c, act = .search c → P w c) ∧ Along P (step lib w act) acts

/-- The texts that the searches of a run hash. -/
def materials (acts : List Act) : Set String :=
  {m | ∃ c, .search c ∈ acts ∧ lib.material c.query c.providerName c.k = m}

/-- The row under the key is what the provider answered, and expires when its time is up. -/
structure Backs (texts : Set String) (a : ProviderCall) (key : Key) (row : CachedSearch) : Prop where
  key : key = ⟨lib.queryHash a.query a.provider a.k, a.provider, a.k⟩
  material : lib.material a.query a.provider a.k ∈ texts
  answer : ∃ results, a.answer = some results ∧ jsonToResults row.results = .ok results
  expiry : row.expiresAt = a.ttlS.map fun ttlS => a.time + ttlS * 1000000

/-- **The invariant**: every row of the cache is backed by a call of a provider. -/
def Backed (texts : Set String) (w : World) : Prop :=
  ∀ key row, w.cache.find? key = some row → ∃ a, .called a ∈ w.trail ∧ Backs lib texts a key row

variable {lib} {texts : Set String} {w w' : World} {c : Call}

theorem backed_initial (clock hostClock : Time) : Backed lib texts (.initial clock hostClock) := by
  intro key row hrow
  cases hrow

theorem Backed.adds (h : Backed lib texts w) (hadds : Adds w w') : Backed lib texts w' := by
  intro key row hrow
  rw [hadds.cache] at hrow
  obtain ⟨a, hmem, hbacks⟩ := h key row hrow
  exact ⟨a, hadds.trail.subset hmem, hbacks⟩

theorem Backed.fetched (h : Backed lib texts w)
    (hmaterial : lib.material c.query c.providerName c.k ∈ texts)
    {answer : Option (List SearchResult)} (hfetched : Fetched lib c w w' answer) :
    Backed lib texts w' := by
  have hkept : ∀ key row, w.cache.find? key = some row →
      ∃ a, .called a ∈ w'.trail ∧ Backs lib texts a key row := by
    intro key row hrow
    obtain ⟨a, hmem, hbacks⟩ := h key row hrow
    exact ⟨a, hfetched.trail.subset (List.mem_append_left _ hmem), hbacks⟩
  intro key row hrow
  rcases hfetched.cache with hsame | ⟨results, rfl, hcache⟩
  · rw [hsame] at hrow
    exact hkept key row hrow
  · rw [hcache, Table.find?_upsert] at hrow
    split at hrow
    · rename_i hkey
      obtain rfl := Option.some.inj hrow
      refine ⟨c.asked (some results) (w.wait c.elapsed c.shift),
        hfetched.trail.subset (by simp), hkey, hmaterial, ⟨results, rfl, ?_⟩, rfl⟩
      exact jsonToResults_resultsToJson results
    · exact hkept key row hrow

/-- **A search keeps the invariant.** -/
theorem Backed.search (h : Backed lib texts w)
    (hmaterial : lib.material c.query c.providerName c.k ∈ texts) :
    Backed lib texts (search lib c w).2 := by
  have hsearched := searched_search lib c w
  generalize AiStudio.Runtime.Search.search lib c w = out at hsearched
  cases hsearched with
  | denied w' r hdenied hevents =>
      rcases hevents with rfl | rfl
      · exact h
      · exact h.adds (adds_note _ _)
  | refused w' e hallowed hadds => exact h.adds hadds
  | hit w' results row hallowed hadds => exact h.adds hadds
  | missed w₁ hallowed hadds =>
      obtain ⟨answer, hfetched⟩ := fetched_fetch lib c w₁
      exact (h.adds hadds).fetched hmaterial hfetched

/-- Searches whose keys agree have the same normalized query. -/
theorem normalizeQuery_eq {query query' provider : String} {k : Int}
    (h : lib.material query provider k = lib.material query' provider k) :
    lib.normalizeQuery query = lib.normalizeQuery query' := by
  have hlist := congrArg String.toList h
  simp only [Library.material, String.toList_append, List.append_cancel_right_eq] at hlist
  exact String.toList_injective hlist

/-- **What is served was answered**, if the clocks agree on the row. -/
theorem answered_of_served (hsha : Set.InjOn lib.sha256 texts) (h : Backed lib texts w)
    (hmaterial : lib.material c.query c.providerName c.k ∈ texts) (hagree : Agree lib w c)
    {results : List SearchResult} (hserved : Served lib w c results) :
    Answered lib w c results := by
  obtain ⟨row, hrow, hread, hfresh⟩ := row_of_served lib hserved
  obtain ⟨⟨query, provider, k, ttlS, time, answer⟩, hmem, hbacks⟩ := h _ row hrow
  obtain ⟨answered, hanswer, hread'⟩ := hbacks.answer
  obtain ⟨hhash, rfl, rfl⟩ := Key.mk.inj hbacks.key
  refine ⟨_, hmem, ?_, rfl, rfl, ?_, fun ttl httl => ?_⟩
  · exact (normalizeQuery_eq (hsha hmaterial hbacks.material hhash)).symm
  · rw [hanswer, ← Except.ok.inj (hread.symm.trans hread')]
  · have hnot : isExpired row.expiresAt w.clock = false := by
      rw [Bool.eq_false_iff]
      intro hexpired
      rw [hagree row hrow hexpired] at hfresh
      cases hfresh
    rw [hbacks.expiry] at hnot
    dsimp only at httl
    rw [httl] at hnot
    simp only [isExpired, Option.map_some, Option.any_some, decide_eq_false_iff_not] at hnot
    exact Int.sub_left_lt_of_lt_add (Int.not_le.1 hnot)

/-- The invariant along a run. -/
theorem transparent_along (hsha : Set.InjOn lib.sha256 texts) (acts : List Act)
    (hmaterials : materials lib acts ⊆ texts) (h : Backed lib texts w)
    (hagree : Along lib (Agree lib) w acts) : Along lib (Transparent lib) w acts := by
  induction acts generalizing w with
  | nil => trivial
  | cons act acts ih =>
      obtain ⟨hhere, hrest⟩ := hagree
      have hlater : materials lib acts ⊆ texts := by
        rintro m ⟨c, hc, rfl⟩
        exact hmaterials ⟨c, List.mem_cons_of_mem _ hc, rfl⟩
      refine ⟨?_, ?_⟩
      · rintro c rfl
        refine ⟨fun results hserved => ?_, denied_deeds lib⟩
        exact answered_of_served hsha h (hmaterials ⟨c, List.mem_cons_self, rfl⟩) (hhere c rfl)
          hserved
      · refine ih hlater ?_ hrest
        cases act with
        | search c => exact h.search (hmaterials ⟨c, List.mem_cons_self, rfl⟩)
        | wait elapsed shift => exact h.adds (adds_wait w elapsed shift)

/-- **The cache is transparent**: in a run whose searches find the clocks in agreement, whatever
is served was answered to the same search less than its time to live ago, and a search that is
denied asks nobody. -/
theorem transparent_of_agree (lib : Library) (acts : List Act) (clock hostClock : Time)
    (hsha : Set.InjOn lib.sha256 (materials lib acts))
    (hagree : Along lib (Agree lib) (.initial clock hostClock) acts) :
    Along lib (Transparent lib) (.initial clock hostClock) acts :=
  transparent_along hsha acts (Set.Subset.refl _) (backed_initial clock hostClock) hagree

/-- The clocks agree where the host's is not behind. -/
theorem agree_of_le {w : World} {c : Call} (h : w.clock ≤ w.hostClock) : Agree lib w c := by
  intro row hrow hexpired
  cases hexpires : row.expiresAt with
  | none =>
      rw [hexpires] at hexpired
      cases hexpired
  | some time =>
      rw [hexpires] at hexpired
      simp only [isExpired, Option.any_some, decide_eq_true_eq] at hexpired ⊢
      exact Int.le_trans hexpired h

end Runs

/-! ## Two clocks -/

/-- The library on the one text that is hashed below. -/
def sampleLibrary : Library where
  lower s := String.ofList (s.toList.map Char.toLower)
  sha256 _ := "0f7b34ccef8259dade6a5818cb519128a5b7a9a587b18760412a70d3845b52cf"

/-- A provider with one result. -/
def sampleProvider : Provider where
  name := "tavily"
  available := true
  search _ _ := .ok [{ title := "Lean", url := "https://example.invalid/lean" }]

/-- A researcher searches, and will have the answer kept for five seconds. -/
def researcherAsks (query : String) : Call where
  connected := true
  role := "researcher"
  query := query
  provider := some "tavily"
  ttlS := some (some 5)
  policy := { roles := [("researcher", {.netFetch})] }
  providerImpl := some sampleProvider
  backends := ⟨false, sampleProvider, fun _ => none⟩

/-- The same search twice, five seconds apart. -/
def askTwice : List Act :=
  [.search (researcherAsks "lean prover"), .wait 5000000 5000000,
    .search (researcherAsks "  Lean   Prover ")]

/-- The state the second search finds, where the host's clock is ten seconds behind. -/
def behind : World :=
  step sampleLibrary (step sampleLibrary (.initial 0 (-10000000))
    (.search (researcherAsks "lean prover"))) (.wait 5000000 5000000)

/-- **A stale hit**: the answer is served though its five seconds are up. -/
theorem stale_hit :
    ¬ Along sampleLibrary (Transparent sampleLibrary) (.initial 0 (-10000000)) askTwice := by
  rintro ⟨-, -, hlast, -⟩
  have htransparent : Transparent sampleLibrary behind (researcherAsks "  Lean   Prover ") :=
    hlast _ rfl
  have hserved : ((search sampleLibrary (researcherAsks "  Lean   Prover ") behind).1.isOk &&
      (deeds sampleLibrary behind (researcherAsks "  Lean   Prover ")).all fun d =>
        match d with
        | .called _ => false
        | _ => true) = true := by
    decide
  have hstale : (behind.trail.all fun d =>
      match d with
      | .called a => decide (a.ttlS = some 5) && !decide (behind.clock - a.time < 5 * 1000000)
      | _ => true) = true := by
    decide
  rw [Bool.and_eq_true, List.all_eq_true] at hserved
  obtain ⟨hok, hnone⟩ := hserved
  cases hreturns : (search sampleLibrary (researcherAsks "  Lean   Prover ") behind).1 with
  | error e =>
      rw [hreturns] at hok
      cases hok
  | ok results =>
      obtain ⟨a, hmem, -, -, -, -, hfresh⟩ := htransparent.answered results
        ⟨hreturns, fun a hcalled => by cases hnone _ hcalled⟩
      have hold := List.all_eq_true.1 hstale _ hmem
      simp only [Bool.and_eq_true, decide_eq_true_eq, Bool.not_eq_true', decide_eq_false_iff_not]
        at hold
      exact hold.2 (hfresh 5 hold.1)

/-- With one clock for both the run is transparent. -/
theorem transparent_askTwice :
    Along sampleLibrary (Transparent sampleLibrary) (.initial 0 0) askTwice := by
  refine transparent_of_agree sampleLibrary askTwice 0 0 ?_ ?_
  · have hone : ∀ m ∈ materials sampleLibrary askTwice, m = "lean prover\x00tavily\x005" := by
      rintro m ⟨c, hc, rfl⟩
      simp only [askTwice, List.mem_cons, Act.search.injEq, reduceCtorEq, List.not_mem_nil,
        or_false, false_or] at hc
      rcases hc with rfl | rfl
      · decide
      · decide
    intro m hm m' hm' _
    rw [hone m hm, hone m' hm']
  · refine ⟨fun c _ => agree_of_le (by decide), ⟨fun c hc => (by cases hc), ⟨fun c _ => ?_, trivial⟩⟩⟩
    exact agree_of_le (by decide)

end AiStudio.Runtime.Search
