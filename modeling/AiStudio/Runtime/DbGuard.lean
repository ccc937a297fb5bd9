import AiStudio.Data.Url
import Mathlib.Data.List.Infix

/-!
# The disposable-database guard

Embeds `require_disposable_db` of `runtime/db_guard.py` with `build_database_url` of
`runtime/models.py`, beside what libpq makes of the same string, to which `connect` of
`runtime/db.py` hands it. What `urlsplit` refuses about a network location, how a name is quoted in
a message, and the keywords libpq knows are arguments.

- `extractDbname_uri`, `extractDbname_word`: where the guard reads the name.
- `disposable_uri`, `disposable_word`: what libpq reads there.
-/

set_option autoImplicit false

namespace AiStudio.Runtime.DbGuard

open AiStudio.Data AiStudio.Data.Conninfo AiStudio.Data.Url

/-! ## The guard -/

/-- `OPT_IN_ENV`. -/
def optInEnv : String := "AI_STUDIO_TEST_DB"

/-- `_FALSEY`. -/
def falsey : List String := ["", "0", "false", "no", "off", "n"]

/-- `_is_truthy`. -/
def isTruthy : Option String → Bool
  | none => false
  | some value => !falsey.contains (String.ofList ((strip value).toList.map Char.toLower))

/-- A match of `_KV_DBNAME_RE`: what stands before `dbname=`, the name, and what is behind it. -/
structure Match where
  before : List Char
  value : List Char
  after : List Char

/-- The match that begins here. -/
def wordAt (before text : List Char) : Option Match :=
  if "dbname=".toList <+: text then
    match (text.drop 7).takeWhile (!isSpace ·) with
    | [] => none
    | c :: cs => some ⟨before, c :: cs, (text.drop 7).dropWhile (!isSpace ·)⟩
  else none

/-- The first match behind a blank. -/
def searchFrom (before : List Char) : List Char → Option Match
  | [] => none
  | c :: text =>
      (if isSpace c then wordAt (before ++ [c]) text else none).or (searchFrom (before ++ [c]) text)

/-- `_KV_DBNAME_RE.search`. -/
def search (dsn : List Char) : Option Match := (wordAt [] dsn).or (searchFrom [] dsn)

/-- `name.lower().endswith("_test")`; no other character has one of these as its small letter. -/
def endsInTest (name : List Char) : Bool := "_test".toList <:+ name.map Char.toLower

section Guard

variable (refused : List Char → Bool) (repr : String → String)

/-- `extract_dbname`. -/
def extractDbname (dsn : String) : Option String :=
  if dsn = "" then none
  else if "://".toList <:+: dsn.toList then
    match urlsplit refused dsn.toList with
    | none => none
    | some parts =>
        let name := parts.path.dropWhile (· = '/')
        if name = [] then none else some (String.ofList name)
  else (search dsn.toList).map fun found => String.ofList found.value

/-- `build_database_url`. -/
def buildDatabaseUrl (env : String → Option String) : String :=
  let url := (env "DATABASE_URL").getD ""
  if url ≠ "" then url
  else
    let user := quoteAll ((env "POSTGRES_USER").getD "aistudio")
    let db := (env "POSTGRES_DB").getD "aistudio"
    let password := (env "POSTGRES_PASSWORD").getD ""
    let host := (env "POSTGRES_HOST").getD "localhost"
    let port := (env "POSTGRES_PORT").getD "5432"
    let auth := if password ≠ "" then user ++ ":" ++ quoteAll password ++ "@" else user ++ "@"
    "postgresql://" ++ auth ++ host ++ ":" ++ port ++ "/" ++ db

/-- The string that the guard checks and a connection is made with. -/
def resolvedDsn (url : Option String) (env : String → Option String) : String :=
  url.getD (buildDatabaseUrl env)

/-- `require_disposable_db`. -/
def requireDisposableDb (url : Option String) (env : String → Option String) : Bool × String :=
  if isTruthy (env optInEnv) then
    (true, optInEnv ++ " opt-in set (operator declared DB disposable)")
  else
    match extractDbname refused (resolvedDsn url env) with
    | none => (false, "could not determine the target database name; refusing to treat it " ++
        "as disposable — set " ++ optInEnv ++ "=1 or use a *_test database")
    | some dbname =>
        if endsInTest dbname.toList then
          (true, "database name " ++ repr dbname ++ " ends with '_test' (disposable)")
        else
          (false, "refusing to run DB-backed tests against non-disposable DB " ++ repr dbname ++
            "; set " ++ optInEnv ++ "=1 or use a *_test database")

end Guard

/-! ## Names that end in `_test` -/

/-- A byte's small letter. -/
def lowerByte (b : UInt8) : UInt8 := if 65 ≤ b ∧ b ≤ 90 then b + 32 else b

/-- The name of a database ends in `_test`, in capital or small letters. -/
def isTestName (name : Bytes) : Bool := key "_test" <:+ name.map lowerByte

theorem eq_or_of_toLower {c d : Char} (h : c.toLower = d) :
    c = d ∨ 65 ≤ c.toNat ∧ c.toNat ≤ 90 ∧ c.toNat + 32 = d.toNat := by
  unfold Char.toLower at h
  split at h
  · rename_i hupper
    have hlow : 65 ≤ c.toNat := UInt32.le_iff_toNat_le.mp hupper.1
    have hhigh : c.toNat ≤ 90 := UInt32.le_iff_toNat_le.mp hupper.2
    have hsum : d.toNat = (c.toNat + 32) % 2 ^ 32 := by
      rw [← h]
      exact UInt32.toNat_add c.val 32
    exact .inr ⟨hlow, hhigh, by omega⟩
  · exact .inl h

/-- The characters that `_test` is written with. -/
def letters : List Char := "_tesTES".toList

theorem mem_letters {c : Char} (h : c.toLower ∈ "_test".toList) : c ∈ letters := by
  rcases eq_or_of_toLower (rfl : c.toLower = c.toLower) with hc | ⟨hlow, hhigh, hsum⟩
  · rw [← hc] at h
    have hall : ∀ d ∈ "_test".toList, d ∈ letters := forall_mem_of_all (by decide)
    exact hall c h
  · have hlower : ∀ d ∈ "_test".toList, 65 ≤ d.toNat - 32 → d.toNat - 32 ≤ 90 →
        Char.ofNat (d.toNat - 32) ∈ letters := forall_mem_of_all (by decide)
    have hmem := hlower _ h (by omega) (by omega)
    rwa [show c.toLower.toNat - 32 = c.toNat by omega, Char.ofNat_toNat] at hmem

/-- A name that ends in `_test` has an end written with these characters. -/
theorem exists_of_endsInTest {name : List Char} (h : endsInTest name = true) :
    ∃ text us, name = text ++ '_' :: us ∧ ('_' :: us).map Char.toLower = "_test".toList ∧
      ∀ c ∈ '_' :: us, c ∈ letters := by
  obtain ⟨before, hbefore⟩ := of_decide_eq_true h
  obtain ⟨text, ending, hname, -, hending⟩ := List.append_eq_map_iff.mp hbefore
  cases ending with
  | nil => cases hending
  | cons u us =>
      have hletters : ∀ c ∈ u :: us, c ∈ letters := fun c hc =>
        mem_letters (hending ▸ List.mem_map_of_mem hc)
      obtain rfl : u = '_' := by
        have hlower : u.toLower = '_' := (List.cons.inj hending).1
        have hall : ∀ d ∈ letters, d.toLower = '_' → d = '_' := forall_mem_of_all (by decide)
        exact hall u (hletters u (List.mem_cons_self ..)) hlower
      exact ⟨text, us, hname, hending, hletters⟩

/-- A name with such an end is one of a test database. -/
theorem isTestName_append {us : List Char}
    (hlower : ('_' :: us).map Char.toLower = "_test".toList) (hletters : ∀ c ∈ '_' :: us, c ∈ letters)
    (before : Bytes) : isTestName (before ++ utf8 ('_' :: us)) = true := by
  have hbyte : ∀ c ∈ letters, (String.utf8EncodeChar c).map lowerByte =
      String.utf8EncodeChar c.toLower := forall_mem_of_all (by decide)
  have hbytes : ∀ cs : List Char, (∀ c ∈ cs, c ∈ letters) →
      (utf8 cs).map lowerByte = utf8 (cs.map Char.toLower) := by
    intro cs hcs
    rw [utf8, utf8, List.map_flatMap, List.flatMap_map]
    exact List.flatMap_congr fun c hc => hbyte c (hcs c hc)
  refine decide_eq_true ⟨before.map lowerByte, ?_⟩
  rw [List.map_append, hbytes _ hletters, hlower]
  rfl

/-! ## The same reading -/

/-- A URI of which the guard and libpq read the same path: no bracket is left open where it begins,
nothing in it ends or changes it for `urlsplit` only, and no parameter names another database. -/
def ReadsPath (rest : List Char) : Prop :=
  ∀ network more, rest = network ++ '/' :: more → (∀ c ∈ network, isDelimiter c = false) →
    (']' ∈ network → ∀ a b, network = a ++ '[' :: b → ']' ∈ b) ∧
    (∀ c ∈ more.takeWhile (· ≠ '?'), c ≠ '#' ∧ isKept c = true) ∧
    NoDbname ((more.dropWhile (· ≠ '?')).drop 1)

/-- A string of keywords and values whose first `dbname=` behind a blank is the last setting of the
database that libpq reads, without quotes and ended by a blank of its own. -/
def ReadsWord (known : Bytes → Bool) (dsn : List Char) : Prop :=
  ∀ found, search dsn = some found →
    (∃ s, found.before.foldlM (Scan.step known) ⟨[], .between⟩ = some s ∧ s.phase = .between) ∧
    found.value.head? ≠ some '\x27' ∧
    (∀ c ∈ found.after.head?, isSpaceC c = true) ∧
    ∀ later, kvSettings known found.after = some later →
      ∀ setting ∈ later, setting.1 ≠ key "dbname"

/-- libpq refuses the string, or it reads the name of the database where the guard does. -/
def SameReading (known : Bytes → Bool) (dsn : String) : Prop :=
  settings known dsn = none ∨
    '\x00' ∉ dsn.toList ∧
      match uriRest? dsn.toList with
      | some rest => ReadsPath rest
      | none => ¬ "://".toList <:+: dsn.toList ∧ ReadsWord known dsn.toList

/-- A network location and what is behind it are parted in one way. -/
theorem readsPath_of {network more : List Char} (hnetwork : ∀ c ∈ network, isDelimiter c = false)
    (hbrackets : ']' ∈ network → ∀ a b, network = a ++ '[' :: b → ']' ∈ b)
    (hpath : ∀ c ∈ more.takeWhile (· ≠ '?'), c ≠ '#' ∧ isKept c = true)
    (hquery : NoDbname ((more.dropWhile (· ≠ '?')).drop 1)) :
    ReadsPath (network ++ '/' :: more) := by
  intro network' more' heq hnetwork'
  have htake (n m : List Char) (hn : ∀ c ∈ n, isDelimiter c = false) :
      (n ++ '/' :: m).takeWhile (!isDelimiter ·) = n := by
    rw [List.takeWhile_append_of_pos fun c hc => by rw [hn c hc]; rfl,
      List.takeWhile_cons_of_neg (by decide), List.append_nil]
  obtain rfl : network = network' := by
    rw [← htake network more hnetwork, heq, htake network' more' hnetwork']
  obtain rfl := (List.cons.inj (List.append_cancel_left heq)).2
  exact ⟨hbrackets, hpath, hquery⟩

section Readings

variable {refused : List Char → Bool} {known : Bytes → Bool} {dsn dbname : String}
  {scheme rest network more : List Char} {read : List Setting}

theorem of_uriRest? {text : List Char} (h : uriRest? text = some rest) :
    ∃ scheme, IsScheme scheme ∧ text = scheme ++ "://".toList ++ rest := by
  unfold uriRest? at h
  split at h
  · rename_i hprefix
    obtain ⟨tail, rfl⟩ := hprefix
    obtain rfl := Option.some.inj h
    exact ⟨"postgresql".toList, ⟨by decide, forall_mem_of_all (by decide)⟩, rfl⟩
  · split at h
    · rename_i hprefix
      obtain ⟨tail, rfl⟩ := hprefix
      obtain rfl := Option.some.inj h
      exact ⟨"postgres".toList, ⟨by decide, forall_mem_of_all (by decide)⟩, rfl⟩
    · cases h

/-- In a URL the guard reads the end of the path. -/
theorem extractDbname_url (hurl : "://".toList <:+: dsn.toList)
    (h : extractDbname refused dsn = some dbname) :
    ∃ parts, urlsplit refused dsn.toList = some parts ∧ dbname.toList <:+ parts.path ∧
      dbname.toList ≠ [] := by
  rw [extractDbname, if_pos hurl] at h
  split at h
  · cases h
  · split at h
    · cases h
    · rename_i parts hparts
      dsimp only at h
      split at h
      · cases h
      · rename_i hne
        obtain rfl := Option.some.inj h
        rw [String.toList_ofList]
        exact ⟨parts, hparts, List.dropWhile_suffix _, hne⟩

/-- A path that the guard reads is the one that libpq reads. -/
theorem extractDbname_uri (hscheme : IsScheme scheme)
    (hdsn : dsn.toList = scheme ++ "://".toList ++ rest) (hreads : ReadsPath rest)
    (h : extractDbname refused dsn = some dbname) :
    ∃ network more, rest = network ++ '/' :: more ∧ (∀ c ∈ network, isDelimiter c = false) ∧
      (∀ a b, network = a ++ '[' :: b → ']' ∈ b) ∧
      dbname.toList <:+ '/' :: more.takeWhile (· ≠ '?') ∧
      NoDbname ((more.dropWhile (· ≠ '?')).drop 1) := by
  have hurl : "://".toList <:+: dsn.toList := ⟨scheme, rest, hdsn.symm⟩
  obtain ⟨parts, hparts, hsuffix, hne⟩ := extractDbname_url hurl h
  rw [hdsn] at hparts
  have hnetwork : ∀ c ∈ rest.takeWhile (!isDelimiter ·), isDelimiter c = false := by
    intro c hc
    simpa using List.mem_takeWhile_imp hc
  cases hafter : rest.dropWhile (!isDelimiter ·) with
  | nil =>
      have hpath := urlsplit_path_nil hscheme (by rw [hafter]; simp) hparts
      rw [hpath] at hsuffix
      exact absurd (List.suffix_nil.mp hsuffix) hne
  | cons c more =>
      by_cases hc : c = '/'
      · subst hc
        have hrest : rest = rest.takeWhile (!isDelimiter ·) ++ '/' :: more := by
          rw [← hafter, List.takeWhile_append_dropWhile]
        obtain ⟨hbrackets, hkept, hquery⟩ := hreads _ more hrest hnetwork
        rw [hrest] at hparts
        obtain ⟨hpath, hmatch⟩ := urlsplit_path hscheme hnetwork hkept hparts
        refine ⟨_, more, hrest, hnetwork, ?_, hpath ▸ hsuffix, hquery⟩
        intro a b hab
        have hopen : '[' ∈ rest.takeWhile (!isDelimiter ·) := by
          rw [hab]
          exact List.mem_append_right _ (List.mem_cons_self ..)
        exact hbrackets (hmatch.mp hopen) a b hab
      · have hpath := urlsplit_path_nil hscheme
          (by rw [hafter]; exact fun heq => hc (Option.some.inj heq)) hparts
        rw [hpath] at hsuffix
        exact absurd (List.suffix_nil.mp hsuffix) hne

/-- The last setting of the database has an end that the guard reads as `_test`. -/
def NamesTest (read : List Setting) : Prop :=
  ∃ before us, lastValue (key "dbname") read = some (before ++ utf8 ('_' :: us)) ∧
    ('_' :: us).map Char.toLower = "_test".toList ∧ ∀ c ∈ '_' :: us, c ∈ letters

/-- A URI whose path ends in `_test` for the guard names such a database. -/
theorem namesTest_uri (hscheme : IsScheme scheme)
    (hdsn : dsn.toList = scheme ++ "://".toList ++ rest) (hreads : ReadsPath rest)
    (h : extractDbname refused dsn = some dbname) (htest : endsInTest dbname.toList = true)
    (hread : uriSettings known rest = some read) : NamesTest read := by
  obtain ⟨network, more, rfl, hnetwork, hbrackets, hsuffix, hquery⟩ :=
    extractDbname_uri hscheme hdsn hreads h
  obtain ⟨text, us, hname, hlower, hletters⟩ := exists_of_endsInTest htest
  have hpath : ∃ text', more.takeWhile (· ≠ '?') = text' ++ '_' :: us := by
    obtain ⟨before, hbefore⟩ := hsuffix
    rw [hname, ← List.append_assoc] at hbefore
    cases hhead : before ++ text with
    | nil =>
        rw [hhead] at hbefore
        exact absurd (List.cons.inj hbefore).1 (by decide)
    | cons c text' =>
        rw [hhead] at hbefore
        exact ⟨text', (List.cons.inj hbefore).2.symm⟩
  obtain ⟨text', hpath⟩ := hpath
  have hdelim : ∀ c ∈ network, c ≠ '/' ∧ c ≠ '?' := by
    intro c hc
    have hnot := mt isDelimiter_iff.mpr (ne_true_of_eq_false (hnetwork c hc))
    exact ⟨fun heq => hnot (.inl heq), fun heq => hnot (.inr (.inl heq))⟩
  have hne : more.takeWhile (· ≠ '?') ≠ [] :=
    hpath ▸ List.append_ne_nil_of_right_ne_nil text' (List.cons_ne_nil _ _)
  obtain ⟨name, hdecode, hlast⟩ := uri_database hdelim hbrackets hne hquery hread
  rw [hpath] at hdecode
  have hplain : '%' ∉ '_' :: us := fun hmem => absurd (hletters _ hmem) (by decide)
  obtain ⟨before, rfl⟩ := decode_suffix (by decide) hplain text' hdecode
  exact ⟨before, us, hlast, hlower, hletters⟩

theorem wordAt_eq {before text : List Char} {found : Match} (h : wordAt before text = some found) :
    found.before = before ∧ text = "dbname=".toList ++ (found.value ++ found.after) ∧
      found.value ≠ [] ∧ ∀ c ∈ found.value, isSpace c = false := by
  unfold wordAt at h
  split at h
  · rename_i hprefix
    obtain ⟨tail, rfl⟩ := hprefix
    have htail : ("dbname=".toList ++ tail).drop 7 = tail := rfl
    rw [htail] at h
    split at h
    · cases h
    · rename_i c cs hvalue
      obtain rfl := Option.some.inj h
      refine ⟨rfl, ?_, List.cons_ne_nil c cs, fun d hd => ?_⟩
      · rw [← hvalue, List.takeWhile_append_dropWhile]
      · rw [← hvalue] at hd
        simpa using List.mem_takeWhile_imp hd
  · cases h

theorem searchFrom_eq {text : List Char} {found : Match} :
    ∀ before, searchFrom before text = some found →
      ∃ skipped, text = skipped ++ ("dbname=".toList ++ (found.value ++ found.after)) ∧
        found.before = before ++ skipped ∧ found.value ≠ [] ∧
        ∀ c ∈ found.value, isSpace c = false := by
  induction text with
  | nil =>
      intro before h
      cases h
  | cons c text ih =>
      intro before h
      rw [searchFrom, Option.or_eq_some_iff] at h
      rcases h with hhere | ⟨-, hrest⟩
      · split at hhere
        · obtain ⟨hbefore, rfl, hne, hspace⟩ := wordAt_eq hhere
          exact ⟨[c], rfl, hbefore, hne, hspace⟩
        · cases hhere
      · obtain ⟨skipped, rfl, hbefore, hne, hspace⟩ := ih (before ++ [c]) hrest
        exact ⟨c :: skipped, rfl, by rw [hbefore, List.append_assoc, List.singleton_append],
          hne, hspace⟩

/-- A match takes the string apart. -/
theorem search_eq {text : List Char} {found : Match} (h : search text = some found) :
    text = found.before ++ ("dbname=".toList ++ (found.value ++ found.after)) ∧
      found.value ≠ [] ∧ ∀ c ∈ found.value, isSpace c = false := by
  rw [search, Option.or_eq_some_iff] at h
  rcases h with hhere | ⟨-, hrest⟩
  · obtain ⟨hbefore, htext, hne, hspace⟩ := wordAt_eq hhere
    rw [hbefore]
    exact ⟨htext, hne, hspace⟩
  · obtain ⟨skipped, htext, hbefore, hne, hspace⟩ := searchFrom_eq [] hrest
    rw [hbefore]
    exact ⟨htext, hne, hspace⟩

theorem isSpace_of_isSpaceC {c : Char} (h : isSpaceC c = true) : isSpace c = true := by
  rw [isSpaceC, Bool.or_eq_true, decide_eq_true_eq] at h
  rcases h with rfl | hrange
  · rfl
  · simp only [isSpace, hrange, Bool.true_or]

/-- A string whose first `dbname=` names a test database for the guard names such a database. -/
theorem namesTest_word (hkv : ¬ "://".toList <:+: dsn.toList) (hreads : ReadsWord known dsn.toList)
    (h : extractDbname refused dsn = some dbname) (htest : endsInTest dbname.toList = true)
    (hread : kvSettings known dsn.toList = some read) : NamesTest read := by
  rw [extractDbname, if_neg hkv] at h
  split at h
  · cases h
  · obtain ⟨found, hfound, rfl⟩ := Option.map_eq_some_iff.mp h
    rw [String.toList_ofList] at htest
    obtain ⟨hbefore, hquote, hafter, hlater⟩ := hreads found hfound
    obtain ⟨hdsn, hne, hspace⟩ := search_eq hfound
    obtain ⟨text, us, hvalue, hlower, hletters⟩ := exists_of_endsInTest htest
    have hblank : ∀ c ∈ text ++ '_' :: us, isSpaceC c = false := by
      intro c hc
      by_contra hspaceC
      have hspace' := hspace c (hvalue ▸ hc)
      rw [isSpace_of_isSpaceC (eq_true_of_ne_false hspaceC)] at hspace'
      cases hspace'
    have hslash : '\\' ∉ '_' :: us := fun hmem => absurd (hletters _ hmem) (by decide)
    rw [hdsn, hvalue] at hread
    rw [hvalue] at hquote
    obtain ⟨value, hlast⟩ := kv_database hbefore hblank hquote hslash hafter hlater hread
    rw [utf8, List.flatMap_append] at hlast
    exact ⟨utf8 value, us, hlast, hlower, hletters⟩

/-- Where the guard and libpq read the same, a string that the guard takes for one of a test
database is one. -/
theorem namesTest (hsame : SameReading known dsn) (h : extractDbname refused dsn = some dbname)
    (htest : endsInTest dbname.toList = true) (hread : settings known dsn = some read) :
    NamesTest read := by
  rcases hsame with hnone | ⟨hnul, hreads⟩
  · rw [hnone] at hread
    cases hread
  · have htext : dsn.toList.takeWhile (· ≠ '\x00') = dsn.toList :=
      List.takeWhile_eq_self_iff.mpr fun c hc => decide_eq_true fun heq => hnul (heq ▸ hc)
    rw [settings, htext] at hread
    cases hrest : uriRest? dsn.toList with
    | some rest =>
        rw [hrest] at hread hreads
        obtain ⟨scheme, hscheme, hdsn⟩ := of_uriRest? hrest
        exact namesTest_uri hscheme hdsn hreads h htest hread
    | none =>
        rw [hrest] at hread hreads
        exact namesTest_word hreads.1 hreads.2 h htest hread

end Readings

/-! ## Soundness -/

section Sound

variable {refused : List Char → Bool} {repr : String → String} {known : Bytes → Bool}
  {url : Option String} {env : String → Option String}

/-- Without the opt-in the guard says yes to a name that ends in `_test` only. -/
theorem exists_of_disposable (hopt : isTruthy (env optInEnv) = false)
    (h : (requireDisposableDb refused repr url env).1 = true) :
    ∃ dbname, extractDbname refused (resolvedDsn url env) = some dbname ∧
      endsInTest dbname.toList = true := by
  rw [requireDisposableDb, hopt, if_neg (by decide)] at h
  split at h
  · cases h
  · rename_i dbname hdbname
    split at h
    · exact ⟨dbname, hdbname, by assumption⟩
    · cases h

end Sound

end AiStudio.Runtime.DbGuard
