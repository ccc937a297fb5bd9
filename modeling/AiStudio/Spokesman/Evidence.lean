import AiStudio.Data.Json
import AiStudio.Data.Numerals
import AiStudio.Runtime.Models
import AiStudio.Spokesman.Inbound

/-!
# Evidence and its verification

Embeds `runtime/grounding.py` and the verification engine of `spokesman/grounding_gate.py`:
claims, the references they carry, and the verdict the gate gives on them. A reference is
checked against the source of truth: the rows of the readable tables as the driver returns
them, and the files on disk. What the server makes of a comparison, the files and their digest,
and the `repr` of a value are parameters.
-/

set_option autoImplicit false

namespace AiStudio.Spokesman

open AiStudio.Data AiStudio.Runtime

/-! ## Claims -/

/-- The kinds of evidence a claim may refer to. -/
inductive EvidenceKind where
  | event
  | task
  | dbRow
  | artifact
  | file
  | metric
  deriving DecidableEq, Repr

/-- The wire string of a kind. -/
def EvidenceKind.value : EvidenceKind → String
  | event => "event"
  | task => "task"
  | dbRow => "db_row"
  | artifact => "artifact"
  | file => "file"
  | metric => "metric"

/-- A pointer to a piece of evidence, and what should be found there. -/
structure EvidenceRef where
  kind : EvidenceKind
  locator : String
  expected : Option String := none
  located : isBlank locator = false

/-- An assertion to the human: a factual claim with evidence, or a judgment. -/
structure Claim where
  statement : String
  evidence : List EvidenceRef := []
  isJudgment : Bool := false
  stated : isBlank statement = false
  backed : isJudgment = false → evidence ≠ []

/-! ## Values -/

/-- A value of a column, as the driver returns it. Of the types beside these (timestamps,
documents, arrays) only the `str` matters. -/
inductive Cell where
  | null
  | bool (b : Bool)
  | int (n : Int)
  /-- The number `unscaled / 10 ^ scale`, with `scale` digits after the point. -/
  | numeric (unscaled : Int) (scale : Nat)
  | text (s : String)
  | uuid (id : Uuid)
  | object (o : PyObject)
  deriving DecidableEq

/-- The sign of a number in text. -/
def signText (n : Int) : List Char := if n < 0 then ['-'] else []

/-- A decimal number in the server's notation: every digit written out. -/
def plainDecimal (unscaled : Int) (scale : Nat) : String :=
  let digits := (Nat.toDigits 10 unscaled.natAbs).leftpad (scale + 1) '0'
  let whole := digits.length - scale
  String.ofList (signText unscaled ++ digits.take whole ++
    if scale = 0 then [] else '.' :: digits.drop whole)

/-- `str` of a `Decimal`: in scientific notation below one millionth. -/
def decimalStr (unscaled : Int) (scale : Nat) : String :=
  let digits := Nat.toDigits 10 unscaled.natAbs
  if scale < digits.length + 6 then plainDecimal unscaled scale
  else
    String.ofList (signText unscaled ++ digits.take 1 ++
      (if digits.length = 1 then [] else '.' :: digits.drop 1) ++ 'E' :: '-' ::
      Nat.toDigits 10 (scale + 1 - digits.length))

namespace Cell

/-- `str(value)`. -/
def str : Cell → String
  | null => "None"
  | bool b => if b then "True" else "False"
  | int n => toString n
  | numeric unscaled scale => decimalStr unscaled scale
  | text s => s
  | uuid id => id.text
  | object o => o.str

end Cell

/-- A row: the columns of its table with their values. -/
abbrev Row := List (String × Cell)

/-- The plain name of a column. -/
def isColumnName (s : String) : Bool :=
  !s.toList.isEmpty && s.toList.all fun c => c.isAlphanum || c = '_'

/-- A table: every row has a value for each column. -/
structure Relation where
  columns : List String
  rows : List Row
  named : ∀ c ∈ columns, isColumnName c = true
  total : ∀ row ∈ rows, row.map Prod.fst = columns

/-- The text of a column of a row. -/
def Row.text (row : Row) (column : String) : String := (row.lookup column).elim "" Cell.str

/-- `_TASK_STATUSES`. -/
def taskStatuses : List String :=
  ["up_for_grabs", "claimed", "in_progress", "blocked", "ready_for_review", "reviewer_blocked",
    "approved", "merged", "abandoned"]

/-- What the gate verifies against. Where the server or the file system refuses, the class of
the error is given. -/
structure SourceOfTruth where
  reachable : Bool
  autocommit : Bool
  relation : String → Relation
  /-- The check constraint of `tasks.status`. -/
  checked : ∀ row ∈ (relation "tasks").rows, row.text "status" ∈ taskStatuses
  /-- `column = %s`, of a cell and a text. -/
  equals : Cell → String → Except String Bool
  /-- The content of what exists under a path. -/
  file : String → Option (Except String (List UInt8))
  sha256 : List UInt8 → String
  digest : ∀ content, (sha256 content).length = 64 ∧ ∀ c ∈ (sha256 content).toList, isHexDigit c = true
  repr : Cell → String
  isIdentifier : String → Bool

/-! ## Resolutions -/

/-- The outcome of resolving a reference; `malformed` when what it expects is no assertion
that could be checked. -/
inductive Outcome where
  | resolved
  | contradicted
  | malformed
  | unresolved
  deriving DecidableEq, Repr

/-- The outcome of resolving a reference, with the local diagnostics. -/
structure RefResolution where
  kind : String
  locator : String
  outcome : Outcome
  actual : Option String := none
  note : String := ""
  deriving DecidableEq

/-- The referent was found and, where checked, matched or contradicted. -/
def RefResolution.isResolved (r : RefResolution) : Bool :=
  r.outcome = .resolved || r.outcome = .contradicted

/-- The verdict on a claim, with its resolutions. -/
structure ClaimVerdict where
  status : VerificationStatus
  refs : List RefResolution
  reason : String

namespace EvidenceRef

/-- A resolution of the reference. -/
def resolution (ref : EvidenceRef) (outcome : Outcome) (note : String := "")
    (actual : Option String := none) : RefResolution :=
  ⟨ref.kind.value, ref.locator, outcome, actual, note⟩

end EvidenceRef

/-- `_READABLE_TABLES`. -/
def readableTables : List String :=
  ["tasks", "events", "comms_claims", "identity_trust", "task_transitions", "approvals", "budgets"]

/-- `s.partition(sep)`, without the separator. -/
def partition (sep : Char) (s : String) : String × String :=
  (String.ofList (s.toList.takeWhile (· ≠ sep)),
    String.ofList ((s.toList.dropWhile (· ≠ sep)).drop 1))

/-- `s.startswith(pre)`, then what follows. -/
def afterPrefix? (pre s : String) : Option String :=
  if pre.toList.isPrefixOf s.toList then some (String.ofList (s.toList.drop pre.length)) else none

/-- `UUID(s)`. -/
def uuidOf (s : String) : Except String Uuid := (uuid? s).elim (.error "ValueError") .ok

/-- `int(s)`. -/
def intOf (s : String) : Except String Int := (readInt s).elim (.error "ValueError") .ok

/-! ## Resolvers -/

/-- `_parse_expected_fields` on one segment: a column and its value, or what is malformed. -/
def parseSegment (part : String) : Except String (String × String) :=
  if '=' ∉ part.toList then .error ("db_row expected must be col=val, got '" ++ strip part ++ "'")
  else
    let (col, val) := partition '=' part
    if strip col = "" then
      .error ("db_row expected has an empty column name in '" ++ strip part ++ "'")
    else .ok (strip col, strip val)

/-- `expected.split(',')`. -/
def splitCommas (s : String) : List String := (s.toList.splitOn ',').map String.ofList

/-- `_parse_expected_fields`: the well-formed segments and what is malformed of the others. -/
def parseExpectedFields (expected : Option String) : List (String × String) × List String :=
  let parts := if expected.getD "" = "" then [] else splitCommas (expected.getD "")
  (parts.filterMap fun part => (parseSegment part).toOption,
    parts.filterMap fun part =>
      match parseSegment part with
      | .error note => some note
      | .ok _ => none)

/-- The first field that differs from the row, or what is malformed about the fields. -/
def scanFields (row : Row) :
    List (String × String) → List String → (String × Cell × String) ⊕ List String
  | [], notes => .inr notes
  | (col, want) :: fields, notes =>
      match row.lookup col with
      | none =>
          scanFields row fields
            (notes ++ ["db_row expected references unknown column '" ++ col ++ "'"])
      | some got => if got.str ≠ want then .inl (col, got, want) else scanFields row fields notes

/-- The digest has the form of a SHA-256 in hexadecimal. -/
def isSha256Hex (value : String) : Bool :=
  let v := ((strip value).toList.map Char.toLower)
  v.length = 64 && v.all isHexDigit

namespace SourceOfTruth

variable (env : SourceOfTruth)

/-- A query, answered when the server can be reached. -/
def query {α : Type} (answer : Except String α) : Except String α :=
  if env.reachable then answer else .error "OperationalError"

/-- The first row of a table with a value in a column. -/
def rowWith (table column : String) (value : Cell) : Option Row :=
  (env.relation table).rows.find? fun row => row.lookup column = some value

/-- `SELECT * FROM table WHERE column = text`: the first row, or the refusal of the server. -/
def selectWhere (table column text : String) : Except String (Option Row) :=
  if column ∈ (env.relation table).columns then
    (env.relation table).rows.foldrM (fun row found => do
      let eq ← env.equals ((row.lookup column).getD .null) text
      return if eq then some row else found) none
  else .error "UndefinedColumn"

/-- The event a locator names: `seq:<n>`, `id:<uuid>`, a bare uuid or a bare number. -/
def locateEvent (locator : String) : Except String (Option Row) :=
  let loc := strip locator
  match afterPrefix? "seq:" loc with
  | some n => do
      let seq ← intOf n
      env.query (.ok (env.rowWith "events" "seq" (.int seq)))
  | none =>
      match afterPrefix? "id:" loc with
      | some text => do
          let id ← uuidOf text
          env.query (.ok (env.rowWith "events" "id" (.uuid id)))
      | none =>
          match uuidOf loc with
          | .ok id => env.query (.ok (env.rowWith "events" "id" (.uuid id)))
          | .error _ => do
              let seq ← intOf loc
              env.query (.ok (env.rowWith "events" "seq" (.int seq)))

/-- `_resolve_event`. -/
def resolveEvent (ref : EvidenceRef) : Except String RefResolution := do
  match ← env.locateEvent ref.locator with
  | none => return ref.resolution .unresolved "no such event"
  | some row =>
      let actual := row.text "type"
      match ref.expected with
      | none => return ref.resolution .resolved "" actual
      | some expected =>
          if actual ≠ expected then
            return ref.resolution .contradicted ("event type is " ++ env.repr (.text actual) ++
              ", expected " ++ env.repr (.text expected)) actual
          else return ref.resolution .resolved "" actual

/-- The task a locator names: a uuid, after `task:` or bare. -/
def locateTask (locator : String) : Except String (Option Row) := do
  let loc := strip locator
  let id ← uuidOf ((afterPrefix? "task:" loc).getD loc)
  env.query (.ok (env.rowWith "tasks" "id" (.uuid id)))

/-- `_resolve_task`. -/
def resolveTask (ref : EvidenceRef) : Except String RefResolution := do
  match ← env.locateTask ref.locator with
  | none => return ref.resolution .unresolved "no such task"
  | some row =>
      let actual := row.text "status"
      match ref.expected with
      | none => return ref.resolution .resolved "" actual
      | some expected =>
          let want := strip expected
          if want ∉ taskStatuses then
            return ref.resolution .malformed ("task expected " ++ env.repr (.text expected) ++
              " is not a known status (expected a bare lifecycle status)") actual
          else if actual ≠ want then
            return ref.resolution .contradicted ("task status is " ++ env.repr (.text actual) ++
              ", expected " ++ env.repr (.text want)) actual
          else return ref.resolution .resolved "" actual

/-- The column and the value of a primary key: `col=value`, or a value of `id`. -/
def primaryKey (rest : String) : String × String :=
  if '=' ∈ rest.toList then (partition '=' rest).map strip strip else ("id", strip rest)

/-- The row a `table:pk` locator names, or why it names none. -/
def locateRow (locator : String) : Except String (Except String Row) := do
  let (table, rest) := partition ':' (strip locator)
  let table := strip table
  if table ∉ readableTables then return .error ("table '" ++ table ++ "' not readable")
  else if rest = "" then return .error "missing pk"
  else
    let (pkcol, pkval) := primaryKey rest
    if !env.isIdentifier pkcol then return .error "invalid pk column"
    else
      match ← env.query (env.selectWhere table pkcol pkval) with
      | none => return .error "no such row"
      | some row => return .ok row

/-- `_resolve_db_row`: a contradiction wins over whatever is malformed beside it. -/
def resolveDbRow (ref : EvidenceRef) : Except String RefResolution := do
  match ← env.locateRow ref.locator with
  | .error note => return ref.resolution .unresolved note
  | .ok row =>
      let (fields, notes) := parseExpectedFields ref.expected
      match scanFields row fields notes with
      | .inl (col, got, want) =>
          return ref.resolution .contradicted (col ++ " is " ++ env.repr got ++ ", expected " ++
            env.repr (.text want)) (some (col ++ "=" ++ got.str))
      | .inr [] => return ref.resolution .resolved
      | .inr notes => return ref.resolution .malformed ("; ".intercalate notes)

/-- `_METRIC_QUERIES`, each with its value. -/
def metric? (name : String) : Option Nat :=
  match name with
  | "tasks_total" => some (env.relation "tasks").rows.length
  | "tasks_merged_total" =>
      some ((env.relation "tasks").rows.countP fun row => row.lookup "status" = some (.text "merged"))
  | "events_total" => some (env.relation "events").rows.length
  | "comms_claims_total" => some (env.relation "comms_claims").rows.length
  | _ => none

/-- `_resolve_metric`. -/
def resolveMetric (ref : EvidenceRef) : Except String RefResolution :=
  match env.metric? (strip ref.locator) with
  | none => .ok (ref.resolution .unresolved "metric not whitelisted")
  | some value => do
      let actual ← env.query (.ok (toString value))
      match ref.expected with
      | none => return ref.resolution .resolved "" actual
      | some expected =>
          match intOf expected with
          | .error _ =>
              return ref.resolution .malformed ("metric expected " ++ env.repr (.text expected) ++
                " is not a numeric count") actual
          | .ok want => do
              let count ← intOf actual
              if count ≠ want then
                return ref.resolution .contradicted ("metric is " ++ env.repr (.text actual) ++
                  ", expected " ++ toString want) actual
              else return ref.resolution .resolved "" actual

/-- The path of a `path[:line]` locator. -/
def filePath (locator : String) : String :=
  let loc := strip locator
  let reversed := loc.toList.reverse
  let tail := String.ofList (reversed.takeWhile (· ≠ ':')).reverse
  if ':' ∈ loc.toList && isDigits tail then
    String.ofList ((reversed.dropWhile (· ≠ ':')).drop 1).reverse
  else loc

/-- `_resolve_file`. -/
def resolveFile (ref : EvidenceRef) : Except String RefResolution :=
  match env.file (filePath ref.locator) with
  | none => .ok (ref.resolution .unresolved "path does not exist")
  | some content =>
      match ref.expected with
      | none => .ok (ref.resolution .resolved)
      | some expected =>
          if !isSha256Hex expected then
            .ok (ref.resolution .malformed "file expected must be a 64-char sha256 hex digest")
          else do
            let digest := env.sha256 (← content)
            if digest ≠ String.ofList ((strip expected).toList.map Char.toLower) then
              return ref.resolution .contradicted "file hash mismatch" digest
            else return ref.resolution .resolved

/-- `_resolve_artifact`: there is no store to resolve one against. -/
def resolveArtifact (ref : EvidenceRef) : Except String RefResolution :=
  .ok (ref.resolution .unresolved "no artifact store to resolve against")

/-- `_RESOLVERS`. -/
def resolver (ref : EvidenceRef) : Except String RefResolution :=
  match ref.kind with
  | .event => env.resolveEvent ref
  | .task => env.resolveTask ref
  | .dbRow => env.resolveDbRow ref
  | .metric => env.resolveMetric ref
  | .file => env.resolveFile ref
  | .artifact => resolveArtifact ref

/-- `resolve_ref`: whatever is raised, the reference is not resolved. -/
def resolveRef (ref : EvidenceRef) : RefResolution :=
  let committed : Except String RefResolution := do
    let res ← env.resolver ref
    if !env.autocommit then env.query (.ok res) else return res
  match committed with
  | .ok res => res
  | .error name => ref.resolution .unresolved ("resolution error: " ++ name)

/-- The verdict the resolutions of a claim give. -/
def judge (refs : List RefResolution) : ClaimVerdict :=
  match refs.find? (·.outcome = .contradicted) with
  | some bad => ⟨.rejected, refs, "contradicted: " ++ bad.note⟩
  | none =>
      if !refs.isEmpty && refs.all RefResolution.isResolved then
        ⟨.verified, refs, "all evidence resolved and matched"⟩
      else
        let notes := (refs.filter fun r => !r.isResolved).map RefResolution.note
        let problems := if "; ".intercalate notes = "" then "no evidence" else "; ".intercalate notes
        if refs.any (·.outcome = .malformed) then
          ⟨.unverifiable, refs, "unverifiable (evidence spec not interpretable): " ++ problems⟩
        else ⟨.unverifiable, refs, "unresolved: " ++ problems⟩

/-- `verify_claim`. -/
def verifyClaim (claim : Claim) : ClaimVerdict := judge (claim.evidence.map env.resolveRef)

end SourceOfTruth

end AiStudio.Spokesman
