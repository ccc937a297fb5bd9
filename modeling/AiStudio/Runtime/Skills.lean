import AiStudio.Runtime.Enforce
import AiStudio.Data.Text

/-!
# The review queue of skills

Embeds `promote_candidate` of `runtime/skills/review_queue.py` and the scan it makes. The
candidate files stand beside the database; reading one is a call of its own, so a writer
may come between any two of them. `parse_skill` reads YAML and is a parameter.
-/

set_option autoImplicit false

namespace AiStudio.Runtime

open AiStudio.Data AiStudio.Concurrency

/-! ## The review gate of a text -/

/-- The letter of a character, for a pattern that ignores case. -/
def foldCase (c : Char) : Char :=
  if c = 'ſ' then 's' else if c = 'ı' || c = 'İ' then 'i' else c.toLower

/-- The text begins with the word, whatever the case. -/
def startsWith (word : String) (text : List Char) : Bool :=
  word.toList.isPrefixOf (text.map foldCase)

/-- The blank characters from the last line end on. -/
def lastLine (blank : List Char) : List Char :=
  if blank.contains '\n' then '\n' :: blank.rtakeWhile (· ≠ '\n') else []

/-- A match of `^(\s*reviewed:\s*)false\s*$` at a line's start: what replaces it, and the
text after it. -/
def flipLine (text : List Char) : Option (List Char × List Char) :=
  let field := text.dropWhile isSpace
  if !startsWith "reviewed:" field then none
  else
    let value := (field.drop 9).dropWhile isSpace
    if !startsWith "false" value then none
    else
      let blank := (value.drop 5).takeWhile isSpace
      let rest := (value.drop 5).dropWhile isSpace
      let kept := text.take (text.length - value.length) ++ "true".toList
      if rest = [] then some (kept, [])
      else if blank.contains '\n' then some (kept, lastLine blank ++ rest)
      else none

/-- `re.subn` of that pattern: the new text, and how often it matched. `fuel` is as long as
the text; `before` is the character before it. -/
def flipAll : Nat → Option Char → List Char → List Char × Nat
  | 0, _, text => (text, 0)
  | _, _, [] => ([], 0)
  | fuel + 1, before, c :: cs =>
      let flipped := if before.all (· = '\n') then flipLine (c :: cs) else none
      match flipped with
      | none =>
          let (text, n) := flipAll fuel (some c) cs
          (c :: text, n)
      | some (kept, rest) =>
          let consumed := (c :: cs).take ((c :: cs).length - rest.length)
          let (text, n) := flipAll fuel consumed.getLast? rest
          (kept ++ text, n + 1)

/-- `_mark_reviewed`: the text with its gate flipped; none when it has no gate to flip. -/
def markReviewed (raw : String) : Option String :=
  let (text, n) := flipAll raw.length none raw.toList
  if n = 0 then none else some (String.ofList text)

/-! ## Candidate files -/

/-- The files named `SKILL.md` under the candidates root, by path. -/
abbrev Disk := Table String String

/-- The calls of a process on the candidate files. -/
inductive FileOp where
  | skillFiles
  | readText (path : String)
  | writeText (path text : String)

namespace FileOp

/-- What a call returns. -/
def Res : FileOp → Type
  | skillFiles => List String
  | readText _ => String
  | writeText .. => Unit

/-- The parts of a path. -/
def parts (path : String) : List (List Char) := path.toList.splitOn '/'

/-- `sorted(root.rglob("SKILL.md"))`: paths are compared part by part. -/
def sortedPaths (disk : Disk) : List String :=
  (disk.rows.map Prod.fst).insertionSort fun x y => ¬ parts y < parts x

/-- The file system's part of a call. -/
def exec : (o : FileOp) → Store × Disk → Except Exn (o.Res × (Store × Disk))
  | skillFiles => fun s => .ok (sortedPaths s.2, s)
  | readText path => fun s =>
      match s.2.find? path with
      | none => .error (.runtimeError "FileNotFoundError")
      | some text => .ok (text, s)
  | writeText path text => fun s =>
      .ok ((), s.1, (s.2.insert? path text).getD (s.2.modify path fun _ => text))

end FileOp

/-- The candidate files. -/
abbrev files : Interface (Store × Disk) Exn where
  Op := FileOp
  Res := FileOp.Res
  exec := FileOp.exec

/-- The database and the candidate files beside it. -/
abbrev library : Interface (Store × Disk) Exn := database.beside files

/-- A process with access to the candidate files. -/
abbrev Librarian (α : Type) := Program library α

/-- One call on the candidate files. -/
abbrev file (o : FileOp) : Librarian o.Res := Program.op (I := library) (.inr o)

/-! ## Candidates -/

/-- What the scan reads of a parsed skill. -/
structure Skill where
  name : String
  source : String := "unknown"
  reviewed : Bool := false

/-- A candidate in the queue. -/
structure Candidate where
  slug : String
  source : String
  path : String

/-- `_parse_source`: the leading word of a provenance line. -/
def parseSource (line : String) : String :=
  let head := String.ofList (line.toList.takeWhile (· ≠ ';'))
  let word := String.ofList ((strip head).toList.takeWhile (!isSpace ·))
  if word.toLower = "curator" then "curator"
  else if word.toLower = "researcher" then "researcher" else "unknown"

/-- The outcomes of `promote_candidate`. -/
inductive PromoteStatus where
  | notFound
  | pending
  | adopted
  | writeFailed
  deriving DecidableEq, Repr

/-- The wire string of an outcome. -/
def PromoteStatus.value : PromoteStatus → String
  | notFound => "not_found"
  | pending => "pending"
  | adopted => "adopted"
  | writeFailed => "write_failed"

/-- What `promote_candidate` returns. -/
structure PromoteResult where
  slug : String
  status : PromoteStatus
  source : String := "unknown"
  approvalId : Option Uuid := none
  adoptedPath : Option String := none
  reviewed : Bool := false

/-- A call of `promote_candidate`, the parser of skills, the tools of the live root with
their policy, and the ids its requests would draw. -/
structure Promotion where
  slug : String
  approver : String
  workstream : String := "productivity"
  role : String := "skill_promoter"
  skillSubdir : String := ""
  sha256 : String → String
  repr : String → String
  parse : String → String → Option Skill
  registry : ToolRegistry
  config : Policy.PolicyConfig
  requestId : Uuid
  writeId : Uuid

namespace Promotion

variable (a : Promotion)

/-- The failures that `load_skill` turns into a malformed skill. -/
def isOsError : Exn → Bool
  | .runtimeError name => name = "FileNotFoundError" || name = "OSError"
  | _ => false

/-- The candidate in a file: parsed, and not reviewed. -/
def candidateIn (path text : String) : Option Candidate :=
  match a.parse path text with
  | none => none
  | some skill => if skill.reviewed then none else some ⟨skill.name, parseSource skill.source, path⟩

/-- `load_skill` of a file of the scan; an unreadable file is skipped. -/
def loadCandidate (path : String) : Librarian (Option Candidate) :=
  ((file (.readText path)).bind fun text => .ret (a.candidateIn path text)).tryCatch fun e =>
    if isOsError e then .ret none else .throw e

/-- The loop of `scan_candidates`. -/
def loadAll : List String → Librarian (List Candidate)
  | [] => .ret []
  | path :: paths =>
      (a.loadCandidate path).bind fun candidate =>
        (loadAll paths).bind fun candidates => .ret (candidate.toList ++ candidates)

/-- `_find_candidate`: the first of the queue, sorted by slug. -/
def findCandidate : Librarian (Option Candidate) := do
  let paths ← file .skillFiles
  let candidates ← a.loadAll paths
  return (candidates.insertionSort fun x y => x.slug ≤ y.slug).find? (·.slug = a.slug)

/-- `adopt_fingerprint`. -/
def fingerprint : String := adoptFingerprint a.sha256 a.slug a.workstream

/-- The request for a human to adopt the candidate. -/
def approvalRequest (candidate : Candidate) : RequestArgs where
  taskId := none
  role := a.role
  tool := "skills"
  capabilities := ["fs.write"]
  tier := "red"
  reason := "adopt skill candidate " ++ a.repr a.slug ++ " (source=" ++ candidate.source ++
    ") into the live skills/ root as reviewed:true (ADR-0008 review gate)"
  workstream := a.workstream
  fingerprint := a.fingerprint

/-- No grant: ask for one, adopt nothing. -/
def pend (candidate : Candidate) : Librarian PromoteResult :=
  (requestApproval a.requestId (a.approvalRequest candidate)).inl.bind fun approval =>
    .ret { slug := a.slug, status := .pending, source := candidate.source,
           approvalId := some approval.1 }

/-- The path of the adopted file below the live root. -/
def livePath : String :=
  let slash := fun c => c = '/'
  let sub := String.ofList ((a.skillSubdir.toList.dropWhile slash).rdropWhile slash)
  if sub = "" then a.slug ++ "/SKILL.md" else sub ++ "/" ++ a.slug ++ "/SKILL.md"

/-- The write of an adopted text into the live root. -/
def write (adopted : String) : InvokeArgs where
  role := a.role
  toolName := "filesystem"
  workstream := a.workstream
  kwargs := [("op", .str "write"), ("path", .str a.livePath), ("content", .str adopted)]

/-- What becomes of the write: the event, or an honest failure. -/
def report (candidate : Candidate) (grantId : Uuid) (result : InvokeResult) :
    Librarian PromoteResult :=
  let ok := result.result.filter fun r => decide (result.status = .executed) && r.ok
  match ok with
  | none => .ret { slug := a.slug, status := .writeFailed, source := candidate.source,
                   approvalId := some grantId }
  | some wrote =>
      let path := ((wrote.metadata.lookup "path").bind Json.asStr?).getD a.livePath
      (emitEvent a.workstream none
        (.skillAdopted a.slug candidate.source a.approver grantId true false)).inl.bind fun _ =>
          .ret { slug := a.slug, status := .adopted, source := candidate.source,
                 approvalId := some grantId, adoptedPath := some path, reviewed := true }

/-- The grant is spent: read the candidate, flip its gate, and write it. -/
def adopt (candidate : Candidate) (grantId : Uuid) : Librarian PromoteResult :=
  (file (.readText candidate.path)).bind fun raw =>
    match markReviewed raw with
    | none => .throw (.valueError "candidate has no 'reviewed: false' frontmatter line to flip")
    | some adopted =>
        ((a.write adopted).invoke a.sha256 a.registry a.config a.writeId).inl.bind fun result =>
          a.report candidate grantId result

/-- The gate: a live grant is spent, else one is asked for. -/
def gate (candidate : Candidate) : Librarian PromoteResult :=
  (call (.findGrant a.fingerprint)).inl.bind fun grant =>
    match grant with
    | none => a.pend candidate
    | some (grantId, _) =>
        (call (.consumeGrant grantId)).inl.bind fun consumed =>
          match consumed with
          | none => a.pend candidate
          | some _ => a.adopt candidate grantId

/-- `promote_candidate`. -/
def promoteCandidate : Librarian PromoteResult :=
  a.findCandidate.bind fun candidate =>
    match candidate with
    | none => .ret { slug := a.slug, status := .notFound }
    | some candidate => a.gate candidate

end Promotion

end AiStudio.Runtime
