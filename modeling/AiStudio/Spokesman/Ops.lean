import Mathlib.Data.Rat.Defs
import AiStudio.Spokesman.Evidence

/-!
# Host operations and their audit

Embeds `spokesman/ops.py`. The audit event of an operation shows the arguments given to docker
with their secrets redacted, and two runs that differ only in a secret should leave the same
one. `sameAudit_iff` says when they do: the redaction hides the value after `-e` and `--env`, not
behind `--env=`, and behind an attached `-e` only if the name of the variable gives it away; and
a value that mentions postgres may decide whether the command counts as destructive. The runner
and the `repr` of a text are parameters.
-/

set_option autoImplicit false

namespace AiStudio.Spokesman

open AiStudio.Data

/-! ## Operations -/

/-- An operation that is malformed or unknown. -/
structure OpsError where
  message : String
  action : String := "unknown"

/-- What became of a docker process. -/
structure CompletedRun where
  exitCode : Int
  stdout : String
  stderr : String
  timedOut : Bool := false

/-- A recognized operation with its arguments. -/
structure ParsedOp where
  action : String
  argv : List String

/-- What `run_ops` returns. -/
structure OpsResult where
  ok : Bool
  action : String
  argv : List String := []
  exitCode : Option Int := none
  stdout : String := ""
  stderr : String := ""
  destructive : Bool := false
  needsConfirm : Bool := false
  timedOut : Bool := false
  error : Option String := none

/-- The payload of `ops.invoked`. -/
structure OpsAudit where
  action : String
  argv : List String
  identity : String
  destructive : Bool
  blocked : Bool
  ok : Bool
  exitCode : Option Int
  timedOut : Bool := false
  error : Option String := none

/-! ## Texts -/

/-- `pattern in s`. -/
def contains (pattern s : String) : Bool := decide (pattern.toList <:+: s.toList)

/-- `s.startswith(pattern)`. -/
def startsWith (pattern s : String) : Bool := pattern.toList.isPrefixOf s.toList

/-- What `$` matches the end of: one newline at the end does not count. -/
def beforeEnd (s : String) : List Char :=
  if s.toList.getLast? = some '\n' then s.toList.dropLast else s.toList

/-! ## Redaction -/

/-- `_ENV_FLAGS` and `_PASSWORD_FLAGS`. -/
def secretFlags : List String :=
  ["-e", "--env", "--env-file", "--password", "--password-stdin", "-p"]

/-- `_SECRET_KEY_RE.match(key)`. -/
def isSecretKey (key : String) : Bool :=
  match beforeEnd key with
  | [] => false
  | c :: cs => c.isUpper && cs.all fun c => c.isUpper || c.isDigit || c = '_'

/-- A letter without its case, as `re.IGNORECASE` has it. -/
def foldCase (c : Char) : Char :=
  if c = 'ſ' then 'S' else if c = '\u212A' then 'K' else c.toUpper

/-- `_SECRET_HINT_RE.search(key)`. -/
def hasSecretHint (key : String) : Bool :=
  ["KEY", "TOKEN", "SECRET", "PASSWORD", "PWD", "CRED"].any fun hint =>
    decide (hint.toList <:+: key.toList.map foldCase)

/-- The value under a key is a secret. -/
def hidesValue (key : String) : Bool := isSecretKey key || hasSecretHint key

/-- `_redact_token`. -/
def redactToken (tok prev : String) : String :=
  if prev ∈ secretFlags then "<redacted>"
  else if '=' ∈ tok.toList then
    let key := (partition '=' tok).1
    if hidesValue key then key ++ "=<redacted>" else tok
  else tok

/-- The tokens redacted, after `prev`. -/
def redactFrom (prev : String) : List String → List String
  | [] => []
  | tok :: toks => redactToken tok prev :: redactFrom tok toks

/-- `redact_argv`. -/
def redactArgv (argv : List String) : List String := redactFrom "" argv

/-! ## Parsing -/

/-- `COMPOSE_PROFILES`. -/
def composeProfiles : List String := ["runtime", "spokesman", "gateway"]

/-- `_compose_base`. -/
def composeBase : List String :=
  ["docker", "compose"] ++ composeProfiles.flatMap fun p => ["--profile", p]

/-- `_SERVICE_RE.match(name)`. -/
def isService (name : String) : Bool :=
  match beforeEnd name with
  | [] => false
  | c :: cs => c.isAlphanum && cs.all fun c => c.isAlphanum || c = '.' || c = '_' || c = '-'

/-- `_require_service`. -/
def requireService (repr : String → String) (name : String) : Except OpsError String :=
  if isService name then .ok name else .error { message := "invalid service name " ++ repr name }

/-- An operation on one service. -/
def serviceOp (repr : String → String) (action : String) (argv rest : List String) :
    Except OpsError ParsedOp :=
  match rest with
  | [] => .error { message := "usage: ops " ++ action ++ " <svc>", action := action }
  | name :: _ => do
      let svc ← requireService repr name
      return ⟨action, composeBase ++ argv ++ [svc]⟩

/-- `re.fullmatch(r"\d+", s)`. -/
def isDecimal (s : String) : Bool := !s.toList.isEmpty && s.toList.all fun c => (decimal? c).isSome

/-- `ops worker`. -/
def workerOp (rest : List String) : Except OpsError ParsedOp :=
  let sub := (rest.head?.map lower).getD ""
  if sub = "start" then .ok ⟨"worker.start", composeBase ++ ["up", "-d", "worker"]⟩
  else if sub = "stop" then .ok ⟨"worker.stop", composeBase ++ ["stop", "worker"]⟩
  else if sub = "status" then .ok ⟨"worker.status", composeBase ++ ["ps", "worker"]⟩
  else if sub = "scale" then
    match rest with
    | _ :: n :: _ =>
        if isDecimal n then
          .ok ⟨"worker.scale", composeBase ++ ["up", "-d", "--scale", "worker=" ++ n, "worker"]⟩
        else .error { message := "usage: ops worker scale <N>", action := "worker.scale" }
    | _ => .error { message := "usage: ops worker scale <N>", action := "worker.scale" }
  else .error { message := "usage: ops worker start|stop|status|scale <N>", action := "worker" }

/-- `build_op`. -/
def buildOp (repr : String → String) (tokens : List String) : Except OpsError ParsedOp :=
  match tokens.filter (· ≠ "") with
  | [] =>
      .error { message := "usage: ops worker start|stop|status|scale N | ps | logs <svc> | " ++
        "restart <svc> | up <svc> | docker <args...>" }
  | first :: rest =>
      let verb := lower first
      if verb = "worker" then workerOp rest
      else if verb = "ps" then .ok ⟨"ps", composeBase ++ ["ps"]⟩
      else if verb = "logs" then
        serviceOp repr "logs" ["logs", "--no-color", "--tail", "200"] rest
      else if verb = "restart" then serviceOp repr "restart" ["restart"] rest
      else if verb = "up" then serviceOp repr "up" ["up", "-d"] rest
      else if verb = "docker" then
        match rest with
        | [] => .error { message := "usage: ops docker <args...>", action := "docker" }
        | _ :: _ => .ok ⟨"docker", "docker" :: rest⟩
      else .error { message := "unknown ops command " ++ repr verb, action := verb }

/-! ## Destructive operations -/

/-- `_SHORT_FLAG_RE.match(t)`, and the bundle has the letter. -/
def bundles (letter : Char) (t : String) : Bool :=
  match beforeEnd t with
  | '-' :: c :: cs => (c :: cs).all (fun c => 'a' ≤ c && c ≤ 'z') && (c :: cs).contains letter
  | _ => false

/-- `_has_force_flag`. -/
def hasForceFlag (tokens : List String) : Bool :=
  tokens.contains "--force" || tokens.any (bundles 'f')

/-- `_has_volume_flag`. -/
def hasVolumeFlag (tokens : List String) : Bool :=
  (tokens.any fun t => t = "-v" || t = "--volume" || startsWith "--volume=" t) ||
    tokens.any (bundles 'v')

/-- `_targets_critical_service`. -/
def targetsCriticalService (tokens : List String) : Bool := tokens.any (contains "postgres")

/-- One of the words is among the tokens. -/
def mentions (words tokens : List String) : Bool := words.any tokens.contains

/-- The reasons that come before the critical service. -/
def earlierReason (tokens : List String) : Option String :=
  if tokens.contains "down" then
    if mentions ["-v", "--volumes"] tokens || tokens.any (startsWith "--volumes") then
      some "down --volumes deletes named volumes"
    else some "down stops the whole project (including postgres)"
  else if tokens.contains "prune" then some "prune bulk-deletes docker objects"
  else if tokens.contains "rm" && hasForceFlag tokens then some "forced remove"
  else if tokens.contains "volume" && mentions ["rm", "prune"] tokens then some "volume removal"
  else if mentions ["run", "create"] tokens && hasVolumeFlag tokens then
    some "volume/bind mount (-v/--volume) on run/create"
  else none

/-- The verbs that take a service down. -/
def stopVerbs : List String := ["stop", "kill", "rm", "restart", "down"]

/-- `classify_destructive`: why the arguments are destructive, if they are. -/
def classifyDestructive (argv : List String) : Option String :=
  let tokens := argv.map lower
  match earlierReason tokens with
  | some reason => some reason
  | none =>
      if mentions stopVerbs tokens && targetsCriticalService tokens then
        some "affects a critical service (postgres)"
      else none

/-! ## Execution -/

/-- `_truncate`. -/
def truncate (s : String) : String :=
  if s.toList.length ≤ 4000 then s
  else
    String.ofList (s.toList.take 4000) ++ "\n…[truncated " ++ toString (s.toList.length - 4000) ++
      " chars]"

/-- `error[:200]`, if there is an error. -/
def auditError (error : Option String) : Option String :=
  (error.filter (· ≠ "")).map fun e => String.ofList (e.toList.take 200)

/-- `timeout_for`, in seconds. -/
def timeoutFor (op : ParsedOp) : ℚ :=
  if op.action ∈ ["worker.start", "worker.scale", "up", "restart"] then 600 else 60

/-- The keyword arguments of `run_ops`. -/
structure OpsArgs where
  identity : String
  confirm : Bool := false
  runner : List String → ℚ → CompletedRun
  timeout : Option ℚ := none

/-- `run_ops`: what it returns, and the payload of its audit event. -/
def runOps (repr : String → String) (tokens : List String) (a : OpsArgs) : OpsResult × OpsAudit :=
  match buildOp repr tokens with
  | .error e =>
      ({ ok := false, action := e.action, error := some e.message },
        { action := e.action, argv := redactArgv [], identity := a.identity, destructive := false
          blocked := true, ok := false, exitCode := none, error := auditError (some e.message) })
  | .ok op =>
      let reason := classifyDestructive op.argv
      if reason.isSome && !a.confirm then
        ({ ok := false, action := op.action, argv := op.argv, destructive := true
           needsConfirm := true, error := reason },
          { action := op.action, argv := redactArgv op.argv, identity := a.identity
            destructive := true, blocked := true, ok := false, exitCode := none
            error := auditError reason })
      else
        let run := a.runner op.argv (a.timeout.getD (timeoutFor op))
        let ok := run.exitCode = 0 && !run.timedOut
        ({ ok := ok, action := op.action, argv := op.argv, exitCode := some run.exitCode
           stdout := truncate run.stdout, stderr := truncate run.stderr
           destructive := reason.isSome, timedOut := run.timedOut },
          { action := op.action, argv := redactArgv op.argv, identity := a.identity
            destructive := reason.isSome, blocked := false, ok := ok
            exitCode := some run.exitCode, timedOut := run.timedOut })

/-! ## A secret among the arguments -/

/-- How docker takes the assignment of a variable: after the flag or in one argument with it, the
short flag also at the end of a bundle of short flags. -/
inductive EnvSpelling where
  | apart (bundle : String) (letters : bundle.toList.all Char.isAlpha = true)
  | apartLong
  | attached (bundle : String) (letters : bundle.toList.all Char.isAlpha = true)
  | attachedEquals (bundle : String) (letters : bundle.toList.all Char.isAlpha = true)
  | joined

namespace EnvSpelling

/-- The flag, where it is an argument of its own. -/
def lead : EnvSpelling → List String
  | apart bundle _ => ["-" ++ bundle ++ "e"]
  | apartLong => ["--env"]
  | _ => []

/-- What stands before the first equals sign of the argument with the value. -/
def key (k : String) : EnvSpelling → String
  | apart .. | apartLong => k
  | attached bundle _ => "-" ++ bundle ++ "e" ++ k
  | attachedEquals bundle _ => "-" ++ bundle ++ "e"
  | joined => "--env"

/-- What stands after it. -/
def rest (k v : String) : EnvSpelling → String
  | apart .. | apartLong | attached .. => v
  | attachedEquals .. | joined => k ++ "=" ++ v

/-- The argument with the value. -/
def token (sp : EnvSpelling) (k v : String) : String := sp.key k ++ "=" ++ sp.rest k v

/-- The arguments that assign `v` to the variable `k`. -/
def tokens (sp : EnvSpelling) (k v : String) : List String := sp.lead ++ [sp.token k v]

/-- The redaction hides the value, after the argument `before`. -/
def Concealed (sp : EnvSpelling) (before k : String) : Prop :=
  match sp with
  | apart bundle _ => bundle = "" ∨ hidesValue k = true
  | apartLong => True
  | attached bundle _ => before ∈ secretFlags ∨ hasSecretHint ("-" ++ bundle ++ "e" ++ k) = true
  | attachedEquals bundle _ => before ∈ secretFlags ∨ hasSecretHint ("-" ++ bundle ++ "e") = true
  | joined => before ∈ secretFlags

example : joined.tokens "K" "V" = ["--env=K=V"] := by decide
example : (attached "it" rfl).tokens "K" "V" = ["-iteK=V"] := by decide

end EnvSpelling

/-- The arguments of docker, blank ones left out. -/
def dockerArgv (pre post : List String) (sp : EnvSpelling) (k v : String) : List String :=
  "docker" :: (pre.filter (· ≠ "") ++ sp.tokens k v ++ post.filter (· ≠ ""))

/-- The two events show the same arguments, operation and error. -/
structure SameAudit (x y : OpsAudit) : Prop where
  argv : x.argv = y.argv
  action : x.action = y.action
  error : x.error = y.error

/-- The two values make no difference to whether and why the command is refused: it is confirmed,
refused for another reason or takes nothing down, postgres is mentioned anyway, or it is
mentioned in both values or in neither. -/
def SameRefusal (confirm : Bool) (pre post : List String) (sp : EnvSpelling) (k v v' : String) :
    Prop :=
  confirm = true ∨ (earlierReason ((dockerArgv pre post sp k v).map lower)).isSome = true ∨
    mentions stopVerbs ((dockerArgv pre post sp k v).map lower) = false ∨
    targetsCriticalService ((pre ++ sp.lead ++ post).map lower) = true ∨
    contains "postgres" (lower (sp.token k v)) = contains "postgres" (lower (sp.token k v'))

/-! ### The redaction of an assignment -/

theorem partition_assign {key rest : String} (h : '=' ∉ key.toList) :
    (partition '=' (key ++ "=" ++ rest)).1 = key := by
  have hall : ∀ c ∈ key.toList, (decide (c ≠ '=')) = true := by
    intro c hc
    have hne : c ≠ '=' := fun hceq => h (hceq ▸ hc)
    simpa using hne
  simp only [partition, String.toList_append, List.append_assoc]
  rw [List.takeWhile_append_of_pos hall]
  simp

/-- A token that assigns is redacted after a flag, or for its key. -/
theorem redactToken_assign {key : String} (h : '=' ∉ key.toList) (rest prev : String) :
    redactToken (key ++ "=" ++ rest) prev =
      if prev ∈ secretFlags then "<redacted>"
      else if hidesValue key then key ++ "=<redacted>" else key ++ "=" ++ rest := by
  have hmem : '=' ∈ (key ++ "=" ++ rest).toList := by simp
  simp only [redactToken, hmem, if_true, partition_assign h]

theorem redactFrom_append (prev : String) (toks toks' : List String) :
    redactFrom prev (toks ++ toks') =
      redactFrom prev toks ++ redactFrom (toks.getLastD prev) toks' := by
  induction toks generalizing prev with
  | nil => rfl
  | cons tok toks ih =>
      rw [List.cons_append, redactFrom, ih, redactFrom, List.getLastD_cons, List.cons_append]

/-- What follows an assignment is redacted in the same way, whatever the value. -/
theorem redactFrom_assign {t t' : String} (h : '=' ∈ t.toList) (h' : '=' ∈ t'.toList)
    (toks : List String) : redactFrom t toks = redactFrom t' toks := by
  have hflag : ∀ s : String, '=' ∈ s.toList → s ∉ secretFlags := by
    intro s hs hflag
    have hall : ∀ f ∈ secretFlags, '=' ∉ f.toList := by decide
    exact hall s hflag hs
  cases toks with
  | nil => rfl
  | cons tok toks => simp only [redactFrom, redactToken, hflag t h, hflag t' h', if_false]

namespace EnvSpelling

variable {k : String} {sp : EnvSpelling}

/-- A bundle of short flags has neither a dash nor an equals sign. -/
theorem ne_of_letters {bundle : String} (h : bundle.toList.all Char.isAlpha = true) {c : Char}
    (hc : c.isAlpha = false) : c ∉ bundle.toList := by
  intro hmem
  rw [List.all_eq_true.1 h c hmem] at hc
  cases hc

theorem mem_token (sp : EnvSpelling) (k v : String) : '=' ∈ (sp.token k v).toList := by
  simp [token]

theorem not_mem_key (hk : '=' ∉ k.toList) : '=' ∉ (sp.key k).toList := by
  cases sp with
  | apart bundle letters => exact hk
  | apartLong => exact hk
  | attached bundle letters =>
      have hb : '=' ∉ bundle.toList := ne_of_letters letters (by decide)
      simp [key, hk, hb]
  | attachedEquals bundle letters =>
      have hb : '=' ∉ bundle.toList := ne_of_letters letters (by decide)
      simp [key, hb]
  | joined =>
      have henv : '=' ∉ "--env".toList := by decide
      exact henv

/-- A short flag stands before a value that is hidden only if it is no bundle. -/
theorem mem_secretFlags {bundle : String} (h : bundle.toList.all Char.isAlpha = true) :
    "-" ++ bundle ++ "e" ∈ secretFlags ↔ bundle = "" := by
  constructor
  · intro hmem
    have hdash : '-' ∉ bundle.toList := ne_of_letters h (by decide)
    cases hb : bundle.toList with
    | nil => exact String.toList_inj.1 hb
    | cons c cs =>
        have hc : c ≠ '-' := by
          rintro rfl
          exact hdash (hb ▸ List.mem_cons_self)
        simp [secretFlags, ← String.toList_inj, hb, hc] at hmem
  · rintro rfl
    decide

/-- A key that begins with a dash is not the name of a variable. -/
theorem isSecretKey_dash (c : Char) {s : String} (cs : List Char) (h : s.toList = '-' :: c :: cs) :
    isSecretKey s = false := by
  have hhead : ∃ rest, beforeEnd s = '-' :: rest := by
    unfold beforeEnd
    split
    · exact ⟨(c :: cs).dropLast, by rw [h]; rfl⟩
    · exact ⟨c :: cs, h⟩
  obtain ⟨rest, hrest⟩ := hhead
  rw [isSecretKey, hrest]
  rfl

/-- **Which assignments the redaction hides.** -/
theorem concealed_iff {before : String} :
    (sp.lead.getLastD before ∈ secretFlags ∨ hidesValue (sp.key k) = true) ↔
      sp.Concealed before k := by
  cases sp with
  | apart bundle letters =>
      change ("-" ++ bundle ++ "e" ∈ secretFlags ∨ _) ↔ _
      rw [mem_secretFlags letters]
      rfl
  | apartLong =>
      have henv : "--env" ∈ secretFlags := by decide
      exact iff_true_intro (Or.inl henv)
  | attached bundle letters =>
      have hkey : isSecretKey ("-" ++ bundle ++ "e" ++ k) = false := by
        cases hb : bundle.toList with
        | nil => exact isSecretKey_dash 'e' k.toList (by simp [hb])
        | cons c cs => exact isSecretKey_dash c (cs ++ 'e' :: k.toList) (by simp [hb])
      simp only [lead, key, hidesValue, hkey, Bool.false_or, Concealed]
      rfl
  | attachedEquals bundle letters =>
      have hkey : isSecretKey ("-" ++ bundle ++ "e") = false := by
        cases hb : bundle.toList with
        | nil => exact isSecretKey_dash 'e' [] (by simp [hb])
        | cons c cs => exact isSecretKey_dash c (cs ++ ['e']) (by simp [hb])
      simp only [lead, key, hidesValue, hkey, Bool.false_or, Concealed]
      rfl
  | joined =>
      have hkey : hidesValue "--env" = false := by decide
      simp only [lead, key, hkey, Concealed]
      simp

end EnvSpelling

/-- **The redacted arguments are the same exactly if the value is hidden.** -/
theorem redactArgv_eq_iff {pre post : List String} {sp : EnvSpelling} {k v v' : String}
    (hk : '=' ∉ k.toList) (hne : v ≠ v') :
    redactArgv (dockerArgv pre post sp k v) = redactArgv (dockerArgv pre post sp k v') ↔
      sp.Concealed ((pre.filter (· ≠ "")).getLastD "docker") k := by
  have hargv : ∀ v, redactArgv (dockerArgv pre post sp k v) =
      redactFrom "" ("docker" :: (pre.filter (· ≠ "") ++ sp.lead)) ++
        redactToken (sp.token k v) (sp.lead.getLastD ((pre.filter (· ≠ "")).getLastD "docker")) ::
        redactFrom (sp.token k v) (post.filter (· ≠ "")) := by
    intro v
    have hlist : dockerArgv pre post sp k v =
        ("docker" :: (pre.filter (· ≠ "") ++ sp.lead)) ++
          sp.token k v :: post.filter (· ≠ "") := by
      simp [dockerArgv, EnvSpelling.tokens]
    have hlast : ("docker" :: (pre.filter (· ≠ "") ++ sp.lead)).getLastD "" =
        sp.lead.getLastD ((pre.filter (· ≠ "")).getLastD "docker") := by
      rw [List.getLastD_cons]
      cases sp.lead using List.reverseRecOn <;> simp
    rw [redactArgv, hlist, redactFrom_append, hlast]
    rfl
  rw [hargv, hargv, List.append_cancel_left_eq, List.cons.injEq,
    redactFrom_assign (sp.mem_token k v) (sp.mem_token k v'), ← EnvSpelling.concealed_iff]
  simp only [and_true, EnvSpelling.token, redactToken_assign (EnvSpelling.not_mem_key hk)]
  have hrest : sp.rest k v ≠ sp.rest k v' := by
    cases sp <;> simpa [EnvSpelling.rest, ← String.toList_inj] using hne
  have htoken : sp.key k ++ "=" ++ sp.rest k v ≠ sp.key k ++ "=" ++ sp.rest k v' := by
    simpa [← String.toList_inj] using hrest
  split
  · simp_all
  · split <;> simp_all

/-! ### The classification of the two commands -/

theorem toList_lower_assign (key rest : String) :
    (lower (key ++ "=" ++ rest)).toList = (lower key).toList ++ '=' :: (lower rest).toList := by
  simp [lower]

/-- Whether a pattern begins an assignment is settled by the key, when the pattern has an equals
sign at its end at most. -/
theorem isPrefixOf_assign {pat : List Char} (h : '=' ∉ pat.dropLast) (key rest rest' : List Char) :
    pat.isPrefixOf (key ++ '=' :: rest) = pat.isPrefixOf (key ++ '=' :: rest') := by
  induction key generalizing pat with
  | nil =>
      cases pat with
      | nil => rfl
      | cons c pat =>
          cases pat with
          | nil => rfl
          | cons d pat =>
              have hc : c ≠ '=' := by
                rintro rfl
                exact h (by simp)
              simp only [List.nil_append, List.isPrefixOf, beq_eq_false_iff_ne.2 hc, Bool.false_and]
  | cons d key ih =>
      cases pat with
      | nil => rfl
      | cons c pat =>
          have hpat : '=' ∉ pat.dropLast := by
            intro hmem
            cases pat with
            | nil => cases hmem
            | cons e pat => exact h (List.mem_cons_of_mem _ hmem)
          simp only [List.cons_append, List.isPrefixOf, ih hpat]

/-- An assignment is no bundle of short flags. -/
theorem bundles_assign {t : String} (h : '=' ∈ t.toList) (letter : Char) :
    bundles letter t = false := by
  have hmem : '=' ∈ beforeEnd t := by
    unfold beforeEnd
    split
    · rename_i hlast
      obtain ⟨init, hinit⟩ := List.getLast?_eq_some_iff.1 hlast
      rw [hinit, List.mem_append] at h
      rw [hinit, List.dropLast_concat]
      exact h.resolve_right (by simp)
    · exact h
  unfold bundles
  split
  · rename_i c cs hcs
    rw [hcs] at hmem
    have htail : '=' ∈ c :: cs := (List.mem_cons.1 hmem).resolve_left (by decide)
    have hall : (c :: cs).all (fun c => 'a' ≤ c && c ≤ 'z') = false := by
      rw [List.all_eq_false]
      exact ⟨'=', htail, by decide⟩
    rw [hall, Bool.false_and]
  · rfl

/-- Two tokens that the rules before the last one cannot tell apart. -/
structure Alike (t t' : String) : Prop where
  word : ∀ w : String, '=' ∉ w.toList → w ≠ t ∧ w ≠ t'
  starts : ∀ pat : String, '=' ∉ pat.toList.dropLast → startsWith pat t = startsWith pat t'
  bundles : ∀ letter, bundles letter t = false ∧ Spokesman.bundles letter t' = false

/-- Assignments under one key are alike. -/
theorem alike_assign (key rest rest' : String) :
    Alike (lower (key ++ "=" ++ rest)) (lower (key ++ "=" ++ rest')) := by
  have hmem : ∀ rest, '=' ∈ (lower (key ++ "=" ++ rest)).toList := by
    intro rest
    rw [toList_lower_assign]
    simp
  refine ⟨fun w hw => ⟨?_, ?_⟩, fun pat hpat => ?_, fun letter =>
    ⟨bundles_assign (hmem rest) letter, bundles_assign (hmem rest') letter⟩⟩
  · rintro rfl
    exact hw (hmem rest)
  · rintro rfl
    exact hw (hmem rest')
  · rw [startsWith, startsWith, toList_lower_assign, toList_lower_assign]
    exact isPrefixOf_assign hpat _ _ _

theorem any_of_eq {t t' : String} {p : String → Bool} (hp : p t = p t') (toks toks' : List String) :
    (toks ++ t :: toks').any p = (toks ++ t' :: toks').any p := by
  simp [hp]

namespace Alike

variable {t t' : String} (h : Alike t t') (toks toks' : List String)
include h

theorem contains_eq {w : String} (hw : '=' ∉ w.toList) :
    (toks ++ t :: toks').contains w = (toks ++ t' :: toks').contains w := by
  obtain ⟨hne, hne'⟩ := h.word w hw
  simp [List.contains_eq_mem, hne, hne']

theorem mentions_eq (ws : List String) (hws : ∀ w ∈ ws, '=' ∉ w.toList) :
    mentions ws (toks ++ t :: toks') = mentions ws (toks ++ t' :: toks') := by
  unfold mentions
  induction ws with
  | nil => rfl
  | cons w ws ih =>
      rw [List.any_cons, List.any_cons, h.contains_eq toks toks' (hws w List.mem_cons_self),
        ih fun w hw => hws w (List.mem_cons_of_mem _ hw)]

/-- **The reasons before the last are the same.** -/
theorem earlierReason_eq :
    earlierReason (toks ++ t :: toks') = earlierReason (toks ++ t' :: toks') := by
  have hvolumes := any_of_eq (h.starts "--volumes" (by decide)) toks toks'
  have hforce : hasForceFlag (toks ++ t :: toks') = hasForceFlag (toks ++ t' :: toks') := by
    unfold hasForceFlag
    rw [h.contains_eq toks toks' (by decide), any_of_eq (p := Spokesman.bundles 'f')
      ((h.bundles 'f').1.trans (h.bundles 'f').2.symm) toks toks']
  have hvolume : hasVolumeFlag (toks ++ t :: toks') = hasVolumeFlag (toks ++ t' :: toks') := by
    unfold hasVolumeFlag
    rw [any_of_eq (p := Spokesman.bundles 'v')
      ((h.bundles 'v').1.trans (h.bundles 'v').2.symm) toks toks']
    congr 1
    refine any_of_eq ?_ toks toks'
    obtain ⟨hv, hv'⟩ := h.word "-v" (by decide)
    obtain ⟨hvol, hvol'⟩ := h.word "--volume" (by decide)
    simp only [hv.symm, hv'.symm, hvol.symm, hvol'.symm, decide_false, Bool.false_or]
    exact h.starts "--volume=" (by decide)
  unfold earlierReason
  rw [h.contains_eq toks toks' (w := "down") (by decide),
    h.contains_eq toks toks' (w := "prune") (by decide),
    h.contains_eq toks toks' (w := "rm") (by decide),
    h.contains_eq toks toks' (w := "volume") (by decide),
    h.mentions_eq toks toks' ["-v", "--volumes"] (by decide),
    h.mentions_eq toks toks' ["rm", "prune"] (by decide),
    h.mentions_eq toks toks' ["run", "create"] (by decide), hvolumes, hforce, hvolume]

end Alike

/-! ### The two events -/

section Audit

variable {repr : String → String} {verb k v v' : String} {pre post : List String}
  {sp : EnvSpelling} {a : OpsArgs}

theorem buildOp_docker (hverb : lower verb = "docker") :
    buildOp repr (verb :: (pre ++ sp.tokens k v ++ post)) =
      .ok ⟨"docker", dockerArgv pre post sp k v⟩ := by
  have hne : verb ≠ "" := by
    rintro rfl
    exact absurd hverb (by decide)
  have hflag : ∀ b : String, ¬ "-" ++ b ++ "e" = "" := by
    intro b
    simp [← String.toList_inj]
  have hlead : sp.lead.filter (· ≠ "") = sp.lead := by
    cases sp with
    | apart bundle letters => simp [EnvSpelling.lead, hflag]
    | apartLong => rfl
    | _ => rfl
  have htoken : sp.token k v ≠ "" := by
    intro hempty
    have hmem := EnvSpelling.mem_token sp k v
    rw [hempty] at hmem
    exact absurd hmem (by decide)
  have hfilter : (verb :: (pre ++ sp.tokens k v ++ post)).filter (· ≠ "") =
      verb :: (pre.filter (· ≠ "") ++ sp.tokens k v ++ post.filter (· ≠ "")) := by
    rw [List.filter_cons_of_pos (by simpa using hne), List.filter_append, List.filter_append,
      EnvSpelling.tokens, List.filter_append, hlead, List.filter_cons_of_pos (by simpa using htoken)]
    rfl
  have hrest : ∃ tok toks,
      pre.filter (· ≠ "") ++ sp.tokens k v ++ post.filter (· ≠ "") = tok :: toks := by
    refine List.exists_cons_of_ne_nil (List.append_ne_nil_of_left_ne_nil ?_ _)
    exact List.append_ne_nil_of_right_ne_nil _
      (List.append_ne_nil_of_right_ne_nil _ (List.cons_ne_nil _ _))
  obtain ⟨tok, toks, htoks⟩ := hrest
  simp only [buildOp, hfilter, hverb, dockerArgv, htoks]
  rfl

/-- What the event of a docker command shows. -/
theorem audit_docker (repr : String → String) (hverb : lower verb = "docker") :
    (runOps repr (verb :: (pre ++ sp.tokens k v ++ post)) a).2.argv =
        redactArgv (dockerArgv pre post sp k v) ∧
      (runOps repr (verb :: (pre ++ sp.tokens k v ++ post)) a).2.action = "docker" ∧
      (runOps repr (verb :: (pre ++ sp.tokens k v ++ post)) a).2.error =
        if a.confirm then none else auditError (classifyDestructive (dockerArgv pre post sp k v)) := by
  simp only [runOps, buildOp_docker hverb]
  cases a.confirm with
  | true => simp
  | false => cases classifyDestructive (dockerArgv pre post sp k v) <;> exact ⟨rfl, rfl, rfl⟩

/-- Blank arguments do not mention postgres. -/
theorem any_lower_filter (toks : List String) :
    ((toks.filter (· ≠ "")).map lower).any (contains "postgres") =
      (toks.map lower).any (contains "postgres") := by
  have hblank : contains "postgres" (lower "") = false := by decide
  induction toks with
  | nil => rfl
  | cons tok toks ih =>
      by_cases h : tok = ""
      · subst h
        rw [List.filter_cons_of_neg (by simp), ih, List.map_cons, List.any_cons, hblank,
          Bool.false_or]
      · rw [List.filter_cons_of_pos (by simpa using h), List.map_cons, List.any_cons, ih,
          List.map_cons, List.any_cons]

/-- **The refusal is the same exactly if the values make no difference to it.** -/
theorem refusal_eq_iff :
    ((if a.confirm then none else auditError (classifyDestructive (dockerArgv pre post sp k v))) =
        if a.confirm then none else auditError (classifyDestructive (dockerArgv pre post sp k v'))) ↔
      SameRefusal a.confirm pre post sp k v v' := by
  have htokens : ∀ v, (dockerArgv pre post sp k v).map lower =
      ("docker" :: (pre.filter (· ≠ "") ++ sp.lead)).map lower ++
        lower (sp.token k v) :: (post.filter (· ≠ "")).map lower := by
    intro v
    simp [dockerArgv, EnvSpelling.tokens]
  have halike : Alike (lower (sp.token k v)) (lower (sp.token k v')) := alike_assign _ _ _
  have hearlier : earlierReason ((dockerArgv pre post sp k v).map lower) =
      earlierReason ((dockerArgv pre post sp k v').map lower) := by
    rw [htokens, htokens]
    exact halike.earlierReason_eq _ _
  have hstops : mentions stopVerbs ((dockerArgv pre post sp k v).map lower) =
      mentions stopVerbs ((dockerArgv pre post sp k v').map lower) := by
    rw [htokens, htokens]
    exact halike.mentions_eq _ _ _ (by decide)
  have hcritical : ∀ v, targetsCriticalService ((dockerArgv pre post sp k v).map lower) =
      (targetsCriticalService ((pre ++ sp.lead ++ post).map lower) ||
        contains "postgres" (lower (sp.token k v))) := by
    intro v
    have hdocker : contains "postgres" (lower "docker") = false := by decide
    rw [htokens]
    simp only [targetsCriticalService, List.map_append, List.map_cons, List.any_append,
      List.any_cons, hdocker, any_lower_filter, Bool.false_or, Bool.or_assoc]
    rw [Bool.or_comm (contains _ _)]
  unfold SameRefusal classifyDestructive
  simp only [← hearlier, ← hstops, hcritical]
  generalize earlierReason _ = earlier, mentions stopVerbs _ = stops,
    targetsCriticalService _ = elsewhere, contains "postgres" (lower (sp.token k v)) = here,
    contains "postgres" (lower (sp.token k v')) = here'
  have hreason : auditError (some "affects a critical service (postgres)") ≠ auditError none := by
    decide
  cases earlier with
  | some reason => simp
  | none => cases a.confirm <;> cases stops <;> cases elsewhere <;> cases here <;> cases here' <;>
      simp [hreason, hreason.symm]

/-- **The two events are the same exactly if the spelling hides the value and the values make no
difference to the refusal.** -/
theorem sameAudit_iff (hverb : lower verb = "docker") (hk : '=' ∉ k.toList) (hne : v ≠ v') :
    SameAudit (runOps repr (verb :: (pre ++ sp.tokens k v ++ post)) a).2
        (runOps repr (verb :: (pre ++ sp.tokens k v' ++ post)) a).2 ↔
      sp.Concealed ((pre.filter (· ≠ "")).getLastD "docker") k ∧
        SameRefusal a.confirm pre post sp k v v' := by
  obtain ⟨hargv, haction, herror⟩ := audit_docker repr (v := v) (a := a) hverb
  obtain ⟨hargv', haction', herror'⟩ := audit_docker repr (v := v') (a := a) hverb
  rw [← redactArgv_eq_iff hk hne, ← refusal_eq_iff (a := a), ← hargv, ← hargv', ← herror, ← herror']
  exact ⟨fun h => ⟨h.argv, h.error⟩, fun h => ⟨h.1, haction.trans haction'.symm, h.2⟩⟩

end Audit

/-! ## A secret that is not hidden -/

/-- A runner that always succeeds. -/
def succeeding : OpsArgs where
  identity := "human"
  runner _ _ := { exitCode := 0, stdout := "", stderr := "" }

/-- A run of the image with the variable `DB_PASSWORD`. -/
def withPassword (sp : EnvSpelling) (v : String) : List String :=
  "docker" :: (["run"] ++ sp.tokens "DB_PASSWORD" v ++ ["studio"])

/-- **Behind `--env=` the password is in the event.** -/
theorem password_in_audit :
    (runOps id (withPassword .joined "hunter2") succeeding).2.argv =
        ["docker", "run", "--env=DB_PASSWORD=hunter2", "studio"] ∧
      ¬ SameAudit (runOps id (withPassword .joined "hunter2") succeeding).2
        (runOps id (withPassword .joined "swordfish") succeeding).2 := by
  refine ⟨by decide, fun h => ?_⟩
  have hargv := h.argv
  revert hargv
  decide

/-- After `-e` it is not. -/
theorem sameAudit_apart :
    SameAudit (runOps id (withPassword (.apart "" rfl) "hunter2") succeeding).2
      (runOps id (withPassword (.apart "" rfl) "swordfish") succeeding).2 := by
  refine (sameAudit_iff (by decide) (by decide) (by decide)).2 ⟨Or.inl rfl, ?_⟩
  exact Or.inr (Or.inr (Or.inl (by decide)))

end AiStudio.Spokesman
