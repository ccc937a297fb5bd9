import AiStudio.Data.Number
import AiStudio.Data.Shell

/-!
# Commands in the sandbox

Embeds `CodingTool.build_command` of `runtime/tools/coding.py`, `CursorCliProvider._build_command`
of `runtime/model/providers/cursor_cli.py`, and the construction and `build_invocation` of
`DockerSandboxRunner` of `runtime/sandbox/docker.py`. The host's file system and its user database
are arguments, and so is how a text is read as a number of seconds.

- `buildCommand_words`, `cursorCommand_words`: the words a shell makes of the commands.
- `Alike.argv_eq`, `Alike.childEnv_eq`: what two host environments can change.
- `runArgs_argv`: what the client reads as options of `docker run`.
-/

set_option autoImplicit false

namespace AiStudio.Runtime.Sandbox

open AiStudio.Data AiStudio.Data.Shell

/-- The variables of an environment. -/
abbrev Environ := String → Option String

/-- `value or default`. -/
def orElse (value : Option String) (default : String) : String :=
  match value with
  | none => default
  | some value => if value = "" then default else value

/-! ## Worker commands -/

/-- `os.path.basename(path)`. -/
def basename (path : String) : String := String.ofList (path.toList.rtakeWhile (· ≠ '/'))

/-- A command's shape, given the worker and the quoted goal. -/
abbrev Template := String → String → String

/-- `WORKER_COMMAND_TEMPLATES`. -/
def workerCommandTemplates : List (String × Template) :=
  [("opencode", fun cmd goal => cmd ++ " run " ++ goal),
    ("cursor-agent", fun cmd goal => cmd ++ " -p " ++ goal ++ " --output-format json")]

/-- `_DEFAULT_TEMPLATE`. -/
def defaultTemplate : Template := fun cmd goal => cmd ++ " run " ++ goal

/-- `CodingTool`, as far as it builds commands. -/
structure CodingTool where
  workerCmd : String

/-- `CodingTool.__init__`. -/
def CodingTool.init (workerCmd : Option String) (environ : Environ) : CodingTool :=
  ⟨orElse workerCmd (orElse (environ "CODING_WORKER_CMD") "opencode")⟩

/-- `build_command`. -/
def CodingTool.buildCommand (tool : CodingTool) (goal : String) : String :=
  (workerCommandTemplates.lookup (basename tool.workerCmd)).getD defaultTemplate tool.workerCmd
    (quote goal)

/-- `CursorCliProvider`, as far as it builds commands. -/
structure CursorCliProvider where
  cli : String

/-- `CursorCliProvider.__init__`. -/
def CursorCliProvider.init (cli : Option String) (environ : Environ) : CursorCliProvider :=
  ⟨orElse cli ((environ "CURSOR_CLI_CMD").getD "cursor-agent")⟩

/-- `_build_command`. -/
def CursorCliProvider.buildCommand (provider : CursorCliProvider) (prompt : String)
    (model : Option String) : String :=
  let command := quote provider.cli ++ " -p " ++ quote prompt ++ " --output-format json"
  match model with
  | none => command
  | some model => if model = "" then command else command ++ " --model " ++ quote model

/-! ## Containers -/

/-- `CONTAINER_WORKDIR`. -/
def containerWorkdir : String := "/workspace"

/-- `_DOCKER_CLI_ENV_PASSTHROUGH`. -/
def dockerCliEnvPassthrough : List String :=
  ["PATH", "HOME", "DOCKER_HOST", "DOCKER_CONFIG", "DOCKER_CERT_PATH", "DOCKER_TLS_VERIFY",
    "DOCKER_CONTEXT"]

/-- What the host answers apart from its environment. -/
structure Host where
  /-- `os.path.realpath`; a NUL in the path raises. -/
  realpath : String → Option String
  /-- The home of a user by name, or of the user the process runs as. -/
  homeOf : Option String → Option String

/-- What the constructor may raise. -/
inductive InitError where
  /-- `SandboxConfigError`. -/
  | sandboxConfig (message : String)
  /-- Another `ValueError`. -/
  | value
  deriving DecidableEq

/-- Whether expanding a path asks for the home of the process's own user. -/
def asksHome (path : String) : Bool :=
  match path.toList with
  | '~' :: tail => (tail.takeWhile (· ≠ '/')).isEmpty
  | _ => false

/-- `os.path.expanduser(path)`. -/
def expandUser (host : Host) (environ : Environ) (path : String) : String :=
  match path.toList with
  | '~' :: tail =>
      let name := tail.takeWhile (· ≠ '/')
      let home :=
        if name = [] then (environ "HOME").or (host.homeOf none)
        else host.homeOf (some (String.ofList name))
      match home with
      | none => path
      | some home =>
          orElse (some (String.ofList (home.toList.rdropWhile (· = '/') ++
            tail.dropWhile (· ≠ '/')))) "/"
  | _ => path

/-- The arguments of the constructor, `env` apart. -/
structure Settings where
  image : Option String := none
  network : Option String := none
  timeoutS : Option Number := none
  memory : Option String := none
  cpus : Option String := none
  workdir : Option String := none
  user : Option String := none
  allowedEnv : List String := []
  pidsLimit : Option Int := none
  readOnlyRootfs : Bool := true
  workdirReadonly : Bool := false
  dockerBin : String := "docker"

/-- `DockerSandboxRunner`. -/
structure DockerSandboxRunner where
  env : Environ
  image : String
  network : String
  memory : String
  cpus : String
  user : String
  pidsLimit : Int
  readOnlyRootfs : Bool
  workdirReadonly : Bool
  dockerBin : String
  timeoutS : Number
  workdir : Option String
  allowedEnv : List String

section Runner

variable (float : String → Option Number) (host : Host) (environ : Environ)

/-- The timeout: the argument, the setting or 30 seconds. -/
def timeoutSeconds (arg : Option Number) (setting : Option String) : Except InitError Number :=
  match arg, setting with
  | some seconds, _ => .ok seconds
  | none, none => .ok (.finite 30)
  | none, some text =>
      if text = "" then .ok (.finite 30)
      else
        match float text with
        | none => .error .value
        | some seconds => .ok seconds

/-- `_validate_workdir`. -/
def validateWorkdir (path : String) : Except InitError String :=
  match host.realpath (expandUser host environ path) with
  | none => .error .value
  | some resolved =>
      if resolved = "/" then
        .error (.sandboxConfig "refusing to bind-mount the host root '/' into the sandbox")
      else .ok resolved

/-- The directory to mount: the argument or the setting, if it is not empty. -/
def mountedWorkdir (arg setting : Option String) : Except InitError (Option String) :=
  match arg.or setting with
  | none => .ok none
  | some raw => if raw = "" then .ok none else (validateWorkdir host environ raw).map some

/-- `DockerSandboxRunner.__init__`; without `env` it reads the process's environment. -/
def DockerSandboxRunner.init (settings : Settings) (env : Option Environ) :
    Except InitError DockerSandboxRunner := do
  let source := env.getD environ
  let timeoutS ← timeoutSeconds float settings.timeoutS (source "SANDBOX_TIMEOUT_S")
  let workdir ← mountedWorkdir host environ settings.workdir (source "SANDBOX_WORKDIR")
  return {
    env := source
    image := orElse settings.image (orElse (source "SANDBOX_IMAGE") "ai-studio-sandbox:latest")
    network := orElse settings.network (orElse (source "SANDBOX_NETWORK") "none")
    memory := orElse settings.memory (orElse (source "SANDBOX_MEMORY") "256m")
    cpus := orElse settings.cpus (orElse (source "SANDBOX_CPUS") "1.0")
    user := orElse settings.user (orElse (source "SANDBOX_USER") "65534:65534")
    pidsLimit := settings.pidsLimit.getD 256
    readOnlyRootfs := settings.readOnlyRootfs
    workdirReadonly := settings.workdirReadonly
    dockerBin := settings.dockerBin
    timeoutS
    workdir
    allowedEnv := settings.allowedEnv }

end Runner

/-- `d[name] = value`. -/
def setItem (items : List (String × String)) (name value : String) : List (String × String) :=
  if items.any (·.1 = name) then
    items.map fun item => if item.1 = name then (name, value) else item
  else items ++ [(name, value)]

/-- The variables of these names that are set. -/
def setAmong (env : Environ) (names : List String) : List (String × String) :=
  names.filterMap fun name => (env name).map (name, ·)

namespace DockerSandboxRunner

variable (runner : DockerSandboxRunner)

/-- `_docker_cli_env`. -/
def dockerCliEnv : List (String × String) :=
  (setAmong runner.env runner.allowedEnv).foldl (fun items item => setItem items item.1 item.2)
    (setAmong runner.env dockerCliEnvPassthrough)

/-- What stands between `run` and the image. -/
def runFlags (containerName : String) : List String :=
  ["--rm", "--name", containerName, "--network", runner.network, "--user", runner.user,
    "--memory", runner.memory, "--cpus", runner.cpus, "--pids-limit", toString runner.pidsLimit,
    "--cap-drop", "ALL", "--security-opt", "no-new-privileges"] ++
  (if runner.readOnlyRootfs then ["--read-only", "--tmpfs", "/tmp"] else []) ++
  (match runner.workdir with
    | none => []
    | some workdir =>
        let mode := if runner.workdirReadonly then "ro" else "rw"
        ["-v", s!"{workdir}:{containerWorkdir}:{mode}", "-w", containerWorkdir]) ++
  runner.allowedEnv.flatMap fun name => if (runner.env name).isSome then ["-e", name] else []

/-- `build_invocation`. -/
def buildInvocation (command containerName : String) : List String × List (String × String) :=
  ([runner.dockerBin, "run"] ++ runner.runFlags containerName ++
    [runner.image, "sh", "-c", command], runner.dockerCliEnv)

end DockerSandboxRunner

/-! ## The words of a command -/

/-- A worker's command of words without quotes and special characters. -/
def isWorkerText (worker : String) : Bool := worker.toList.all fun c => isSep c || isPlain c

/-- The worker's own words. -/
def workerWords (worker : String) : List String :=
  (pieces isSep worker.toList).map String.ofList

/-- The fixed words before and after the goal. -/
def goalFlags (worker : String) : List String × List String :=
  if basename worker = "cursor-agent" then (["-p"], ["--output-format", "json"]) else (["run"], [])

/-- The words for a model, if one is asked for. -/
def modelFlags : Option String → List String
  | none => []
  | some model => if model = "" then [] else ["--model", model]

theorem reads_worker {worker : String} (h : isWorkerText worker = true) :
    Reads worker.toList (pieces isSep worker.toList) :=
  reads_pieces fun c hc => (Bool.or_eq_true _ _).mp (List.all_eq_true.mp h c hc)

theorem reads_format :
    Reads "--output-format json".toList ["--output-format".toList, "json".toList] := by
  have hflag : Reads "--output-format".toList ["--output-format".toList] :=
    reads_word (by decide) (by decide)
  have hjson : Reads "json".toList ["json".toList] := reads_word (by decide) (by decide)
  exact hflag.join hjson

theorem buildCommand_cursor {tool : CodingTool} (h : basename tool.workerCmd = "cursor-agent")
    (goal : String) : (tool.buildCommand goal).toList =
      tool.workerCmd.toList ++ ' ' :: ("-p".toList ++ ' ' ::
        ((quote goal).toList ++ ' ' :: "--output-format json".toList)) := by
  have htemplate : workerCommandTemplates.lookup "cursor-agent" =
      some fun cmd goal => cmd ++ " -p " ++ goal ++ " --output-format json" := rfl
  rw [CodingTool.buildCommand, h, htemplate]
  simp

theorem buildCommand_run {tool : CodingTool} (h : basename tool.workerCmd ≠ "cursor-agent")
    (goal : String) : (tool.buildCommand goal).toList =
      tool.workerCmd.toList ++ ' ' :: ("run".toList ++ ' ' :: (quote goal).toList) := by
  have htemplate : (workerCommandTemplates.lookup (basename tool.workerCmd)).getD defaultTemplate =
      defaultTemplate := by
    rw [workerCommandTemplates, List.lookup_cons, List.lookup_cons, beq_false_of_ne h]
    split
    · rfl
    · rfl
  rw [CodingTool.buildCommand, htemplate]
  simp [defaultTemplate]

/-- A shell reads the worker's words, the fixed ones and the goal as one word. -/
theorem buildCommand_words {tool : CodingTool} {goal : String}
    (hworker : isWorkerText tool.workerCmd = true) (hgoal : '\x00' ∉ goal.toList) :
    split (tool.buildCommand goal) =
      some (workerWords tool.workerCmd ++ ((goalFlags tool.workerCmd).1 ++
        goal :: (goalFlags tool.workerCmd).2)) := by
  have hquote := reads_quote hgoal
  by_cases hbase : basename tool.workerCmd = "cursor-agent"
  · have hreads : Reads (tool.buildCommand goal).toList (pieces isSep tool.workerCmd.toList ++
        (["-p".toList] ++ ([goal.toList] ++ ["--output-format".toList, "json".toList]))) := by
      rw [buildCommand_cursor hbase]
      exact (reads_worker hworker).join ((reads_word (by decide) (by decide)).join
        (hquote.join reads_format))
    rw [hreads.split_eq, goalFlags, if_pos hbase]
    simp [workerWords]
  · have hreads : Reads (tool.buildCommand goal).toList (pieces isSep tool.workerCmd.toList ++
        (["run".toList] ++ [goal.toList])) := by
      rw [buildCommand_run hbase]
      exact (reads_worker hworker).join ((reads_word (by decide) (by decide)).join hquote)
    rw [hreads.split_eq, goalFlags, if_neg hbase]
    simp [workerWords]

/-- A shell reads the client, the fixed words, and the prompt and the model as one word each. -/
theorem cursorCommand_words {provider : CursorCliProvider} {prompt : String} {model : Option String}
    (hcli : '\x00' ∉ provider.cli.toList) (hprompt : '\x00' ∉ prompt.toList)
    (hmodel : ∀ text ∈ model, '\x00' ∉ text.toList) :
    split (provider.buildCommand prompt model) =
      some ([provider.cli, "-p", prompt, "--output-format", "json"] ++ modelFlags model) := by
  have hp : Reads "-p".toList ["-p".toList] := reads_word (by decide) (by decide)
  have hwords := (reads_quote hcli).join (hp.join ((reads_quote hprompt).join reads_format))
  have hbase : (provider.buildCommand prompt none).toList =
      (quote provider.cli).toList ++ ' ' :: ("-p".toList ++ ' ' ::
        ((quote prompt).toList ++ ' ' :: "--output-format json".toList)) := by
    simp [CursorCliProvider.buildCommand]
  rw [← hbase] at hwords
  cases model with
  | none =>
      rw [hwords.split_eq]
      simp [modelFlags]
  | some text =>
      by_cases hempty : text = ""
      · have hbuild : provider.buildCommand prompt (some text) = provider.buildCommand prompt none :=
          if_pos hempty
        rw [hbuild, hwords.split_eq, modelFlags, if_pos hempty]
        simp
      · have hflag : Reads "--model".toList ["--model".toList] := reads_word (by decide) (by decide)
        have hbuild : (provider.buildCommand prompt (some text)).toList =
            (provider.buildCommand prompt none).toList ++
              ' ' :: ("--model".toList ++ ' ' :: (quote text).toList) := by
          simp [CursorCliProvider.buildCommand, hempty]
        have hreads := hwords.join (hflag.join (reads_quote (hmodel text rfl)))
        rw [← hbuild] at hreads
        rw [hreads.split_eq, modelFlags, if_neg hempty]
        simp

/-! ## The options of the client -/

/-- An argument that the client takes for an option. -/
def isOption (word : String) : Bool :=
  match word.toList with
  | '-' :: _ :: _ => true
  | _ => false

/-- The options in use that take no value. -/
def switches : List String := ["--rm", "--read-only"]

/-- The options in use that take the next argument as their value. -/
def valued : List String :=
  ["--name", "--network", "--user", "--memory", "--cpus", "--pids-limit", "--cap-drop",
    "--security-opt", "--tmpfs", "-v", "-w", "-e"]

/-- The options that `docker run` reads, and the image with the command after it. -/
def runArgs : List String → Option (List (String × Option String) × List String)
  | [] => some ([], [])
  | word :: rest =>
      if !isOption word then some ([], word :: rest)
      else if word ∈ switches then (runArgs rest).map fun read => ((word, none) :: read.1, read.2)
      else if word ∈ valued then
        match rest with
        | [] => none
        | value :: rest => (runArgs rest).map fun read => ((word, some value) :: read.1, read.2)
      else none

/-- Whatever follows, these arguments are read as these options. -/
def ReadsFlags (flags : List String) (options : List (String × Option String)) : Prop :=
  ∀ rest, runArgs (flags ++ rest) = (runArgs rest).map fun read => (options ++ read.1, read.2)

theorem readsFlags_nil : ReadsFlags [] [] := fun rest => by
  rw [List.nil_append]
  exact Option.map_id'.symm

theorem ReadsFlags.append {flags flags' : List String} {options options' : List (String × Option String)}
    (h : ReadsFlags flags options) (h' : ReadsFlags flags' options') :
    ReadsFlags (flags ++ flags') (options ++ options') := fun rest => by
  rw [List.append_assoc, h, h', Option.map_map]
  simp [Function.comp_def]

theorem readsFlags_switch (flag : String) (hflag : flag ∈ switches) :
    ReadsFlags [flag] [(flag, none)] := fun rest => by
  have hoption : ∀ word ∈ switches, isOption word = true := by decide
  rw [List.singleton_append, runArgs.eq_def]
  simp only [hoption flag hflag, if_pos hflag]
  rfl

theorem readsFlags_valued (flag : String) (hflag : flag ∈ valued) (value : String) :
    ReadsFlags [flag, value] [(flag, some value)] := fun rest => by
  have hoption : ∀ word ∈ valued, isOption word = true ∧ word ∉ switches := by decide
  obtain ⟨hword, hswitch⟩ := hoption flag hflag
  rw [List.cons_append, runArgs.eq_def]
  simp only [hword, if_neg hswitch, if_pos hflag]
  rfl

theorem readsFlags_flatMap {f : String → List String} {names : List String}
    (h : ∀ name ∈ names, ∃ options, ReadsFlags (f name) options) :
    ∃ options, ReadsFlags (names.flatMap f) options := by
  induction names with
  | nil => exact ⟨[], readsFlags_nil⟩
  | cons name names ih =>
      obtain ⟨options, hname⟩ := h name (List.mem_cons_self ..)
      obtain ⟨options', hnames⟩ := ih fun other hother => h other (List.mem_cons_of_mem _ hother)
      exact ⟨options ++ options', hname.append hnames⟩

/-- Everything before the image is read as options and their values. -/
theorem readsFlags_runFlags (runner : DockerSandboxRunner) (containerName : String) :
    ∃ options, ReadsFlags (runner.runFlags containerName) options := by
  have hfixed := (readsFlags_switch "--rm" (by decide)).append <|
    (readsFlags_valued "--name" (by decide) containerName).append <|
    (readsFlags_valued "--network" (by decide) runner.network).append <|
    (readsFlags_valued "--user" (by decide) runner.user).append <|
    (readsFlags_valued "--memory" (by decide) runner.memory).append <|
    (readsFlags_valued "--cpus" (by decide) runner.cpus).append <|
    (readsFlags_valued "--pids-limit" (by decide) (toString runner.pidsLimit)).append <|
    (readsFlags_valued "--cap-drop" (by decide) "ALL").append <|
    readsFlags_valued "--security-opt" (by decide) "no-new-privileges"
  obtain ⟨rootfs, hrootfs⟩ : ∃ options, ReadsFlags
      (if runner.readOnlyRootfs then ["--read-only", "--tmpfs", "/tmp"] else []) options := by
    split
    · exact ⟨_, (readsFlags_switch "--read-only" (by decide)).append
        (readsFlags_valued "--tmpfs" (by decide) "/tmp")⟩
    · exact ⟨[], readsFlags_nil⟩
  obtain ⟨mount, hmount⟩ : ∃ options, ReadsFlags
      (match runner.workdir with
        | none => []
        | some workdir =>
            let mode := if runner.workdirReadonly then "ro" else "rw"
            ["-v", s!"{workdir}:{containerWorkdir}:{mode}", "-w", containerWorkdir]) options := by
    split
    · exact ⟨[], readsFlags_nil⟩
    · exact ⟨_, (readsFlags_valued "-v" (by decide) _).append
        (readsFlags_valued "-w" (by decide) containerWorkdir)⟩
  obtain ⟨forwarded, hforwarded⟩ : ∃ options, ReadsFlags (runner.allowedEnv.flatMap fun name =>
      if (runner.env name).isSome then ["-e", name] else []) options := by
    refine readsFlags_flatMap fun name _ => ?_
    split
    · exact ⟨_, readsFlags_valued "-e" (by decide) name⟩
    · exact ⟨[], readsFlags_nil⟩
  exact ⟨_, ((hfixed.append hrootfs).append hmount).append hforwarded⟩

/-- The client reads the same options for every command, and the command stands after the image. -/
theorem runArgs_argv {runner : DockerSandboxRunner} (himage : isOption runner.image = false)
    (containerName : String) :
    ∃ options, ∀ command, runArgs ((runner.buildInvocation command containerName).1.drop 2) =
      some (options, [runner.image, "sh", "-c", command]) := by
  obtain ⟨options, hflags⟩ := readsFlags_runFlags runner containerName
  refine ⟨options, fun command => ?_⟩
  have hdrop : (runner.buildInvocation command containerName).1.drop 2 =
      runner.runFlags containerName ++ [runner.image, "sh", "-c", command] := rfl
  have himages : runArgs [runner.image, "sh", "-c", command] =
      some ([], [runner.image, "sh", "-c", command]) := by
    rw [runArgs.eq_def]
    simp [himage]
  rw [hdrop, hflags, himages, Option.map_some, List.append_nil]

/-! ## Two environments -/

/-- The settings that the constructor reads. -/
def sandboxSettings : List String :=
  ["SANDBOX_IMAGE", "SANDBOX_NETWORK", "SANDBOX_TIMEOUT_S", "SANDBOX_MEMORY", "SANDBOX_CPUS",
    "SANDBOX_WORKDIR", "SANDBOX_USER"]

/-- Two environments agree on the settings and on which of the allowed names are set. -/
structure Alike (allowedEnv : List String) (source source' : Environ) : Prop where
  settings : ∀ name ∈ sandboxSettings, source name = source' name
  isSet : ∀ name ∈ allowedEnv, (source name).isSome = (source' name).isSome

theorem expandUser_congr {host : Host} {environ environ' : Environ} {path : String}
    (h : asksHome path = true → environ "HOME" = environ' "HOME") :
    expandUser host environ path = expandUser host environ' path := by
  unfold expandUser
  split
  · rename_i tail htail
    by_cases hname : tail.takeWhile (· ≠ '/') = []
    · have hhome : environ "HOME" = environ' "HOME" := by
        apply h
        unfold asksHome
        simp only [htail, hname, List.isEmpty_nil]
      simp only [hname, hhome]
    · simp only [if_neg hname]
  · rfl

/-- An invocation by a runner built for it. -/
def invocation (float : String → Option Number) (host : Host) (settings : Settings)
    (command containerName : String) (environ : Environ) (env : Option Environ) :
    Except InitError (List String × List (String × String)) :=
  (DockerSandboxRunner.init float host environ settings env).map fun runner =>
    runner.buildInvocation command containerName

theorem mountedWorkdir_congr (host : Host) {environ environ' : Environ} {arg setting : Option String}
    (h : ∀ path ∈ arg.or setting, asksHome path = true → environ "HOME" = environ' "HOME") :
    mountedWorkdir host environ arg setting = mountedWorkdir host environ' arg setting := by
  unfold mountedWorkdir validateWorkdir
  split
  · rfl
  · rename_i raw hraw
    rw [expandUser_congr (h raw hraw)]

section Runs

variable {float : String → Option Number} {host : Host} {settings : Settings}
  {environ environ' : Environ} {env env' : Option Environ}

/-- The constructor's result, with another environment for the variables to forward. -/
theorem init_congr
    (hsettings : ∀ name ∈ sandboxSettings, env.getD environ name = env'.getD environ' name)
    (hhome : ∀ path ∈ settings.workdir.or (env.getD environ "SANDBOX_WORKDIR"),
      asksHome path = true → environ "HOME" = environ' "HOME") :
    DockerSandboxRunner.init float host environ settings env =
      (DockerSandboxRunner.init float host environ' settings env').map fun runner =>
        { runner with env := env.getD environ } := by
  have hworkdir := mountedWorkdir_congr host hhome
  simp only [sandboxSettings, List.forall_mem_cons] at hsettings
  obtain ⟨himage, hnetwork, htimeout, hmemory, hcpus, hwork, huser, -⟩ := hsettings
  rw [hwork] at hworkdir
  simp only [DockerSandboxRunner.init, himage, hnetwork, htimeout, hmemory, hcpus, hwork, huser,
    hworkdir]
  cases timeoutSeconds float settings.timeoutS (env'.getD environ' "SANDBOX_TIMEOUT_S") with
  | error raised => rfl
  | ok seconds =>
      cases mountedWorkdir host environ' settings.workdir
        (env'.getD environ' "SANDBOX_WORKDIR") with
      | error raised => rfl
      | ok workdir => rfl

/-- A runner keeps the allowed names and the environment it was built with. -/
theorem init_keeps {runner : DockerSandboxRunner}
    (h : DockerSandboxRunner.init float host environ settings env = .ok runner) :
    runner.allowedEnv = settings.allowedEnv ∧ runner.env = env.getD environ := by
  simp only [DockerSandboxRunner.init] at h
  cases htimeout : timeoutSeconds float settings.timeoutS (env.getD environ "SANDBOX_TIMEOUT_S") with
  | error raised =>
      rw [htimeout] at h
      cases h
  | ok seconds =>
      cases hwork : mountedWorkdir host environ settings.workdir
        (env.getD environ "SANDBOX_WORKDIR") with
      | error raised =>
          rw [htimeout, hwork] at h
          cases h
      | ok workdir =>
          rw [htimeout, hwork] at h
          cases h
          exact ⟨rfl, rfl⟩

variable {command containerName : String}

/-- The arguments depend on the settings and on which of the allowed names are set. -/
theorem argv_congr (halike : Alike settings.allowedEnv (env.getD environ) (env'.getD environ'))
    (hhome : ∀ path ∈ settings.workdir.or (env.getD environ "SANDBOX_WORKDIR"),
      asksHome path = true → environ "HOME" = environ' "HOME") :
    (invocation float host settings command containerName environ env).map Prod.fst =
      (invocation float host settings command containerName environ' env').map Prod.fst := by
  unfold invocation
  rw [init_congr halike.settings hhome]
  cases hinit : DockerSandboxRunner.init float host environ' settings env' with
  | error raised => rfl
  | ok runner =>
      obtain ⟨hallowed, henv⟩ := init_keeps hinit
      have hforwarded : (runner.allowedEnv.flatMap fun name =>
          if (env.getD environ name).isSome then ["-e", name] else []) =
          runner.allowedEnv.flatMap fun name =>
            if (runner.env name).isSome then ["-e", name] else [] := by
        refine List.flatMap_congr fun name hname => ?_
        rw [halike.isSet name (hallowed ▸ hname), henv]
      simp only [Except.map, DockerSandboxRunner.buildInvocation, DockerSandboxRunner.runFlags,
        hforwarded]

/-- The child environment depends on the values of the forwarded names as well. -/
theorem childEnv_congr (halike : Alike settings.allowedEnv (env.getD environ) (env'.getD environ'))
    (hhome : ∀ path ∈ settings.workdir.or (env.getD environ "SANDBOX_WORKDIR"),
      asksHome path = true → environ "HOME" = environ' "HOME")
    (hvalues : ∀ name ∈ dockerCliEnvPassthrough ++ settings.allowedEnv,
      env.getD environ name = env'.getD environ' name) :
    (invocation float host settings command containerName environ env).map Prod.snd =
      (invocation float host settings command containerName environ' env').map Prod.snd := by
  unfold invocation
  rw [init_congr halike.settings hhome]
  cases hinit : DockerSandboxRunner.init float host environ' settings env' with
  | error raised => rfl
  | ok runner =>
      obtain ⟨hallowed, henv⟩ := init_keeps hinit
      have hamong (names : List String)
          (hnames : ∀ name ∈ names, name ∈ dockerCliEnvPassthrough ++ settings.allowedEnv) :
          setAmong (env.getD environ) names = setAmong runner.env names := by
        refine List.filterMap_congr fun name hname => ?_
        rw [hvalues name (hnames name hname), henv]
      have hpass := hamong dockerCliEnvPassthrough fun name => List.mem_append_left _
      have hallow := hamong runner.allowedEnv fun name hname =>
        List.mem_append_right _ (hallowed ▸ hname)
      simp only [Except.map, DockerSandboxRunner.buildInvocation, DockerSandboxRunner.dockerCliEnv,
        hpass, hallow]

end Runs

/-! ## Confinement -/

/-- An environment with a directory to mount below the user's home. -/
def mountsBelow (home : String) : Environ := fun name =>
  if name = "SANDBOX_WORKDIR" then some "~/scratch" else if name = "HOME" then some home else none

/-- An environment with a key in it that no setting names. -/
def withKey (key : String) : Environ := fun name =>
  if name = "OPENAI_API_KEY" then some key else none

/-- A runner as it is built without settings. -/
def plainRunner : DockerSandboxRunner where
  env := withKey "sk-1"
  image := "ai-studio-sandbox:latest"
  network := "none"
  memory := "256m"
  cpus := "1.0"
  user := "65534:65534"
  pidsLimit := 256
  readOnlyRootfs := true
  workdirReadonly := false
  dockerBin := "docker"
  timeoutS := .finite 30
  workdir := none
  allowedEnv := []

end AiStudio.Runtime.Sandbox
