import SMAgent.K6.Output
import SMAgent.K6.Repository
import SMAgent.Scraper.Logs

/-!
# Running a script with a local k6

`internal/k6runner/local.go:46-236` and `272-442`, `internal/k6runner/error.go`. `Local.Run`
writes the script, and the credentials of the secret store if there are some, to temporary files,
runs k6 and reads what it left in its files. Any of its calls may fail. The files are removed by
deferred calls, so on every path, unless a removal fails; that of the credentials does so
silently.

A process that a signal ends has the exit code -1, which counts as one that k6 chose: the code
`killed` is for exit codes from 128 on, and those are not answered with a code but with an error.
-/

namespace SMAgent.K6
open SMAgent.Base SMAgent.Scraper

/-! ### Errors -/

/-- `os.ProcessState`. -/
inductive ProcessState where
  | exited (code : Nat)
  | signaled (signal : GoString) (coreDump : Bool)
  deriving DecidableEq, Repr

/-- `ProcessState.ExitCode`. -/
def ProcessState.exitCode : ProcessState → Int
  | .exited code => code
  | .signaled _ _ => -1

/-- `ProcessState.String`. -/
def ProcessState.string : ProcessState → GoString
  | .exited code => .lit "exit status " ++ GoString.formatInt code
  | .signaled signal coreDump =>
    .lit "signal: " ++ signal ++ (if coreDump then GoString.lit " (core dumped)" else [])

/-- The errors of `error.go:13-16`. -/
inductive LogError where
  /-- `ErrStacktrace` -/
  | stacktrace
  /-- `ErrThrown` -/
  | thrown
  deriving DecidableEq, Repr

/-- The errors of `cmd.Run` and of the context. -/
inductive Cause where
  /-- `context.DeadlineExceeded` -/
  | deadlineExceeded
  /-- `context.Canceled` -/
  | canceled
  /-- `*exec.ExitError` -/
  | exit (state : ProcessState)
  | other (message : GoString)
  deriving DecidableEq, Repr

/-- `Cause.Error`. -/
def Cause.error : Cause → GoString
  | .deadlineExceeded => .lit "context deadline exceeded"
  | .canceled => .lit "context canceled"
  | .exit state => state.string
  | .other message => message

/-- `LogError.Error`. -/
def LogError.error : LogError → GoString
  | .stacktrace => .lit "fatal error occurred while running the script"
  | .thrown => .lit "uncaught error occurred while running the script"

/-- `errors.Join` of the errors of a command and the one of its logs; `nil` without any. -/
structure Err where
  causes : List Cause := []
  log : Option LogError := none
  deriving DecidableEq, Repr

/-- `Err.Error`: one error a line. -/
def Err.error (err : Err) : GoString :=
  GoString.join (err.causes.map Cause.error ++ err.log.toList.map LogError.error) newline

/-- The first `*exec.ExitError`, which `errors.As` finds. -/
def Err.exitError (err : Err) : Option ProcessState :=
  err.causes.findSome? fun
    | .exit state => some state
    | _ => none

/-- `isUserError`, `error.go:73-85`. -/
def isUserError (err : Err) : Bool :=
  if .deadlineExceeded ∈ err.causes then true
  else err.exitError.any fun state ↦ decide (state.exitCode < 127)

/-- `errorType`, `error.go:90-123`. -/
def errorType (err : Err) : GoString :=
  if err = {} then []
  else if .deadlineExceeded ∈ err.causes then .lit "timeout"
  else if err.log = some .stacktrace then .lit "aborted"
  else if err.log = some .thrown then .lit "failed"
  else match err.exitError with
    | none => .lit "unknown"
    | some state => if 128 ≤ state.exitCode then .lit "killed" else .lit "aborted"

/-! ### Logs -/

/-- Where the decoder of `logfmt` stops. -/
inductive Ending where
  | eof
  /-- at a line that cannot be read -/
  | line (e : GoString)
  /-- in a record, after these pairs -/
  | record (keyvals : List KeyVal) (e : GoString)
  deriving DecidableEq, Repr

/-- What the decoder of `logfmt` makes of a text: the records that it reads whole, and where it
stops. -/
structure Decoded where
  records : List (List KeyVal)
  ending : Ending
  deriving DecidableEq, Repr

/-- The value of a key in a record: the last one counts, and without one it is empty. -/
def value (record : List KeyVal) (key : GoString) : GoString :=
  record.foldl (fun v kv ↦ if kv.key = key then kv.value else v) []

/-- The tests of a record in `errorFromLogs`, `error.go:53-65`. -/
def recordError (record : List KeyVal) : Option LogError :=
  if value record (.lit "level") = .lit "error" ∧
      value record (.lit "source") = .lit "stacktrace" then some .stacktrace
  else if value record (.lit "level") = .lit "error" ∧
      GoString.lit "Uncaught (in promise)" <+: value record (.lit "msg") then some .thrown
  else none

/-- `errorFromLogs`, `error.go:37-69`: a record that is not whole is passed over, and there is
none after it. -/
def errorFromLogs (logs : Decoded) : Option LogError := logs.records.findSome? recordError

/-! ### The files of a run -/

/-- `SecretStore`, `k6runner.go:39-42`. -/
structure SecretStore where
  url : GoString
  token : GoString
  deriving DecidableEq, Repr

/-- `SecretStore.IsConfigured`. -/
def SecretStore.isConfigured (s : SecretStore) : Bool := s.url != [] && s.token != []

/-- The parts of `Script` that `Local.Run` reads. -/
structure Script where
  script : GoString
  /-- `Settings.Timeout`, in milliseconds -/
  timeout : Int
  /-- `CheckInfo.Type` -/
  type : GoString
  k6ChannelManifest : GoString
  deriving DecidableEq, Repr

/-- A command, with the folder it is run in and its time limit. -/
structure Command where
  path : GoString
  args : List GoString
  dir : GoString
  timeout : Int
  deriving DecidableEq, Repr

/-- How a call of `afero.TempFile` and of `Close` ends: what stands for the asterisk. -/
structure Temp where
  random : Except GoString GoString
  close : Option GoString := none

/-- How the calls of `createSecretConfigFile` end. -/
structure SecretTemp extends Temp where
  chmod : Option GoString := none
  /-- `json.Marshal` of the url and the token -/
  marshal : SecretStore → Except GoString GoString
  /-- the bytes that were written before an error -/
  write : Option (Nat × GoString) := none
  /-- whether `os.Remove` succeeds -/
  remove : Bool := true

/-- How the calls of one run end. -/
structure Env where
  /-- `Repository.Resolve`: the version and the path -/
  resolve : GoString → Except ResolveError (GoString × GoString)
  /-- `os.TempDir` -/
  tmp : GoString
  workdir : Except GoString GoString
  metrics : Temp
  logs : Temp
  script : Temp
  /-- the bytes of the script that were written before an error -/
  writeFile : Option (Nat × GoString) := none
  secret : SecretTemp
  /-- k6: the files it leaves, the error of `cmd.Run`, and that of the context -/
  k6 : Command → Fs → Fs × Option Cause × Option Cause
  /-- whether `RemoveAll` succeeds -/
  removeAll : Bool := true
  /-- the time before k6 is run, in RFC 3339 -/
  start : GoString
  /-- the verb `%q` -/
  quote : GoString → GoString
  /-- the decoder of `logfmt` -/
  decode : GoString → Decoded

/-- Why a run gives no response. -/
inductive RunError where
  /-- cannot resolve k6 version -/
  | resolving (e : ResolveError)
  /-- `ErrNoTimeout` -/
  | noTimeout
  /-- cannot create temporary directory -/
  | creatingWorkdir (e : GoString)
  /-- cannot obtain temporary metrics filename -/
  | metricsFilename (e : GoString)
  /-- cannot obtain temporary logs filename -/
  | logsFilename (e : GoString)
  /-- cannot obtain temporary script filename -/
  | scriptFilename (e : GoString)
  /-- cannot write temporary script file -/
  | writingScript (e : GoString)
  /-- cannot create secret config file -/
  | secretConfig (e : GoString)
  /-- executing k6 script -/
  | executing (err : Err)
  /-- reading k6 logs; the error is the one of the command -/
  | readingLogs (err : Err)
  /-- reading k6 metrics; the error is the one of the command -/
  | readingMetrics (err : Err)
  deriving DecidableEq, Repr

/-- `RunResponse`, `http.go:58-63`. -/
structure RunResponse extends Output where
  error : GoString := []
  errorCode : GoString := []
  deriving DecidableEq, Repr

/-- A path of a folder, or the folder itself. -/
def Under (dir path : GoString) : Prop := path = dir ∨ (dir ++ .lit "/") <+: path

instance (dir path : GoString) : Decidable (Under dir path) := inferInstanceAs (Decidable (_ ∨ _))

/-- The file system with another content of a file. -/
def Fs.write (fs : Fs) (name content : GoString) : Fs := Function.update fs name (some content)

/-- `os.Remove`. -/
def Fs.remove (fs : Fs) (name : GoString) : Fs := Function.update fs name none

/-- `RemoveAll`. -/
def Fs.removeAll (fs : Fs) (dir : GoString) : Fs :=
  fun path ↦ if Under dir path then none else fs path

/-- `mktemp`, `local.go:344-355`. -/
def mktemp (fs : Fs) (dir suffix : GoString) (temp : Temp) : Fs × Except GoString GoString :=
  match temp.random with
  | .error e => (fs, .error (.lit "cannot create temporary file: " ++ e))
  | .ok random =>
    let name := dir ++ .lit "/" ++ random ++ suffix
    let fs := fs.write name []
    match temp.close with
    | some e => (fs, .error (.lit "cannot close temporary file: " ++ e))
    | none => (fs, .ok name)

/-- The file that `createSecretConfigFile` creates. -/
def secretName (tmp random : GoString) : GoString :=
  tmp ++ .lit "/k6-secrets-" ++ random ++ .lit ".json"

/-- `os.Remove`, whose error is not looked at. -/
def SecretTemp.cleanup (temp : SecretTemp) (fs : Fs) (name : GoString) : Fs :=
  if temp.remove then fs.remove name else fs

/-- `createSecretConfigFile`, `local.go:409-442`. -/
def createSecretConfigFile (fs : Fs) (tmp : GoString) (store : SecretStore) (temp : SecretTemp) :
    Fs × Except GoString GoString :=
  match temp.random with
  | .error e => (fs, .error (.lit "creating temp file: " ++ e))
  | .ok random =>
    let name := secretName tmp random
    let fs := fs.write name []
    match temp.chmod with
    | some e => (temp.cleanup fs name, .error (.lit "setting file permissions: " ++ e))
    | none =>
    match temp.marshal store with
    | .error e => (temp.cleanup fs name, .error (.lit "marshaling config to JSON: " ++ e))
    | .ok configData =>
    match temp.write with
    | some (n, e) =>
      (temp.cleanup (fs.write name (configData.take n)) name,
        .error (.lit "writing config file: " ++ e))
    | none =>
      let fs := fs.write name configData
      match temp.close with
      | some e => (temp.cleanup fs name, .error (.lit "closing config file: " ++ e))
      | none => (fs, .ok name)

/-! ### The run -/

/-- `buildK6RefID`, `local.go:336-342`; `none` is an error, which is only logged. -/
def buildK6RefID (executionID : GoString) : Option GoString :=
  if executionID = [] then none else some (.lit "sm:" ++ executionID)

/-- `Local.buildK6Args`, `local.go:272-332`, which does not fail. -/
def buildK6Args (blacklistedIP : GoString) (script : Script)
    (metricsFn logsFn scriptFn configFile executionID : GoString) : List GoString :=
  [.lit "run", .lit "--out", .lit "sm=" ++ metricsFn, .lit "--log-format", .lit "logfmt",
    .lit "--log-output", .lit "file=" ++ logsFn, .lit "--max-redirects", .lit "10",
    .lit "--batch", .lit "10", .lit "--batch-per-host", .lit "4", .lit "--no-connection-reuse",
    .lit "--blacklist-ip", blacklistedIP, .lit "--block-hostnames", .lit "*.cluster.local",
    .lit "--summary-time-unit", .lit "s", .lit "--dns",
    .lit "ttl=30s,select=random,policy=preferIPv4", .lit "--address", [], .lit "--no-thresholds",
    .lit "--no-usage-report", .lit "--no-color", .lit "--summary-mode", .lit "disabled",
    .lit "--verbose", .lit "--throw"] ++
  (if configFile = [] then []
    else [.lit "--secret-source", .lit "grafanasecrets=config=" ++ configFile]) ++
  (if script.type = checkTypeString .browser then
    (buildK6RefID executionID).elim []
      fun k6RefID ↦ [.lit "-e", .lit "K6_CLOUD_PUSH_REF_ID=" ++ k6RefID]
  else [.lit "--vus", .lit "1", .lit "--iterations", .lit "1"]) ++
  [scriptFn]

/-- `time.Duration(script.Settings.Timeout) * time.Millisecond`. -/
def Script.checkTimeout (script : Script) : Int := (script.timeout * 1000000).bmod (2 ^ 64)

/-- The names of the files of a run. -/
structure Names where
  workdir : GoString
  metricsFn : GoString
  logsFn : GoString
  scriptFn : GoString

/-- How a run ends: the files, the command if k6 was run, with the names of its files and those that
it found, and what `Local.Run` returns. -/
structure Run where
  fs : Fs
  command : Option Command := none
  started : Option (Names × Fs) := none
  result : Except RunError RunResponse

/-- `local.go:187-235`, after a run of k6 that ended with no error or with one of the user. -/
def respond (env : Env) (fs : Fs) (names : Names) (logsBuf : GoString) (err : Err) :
    Except RunError RunResponse :=
  match readOutput fs names.logsFn names.metricsFn logsBuf with
  | .error _ => .error (if fs names.logsFn = none then .readingLogs err else .readingMetrics err)
  | .ok output =>
    let err := { err with log := errorFromLogs (env.decode output.logs) }
    .ok { output with error := err.error, errorCode := errorType err }

/-- The command, `local.go:132-149`. -/
def k6Command (blacklistedIP : GoString) (script : Script) (executionID path : GoString)
    (names : Names) (configFile : GoString) : Command where
  path := path
  args := buildK6Args blacklistedIP script names.metricsFn names.logsFn names.scriptFn configFile
    executionID
  dir := names.workdir
  timeout := script.checkTimeout

/-- `errors.Join` of the error of the command and that of the context. -/
def joined (ended : Fs × Option Cause × Option Cause) : Err where
  causes := ended.2.1.toList ++ ended.2.2.toList

/-- `local.go:132-235`: k6 is run, with a configuration of the secret store or without one. -/
def execute (env : Env) (blacklistedIP : GoString) (script : Script) (executionID : GoString)
    (version path : GoString) (names : Names) (configFile : GoString) (fs : Fs) : Run :=
  let command := k6Command blacklistedIP script executionID path names configFile
  let ended := env.k6 command fs
  { fs := ended.1
    command
    started := some (names, fs)
    result :=
      if joined ended ≠ {} ∧ !isUserError (joined ended) then .error (.executing (joined ended))
      else respond env ended.1 names
        (versionLine env.quote env.start script.k6ChannelManifest version path) (joined ended) }

/-- `local.go:115-235`: a file for the secret store if there is one, which is removed at the
end. -/
def withSecretStore (env : Env) (blacklistedIP : GoString) (script : Script)
    (secretStore : SecretStore) (executionID version path : GoString) (names : Names) (fs : Fs) :
    Run :=
  if secretStore.isConfigured then
    match createSecretConfigFile fs env.tmp secretStore env.secret with
    | (fs, .error e) => { fs, result := .error (.secretConfig e) }
    | (fs, .ok configFile) =>
      let run := execute env blacklistedIP script executionID version path names configFile fs
      { run with fs := env.secret.cleanup run.fs configFile }
  else execute env blacklistedIP script executionID version path names [] fs

/-- `local.go:83-235`, in the folder of the run. -/
def inWorkdir (env : Env) (blacklistedIP : GoString) (script : Script) (secretStore : SecretStore)
    (executionID version path workdir : GoString) (fs : Fs) : Run :=
  match mktemp fs workdir (.lit ".json") env.metrics with
  | (fs, .error e) => { fs, result := .error (.metricsFilename e) }
  | (fs, .ok metricsFn) =>
  match mktemp fs workdir (.lit ".log") env.logs with
  | (fs, .error e) => { fs, result := .error (.logsFilename e) }
  | (fs, .ok logsFn) =>
  match mktemp fs workdir (.lit ".js") env.script with
  | (fs, .error e) => { fs, result := .error (.scriptFilename e) }
  | (fs, .ok scriptFn) =>
  match env.writeFile with
  | some (n, e) =>
    { fs := fs.write scriptFn (script.script.take n), result := .error (.writingScript e) }
  | none =>
    withSecretStore env blacklistedIP script secretStore executionID version path
      ⟨workdir, metricsFn, logsFn, scriptFn⟩ (fs.write scriptFn script.script)

/-- The folder that `TempDir` makes. -/
def workdirName (tmp random : GoString) : GoString := tmp ++ .lit "/k6-runner" ++ random

/-- The manifest of a script, `local.go:52-56`. -/
def Script.withManifest (script : Script) : Script :=
  if script.k6ChannelManifest = [] then { script with k6ChannelManifest := .lit "*" } else script

/-- `Local.Run`, `local.go:46-236`. -/
def localRun (env : Env) (blacklistedIP : GoString) (script : Script) (secretStore : SecretStore)
    (executionID : GoString) (fs : Fs) : Run :=
  let script := script.withManifest
  match env.resolve script.k6ChannelManifest with
  | .error e => { fs, result := .error (.resolving e) }
  | .ok (version, path) =>
  if script.checkTimeout = 0 then { fs, result := .error .noTimeout }
  else match env.workdir with
  | .error e => { fs, result := .error (.creatingWorkdir e) }
  | .ok random =>
    let workdir := workdirName env.tmp random
    let run := inWorkdir env blacklistedIP script secretStore executionID version path workdir
      (fs.write workdir [])
    { run with fs := if env.removeAll then run.fs.removeAll workdir else run.fs }

/-! ### What a run leaves behind -/

/-- The same contents outside a folder. -/
def AgreesOutside (dir : GoString) (fs fs' : Fs) : Prop :=
  ∀ path, ¬ Under dir path → fs path = fs' path

private theorem AgreesOutside.trans {dir : GoString} {fs fs' fs'' : Fs}
    (h : AgreesOutside dir fs fs') (h' : AgreesOutside dir fs' fs'') : AgreesOutside dir fs fs'' :=
  fun path hpath ↦ (h path hpath).trans (h' path hpath)

private theorem agreesOutside_write {dir name : GoString} (h : Under dir name) (fs : Fs)
    (content : GoString) : AgreesOutside dir (fs.write name content) fs := by
  intro path hpath
  apply Function.update_of_ne
  rintro rfl
  exact hpath h

private theorem under_append (dir random suffix : GoString) :
    Under dir (dir ++ .lit "/" ++ random ++ suffix) :=
  .inr ⟨random ++ suffix, by simp⟩

/-- The file is created and closed. -/
def Temp.Succeeds (temp : Temp) : Prop := (∃ random, temp.random = .ok random) ∧ temp.close = none

/-- The file of the credentials is created and written. -/
structure SecretTemp.Succeeds (temp : SecretTemp) (store : SecretStore) : Prop where
  created : ∃ random, temp.random = .ok random
  chmod : temp.chmod = none
  marshal : ∃ configData, temp.marshal store = .ok configData
  write : temp.write = none
  close : temp.close = none

/-- Everything that comes before k6 succeeds. -/
structure Env.Prepared (env : Env) (script : Script) (store : SecretStore) : Prop where
  resolve : ∃ k6, env.resolve script.withManifest.k6ChannelManifest = .ok k6
  timeout : script.withManifest.checkTimeout ≠ 0
  workdir : ∃ random, env.workdir = .ok random
  metrics : env.metrics.Succeeds
  logs : env.logs.Succeeds
  script : env.script.Succeeds
  writeFile : env.writeFile = none
  secret : store.isConfigured = true → env.secret.Succeeds store

private theorem mktemp_eq (dir suffix : GoString) (temp : Temp) :
    (¬ temp.Succeeds ∧ ∃ e, ∀ fs, ∃ fs', mktemp fs dir suffix temp = (fs', .error e) ∧
      AgreesOutside dir fs' fs) ∨
    (temp.Succeeds ∧ ∃ name, Under dir name ∧ ∀ fs, ∃ fs',
      mktemp fs dir suffix temp = (fs', .ok name) ∧ AgreesOutside dir fs' fs) := by
  unfold mktemp Temp.Succeeds
  cases temp.random with
  | error e => exact .inl ⟨nofun, _, fun fs ↦ ⟨fs, rfl, fun _ _ ↦ rfl⟩⟩
  | ok random =>
    have hunder := under_append dir random suffix
    cases temp.close with
    | some e => exact .inl ⟨nofun, _, fun fs ↦ ⟨_, rfl, agreesOutside_write hunder fs []⟩⟩
    | none =>
      exact .inr ⟨⟨⟨random, rfl⟩, rfl⟩, _, hunder,
        fun fs ↦ ⟨_, rfl, agreesOutside_write hunder fs []⟩⟩

section Runs
variable {env : Env} {blacklistedIP : GoString} {script : Script}
  {executionID version path : GoString}

/-- k6 writes in its folder only. -/
def Env.Confined (env : Env) : Prop :=
  ∀ command fs, AgreesOutside command.dir (env.k6 command fs).1 fs

/-- No file has a name yet that the run makes up. -/
structure Env.Fresh (env : Env) (fs : Fs) : Prop where
  workdir : ∀ random, env.workdir = .ok random →
    ∀ path, Under (workdirName env.tmp random) path → fs path = none
  secret : ∀ random, env.secret.random = .ok random → fs (secretName env.tmp random) = none

private theorem Fs.write_write (fs : Fs) (name content content' : GoString) :
    (fs.write name content).write name content' = fs.write name content' :=
  Function.update_idem _ _ _

private theorem cleanup_write (hremove : env.secret.remove = true) {fs : Fs} {name : GoString}
    (hfresh : fs name = none) (content : GoString) :
    env.secret.cleanup (fs.write name content) name = fs := by
  rw [SecretTemp.cleanup, if_pos hremove, Fs.remove, Fs.write, Function.update_idem, ← hfresh,
    Function.update_eq_self]

/-- The file of the credentials is complete, or it is gone. -/
theorem createSecretConfigFile_eq (hremove : env.secret.remove = true) {fs : Fs}
    (hfresh : ∀ random, env.secret.random = .ok random → fs (secretName env.tmp random) = none)
    (store : SecretStore) :
    (∃ e, createSecretConfigFile fs env.tmp store env.secret = (fs, .error e)) ∨
    (∃ random configData, env.secret.random = .ok random ∧
      createSecretConfigFile fs env.tmp store env.secret =
        (fs.write (secretName env.tmp random) configData, .ok (secretName env.tmp random))) := by
  unfold createSecretConfigFile
  cases hrandom : env.secret.random with
  | error e => exact .inl ⟨_, rfl⟩
  | ok random =>
    have hclean := cleanup_write hremove (hfresh random hrandom)
    simp only [Fs.write_write, hclean]
    cases env.secret.chmod with
    | some e => exact .inl ⟨_, rfl⟩
    | none =>
    cases env.secret.marshal store with
    | error e => exact .inl ⟨_, rfl⟩
    | ok configData =>
    cases env.secret.write with
    | some written => exact .inl ⟨_, rfl⟩
    | none =>
    cases env.secret.close with
    | some e => exact .inl ⟨_, rfl⟩
    | none => exact .inr ⟨random, configData, rfl, rfl⟩

private theorem not_under_secretName (tmp random random' : GoString) :
    ¬ Under (workdirName tmp random) (secretName tmp random') := by
  have hsecret : tmp ++ .lit "/k6-secrets-" <+: secretName tmp random' :=
    ⟨random' ++ GoString.lit ".json", by simp [secretName]⟩
  have hne : ¬ tmp ++ .lit "/k6-runner" <+: secretName tmp random' := by
    intro h
    have hle := List.prefix_of_prefix_length_le h hsecret (by simp; decide)
    rw [List.prefix_append_right_inj] at hle
    revert hle
    decide
  rintro (h | h)
  · exact hne ⟨random, h.symm⟩
  · apply hne
    apply List.IsPrefix.trans _ h
    exact ⟨random ++ GoString.lit "/", by simp [workdirName]⟩

private theorem agreesOutside_execute (hk6 : env.Confined) (names : Names) (configFile : GoString)
    (fs : Fs) :
    AgreesOutside names.workdir
      (execute env blacklistedIP script executionID version path names configFile fs).fs fs :=
  hk6 (k6Command blacklistedIP script executionID path names configFile) fs

private theorem agreesOutside_withSecretStore (hremove : env.secret.remove = true)
    (hk6 : env.Confined) (names : Names) {fs : Fs}
    (hfresh : ∀ random, env.secret.random = .ok random → fs (secretName env.tmp random) = none)
    (store : SecretStore) :
    AgreesOutside names.workdir
      (withSecretStore env blacklistedIP script store executionID version path names fs).fs fs := by
  unfold withSecretStore
  split
  · rcases createSecretConfigFile_eq hremove hfresh store with ⟨e, h⟩ | ⟨random, data, hrandom, h⟩
    · rw [h]
      exact fun _ _ ↦ rfl
    · rw [h]
      intro p hp
      show env.secret.cleanup _ _ p = fs p
      rw [SecretTemp.cleanup, if_pos hremove, Fs.remove]
      by_cases hname : p = secretName env.tmp random
      · rw [hname, Function.update_self, hfresh random hrandom]
      · rw [Function.update_of_ne hname, agreesOutside_execute hk6 names _ _ p hp, Fs.write,
          Function.update_of_ne hname]
  · exact agreesOutside_execute hk6 names [] fs

/-- What comes before the secret store does not depend on it, and succeeds if its calls do. -/
theorem inWorkdir_eq (workdir : GoString) (fs : Fs) :
    (¬ (env.metrics.Succeeds ∧ env.logs.Succeeds ∧ env.script.Succeeds ∧ env.writeFile = none) ∧
      ∃ fs' e, AgreesOutside workdir fs' fs ∧ ∀ store,
        inWorkdir env blacklistedIP script store executionID version path workdir fs =
          { fs := fs', result := .error e }) ∨
    ((env.metrics.Succeeds ∧ env.logs.Succeeds ∧ env.script.Succeeds ∧ env.writeFile = none) ∧
      ∃ names fs', names.workdir = workdir ∧ AgreesOutside workdir fs' fs ∧ ∀ store,
        inWorkdir env blacklistedIP script store executionID version path workdir fs =
          withSecretStore env blacklistedIP script store executionID version path names fs') := by
  rcases mktemp_eq workdir (.lit ".json") env.metrics with ⟨hnot, e, h⟩ | ⟨hmade₁, metricsFn, -, h⟩
  · obtain ⟨fs₁, hmake, hout⟩ := h fs
    exact .inl ⟨fun hall ↦ hnot hall.1, fs₁, _, hout, fun store ↦ by rw [inWorkdir, hmake]⟩
  obtain ⟨fs₁, hmetrics, hout₁⟩ := h fs
  rcases mktemp_eq workdir (.lit ".log") env.logs with ⟨hnot, e, h⟩ | ⟨hmade₂, logsFn, -, h⟩
  · obtain ⟨fs₂, hmake, hout⟩ := h fs₁
    refine .inl ⟨fun hall ↦ hnot hall.2.1, fs₂, .logsFilename e, hout.trans hout₁, fun store ↦ ?_⟩
    simp only [inWorkdir, hmetrics, hmake]
  obtain ⟨fs₂, hlogs, hout₂⟩ := h fs₁
  rcases mktemp_eq workdir (.lit ".js") env.script with ⟨hnot, e, h⟩ | ⟨hmade₃, scriptFn, hunder, h⟩
  · obtain ⟨fs₃, hmake, hout⟩ := h fs₂
    refine .inl ⟨fun hall ↦ hnot hall.2.2.1, fs₃, .scriptFilename e,
      hout.trans (hout₂.trans hout₁), fun store ↦ ?_⟩
    simp only [inWorkdir, hmetrics, hlogs, hmake]
  obtain ⟨fs₃, hscript, hout₃⟩ := h fs₂
  have hout := hout₃.trans (hout₂.trans hout₁)
  cases hwrite : env.writeFile with
  | some written =>
    refine .inl ⟨fun hall ↦ (Option.some_ne_none _) hall.2.2.2,
      fs₃.write scriptFn (script.script.take written.1), .writingScript written.2,
      (agreesOutside_write hunder fs₃ _).trans hout, fun store ↦ ?_⟩
    simp only [inWorkdir, hmetrics, hlogs, hscript, hwrite]
  | none =>
    refine .inr ⟨⟨hmade₁, hmade₂, hmade₃, rfl⟩, ⟨workdir, metricsFn, logsFn, scriptFn⟩,
      fs₃.write scriptFn script.script, rfl, (agreesOutside_write hunder fs₃ _).trans hout,
      fun store ↦ ?_⟩
    simp only [inWorkdir, hmetrics, hlogs, hscript, hwrite]

/-- A run fails before it has made a file, or is that in its folder. -/
theorem localRun_eq (env : Env) (blacklistedIP : GoString) (script : Script)
    (executionID : GoString) (fs : Fs) :
    ((∀ store, ¬ env.Prepared script store) ∧ ∃ e, ∀ store,
      localRun env blacklistedIP script store executionID fs = { fs, result := .error e }) ∨
    (∃ version path random, env.resolve script.withManifest.k6ChannelManifest =
        .ok (version, path) ∧ script.withManifest.checkTimeout ≠ 0 ∧ env.workdir = .ok random ∧
      ∀ store, localRun env blacklistedIP script store executionID fs =
        let run := inWorkdir env blacklistedIP script.withManifest store executionID version path
          (workdirName env.tmp random) (fs.write (workdirName env.tmp random) [])
        { run with
          fs := if env.removeAll then run.fs.removeAll (workdirName env.tmp random)
            else run.fs }) := by
  cases hresolve : env.resolve script.withManifest.k6ChannelManifest with
  | error e =>
    refine .inl ⟨fun store hprepared ↦ ?_, .resolving e, fun store ↦ ?_⟩
    · obtain ⟨k6, hk6⟩ := hprepared.resolve
      cases hresolve.symm.trans hk6
    · simp only [localRun, hresolve]
  | ok entry =>
    by_cases htimeout : script.withManifest.checkTimeout = 0
    · refine .inl ⟨fun store hprepared ↦ hprepared.timeout htimeout, .noTimeout, fun store ↦ ?_⟩
      simp only [localRun, hresolve, if_pos htimeout]
    cases hworkdir : env.workdir with
    | error e =>
      refine .inl ⟨fun store hprepared ↦ ?_, .creatingWorkdir e, fun store ↦ ?_⟩
      · obtain ⟨random, hrandom⟩ := hprepared.workdir
        cases hworkdir.symm.trans hrandom
      · simp only [localRun, hresolve, if_neg htimeout, hworkdir]
    | ok random =>
      refine .inr ⟨entry.1, entry.2, random, rfl, htimeout, rfl, fun store ↦ ?_⟩
      simp only [localRun, hresolve, if_neg htimeout, hworkdir]

/-- The name of the file of the credentials, if there are some. -/
def Env.configFile (env : Env) (configured : Bool) : GoString :=
  if configured then (env.secret.random.toOption.map (secretName env.tmp)).getD [] else []

private theorem createSecretConfigFile_eq_ok {fs fs' : Fs} {tmp name : GoString}
    {store : SecretStore}
    {temp : SecretTemp} (h : createSecretConfigFile fs tmp store temp = (fs', .ok name)) :
    ∃ random, temp.random = .ok random ∧ name = secretName tmp random := by
  unfold createSecretConfigFile at h
  split at h
  · cases h
  · next random hrandom =>
    refine ⟨random, hrandom, ?_⟩
    repeat' split at h
    all_goals cases h
    rfl

private theorem command_withSecretStore {names : Names} {fs : Fs} {store : SecretStore}
    {c : Command}
    (h : (withSecretStore env blacklistedIP script store executionID version path names
      fs).command = some c) :
    c = k6Command blacklistedIP script executionID path names
      (env.configFile store.isConfigured) := by
  unfold withSecretStore at h
  split at h
  · next hconfigured =>
    split at h
    · cases h
    · next configFile hcreate =>
      obtain ⟨random, hrandom, rfl⟩ := createSecretConfigFile_eq_ok hcreate
      rw [Env.configFile, if_pos hconfigured, hrandom]
      exact (Option.some.inj h).symm
  · next hnot =>
    rw [Env.configFile, if_neg hnot]
    exact (Option.some.inj h).symm

/-- `local.go:46-236`. Wherever a run fails, and if nothing fails, the files are the same as
before once its deferred calls have succeeded; in particular the credentials of the secret store
are gone. The command that is run does not tell what the credentials are. -/
theorem localRun_restores (hk6 : env.Confined) (hremoveAll : env.removeAll = true)
    (hremove : env.secret.remove = true) {fs : Fs} (hfresh : env.Fresh fs) (store : SecretStore) :
    (localRun env blacklistedIP script store executionID fs).fs = fs ∧
    ∀ store' c c', store'.isConfigured = store.isConfigured →
      (localRun env blacklistedIP script store executionID fs).command = some c →
      (localRun env blacklistedIP script store' executionID fs).command = some c' → c = c' := by
  rcases localRun_eq env blacklistedIP script executionID fs with
    ⟨-, e, h⟩ | ⟨version, path, random, -, -, hrandom, h⟩
  · refine ⟨by rw [h], fun store' c c' _ hc ↦ ?_⟩
    rw [h] at hc
    cases hc
  have hmade : AgreesOutside (workdirName env.tmp random)
      (fs.write (workdirName env.tmp random) []) fs := agreesOutside_write (.inl rfl) fs []
  have hrestored : ∀ {fs' : Fs}, AgreesOutside (workdirName env.tmp random) fs' fs →
      fs'.removeAll (workdirName env.tmp random) = fs := by
    intro fs' hfs'
    funext p
    by_cases hp : Under (workdirName env.tmp random) p
    · rw [Fs.removeAll, if_pos hp, hfresh.workdir random hrandom p hp]
    · rw [Fs.removeAll, if_neg hp, hfs' p hp]
  simp only [h, hremoveAll, if_true]
  rcases inWorkdir_eq (workdirName env.tmp random) (fs.write (workdirName env.tmp random) []) with
    ⟨-, fs', e, hout, hin⟩ | ⟨-, names, fs', hworkdir, hout, hin⟩
  · refine ⟨?_, fun store' c c' _ hc ↦ ?_⟩
    · rw [hin]
      exact hrestored (hout.trans hmade)
    · rw [hin] at hc
      cases hc
  · have hsecret : ∀ random', env.secret.random = .ok random' →
        fs' (secretName env.tmp random') = none := by
      intro random' hrandom'
      rw [(hout.trans hmade) _ (not_under_secretName env.tmp random random')]
      exact hfresh.secret random' hrandom'
    refine ⟨?_, fun store' c c' hsame hc hc' ↦ ?_⟩
    · rw [hin]
      apply hrestored
      rw [← hworkdir] at hout hmade ⊢
      exact (agreesOutside_withSecretStore hremove hk6 names hsecret store).trans
        (hout.trans hmade)
    · rw [hin] at hc hc'
      rw [command_withSecretStore hc, command_withSecretStore hc', hsame]

end Runs

/-- A run whose log is a line of k6 and whose time limit is reached. -/
def timedOutRun : Env where
  resolve _ := .ok (.lit "1.2.3", .lit "/usr/bin/k6")
  tmp := .lit "/tmp"
  workdir := .ok (.lit "1")
  metrics := { random := .ok (.lit "2") }
  logs := { random := .ok (.lit "3") }
  script := { random := .ok (.lit "4") }
  secret := { random := .ok (.lit "5"), marshal := fun store ↦ .ok (store.url ++ store.token) }
  k6 command fs :=
    (fs.write (command.dir ++ .lit "/" ++ .lit "3" ++ .lit ".log") (.lit "level=info\n"),
      some (.exit (.signaled (.lit "killed") false)), some .deadlineExceeded)
  start := .lit "2024-01-01T00:00:00Z"
  quote s := .lit "\"" ++ s ++ .lit "\""
  decode _ := ⟨[[⟨.lit "level", .lit "info"⟩]], .eof⟩

/-- A script of the given type. -/
def sampleScript (type : GoString) : Script := ⟨.lit "export default () => 1", 1000, type, []⟩

/-- A run that is killed leaves no file behind. -/
theorem localRun_restores_timedOut :
    let run := localRun timedOutRun (.lit "10.0.0.0/8") (sampleScript (.lit "scripted"))
      ⟨.lit "https://secrets", .lit "token"⟩ [] fun _ ↦ none
    run.command.isSome = true ∧ run.result.isOk = true ∧ run.fs = fun _ ↦ none := by
  have hk6 : timedOutRun.Confined :=
    fun command fs ↦ agreesOutside_write (under_append command.dir _ _) fs _
  exact ⟨by decide, by decide,
    (localRun_restores hk6 rfl rfl ⟨fun _ _ _ _ ↦ rfl, fun _ _ ↦ rfl⟩ _).1⟩

end SMAgent.K6
