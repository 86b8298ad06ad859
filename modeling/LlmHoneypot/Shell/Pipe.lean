import LlmHoneypot.Shell.Session

/-! # Pipes

`shell/pipe.py`: the descriptors of a command of a pipeline and where its output goes. -/

namespace LlmHoneypot

namespace Shell

variable {World : Type}

structure PipeSpec where
  cmd : Option CommandClass
  cmdargs : List Str := []
  inputData : Option Bytes := none
  nextCommand : Option Nat := none
  redirect : Bool := false
  redirections : List Redirection := []
  deriving DecidableEq, Repr

/-- The pipe before its redirections, with the descriptors that it begins with. -/
def PipeSpec.initial (spec : PipeSpec) : PipeProtocol where
  cmd := spec.cmd
  cmdargs := spec.cmdargs
  inputData := spec.inputData
  nextCommand := spec.nextCommand
  targets :=
    [(0, .stdin),
      (1, if spec.redirect then .capture else if spec.nextCommand.isSome then .pipe else .terminal),
      (2, .terminal)]

def PipeProtocol.setTarget (fd : Nat) (target : Target) (pipe : PipeProtocol) : PipeProtocol :=
  { pipe with targets := (fd, target) :: pipe.targets }

def emitRedirectionError (message : Str) (pipe : PipeProtocol) (session : Session World) :
    PipeProtocol × Session World :=
  ({ pipe with redirectionError := true }, session.print message)

/-- One operation of `_setup_redirections`; it gives no pipe where it raises. -/
def setupRedirection (env : Env World) (pipe : PipeProtocol) (session : Session World) :
    Redirection → Option PipeProtocol × Session World
  | .file fd target append =>
      let (prepared, world) := env.prepareOutputFile target append session.world
      let session := { session with world }
      match prepared with
      | .opened info =>
          let pipe := pipe.setTarget fd (.file info)
          (some (if fd = 1 then { pipe with stdoutWritten := info.startSize }
            else if fd = 2 then { pipe with stderrWritten := info.startSize }
            else pipe), session)
      | .devnull => (some (pipe.setTarget fd .devnull), session)
      | .refused message =>
          let (pipe, session) := emitRedirectionError message pipe session
          (some pipe, session)
      | .failed => (some pipe, session)
      | .raised => (none, session)
  | .stdin fd target => (some (pipe.setTarget fd (.fileInput target)), session)
  | .dup fd target =>
      match pipe.targets.lookup target with
      | some found => (some (pipe.setTarget fd found), session)
      | none => (some pipe, session)

def setupOperations (env : Env World) (pipe : PipeProtocol) (session : Session World) :
    List Redirection → Option PipeProtocol × Session World
  | [] => (some pipe, session)
  | op :: ops =>
      match setupRedirection env pipe session op with
      | (some pipe, session) => setupOperations env pipe session ops
      | (none, session) => (none, session)

/-- `pending_stdin_target`, the last one; an empty text counts as none. -/
def pendingStdinTarget (ops : List Redirection) : Option Str :=
  (ops.foldl (fun pending op =>
    match op with
    | .stdin _ target => some target
    | _ => pending) none).filter (· ≠ [])

/-- `_prepare_stdin`; the error for a directory is not caught. -/
def prepareStdin (env : Env World) (target : Str) (pipe : PipeProtocol) (session : Session World) :
    Option PipeProtocol × Session World :=
  match (env.resolvePath target session.world).map (env.fileContents · session.world) with
  | some (.ok data) => (some { pipe with inputData := some data }, session)
  | some (.error .fileNotFound) =>
      let (pipe, session) := emitRedirectionError
        ("-bash: ".toList ++ target ++ ": No such file or directory\n".toList) pipe session
      (some pipe, session)
  | some (.error .isADirectory) | none => (none, session)

def setupRedirections (env : Env World) (pipe : PipeProtocol) (ops : List Redirection)
    (session : Session World) : Option PipeProtocol × Session World :=
  match setupOperations env pipe session ops with
  | (none, session) => (none, session)
  | (some pipe, session) =>
      match pendingStdinTarget ops with
      | some target => prepareStdin env target pipe session
      | none => (some pipe, session)

/-- The constructor; it gives no pipe where it raises. -/
def newPipe (env : Env World) (spec : PipeSpec) (session : Session World) :
    Option Nat × Session World :=
  match setupRedirections env spec.initial spec.redirections session with
  | (none, session) => (none, session)
  | (some pipe, session) =>
      let nextError := (spec.nextCommand.map fun next =>
        (session.pipe next).hasRedirectionError).getD false
      (some session.pipes.next,
        { session with
          pipes := session.pipes.alloc
            { pipe with hasRedirectionError := pipe.redirectionError || nextError } })

def pipeToNext (data : Bytes) (pipe : Nat) (session : Session World) : Session World :=
  match (session.pipe pipe).nextCommand with
  | none => session
  | some next =>
      session.modifyPipe next fun object =>
        { object with inputData := some (object.inputData.getD [] ++ data) }

def writeToFile (env : Env World) (info : FileInfo) (data : Bytes) (isStdout : Bool) (pipe : Nat)
    (session : Session World) : Session World :=
  match env.appendRealFile info.realFile data session.world with
  | none => session
  | some world =>
      let object := session.pipe pipe
      let written := (if isStdout then object.stdoutWritten else object.stderrWritten) + data.length
      let session := session.modifyPipe pipe fun object =>
        if isStdout then { object with stdoutWritten := written }
        else { object with stderrWritten := written }
      { session with world := env.updateSize info.virtual written world }

def writeToFd (env : Env World) (fd : Nat) (data : Bytes) (pipe : Nat) (session : Session World) :
    Session World :=
  match (session.pipe pipe).targets.lookup fd with
  | some .terminal => { session with terminal := session.terminal ++ data }
  | some .pipe => pipeToNext data pipe session
  | some .capture =>
      session.modifyPipe pipe fun object =>
        { object with redirectedData := object.redirectedData ++ data }
  | some (.file info) => writeToFile env info data (fd = 1) pipe session
  | some .stdin | some (.fileInput _) | some .devnull | none => session

def writeStdout (env : Env World) (data : Bytes) (pipe : Nat) (session : Session World) :
    Session World := writeToFd env 1 data pipe session

def writeStderr (env : Env World) (data : Bytes) (pipe : Nat) (session : Session World) :
    Session World :=
  writeToFd env 2 data pipe
    (session.modifyPipe pipe fun object => { object with errData := object.errData ++ data })

def insertCommand (command pipe : Nat) (session : Session World) : Session World :=
  let next := (session.pipe pipe).nextCommand
  (session.modifyPipe command fun object => { object with nextCommand := next }).modifyPipe pipe
    fun object => { object with nextCommand := some command }

def performOutput (env : Env World) (pipe : Nat) (session : Session World) :
    Output World → Session World
  | .write data => writeStdout env data pipe session
  | .errorWrite data => writeStderr env data pipe session
  | .update change => { session with world := change session.world }

/-! ## What pipes leave alone -/

structure Untouched (before after : Session World) : Prop where
  cmdstack : after.cmdstack = before.cmdstack
  shells : after.shells = before.shells
  pp : after.pp = before.pp
  scriptDepth : after.scriptDepth = before.scriptDepth
  ended : after.ended = before.ended
  started : after.started = before.started
  removed : after.removed = before.removed

namespace Untouched

variable {first next last : Session World}

theorem refl (session : Session World) : Untouched session session :=
  ⟨rfl, rfl, rfl, rfl, rfl, rfl, rfl⟩

theorem trans (left : Untouched first next) (right : Untouched next last) :
    Untouched first last where
  cmdstack := right.cmdstack.trans left.cmdstack
  shells := right.shells.trans left.shells
  pp := right.pp.trans left.pp
  scriptDepth := right.scriptDepth.trans left.scriptDepth
  ended := right.ended.trans left.ended
  started := right.started.trans left.started
  removed := right.removed.trans left.removed

theorem print (session : Session World) (text : Str) : Untouched session (session.print text) :=
  ⟨rfl, rfl, rfl, rfl, rfl, rfl, rfl⟩

theorem withWorld (session : Session World) (world : World) :
    Untouched session { session with world } :=
  ⟨rfl, rfl, rfl, rfl, rfl, rfl, rfl⟩

theorem withTerminal (session : Session World) (terminal : Bytes) :
    Untouched session { session with terminal } :=
  ⟨rfl, rfl, rfl, rfl, rfl, rfl, rfl⟩

theorem withPipes (session : Session World) (pipes : Heap PipeProtocol) :
    Untouched session { session with pipes } :=
  ⟨rfl, rfl, rfl, rfl, rfl, rfl, rfl⟩

theorem modifyPipe (session : Session World) (pipe : Nat) (change : PipeProtocol → PipeProtocol) :
    Untouched session (session.modifyPipe pipe change) := withPipes ..

theorem showPrompt (env : Env World) (shell : Nat) (session : Session World) :
    Untouched session (session.showPrompt env shell) := by
  unfold Session.showPrompt
  split
  · exact print ..
  · exact refl _

variable (env : Env World)

theorem setupRedirection (pipe : PipeProtocol) (session : Session World) (op : Redirection) :
    Untouched session (setupRedirection env pipe session op).2 := by
  cases op with
  | file fd target append =>
      simp only [Shell.setupRedirection]
      split
      · exact withWorld ..
      · exact withWorld ..
      · exact (withWorld ..).trans (print ..)
      · exact withWorld ..
      · exact withWorld ..
  | stdin fd target => exact refl _
  | dup fd target =>
      simp only [Shell.setupRedirection]
      split
      · exact refl _
      · exact refl _

theorem setupOperations (pipe : PipeProtocol) (session : Session World) (ops : List Redirection) :
    Untouched session (setupOperations env pipe session ops).2 := by
  induction ops generalizing pipe session with
  | nil => exact refl _
  | cons op ops induction =>
      have first := setupRedirection env pipe session op
      simp only [Shell.setupOperations]
      split
      · next equal =>
        rw [equal] at first
        exact first.trans (induction _ _)
      · next equal =>
        rw [equal] at first
        exact first

theorem prepareStdin (target : Str) (pipe : PipeProtocol) (session : Session World) :
    Untouched session (prepareStdin env target pipe session).2 := by
  unfold Shell.prepareStdin
  split
  · exact refl _
  · exact print ..
  · exact refl _
  · exact refl _

theorem setupRedirections (pipe : PipeProtocol) (ops : List Redirection)
    (session : Session World) : Untouched session (setupRedirections env pipe ops session).2 := by
  have operations := setupOperations env pipe session ops
  unfold Shell.setupRedirections
  split
  · next equal =>
    rw [equal] at operations
    exact operations
  · next equal =>
    rw [equal] at operations
    split
    · exact operations.trans (prepareStdin ..)
    · exact operations

theorem newPipe (spec : PipeSpec) (session : Session World) :
    Untouched session (newPipe env spec session).2 := by
  have redirections := setupRedirections env spec.initial spec.redirections session
  unfold Shell.newPipe
  split
  · next equal =>
    rw [equal] at redirections
    exact redirections
  · next equal =>
    rw [equal] at redirections
    exact redirections.trans (withPipes ..)

theorem writeToFd (fd : Nat) (data : Bytes) (pipe : Nat) (session : Session World) :
    Untouched session (writeToFd env fd data pipe session) := by
  unfold Shell.writeToFd
  split
  · exact withTerminal ..
  · unfold pipeToNext
    split
    · exact refl _
    · exact modifyPipe ..
  · exact modifyPipe ..
  · unfold writeToFile
    split
    · exact refl _
    · exact (modifyPipe ..).trans (withWorld ..)
  all_goals exact refl _

theorem writeStderr (data : Bytes) (pipe : Nat) (session : Session World) :
    Untouched session (writeStderr env data pipe session) :=
  (modifyPipe ..).trans (writeToFd ..)

theorem performOutput (pipe : Nat) (session : Session World) (output : Output World) :
    Untouched session (performOutput env pipe session output) := by
  cases output with
  | write data => exact writeToFd ..
  | errorWrite data => exact writeStderr ..
  | update change => exact withWorld ..

end Untouched

end Shell

end LlmHoneypot
