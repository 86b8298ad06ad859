import LlmHoneypot.Shell.Commands
import LlmHoneypot.Shell.Pipe

/-! # Descriptors

Where the output of a command goes after its redirections, in `PipeProtocol` and by the rules
of POSIX. -/

namespace LlmHoneypot

namespace Shell

variable {World : Type}

inductive Destination
  | standardInput
  | terminal
  | nextStage
  | capture
  | file (info : FileInfo)
  | nowhere
  /-- A file that was opened for reading. -/
  | unwritable
  deriving DecidableEq, Repr

inductive Stream
  | out
  | err
  deriving DecidableEq, Repr

def Stream.fd : Stream → Nat
  | .out => 1
  | .err => 2

/-! ## POSIX -/

namespace Posix

/-- The descriptors that a command begins with. -/
def start (spec : PipeSpec) : List (Nat × Destination) :=
  [(0, .standardInput),
    (1, if spec.nextCommand.isSome then .nextStage else if spec.redirect then .capture
      else .terminal),
    (2, .terminal)]

def readable (env : Env World) (target : Str) (world : World) : Bool :=
  match (env.resolvePath target world).map (env.fileContents · world) with
  | some (.ok _) | some (.error .isADirectory) => true
  | some (.error .fileNotFound) | none => false

/-- One redirection, `none` where it fails, so that the command is not run. -/
def redirect (env : Env World) (state : List (Nat × Destination) × World) :
    Redirection → Option (List (Nat × Destination) × World)
  | .file fd target append =>
      match env.prepareOutputFile target append state.2 with
      | (.opened info, world) => some ((fd, .file info) :: state.1, world)
      | (.devnull, world) => some ((fd, .nowhere) :: state.1, world)
      | (.refused _, _) | (.failed, _) | (.raised, _) => none
  | .stdin fd target =>
      if readable env target state.2 then some ((fd, .unwritable) :: state.1, state.2) else none
  | .dup fd target =>
      (state.1.lookup target).map fun destination => ((fd, destination) :: state.1, state.2)

def descriptors (env : Env World) (spec : PipeSpec) (world : World) :
    Option (List (Nat × Destination) × World) :=
  spec.redirections.foldlM (redirect env) (start spec, world)

end Posix

/-- A destination gets the data; `keyboard` says that standard input is the terminal. -/
def deliver (env : Env World) (keyboard : Bool) (stream : Stream) (data : Bytes) (pipe : Nat)
    (session : Session World) : Option Destination → Session World
  | some .terminal => { session with terminal := session.terminal ++ data }
  | some .standardInput =>
      if keyboard then { session with terminal := session.terminal ++ data } else session
  | some .nextStage => pipeToNext data pipe session
  | some .capture =>
      session.modifyPipe pipe fun object =>
        { object with redirectedData := object.redirectedData ++ data }
  | some (.file info) => writeToFile env info data (stream.fd = 1) pipe session
  | some .nowhere | some .unwritable | none => session

def noted (stream : Stream) (data : Bytes) (pipe : Nat) (session : Session World) :
    Session World :=
  match stream with
  | .out => session
  | .err =>
      session.modifyPipe pipe fun object => { object with errData := object.errData ++ data }

def deliverAll (env : Env World) (keyboard : Bool) (table : List (Nat × Destination)) (pipe : Nat) :
    List (Stream × Bytes) → Session World → Session World
  | [], session => session
  | (stream, data) :: writes, session =>
      deliverAll env keyboard table pipe writes
        (deliver env keyboard stream data pipe (noted stream data pipe session)
          (table.lookup stream.fd))

def writeStream (env : Env World) (stream : Stream) (data : Bytes) (pipe : Nat)
    (session : Session World) : Session World :=
  match stream with
  | .out => writeStdout env data pipe session
  | .err => writeStderr env data pipe session

def writeAll (env : Env World) (pipe : Nat) :
    List (Stream × Bytes) → Session World → Session World
  | [], session => session
  | (stream, data) :: writes, session =>
      writeAll env pipe writes (writeStream env stream data pipe session)

/-- A command that is run after its redirections is one that POSIX runs, and each of its
writes, in every order, reaches what POSIX gives its descriptor. -/
def Routes (env : Env World) (keyboard : Bool) (spec : PipeSpec) (session : Session World) : Prop :=
  ∀ pipe next, newPipe env spec session = (some pipe, next) →
    (next.pipe pipe).redirectionError = false →
    ∃ table world, Posix.descriptors env spec session.world = some (table, world) ∧
      ∀ writes, writeAll env pipe writes next = deliverAll env keyboard table pipe writes next

/-! ## When the command is run -/

/-- The world after the output files were prepared. -/
def worldAfter (env : Env World) (ops : List Redirection) (world : World) : World :=
  ops.foldl (fun world op =>
    match op with
    | .file _ target append => (env.prepareOutputFile target append world).2
    | .stdin _ _ | .dup _ _ => world) world

/-- An output file is refused, or preparing it raises. -/
def Stops (env : Env World) : List Redirection → World → Prop
  | [], _ => False
  | .file _ target append :: ops, world =>
      match env.prepareOutputFile target append world with
      | (.refused _, _) | (.raised, _) => True
      | (.opened _, world) | (.devnull, world) | (.failed, world) => Stops env ops world
  | .stdin _ _ :: ops, world => Stops env ops world
  | .dup _ _ :: ops, world => Stops env ops world

/-- The last input file cannot be read after all output files were prepared. -/
def InputLost (env : Env World) (ops : List Redirection) (world : World) : Prop :=
  ∃ target ∈ pendingStdinTarget ops,
    ¬ ∃ data, (env.resolvePath target (worldAfter env ops world)).map
      (env.fileContents · (worldAfter env ops world)) = some (.ok data)

def PipeSpec.view (spec : PipeSpec) : Target → Destination
  | .stdin => .standardInput
  | .terminal => .terminal
  | .pipe => .nextStage
  | .capture => if spec.nextCommand.isSome then .nextStage else .capture
  | .file info => .file info
  | .fileInput _ => .unwritable
  | .devnull => .nowhere

def PipeSpec.viewAll (spec : PipeSpec) (targets : List (Nat × Target)) :
    List (Nat × Destination) :=
  targets.map fun entry => (entry.1, spec.view entry.2)

theorem lookup_viewAll (spec : PipeSpec) (targets : List (Nat × Target)) (fd : Nat) :
    (spec.viewAll targets).lookup fd = (targets.lookup fd).map spec.view := by
  induction targets with
  | nil => rfl
  | cons entry targets induction =>
      obtain ⟨number, target⟩ := entry
      rw [PipeSpec.viewAll] at induction ⊢
      rw [List.map_cons, List.lookup_cons, List.lookup_cons]
      cases same : fd == number
      · exact induction
      · rfl

theorem viewAll_initial (spec : PipeSpec) : spec.viewAll spec.initial.targets = Posix.start spec := by
  simp only [PipeSpec.viewAll, PipeSpec.initial, Posix.start, List.map_cons, List.map_nil,
    PipeSpec.view]
  cases spec.redirect <;> cases spec.nextCommand.isSome <;> simp

variable {env : Env World} {spec : PipeSpec}

theorem stops_cons {op : Redirection} {ops : List Redirection} {world : World} :
    Stops env (op :: ops) world ↔
      Stops env [op] world ∨ Stops env ops (worldAfter env [op] world) := by
  cases op with
  | stdin fd target => simp [Stops, worldAfter]
  | dup fd target => simp [Stops, worldAfter]
  | file fd target append =>
      rcases equal : env.prepareOutputFile target append world with ⟨prepared, after⟩
      cases prepared <;> simp [Stops, worldAfter, equal]

theorem setupRedirection_runs (pipe : PipeProtocol) (session : Session World) {op : Redirection}
    (goes : ¬ Stops env [op] session.world) :
    ∃ after next, setupRedirection env pipe session op = (some after, next) ∧
      after.redirectionError = pipe.redirectionError ∧
      next.world = worldAfter env [op] session.world ∧
      ∀ table world,
        Posix.redirect env (spec.viewAll pipe.targets, session.world) op = some (table, world) →
        (spec.viewAll after.targets, next.world) = (table, world) := by
  cases op with
  | file fd target append =>
      rcases equal : env.prepareOutputFile target append session.world with ⟨prepared, world⟩
      simp only [Stops, equal] at goes
      simp only [setupRedirection, worldAfter, List.foldl_cons, List.foldl_nil, Posix.redirect, equal]
      cases prepared with
      | opened info =>
          refine ⟨_, _, rfl, ?_, rfl, ?_⟩
          · split
            · rfl
            · split <;> rfl
          · rintro table _ ⟨⟩
            split
            · rfl
            · split <;> rfl
      | devnull =>
          refine ⟨_, _, rfl, rfl, rfl, ?_⟩
          rintro table _ ⟨⟩
          rfl
      | refused message => exact absurd trivial goes
      | raised => exact absurd trivial goes
      | failed =>
          refine ⟨_, _, rfl, rfl, rfl, ?_⟩
          rintro table _ ⟨⟩
  | stdin fd target =>
      refine ⟨_, _, rfl, rfl, rfl, ?_⟩
      intro table world posix
      rw [Posix.redirect] at posix
      split at posix
      · cases posix
        rfl
      · cases posix
  | dup fd target =>
      simp only [setupRedirection, Posix.redirect, lookup_viewAll]
      cases pipe.targets.lookup target with
      | none =>
          refine ⟨_, _, rfl, rfl, rfl, ?_⟩
          rintro table _ ⟨⟩
      | some found =>
          refine ⟨_, _, rfl, rfl, rfl, ?_⟩
          rintro table _ ⟨⟩
          rfl

theorem setupOperations_runs {ops : List Redirection} (pipe : PipeProtocol)
    (session : Session World) (goes : ¬ Stops env ops session.world) :
    ∃ after next, setupOperations env pipe session ops = (some after, next) ∧
      after.redirectionError = pipe.redirectionError ∧
      next.world = worldAfter env ops session.world ∧
      ∀ table world,
        ops.foldlM (Posix.redirect env) (spec.viewAll pipe.targets, session.world) =
          some (table, world) → spec.viewAll after.targets = table := by
  induction ops generalizing pipe session with
  | nil =>
      refine ⟨pipe, session, rfl, rfl, rfl, ?_⟩
      rintro table _ ⟨⟩
      rfl
  | cons op ops induction =>
      rw [stops_cons, not_or] at goes
      obtain ⟨middle, later, first, noError, world, same⟩ :=
        @setupRedirection_runs World env spec pipe session op goes.1
      rw [← world] at goes
      obtain ⟨after, next, others, noErrors, worldNext, sameAll⟩ := induction middle later goes.2
      refine ⟨after, next, ?_, noErrors.trans noError, ?_, ?_⟩
      · rw [setupOperations, first]
        exact others
      · rw [worldNext, world]
        rfl
      · intro table final posix
        rw [List.foldlM_cons, Option.bind_eq_bind, Option.bind_eq_some_iff] at posix
        obtain ⟨⟨tableThen, worldThen⟩, taken, posix⟩ := posix
        rw [← same _ _ taken] at posix
        exact sameAll table final posix

inductive Source (targets : List (Nat × Target)) : Target → Prop
  | file (info : FileInfo) : Source targets (.file info)
  | devnull : Source targets .devnull
  | fileInput (target : Str) : Source targets (.fileInput target)
  | copied {fd : Nat} {target : Target} (found : targets.lookup fd = some target) :
      Source targets target

theorem setupRedirection_cases {op : Redirection} {pipe after : PipeProtocol}
    {session next : Session World}
    (done : setupRedirection env pipe session op = (some after, next)) :
    (pipe.redirectionError = true → after.redirectionError = true) ∧
      (after.targets = pipe.targets ∨
        ∃ fd target, after.targets = (fd, target) :: pipe.targets ∧ Source pipe.targets target) := by
  cases op with
  | file fd target append =>
      rcases equal : env.prepareOutputFile target append session.world with ⟨prepared, world⟩
      simp only [setupRedirection, equal] at done
      cases prepared with
      | opened info =>
          cases done
          refine ⟨?_, .inr ⟨fd, .file info, ?_, .file info⟩⟩
          · split
            · exact id
            · split <;> exact id
          · split
            · rfl
            · split <;> rfl
      | devnull =>
          cases done
          exact ⟨id, .inr ⟨fd, .devnull, rfl, .devnull⟩⟩
      | refused message =>
          cases done
          exact ⟨fun _ => rfl, .inl rfl⟩
      | failed =>
          cases done
          exact ⟨id, .inl rfl⟩
      | raised => cases done
  | stdin fd target =>
      cases done
      exact ⟨id, .inr ⟨fd, .fileInput target, rfl, .fileInput target⟩⟩
  | dup fd target =>
      simp only [setupRedirection] at done
      split at done
      · next found isTarget =>
        cases done
        exact ⟨id, .inr ⟨fd, found, rfl, .copied isTarget⟩⟩
      · cases done
        exact ⟨id, .inl rfl⟩

theorem setupOperations_keeps {keeps : PipeProtocol → Prop}
    (step : ∀ {op pipe after} {session next : Session World},
      setupRedirection env pipe session op = (some after, next) → keeps pipe → keeps after)
    {ops : List Redirection} {pipe after : PipeProtocol} {session next : Session World}
    (start : keeps pipe) (done : setupOperations env pipe session ops = (some after, next)) :
    keeps after := by
  induction ops generalizing pipe session with
  | nil =>
      cases done
      exact start
  | cons op ops induction =>
      rw [setupOperations] at done
      split at done
      · next middle later first => exact induction (step first start) done
      · cases done

theorem setupOperations_error {ops : List Redirection} {pipe after : PipeProtocol}
    {session next : Session World} (error : pipe.redirectionError = true)
    (done : setupOperations env pipe session ops = (some after, next)) :
    after.redirectionError = true :=
  @setupOperations_keeps World env (fun pipe => pipe.redirectionError = true)
    (fun first => (setupRedirection_cases first).1) _ _ _ _ _ error done

theorem mem_of_lookup {targets : List (Nat × Target)} {fd : Nat} {target : Target}
    (found : targets.lookup fd = some target) : (fd, target) ∈ targets := by
  induction targets with
  | nil => cases found
  | cons entry targets induction =>
      obtain ⟨number, other⟩ := entry
      rw [List.lookup_cons] at found
      cases same : fd == number with
      | true =>
          rw [same] at found
          cases found
          rw [beq_iff_eq] at same
          exact same ▸ List.mem_cons_self ..
      | false =>
          rw [same] at found
          exact List.mem_cons_of_mem _ (induction found)

theorem setupOperations_absent {absent : Target} (noFile : ∀ info, absent ≠ .file info)
    (noNull : absent ≠ .devnull) (noInput : ∀ target, absent ≠ .fileInput target)
    {ops : List Redirection} {pipe after : PipeProtocol} {session next : Session World}
    (start : ∀ fd, (fd, absent) ∉ pipe.targets)
    (done : setupOperations env pipe session ops = (some after, next)) :
    ∀ fd, (fd, absent) ∉ after.targets := by
  refine @setupOperations_keeps World env (fun pipe => ∀ fd, (fd, absent) ∉ pipe.targets) ?_
    _ _ _ _ _ start done
  intro op pipe after session next first without fd
  rcases (setupRedirection_cases first).2 with same | ⟨number, target, added, source⟩
  · rw [same]
    exact without fd
  · rw [added, List.mem_cons, not_or]
    refine ⟨?_, without fd⟩
    rintro ⟨⟩
    cases source with
    | file info => exact noFile info rfl
    | devnull => exact noNull rfl
    | fileInput target => exact noInput target rfl
    | copied found => exact without _ (mem_of_lookup found)

theorem setupOperations_stops {ops : List Redirection} {pipe after : PipeProtocol}
    {session next : Session World} (stops : Stops env ops session.world)
    (done : setupOperations env pipe session ops = (some after, next)) :
    after.redirectionError = true := by
  induction ops generalizing pipe session with
  | nil => cases stops
  | cons op ops induction =>
      rw [stops_cons] at stops
      by_cases now : Stops env [op] session.world
      · rw [setupOperations] at done
        cases op with
        | stdin fd target => exact absurd now id
        | dup fd target => exact absurd now id
        | file fd target append =>
            rcases equal : env.prepareOutputFile target append session.world with ⟨prepared, world⟩
            simp only [Stops, equal] at now
            simp only [setupRedirection, equal] at done
            cases prepared with
            | opened info => exact absurd now id
            | devnull => exact absurd now id
            | failed => exact absurd now id
            | raised => cases done
            | refused message =>
                refine setupOperations_error ?_ done
                rfl
      · obtain ⟨middle, later, first, -, world, -⟩ :=
          @setupRedirection_runs World env { cmd := none } pipe session op now
        rw [setupOperations, first] at done
        refine induction ?_ done
        rw [world]
        exact stops.resolve_left now

def Goes (env : Env World) (spec : PipeSpec) (world : World) : Prop :=
  ¬ Stops env spec.redirections world ∧ ¬ InputLost env spec.redirections world

/-- Output is captured only in a substitution, and goes to a next stage only outside one. -/
def Fits (spec : PipeSpec) (targets : List (Nat × Target)) : Prop :=
  (spec.redirect = false → ∀ fd, targets.lookup fd ≠ some .capture) ∧
    (spec.redirect = true → ∀ fd, targets.lookup fd ≠ some .pipe)

theorem fits_setupOperations {ops : List Redirection} {after : PipeProtocol}
    {session next : Session World}
    (done : setupOperations env spec.initial session ops = (some after, next)) :
    Fits spec after.targets := by
  constructor
  · intro plain fd found
    refine @setupOperations_absent World env .capture ?_ ?_ ?_
      _ _ _ _ _ ?_ done fd (mem_of_lookup found)
    · intro info equal
      cases equal
    · intro equal
      cases equal
    · intro target equal
      cases equal
    · intro fd member
      simp only [PipeSpec.initial, plain, Bool.false_eq_true, if_false] at member
      cases next : spec.nextCommand <;> simp [next] at member
  · intro substituted fd found
    refine @setupOperations_absent World env .pipe ?_ ?_ ?_
      _ _ _ _ _ ?_ done fd (mem_of_lookup found)
    · intro info equal
      cases equal
    · intro equal
      cases equal
    · intro target equal
      cases equal
    · intro fd member
      simp [PipeSpec.initial, substituted] at member

theorem prepareStdin_reads {target : Str} {data : Bytes} {pipe : PipeProtocol}
    {session : Session World}
    (found : (env.resolvePath target session.world).map (env.fileContents · session.world) =
      some (.ok data)) :
    prepareStdin env target pipe session = (some { pipe with inputData := some data }, session) := by
  rw [prepareStdin, found]

theorem prepareStdin_error {target : Str} {pipe after : PipeProtocol}
    {session next : Session World}
    (lost : ¬ ∃ data, (env.resolvePath target session.world).map
      (env.fileContents · session.world) = some (.ok data))
    (done : prepareStdin env target pipe session = (some after, next)) :
    after.redirectionError = true := by
  rw [prepareStdin] at done
  split at done
  · next data found => exact absurd ⟨data, found⟩ lost
  · cases done
    rfl
  · cases done
  · cases done

theorem setupRedirections_goes {session : Session World} (goes : Goes env spec session.world) :
    ∃ after next, setupRedirections env spec.initial spec.redirections session = (some after, next) ∧
      after.redirectionError = false ∧ Fits spec after.targets ∧
      ∀ table world, Posix.descriptors env spec session.world = some (table, world) →
        spec.viewAll after.targets = table := by
  obtain ⟨after, next, done, noError, world, same⟩ :=
    @setupOperations_runs World env spec _ spec.initial session goes.1
  have fits := fits_setupOperations done
  rw [viewAll_initial] at same
  cases pending : pendingStdinTarget spec.redirections with
  | none =>
      refine ⟨after, next, ?_, noError, fits, same⟩
      simp only [setupRedirections, done, pending]
  | some target =>
      have read : ∃ data, (env.resolvePath target next.world).map
          (env.fileContents · next.world) = some (.ok data) := by
        by_contra lost
        rw [world] at lost
        exact goes.2 ⟨target, pending, lost⟩
      obtain ⟨data, found⟩ := read
      refine ⟨{ after with inputData := some data }, next, ?_, noError, fits, same⟩
      simp only [setupRedirections, done, pending]
      exact prepareStdin_reads found

theorem goes_of_setupRedirections {session next : Session World} {after : PipeProtocol}
    (done : setupRedirections env spec.initial spec.redirections session = (some after, next))
    (noError : after.redirectionError = false) : Goes env spec session.world := by
  have goes : ¬ Stops env spec.redirections session.world := by
    intro stops
    rcases operations : setupOperations env spec.initial session spec.redirections with ⟨made, later⟩
    cases made with
    | none =>
        simp only [setupRedirections, operations] at done
        cases done
    | some middle =>
        have error := setupOperations_stops stops operations
        simp only [setupRedirections, operations] at done
        split at done
        · next target _ =>
          have stays : after.redirectionError = true := by
            rw [prepareStdin] at done
            split at done
            · cases done
              exact error
            · cases done
              rfl
            · cases done
            · cases done
          cases noError.symm.trans stays
        · cases done
          cases noError.symm.trans error
  refine ⟨goes, ?_⟩
  rintro ⟨target, pending, lost⟩
  obtain ⟨middle, later, operations, -, world, -⟩ :=
    @setupOperations_runs World env spec _ spec.initial session goes
  simp only [setupRedirections, operations, Option.mem_def.mp pending] at done
  rw [← world] at lost
  cases noError.symm.trans (prepareStdin_error lost done)

/-! ## Writes -/

theorem targets_writeStream (stream : Stream) (data : Bytes) (pipe : Nat)
    (session : Session World) :
    ((writeStream env stream data pipe session).pipe pipe).targets =
      (session.pipe pipe).targets := by
  have modified (session : Session World) (reference : Nat) (change : PipeProtocol → PipeProtocol)
      (keeps : ∀ object, (change object).targets = object.targets) :
      ((session.modifyPipe reference change).pipe pipe).targets = (session.pipe pipe).targets := by
    by_cases same : pipe = reference
    · rw [same, Session.pipe_modifyPipe_self, keeps]
    · rw [Session.pipe_modifyPipe_other _ _ same]
  have written (fd : Nat) (session : Session World) :
      ((writeToFd env fd data pipe session).pipe pipe).targets = (session.pipe pipe).targets := by
    rw [writeToFd]
    split
    · rfl
    · rw [pipeToNext]
      split
      · rfl
      · exact modified _ _ _ fun _ => rfl
    · exact modified _ _ _ fun _ => rfl
    · rw [writeToFile]
      split
      · rfl
      · simp only [Session.pipe, Session.modifyPipe, Heap.read_modify_self]
        split <;> rfl
    all_goals rfl
  cases stream with
  | out => exact written 1 session
  | err => exact (written 2 _).trans (modified _ _ _ fun _ => rfl)

theorem targets_noted (stream : Stream) (data : Bytes) (pipe : Nat) (session : Session World) :
    ((noted stream data pipe session).pipe pipe).targets = (session.pipe pipe).targets := by
  cases stream with
  | out => rfl
  | err => rw [noted, Session.pipe_modifyPipe_self]

theorem writeStream_eq (stream : Stream) (data : Bytes) (pipe : Nat) (session : Session World) :
    writeStream env stream data pipe session =
      writeToFd env stream.fd data pipe (noted stream data pipe session) := by
  cases stream <;> rfl

/-- A target that is not what POSIX has: standard input at a terminal, or the captured output
of a stage that is not the last one. -/
def Differs (keyboard : Bool) (spec : PipeSpec) : Option Target → Prop
  | some .stdin => keyboard = true
  | some .capture => spec.nextCommand.isSome = true
  | _ => False

theorem writeStream_delivers {keyboard : Bool} {stream : Stream} {pipe : Nat}
    {session : Session World} (data : Bytes)
    (agrees : ¬ Differs keyboard spec ((session.pipe pipe).targets.lookup stream.fd)) :
    writeStream env stream data pipe session =
      deliver env keyboard stream data pipe (noted stream data pipe session)
        (((session.pipe pipe).targets.lookup stream.fd).map spec.view) := by
  rw [writeStream_eq, writeToFd, targets_noted]
  cases found : (session.pipe pipe).targets.lookup stream.fd with
  | none => rfl
  | some target =>
      rw [found] at agrees
      cases target with
      | stdin =>
          have atPipe : ¬ keyboard = true := agrees
          simp only [Option.map_some, PipeSpec.view, deliver, if_neg atPipe]
      | capture =>
          have last : ¬ spec.nextCommand.isSome = true := agrees
          simp only [Option.map_some, PipeSpec.view, deliver, if_neg last]
      | terminal => rfl
      | pipe => rfl
      | file info => rfl
      | fileInput target => rfl
      | devnull => rfl

theorem writeAll_delivers {keyboard : Bool} {pipe : Nat} (writes : List (Stream × Bytes))
    {session : Session World}
    (agrees : ∀ stream : Stream, ¬ Differs keyboard spec
      ((session.pipe pipe).targets.lookup stream.fd)) :
    writeAll env pipe writes session =
      deliverAll env keyboard (spec.viewAll (session.pipe pipe).targets) pipe writes session := by
  induction writes generalizing session with
  | nil => rfl
  | cons write writes induction =>
      obtain ⟨stream, data⟩ := write
      have targets := @targets_writeStream World env stream data pipe session
      have first := @writeStream_delivers World env spec keyboard stream pipe session data
        (agrees stream)
      rw [← lookup_viewAll] at first
      have later := @induction (writeStream env stream data pipe session) (by rwa [targets])
      rw [targets] at later
      rw [writeAll, deliverAll, ← first]
      exact later

theorem redirectedData_pipeToNext (data : Bytes) (pipe : Nat) (session : Session World) :
    ((pipeToNext data pipe session).pipe pipe).redirectedData =
      (session.pipe pipe).redirectedData := by
  rw [pipeToNext]
  split
  · rfl
  · next reference _ =>
    by_cases same : pipe = reference
    · rw [same, Session.pipe_modifyPipe_self]
    · rw [Session.pipe_modifyPipe_other _ _ same]

theorem writeStream_differs {keyboard : Bool} {stream : Stream} {pipe : Nat}
    {session : Session World}
    (differs : Differs keyboard spec ((session.pipe pipe).targets.lookup stream.fd)) :
    writeAll env pipe [(stream, [0])] session ≠
      deliverAll env keyboard (spec.viewAll (session.pipe pipe).targets) pipe [(stream, [0])]
        session := by
  rw [writeAll, deliverAll, writeAll, deliverAll, lookup_viewAll, writeStream_eq, writeToFd,
    targets_noted]
  generalize noted stream [0] pipe session = before
  cases found : (session.pipe pipe).targets.lookup stream.fd with
  | none =>
      rw [found] at differs
      exact differs.elim
  | some target =>
      rw [found] at differs
      cases target with
      | stdin =>
          have atTerminal : keyboard = true := differs
          simp only [Option.map_some, PipeSpec.view, deliver, if_pos atTerminal]
          intro equal
          have terminal := congrArg (·.terminal.length) equal
          simp at terminal
      | capture =>
          have notLast : spec.nextCommand.isSome = true := differs
          simp only [Option.map_some, PipeSpec.view, deliver, if_pos notLast]
          intro equal
          have captured := congrArg (fun session => (session.pipe pipe).redirectedData.length) equal
          rw [Session.pipe_modifyPipe_self, redirectedData_pipeToNext, List.length_append] at captured
          exact absurd captured (Nat.succ_ne_self _)
      | terminal => exact differs.elim
      | pipe => exact differs.elim
      | file info => exact differs.elim
      | fileInput target => exact differs.elim
      | devnull => exact differs.elim

/-! ## Where the writes go -/

/-- POSIX runs the command, and gives neither of its streams standard input where this is the
terminal, nor the pipe to the next stage where the output is captured. -/
def Agrees (env : Env World) (keyboard : Bool) (spec : PipeSpec) (world : World) : Prop :=
  ∃ table after, Posix.descriptors env spec world = some (table, after) ∧
    ∀ stream : Stream,
      ¬ (keyboard = true ∧ table.lookup stream.fd = some .standardInput) ∧
        ¬ (spec.redirect = true ∧ spec.nextCommand.isSome = true ∧
          table.lookup stream.fd = some .nextStage)

theorem differs_iff {keyboard : Bool} {targets : List (Nat × Target)} (fits : Fits spec targets)
    (fd : Nat) :
    Differs keyboard spec (targets.lookup fd) ↔
      keyboard = true ∧ (spec.viewAll targets).lookup fd = some .standardInput ∨
        spec.redirect = true ∧ spec.nextCommand.isSome = true ∧
          (spec.viewAll targets).lookup fd = some .nextStage := by
  rw [lookup_viewAll]
  have noCapture := fun plain => fits.1 plain fd
  have noPipe := fun substituted => fits.2 substituted fd
  cases found : targets.lookup fd with
  | none => simp [Differs]
  | some target =>
      rw [found] at noCapture noPipe
      cases target with
      | stdin => simp [Differs, PipeSpec.view]
      | capture =>
          have substituted : spec.redirect = true := by
            cases plain : spec.redirect with
            | true => rfl
            | false => exact absurd rfl (noCapture plain)
          cases next : spec.nextCommand.isSome <;> simp [Differs, PipeSpec.view, substituted, next]
      | pipe =>
          have plain : spec.redirect = false := by
            cases substituted : spec.redirect with
            | false => rfl
            | true => exact absurd rfl (noPipe substituted)
          simp [Differs, PipeSpec.view, plain]
      | terminal => simp [Differs, PipeSpec.view]
      | file info => simp [Differs, PipeSpec.view]
      | fileInput target => simp [Differs, PipeSpec.view]
      | devnull => simp [Differs, PipeSpec.view]

theorem newPipe_eq {session next : Session World} {pipe : Nat}
    (made : newPipe env spec session = (some pipe, next)) :
    ∃ after later, setupRedirections env spec.initial spec.redirections session =
        (some after, later) ∧ (next.pipe pipe).redirectionError = after.redirectionError ∧
      (next.pipe pipe).targets = after.targets := by
  rw [newPipe] at made
  split at made
  · cases made
  · next after later done =>
    cases made
    refine ⟨after, later, done, ?_⟩
    rw [Session.pipe, Heap.read_alloc_self]
    exact ⟨rfl, rfl⟩

theorem newPipe_goes {session : Session World} (goes : Goes env spec session.world) :
    ∃ pipe next, newPipe env spec session = (some pipe, next) ∧
      (next.pipe pipe).redirectionError = false := by
  obtain ⟨after, later, done, noError, -⟩ := setupRedirections_goes goes
  rcases made : newPipe env spec session with ⟨pipe, next⟩
  cases pipe with
  | none =>
      rw [newPipe, done] at made
      cases made
  | some pipe =>
      obtain ⟨same, _, sameDone, error, -⟩ := newPipe_eq made
      rw [done] at sameDone
      cases sameDone
      exact ⟨pipe, next, rfl, error.trans noError⟩

/-- Each write reaches what POSIX gives its descriptor exactly where the redirections stop the
command, or where POSIX runs it and agrees. -/
theorem routes_iff (env : Env World) (keyboard : Bool) (spec : PipeSpec) (session : Session World) :
    Routes env keyboard spec session ↔
      (Stops env spec.redirections session.world ∨
        InputLost env spec.redirections session.world) ∨
      Agrees env keyboard spec session.world := by
  constructor
  · intro routes
    by_cases goes : Goes env spec session.world
    · right
      obtain ⟨pipe, next, made, noError⟩ := newPipe_goes goes
      obtain ⟨table, world, posix, delivers⟩ := routes pipe next made noError
      obtain ⟨after, later, done, -, targets⟩ := newPipe_eq made
      obtain ⟨same, _, sameDone, -, fits, views⟩ := setupRedirections_goes goes
      rw [done] at sameDone
      cases sameDone
      refine ⟨table, world, posix, fun stream => ?_⟩
      rw [← not_or, ← views table world posix, ← differs_iff fits, ← targets]
      intro differs
      refine @writeStream_differs _ env _ _ _ _ _ differs ?_
      rw [targets, views table world posix]
      exact delivers [(stream, [0])]
    · left
      by_contra none_
      exact goes (not_or.mp none_)
  · rintro (stopped | ⟨table, world, posix, agrees⟩) pipe next made noError
    · obtain ⟨after, later, done, errors, -⟩ := newPipe_eq made
      have goes := goes_of_setupRedirections done (errors.symm.trans noError)
      exact absurd stopped (not_or.mpr goes)
    · obtain ⟨after, later, done, errors, targets⟩ := newPipe_eq made
      have goes := goes_of_setupRedirections done (errors.symm.trans noError)
      obtain ⟨same, _, sameDone, -, fits, views⟩ := setupRedirections_goes goes
      rw [done] at sameDone
      cases sameDone
      refine ⟨table, world, posix, fun writes => ?_⟩
      rw [← views table world posix, ← targets]
      refine writeAll_delivers writes fun stream => ?_
      rw [targets, differs_iff fits, views table world posix, not_or]
      exact agrees stream

def Session.atTerminal : Session Unit :=
  { world := (), cmdstack := [], shells := .empty, pipes := ⟨fun _ => default, 1⟩ }

/-- `>&0` at a terminal, and the first stage of a pipeline in a substitution: what the command
writes is lost, and captured instead of passed on. -/
theorem copied_input_swallows :
    ¬ Routes .small true { cmd := none, redirections := [.dup 1 0] } .atTerminal ∧
      ¬ Routes .small true { cmd := none, nextCommand := some 0, redirect := true }
        .atTerminal := by
  constructor
  · intro routes
    obtain ⟨table, world, posix, delivers⟩ := routes 1 _ rfl rfl
    cases posix
    have terminal := congrArg Session.terminal (delivers [(.out, [0])])
    cases terminal
  · intro routes
    obtain ⟨table, world, posix, delivers⟩ := routes 1 _ rfl rfl
    cases posix
    have captured := congrArg (fun session => (session.pipe 1).redirectedData)
      (delivers [(.out, [0])])
    cases captured

end Shell

end LlmHoneypot
