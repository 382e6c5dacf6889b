import Mathlib.Data.List.Basic
import Titlan.Foundation.Run

/-! # The foreground service and the core engine

`SyncController` and `SyncService`: calls of `start` and `stop` from any number of threads, the service's
commands on the main thread, the thread each command launches, and the death of the process with the
revival of a sticky service in a fresh one. Every access to shared state is a step of its own. The section
of `stop` and the body of `onServiceForegrounded` exclude each other by the controller's monitor; `start`
takes no monitor.

The flag `running` gates the thread that starts the engine, and only `start` raises it. So a revived
service finds it down and never starts the engine; a thread that is quicker than the `start` it belongs to
finds it down as well; and a `start` that is overtaken by a `stop` raises it again behind its back. Whenever
the flag is up in time and no `start` overlaps a `stop`, the service in the foreground has a running engine,
and after a `stop` there is none. -/

namespace Titlan.Android

open Foundation

/-- What the engine delivers to: the sink of a `start`, or none for `DefaultSyncEvents`. -/
abbrev Sink (ε : Type) : Type := Option ε

/-- What a call of `start` does next, behind its gate. -/
inductive StartOp
  /-- `pendingEvents = events`. -/
  | setEvents
  /-- `foregroundSettled = CountDownLatch(1)`. -/
  | setLatch
  | startService
  /-- `running.set(true)`. -/
  | setFlag
  | returned
deriving DecidableEq, Repr

/-- A call of `start`. -/
structure StartCall (ε : Type) where
  events : ε
  next : StartOp
  /-- History: no `stop` has been in its section since the call began. -/
  clear : Bool
deriving DecidableEq, Repr

/-- Where a call of `stop` is. -/
inductive StopPhase
  /-- It is about to read `foregroundSettled`. -/
  | read
  /-- It awaits a latch. -/
  | await (latch : ℕ)
  /-- `foregroundSettled = null`. -/
  | forget
  | enter
  | entered
deriving DecidableEq, Repr

/-- What `onStartCommand` still has to do once the service is in the foreground, or declined. -/
inductive CommandOp
  /-- `onForegroundSettled`, and then the thread. -/
  | settle
  | launch
  /-- `onForegroundSettled` of a command declined on a locked device. -/
  | settleDeclined
deriving DecidableEq, Repr

/-- What `onServiceForegrounded` does next under the monitor. -/
inductive StartingOp
  /-- `if (!running.get()) return`. -/
  | test
  | startSync
  /-- `running.set(true)`. -/
  | setFlag
deriving DecidableEq, Repr

/-- What `stop` does next under the monitor. -/
inductive StoppingOp
  /-- `running.set(false)`. -/
  | setFlag
  | stopSync
  | stopService
  /-- `pendingEvents = null`, and out. -/
  | clearEvents
deriving DecidableEq, Repr

/-- Who is in the monitor, and where. -/
inductive Holder
  | starting (next : StartingOp)
  | stopping (next : StoppingOp)
deriving DecidableEq, Repr

/-- A `stop` is in the monitor. -/
def Holder.isStopping : Holder → Bool
  | .starting _ => false
  | .stopping _ => true

/-- The controller, the service and the engine of a process, with what the system keeps of the service
across processes. -/
structure Sync (ε : Type) where
  running : Bool
  pendingEvents : Option ε
  /-- The latch in the field of that name, by its number. -/
  foregroundSettled : Option ℕ
  /-- The latches made, and whether each is counted down. -/
  latches : List Bool
  monitor : Option Holder
  starts : List (StartCall ε)
  stops : List StopPhase
  /-- The threads launched that are still in front of the monitor. -/
  waiting : ℕ
  /-- The command the main thread is in. -/
  main : Option CommandOp
  /-- The service, and whether it is in the foreground. -/
  service : Option Bool
  /-- The commands the system has not delivered yet. -/
  commands : ℕ
  /-- The sink of the core engine, if it is running. -/
  engine : Option (Sink ε)
  /-- History: a `stop` went on since the service last came to the foreground. -/
  stopSince : Bool
  /-- History: a `stop` has returned, and no call of `start` and no command came since. -/
  settled : Bool
deriving DecidableEq, Repr

/-- A step of one of the threads or of the system. -/
inductive Label (ε : Type)
  /-- A thread calls `start`, on an unlocked device or not. -/
  | callStart (unlocked : Bool) (events : ε)
  | start (n : ℕ)
  | callStop
  /-- A call of `stop` goes on in front of the monitor; it may give up waiting for a latch, and does not
  wait at all on the main thread. -/
  | stop (n : ℕ) (gaveUp : Bool)
  /-- The main thread goes on with a command, or takes the next one. -/
  | command (unlocked : Bool)
  | enter
  /-- Whoever is in the monitor goes on. -/
  | go
  | kill

namespace Sync

variable {ε : Type}

/-- A process in which nothing has run, and no service. -/
def fresh : Sync ε where
  running := false
  pendingEvents := none
  foregroundSettled := none
  latches := []
  monitor := none
  starts := []
  stops := []
  waiting := 0
  main := none
  service := none
  commands := 0
  engine := none
  stopSince := false
  settled := false

/-- The call of `start` goes on with `next`. -/
def setStart (s : Sync ε) (n : ℕ) (call : StartCall ε) (next : StartOp) : Sync ε :=
  { s with starts := s.starts.set n { call with next } }

/-- `SyncController.start`, one access after the other. -/
def actStart (s : Sync ε) (n : ℕ) (call : StartCall ε) : Option (Sync ε) :=
  match call.next with
  | .setEvents => some { s.setStart n call .setLatch with pendingEvents := some call.events }
  | .setLatch =>
    some { s.setStart n call .startService with
      foregroundSettled := some s.latches.length
      latches := s.latches ++ [false] }
  | .startService =>
    -- the service is created unless there is one, and gets a command
    some { s.setStart n call .setFlag with
      service := some (s.service.getD false)
      commands := s.commands + 1 }
  | .setFlag => some { s.setStart n call .returned with running := true }
  | .returned => none

/-- `SyncController.awaitForegroundSettled`, and the way into the monitor. -/
def actStop (s : Sync ε) (n : ℕ) (gaveUp : Bool) : StopPhase → Option (Sync ε)
  | .read =>
    match s.foregroundSettled with
    | some latch => some { s with stops := s.stops.set n (.await latch) }
    | none => some { s with stops := s.stops.set n .enter }
  | .await latch =>
    if s.latches[latch]? = some true ∨ gaveUp then some { s with stops := s.stops.set n .forget } else none
  | .forget => some { s with foregroundSettled := none, stops := s.stops.set n .enter }
  | .enter =>
    if s.monitor = none then
      some { s with
        monitor := some (.stopping .setFlag)
        stops := s.stops.set n .entered
        starts := s.starts.map fun call => { call with clear := false } }
    else none
  | .entered => none

/-- `SyncController.onForegroundSettled`. -/
def onForegroundSettled (s : Sync ε) : Sync ε :=
  match s.foregroundSettled with
  | some latch => { s with latches := s.latches.set latch true }
  | none => s

/-- `SyncService.onStartCommand`. A command on a locked device is declined: `stopSelf(startId)` stops the
service unless a later command is under way. -/
def onStartCommand (s : Sync ε) (unlocked : Bool) : Option (Sync ε) :=
  match s.main, s.commands with
  | none, 0 => none
  | none, commands + 1 =>
    if unlocked then
      some { s with
        commands
        service := s.service.map fun _ => true
        main := some .settle
        stopSince := false
        settled := false }
    else
      some { s with
        commands
        service := if commands = 0 then none else s.service
        main := some .settleDeclined
        settled := false }
  | some .settle, _ => some { s.onForegroundSettled with main := some .launch }
  | some .launch, _ => some { s with main := none, waiting := s.waiting + 1 }
  | some .settleDeclined, _ => some { s.onForegroundSettled with main := none }

/-- The body of `onServiceForegrounded`, and the section of `stop`. -/
def actHolder (s : Sync ε) : Holder → Sync ε
  | .starting .test => { s with monitor := if s.running then some (.starting .startSync) else none }
  | .starting .startSync =>
    { s with engine := some s.pendingEvents, monitor := some (.starting .setFlag) }
  | .starting .setFlag => { s with running := true, monitor := none }
  | .stopping .setFlag =>
    { s with running := false, stopSince := true, monitor := some (.stopping .stopSync) }
  | .stopping .stopSync =>
    { s with engine := none, stopSince := true, monitor := some (.stopping .stopService) }
  | .stopping .stopService =>
    -- the service goes, and with it the commands not delivered
    { s with
      service := none
      commands := 0
      stopSince := true
      monitor := some (.stopping .clearEvents) }
  | .stopping .clearEvents => { s with pendingEvents := none, monitor := none, settled := true }

/-- The process is gone. The service is sticky, so the system starts it again in a fresh process, with a
command. -/
def killed (s : Sync ε) : Sync ε :=
  { fresh with
    service := s.service.map fun _ => false
    commands := if s.service.isSome then max 1 s.commands else 0
    settled := s.settled }

/-- One step. -/
def step (s : Sync ε) : Label ε → Option (Sync ε)
  | .callStart unlocked events =>
    if unlocked then
      some { s with
        starts := s.starts ++ [⟨events, .setEvents, !(s.monitor.any Holder.isStopping)⟩]
        settled := false }
    else some s
  | .start n => s.starts[n]?.bind (s.actStart n)
  | .callStop => some { s with stops := s.stops ++ [.read] }
  | .stop n gaveUp => s.stops[n]?.bind (s.actStop n gaveUp)
  | .command unlocked => s.onStartCommand unlocked
  | .enter =>
    match s.monitor, s.waiting with
    | none, waiting + 1 => some { s with waiting, monitor := some (.starting .test) }
    | _, _ => none
  | .go => s.monitor.map s.actHolder
  | .kill => some s.killed

/-! ## What the flag has to be -/

/-- The flag is up in time. A launched thread that tests it finds it raised, unless a `stop` went on since
the service last came to the foreground; and a `start` raises it only if no `stop` has been in its section
since the call began. -/
def Timely (s : Sync ε) : Label ε → Prop
  | .go => s.monitor = some (.starting .test) → s.running = true ∨ s.stopSince = true
  | .start n => ∀ call ∈ s.starts[n]?, call.next = .setFlag → call.clear = true
  | _ => True

instance (s : Sync ε) (l : Label ε) : Decidable (s.Timely l) := by
  cases l <;> (unfold Timely; infer_instance)

/-- A thread is on its way to start the engine. -/
def Underway (s : Sync ε) : Prop :=
  s.main = some .settle ∨ s.main = some .launch ∨ 0 < s.waiting ∨ ∃ op, s.monitor = some (.starting op)

/-- What holds throughout a timely run. -/
structure Sound (s : Sync ε) : Prop where
  /-- A service in the foreground has an engine, or a thread underway that starts it. -/
  begun : s.service = some true → s.stopSince = false → s.engine ≠ none ∨ s.Underway
  started : s.monitor = some (.starting .setFlag) → s.engine ≠ none
  /-- A call of `start` that overlaps the section of a `stop` is marked. -/
  overlapped : s.monitor.any Holder.isStopping = true → ∀ call ∈ s.starts, call.clear = false
  lowered : ∀ op, s.monitor = some (.stopping op) → op ≠ .setFlag → s.running = false
  halted : s.monitor = some (.stopping .stopService) ∨ s.monitor = some (.stopping .clearEvents) →
    s.engine = none
  /-- After a `stop`, the flag is down, and neither a thread in the monitor nor a call of `start` of before
  will change that. -/
  silent : s.settled = true → s.running = false ∧ s.engine = none ∧ (∀ call ∈ s.starts, call.clear = false) ∧
    s.monitor ≠ some (.starting .startSync) ∧ s.monitor ≠ some (.starting .setFlag)

variable {s s' : Sync ε}

theorem sound_fresh : (fresh : Sync ε).Sound := by
  constructor <;> simp [fresh]

/-- The step raises no flag, starts and stops no engine, leaves the monitor alone and brings no service to
the foreground; threads stay underway and marks stay set. -/
structure Same (s s' : Sync ε) : Prop where
  running : s'.running = s.running
  engine : s'.engine = s.engine
  monitor : s'.monitor = s.monitor
  service : s'.service = some true → s.service = some true
  stopSince : s'.stopSince = s.stopSince
  settled : s'.settled = true → s.settled = true
  underway : s.Underway → s'.Underway
  marks : (∀ call ∈ s.starts, call.clear = false) → ∀ call ∈ s'.starts, call.clear = false

theorem Sound.of_same (hs : s.Sound) (h : Same s s') : s'.Sound := by
  constructor
  · intro hservice hsince
    rw [h.stopSince] at hsince
    rw [h.engine]
    exact (hs.begun (h.service hservice) hsince).imp_right h.underway
  · rw [h.monitor, h.engine]
    exact hs.started
  · rw [h.monitor]
    exact fun hstopping => h.marks (hs.overlapped hstopping)
  · rw [h.monitor, h.running]
    exact hs.lowered
  · rw [h.monitor, h.engine]
    exact hs.halted
  · intro hsettled
    obtain ⟨hrunning, hengine, hmarks, hmonitor⟩ := hs.silent (h.settled hsettled)
    rw [h.running, h.engine, h.monitor]
    exact ⟨hrunning, hengine, h.marks hmarks, hmonitor⟩

variable {call : StartCall ε}

/-- Marks that are all set stay set when a call of `start` goes on. -/
theorem marks_setStart {n : ℕ} {next : StartOp} (hcall : s.starts[n]? = some call)
    (hmarks : ∀ c ∈ s.starts, c.clear = false) : ∀ c ∈ (s.setStart n call next).starts, c.clear = false := by
  intro c hmem
  rcases List.mem_or_eq_of_mem_set hmem with hmem | rfl
  · exact hmarks c hmem
  · exact hmarks call (List.mem_of_getElem? hcall)

/-- `start` up to its flag changes nothing of this. -/
theorem same_actStart {n : ℕ} (hcall : s.starts[n]? = some call)
    (hnext : call.next ≠ .setFlag) (hact : s.actStart n call = some s') : Same s s' := by
  unfold actStart at hact
  split at hact
  · cases hact
    exact ⟨rfl, rfl, rfl, id, rfl, id, id, marks_setStart hcall⟩
  · cases hact
    exact ⟨rfl, rfl, rfl, id, rfl, id, id, marks_setStart hcall⟩
  · cases hact
    refine ⟨rfl, rfl, rfl, ?_, rfl, id, id, marks_setStart hcall⟩
    -- a service that is created is not in the foreground
    intro hservice
    cases hs : s.service with
    | none => simp [hs] at hservice
    | some foreground => simpa [hs] using hservice
  · rename_i hflag
    exact absurd hflag hnext
  · cases hact

/-- The flag is raised by a call that no `stop` has overlapped: then no `stop` is in its section, and none
has returned since the call began. -/
theorem Sound.setFlag {n : ℕ} (hs : s.Sound) (hcall : s.starts[n]? = some call)
    (hclear : call.clear = true) : { s.setStart n call .returned with running := true : Sync ε }.Sound := by
  have hmem := List.mem_of_getElem? hcall
  have hnone : s.monitor.any Holder.isStopping ≠ true := by
    intro hstopping
    have hmark := hs.overlapped hstopping call hmem
    simp [hclear] at hmark
  have hsettled : s.settled ≠ true := by
    intro hsettled
    have hmark := (hs.silent hsettled).2.2.1 call hmem
    simp [hclear] at hmark
  constructor
  · exact hs.begun
  · exact hs.started
  · exact fun hstopping => absurd hstopping hnone
  · intro op hmonitor
    exact absurd (by simp [show s.monitor = _ from hmonitor, Holder.isStopping]) hnone
  · exact hs.halted
  · exact fun h => absurd h hsettled

/-- `stop` in front of the monitor changes nothing of this, and its entry marks every call of `start`. -/
theorem Sound.actStop {n : ℕ} {gaveUp : Bool} {phase : StopPhase} (hs : s.Sound)
    (hact : s.actStop n gaveUp phase = some s') : s'.Sound := by
  unfold Sync.actStop at hact
  split at hact
  · split at hact
    · cases hact
      exact hs.of_same ⟨rfl, rfl, rfl, id, rfl, id, id, id⟩
    · cases hact
      exact hs.of_same ⟨rfl, rfl, rfl, id, rfl, id, id, id⟩
  · split at hact
    · cases hact
      exact hs.of_same ⟨rfl, rfl, rfl, id, rfl, id, id, id⟩
    · cases hact
  · cases hact
    exact hs.of_same ⟨rfl, rfl, rfl, id, rfl, id, id, id⟩
  · split at hact
    · rename_i hfree
      cases hact
      constructor
      · intro hservice hsince
        refine (hs.begun hservice hsince).imp_right fun hunderway => ?_
        -- no thread was in the monitor
        simp only [Underway, hfree] at hunderway ⊢
        simpa using hunderway
      · simp
      · simp
      · simp
      · simp
      · intro hsettled
        obtain ⟨hrunning, hengine, -, -⟩ := hs.silent hsettled
        simp [hrunning, hengine]
    · cases hact
  · cases hact

/-- A launched thread enters. -/
theorem Sound.enter {waiting : ℕ} (hs : s.Sound) :
    { s with waiting, monitor := some (.starting .test) : Sync ε }.Sound := by
  constructor
  · exact fun _ _ => .inr (.inr (.inr (.inr ⟨_, rfl⟩)))
  · simp
  · simp [Holder.isStopping]
  · simp
  · simp
  · intro hsettled
    obtain ⟨hrunning, hengine, hmarks, -, -⟩ := hs.silent hsettled
    simpa [hrunning, hengine] using hmarks

theorem onForegroundSettled_eq (s : Sync ε) : ∃ latches, s.onForegroundSettled = { s with latches } := by
  unfold onForegroundSettled
  split
  · exact ⟨_, rfl⟩
  · exact ⟨_, rfl⟩

theorem Sound.onStartCommand {unlocked : Bool} (hs : s.Sound) (hact : s.onStartCommand unlocked = some s') :
    s'.Sound := by
  obtain ⟨latches, hlatches⟩ := onForegroundSettled_eq s
  unfold Sync.onStartCommand at hact
  split at hact
  · cases hact
  · rename_i commands hmain hcommands
    split at hact
    · -- to the foreground: the command's own thread is underway
      cases hact
      exact ⟨fun _ _ => .inr (.inl rfl), hs.started, hs.overlapped, hs.lowered, hs.halted, by simp⟩
    · -- declined
      cases hact
      refine hs.of_same ⟨rfl, rfl, rfl, ?_, rfl, by simp, ?_, id⟩
      · intro hservice
        by_cases hlast : commands = 0
        · simp [hlast] at hservice
        · simpa [hlast] using hservice
      · simp [Underway, hmain]
  · rename_i hmain
    cases hact
    rw [hlatches]
    exact hs.of_same ⟨rfl, rfl, rfl, id, rfl, id, fun _ => .inr (.inl rfl), id⟩
  · rename_i hmain
    cases hact
    exact hs.of_same ⟨rfl, rfl, rfl, id, rfl, id, fun _ => .inr (.inr (.inl (Nat.succ_pos _))), id⟩
  · rename_i hmain
    cases hact
    rw [hlatches]
    exact hs.of_same ⟨rfl, rfl, rfl, id, rfl, id, by simp [Underway, hmain], id⟩

/-- Whoever is in the monitor goes on. -/
theorem Sound.actHolder {holder : Holder} (hs : s.Sound) (hmonitor : s.monitor = some holder)
    (htimely : holder = .starting .test → s.running = true ∨ s.stopSince = true) :
    (s.actHolder holder).Sound := by
  cases holder with
  | starting next =>
    cases next with
    | test =>
      by_cases hrunning : s.running = true
      · have hsettled : s.settled ≠ true := by
          intro hsettled
          simp [(hs.silent hsettled).1] at hrunning
        constructor <;> simp [Sync.actHolder, Underway, hrunning, hsettled, Holder.isStopping]
      · have hsince : s.stopSince = true := (htimely rfl).resolve_left hrunning
        constructor <;> simp [Sync.actHolder, hrunning, hsince]
        exact fun hsettled => ⟨(hs.silent hsettled).2.1, (hs.silent hsettled).2.2.1⟩
    | startSync =>
      have hsettled : s.settled ≠ true := fun hsettled => (hs.silent hsettled).2.2.2.1 hmonitor
      constructor <;> simp [Sync.actHolder, hsettled, Holder.isStopping]
    | setFlag =>
      have hsettled : s.settled ≠ true := fun hsettled => (hs.silent hsettled).2.2.2.2 hmonitor
      have hengine := hs.started hmonitor
      constructor <;> simp [Sync.actHolder, hsettled, hengine]
  | stopping next =>
    have hmarks : ∀ call ∈ s.starts, call.clear = false :=
      hs.overlapped (by simp [hmonitor, Holder.isStopping])
    cases next with
    | setFlag =>
      constructor <;> simp [Sync.actHolder, Holder.isStopping]
      · exact hmarks
      · exact fun hsettled => ⟨(hs.silent hsettled).2.1, hmarks⟩
    | stopSync =>
      have hrunning := hs.lowered _ hmonitor (by decide)
      constructor <;> simp [Sync.actHolder, Holder.isStopping, hrunning]
      · exact hmarks
      · exact fun _ => hmarks
    | stopService =>
      have hrunning := hs.lowered _ hmonitor (by decide)
      have hengine := hs.halted (.inl hmonitor)
      constructor <;> simp [Sync.actHolder, Holder.isStopping, hrunning, hengine]
      · exact hmarks
      · exact fun _ => hmarks
    | clearEvents =>
      have hrunning := hs.lowered _ hmonitor (by decide)
      have hengine := hs.halted (.inr hmonitor)
      constructor <;> simp [Sync.actHolder, hrunning, hengine]
      · -- a service that came to the foreground meanwhile has its thread outside
        intro hservice hsince
        simpa [Underway, hmonitor, hengine] using hs.begun hservice hsince
      · exact hmarks

theorem Sound.callStart (hs : s.Sound) (events : ε) :
    { s with
      starts := s.starts ++ [⟨events, .setEvents, !(s.monitor.any Holder.isStopping)⟩]
      settled := false : Sync ε }.Sound := by
  refine ⟨hs.begun, hs.started, ?_, hs.lowered, hs.halted, by simp⟩
  intro hstopping call hmem
  rcases mem_concat hmem with hmem | rfl
  · exact hs.overlapped hstopping call hmem
  · exact congrArg (!·) hstopping

/-- What the killed process leaves has neither engine nor flag nor calls. -/
theorem sound_killed (s : Sync ε) : s.killed.Sound := by
  constructor <;> simp [killed, fresh]

/-- **Step lemma.** -/
theorem Sound.step {l : Label ε} (hs : s.Sound) (htimely : s.Timely l) (hstep : s.step l = some s') :
    s'.Sound := by
  cases l with
  | callStart unlocked events =>
    rw [Sync.step] at hstep
    split at hstep
    · cases hstep
      exact hs.callStart events
    · cases hstep
      exact hs
  | start n =>
    obtain ⟨call, hcall, hact⟩ := Option.bind_eq_some_iff.mp hstep
    by_cases hnext : call.next = .setFlag
    · unfold Sync.actStart at hact
      simp only [hnext] at hact
      cases hact
      exact hs.setFlag hcall (htimely call hcall hnext)
    · exact hs.of_same (same_actStart hcall hnext hact)
  | callStop =>
    cases hstep
    exact hs.of_same ⟨rfl, rfl, rfl, id, rfl, id, id, id⟩
  | stop n gaveUp =>
    obtain ⟨phase, -, hact⟩ := Option.bind_eq_some_iff.mp hstep
    exact hs.actStop hact
  | command unlocked => exact hs.onStartCommand hstep
  | enter =>
    rw [Sync.step] at hstep
    split at hstep
    · cases hstep
      exact hs.enter
    · cases hstep
  | go =>
    obtain ⟨holder, hmonitor, rfl⟩ := Option.map_eq_some_iff.mp hstep
    exact hs.actHolder hmonitor fun hholder => htimely (hholder ▸ hmonitor)
  | kill =>
    cases hstep
    exact sound_killed s

/-- **A service in the foreground runs the engine, and a stopped one does not**, in every state of every
run in which the flag is up in time. -/
theorem foreground_runs_engine (labels : List (Label ε)) (s : Sync ε) (hrun : run step fresh labels = some s)
    (htimely : Along step Timely fresh labels) :
    (s.service = some true → s.stopSince = false → s.main = none → s.waiting = 0 →
      (∀ op, s.monitor ≠ some (.starting op)) → s.engine ≠ none) ∧
    (s.settled = true → s.engine = none) := by
  have hsound : s.Sound := run_invariant (fun _ _ _ hs htimely hstep => hs.step htimely hstep) sound_fresh
    htimely hrun
  constructor
  · intro hservice hsince hmain hwaiting hmonitor
    refine (hsound.begun hservice hsince).resolve_right ?_
    simp [Underway, hmain, hwaiting, hmonitor]
  · exact fun hsettled => (hsound.silent hsettled).2.1

/-- A call of `start`, its command, and the command's thread. -/
def startedInOrder : List (Label Unit) :=
  [.callStart true (), .start 0, .start 0, .start 0, .start 0, .command true, .command true, .command true,
    .enter, .go, .go, .go]

theorem started_service_runs :
    ∃ s, run step fresh startedInOrder = some s ∧ s.service = some true ∧ s.engine ≠ none := by
  obtain ⟨s, hrun, hservice, hsince, hmain, hwaiting, hmonitor⟩ : ∃ s, run step fresh startedInOrder =
      some s ∧ s.service = some true ∧ s.stopSince = false ∧ s.main = none ∧ s.waiting = 0 ∧
      s.monitor = none := by
    decide
  refine ⟨s, hrun, hservice, ?_⟩
  exact (foreground_runs_engine startedInOrder s hrun (by decide)).1 hservice hsince hmain hwaiting
    (by simp [hmonitor])

/-- The process dies, and the system revives the service. -/
def revived : List (Label Unit) :=
  startedInOrder ++ [.kill, .command true, .command true, .command true, .enter, .go]

/-- The thread of the command tests the flag before `start` raises it. -/
def impatient : List (Label Unit) :=
  [.callStart true (), .start 0, .start 0, .start 0, .command true, .command true, .command true, .enter, .go,
    .start 0]

/-- A `stop` returns before `start` raises the flag, and the thread of the command tests it after that. -/
def overtaken : List (Label Unit) :=
  [.callStart true (), .start 0, .start 0, .start 0, .command true, .command true, .command true,
    .callStop, .stop 0 false, .stop 0 false, .stop 0 false, .stop 0 false, .go, .go, .go, .go,
    .start 0, .enter, .go, .go]

/-- **A revived service is in the foreground without an engine**; so is one whose thread is quicker than its
`start`. And an engine runs after a `stop` that overtook a `start`. -/
theorem revived_service_idle :
    (∃ s, run step fresh revived = some s ∧ s.service = some true ∧ s.stopSince = false ∧ s.main = none ∧
      s.waiting = 0 ∧ s.monitor = none ∧ s.engine = none) ∧
    (∃ s, run step fresh impatient = some s ∧ s.service = some true ∧ s.stopSince = false ∧ s.main = none ∧
      s.waiting = 0 ∧ s.monitor = none ∧ s.engine = none) ∧
    ∃ s, run step fresh overtaken = some s ∧ s.settled = true ∧ s.engine ≠ none := by
  refine ⟨⟨_, rfl, ?_⟩, ⟨_, rfl, ?_⟩, ⟨_, rfl, ?_⟩⟩ <;> decide

end Sync

end Titlan.Android
