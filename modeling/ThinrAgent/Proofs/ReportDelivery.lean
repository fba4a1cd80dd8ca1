import ThinrAgent.Proofs.Device

/-!
# `ThinrAgent.Proofs.ReportDelivery`: is the report of a rollback delivered?

After a rollback a device boots, and its client connects, disconnects and emits states. A report
is scheduled by `setProperty`. It is delivered later, or it is not, and a process that dies takes
the reports it has not delivered with it. `Reporting` is the history of a run: what is in flight,
what was delivered, and the boots that tried and failed. No code reads it.

`ReportDevice.Owes` is what the report needs at every moment: the marker is there, or the report
was delivered, or `WATCHDOG_MAX_REPORT_ATTEMPTS` boots have tried and failed. While the device is
down, the marker has to count the boots that have.

The report branch of `on_state` schedules the report and removes the marker in one go, and no code
counts. So the report is kept in a run exactly when a process that has tried to send it waits: until
the delivery no further operation of it succeeds, and it does not die (`reportKept_iff`). No device
with a binary waits in every run, so each of them can lose its report.
-/

set_option autoImplicit false

namespace ThinrAgent

open Effects

/-- The payload reports the rollback of `m`: the event and both versions are its own. -/
def reportsRollback (m : UpdateMarker) (payload : Json) : Bool :=
  match payload.find "event", payload.find "from", payload.find "to" with
  | some (.str event), some (.str fromVersion), some (.str toVersion) =>
    event = "rolled_back" ∧ fromVersion = m.fromVersion ∧ toVersion = m.toVersion
  | _, _, _ => false

namespace SysOp

variable {β : Type}

/-- The report that an operation puts in flight, if it is one that schedules and does not throw. -/
def schedules (o : SysOp β) (c : Choice β) : List Json :=
  match o with
  | setProperty name payload => if name = "update_report" ∧ c.error.isNone then [payload] else []
  | _ => []

/-- The operation gives up an attempt: the client is not connected, or scheduling throws. -/
def attemptFails (o : SysOp β) (c : Choice β) : Bool :=
  match o with
  | isConnected => c.error.isSome
  | setProperty _ _ => c.error.isSome
  | _ => false

/-- The operation only reads a file, so that it changes nothing. -/
def reads : SysOp β → Bool
  | .read _ => true
  | _ => false

/-- With this result the operation is an attempt to send: the client is not connected, or the
report is handed over. -/
def triesToSend : (o : SysOp β) → o.Res → Bool
  | .isConnected, (connected : Bool) => !connected
  | .setProperty _ _, _ => true
  | _, _ => false

end SysOp

namespace Run

variable {β : Type}

/-- The process runs a program that has operations left. -/
def isBusy : Run β → Bool
  | .busy _ _ _ => true
  | _ => false

end Run

/-- A world with the history of its reports. `tried` says that the process has tried to send, and
`failed` that an attempt of this boot has failed. `failedBoots` counts the earlier boots of which
that holds. -/
structure Reporting (β : Type) where
  world : World β
  inFlight : List Json := []
  delivered : List Json := []
  tried : Bool := false
  failed : Bool := false
  failedBoots : Nat := 0

namespace Reporting

variable {β : Type}

/-- The boots in which an attempt to send has failed, the present one among them. -/
def countFailed (r : Reporting β) : Nat := r.failedBoots + if r.failed then 1 else 0

/-- A report of the rollback of `m` was delivered to the server. -/
def Delivered (r : Reporting β) (m : UpdateMarker) : Prop :=
  ∃ payload ∈ r.delivered, reportsRollback m payload = true

/-- The report was delivered, or enough boots have tried and failed. -/
def Settled (r : Reporting β) (m : UpdateMarker) : Prop :=
  r.Delivered m ∨ WATCHDOG_MAX_REPORT_ATTEMPTS.toInt ≤ r.countFailed

instance (r : Reporting β) (m : UpdateMarker) : Decidable (r.Delivered m) := by
  unfold Delivered
  infer_instance

instance (r : Reporting β) (m : UpdateMarker) : Decidable (r.Settled m) := by
  unfold Settled
  infer_instance

end Reporting

/-- The host as seen from a process that reports. -/
def reportMachine {β : Type} (host : Host β) :
    Machine (sysInterface β) (Reporting β) (Choice β) where
  exec r o c := ((exec host r.world o c).1, { r with
    world := (exec host r.world o c).2
    inFlight := r.inFlight ++ o.schedules c
    tried := r.tried || o.triesToSend (exec host r.world o c).1
    failed := r.failed || o.attemptFails c })

/-- A device with the history of its reports and the process that runs on it. -/
structure ReportDevice (β : Type) where
  reporting : Reporting β
  run : Run β := .down

/-- `deliver` and `lose` are the outcomes of the report at a place in flight. -/
inductive ReportMove (β : Type) where
  | boot (pid : Nat)
  | event (state : ClientState) (reason : String)
  | op (c : Choice β)
  | deliver (i : Nat)
  | lose (i : Nat)
  | die

section

variable {β : Type} (host : Host β) (L : Layout)

namespace ReportDevice

/-- One move of the device. A new process starts with a clean record of its own attempts, and the
boots in which an earlier one tried and failed are counted up. -/
def step (d : ReportDevice β) : ReportMove β → ReportDevice β
  | .boot pid =>
    match d.run, d.reporting.world.image (L.path .install) with
    | .down, some img =>
      { reporting := { d.reporting with
          world := { d.reporting.world with
            proc := { pid := pid, exe := some (L.path .install) }, inProgress := false }
          tried := false
          failed := false
          failedBoots := d.reporting.countFailed }
        run := .busy img none (startUp L.stateDir (host.reportedVersion img)) }
    | _, _ => d
  | .event state reason =>
    match d.run with
    | .idle img wd =>
      let p := (wd.onState state reason).tryCatch fun _ => .ret wd
      { d with run := Run.settle img (some (.event state reason)) p }
    | _ => d
  | .op c =>
    match d.run with
    | .busy img a p =>
      { reporting := ((reportMachine host).step (p, d.reporting) c).2
        run := Run.settle img a ((reportMachine host).step (p, d.reporting) c).1 }
    | _ => d
  | .deliver i =>
    match d.reporting.inFlight[i]? with
    | some payload =>
      { d with reporting := { d.reporting with
          inFlight := d.reporting.inFlight.eraseIdx i
          delivered := payload :: d.reporting.delivered } }
    | none => d
  | .lose i =>
    match d.reporting.inFlight[i]? with
    | some _ =>
      { d with reporting := { d.reporting with
          inFlight := d.reporting.inFlight.eraseIdx i
          failed := true } }
    | none => d
  | .die =>
    { reporting := { d.reporting with
        inFlight := []
        tried := false
        failed := d.reporting.failed || !d.reporting.inFlight.isEmpty }
      run := .down }

/-- The device after a list of moves, one after another from the left. -/
def runMoves (d : ReportDevice β) (ms : List (ReportMove β)) : ReportDevice β :=
  ms.foldl (step host L) d

/-- The marker still owes the report of the rollback of `m`. While the device is down, it counts
the boots that have tried and failed. -/
def MarkerOwes (m : UpdateMarker) (d : ReportDevice β) : Prop :=
  match d.reporting.world.marker L.stateDir, d.run with
  | none, _ => False
  | some m', .down =>
    (m'.phase = .rolledBack ∧ m'.fromVersion = m.fromVersion ∧ m'.toVersion = m.toVersion) ∧
      m.reportAttempts.toInt + d.reporting.countFailed ≤ m'.reportAttempts.toInt
  | some m', _ =>
    m'.phase = .rolledBack ∧ m'.fromVersion = m.fromVersion ∧ m'.toVersion = m.toVersion

/-- The marker owes the report still, or the report is settled: delivered, or given up after the
permitted number of boots. -/
def Owes (m : UpdateMarker) (d : ReportDevice β) : Prop :=
  d.MarkerOwes L m ∨ d.reporting.Settled m

/-- The report is owed or settled in every state of the run. -/
def KeepsReport (m : UpdateMarker) : ReportDevice β → List (ReportMove β) → Prop
  | d, [] => d.Owes L m
  | d, move :: moves => d.Owes L m ∧ KeepsReport m (d.step host L move) moves

/-- The process waits in this move: when it has tried to send the report of the rollback of `m`,
no operation of it succeeds and it does not die, unless a report was delivered. -/
def Waits (m : UpdateMarker) (d : ReportDevice β) : ReportMove β → Prop
  | .op c => d.reporting.tried = true → d.run.isBusy = true → d.reporting.Delivered m ∨
      c.error.isSome = true
  | .die => d.reporting.tried = true → d.reporting.Delivered m
  | _ => True

/-- The processes wait in every move of the run, once they have tried to send. -/
def WaitsThroughout (m : UpdateMarker) : ReportDevice β → List (ReportMove β) → Prop
  | _, [] => True
  | d, move :: moves => d.Waits m move ∧ WaitsThroughout m (d.step host L move) moves

instance (m : UpdateMarker) (d : ReportDevice β) : Decidable (d.Owes L m) := by
  unfold Owes MarkerOwes
  split <;> infer_instance

instance (m : UpdateMarker) (d : ReportDevice β) (move : ReportMove β) :
    Decidable (d.Waits m move) := by
  cases move <;> unfold Waits <;> infer_instance

/-- The report is looked for in every state of the run. -/
instance decidableKeepsReport (m : UpdateMarker) : (d : ReportDevice β) →
    (moves : List (ReportMove β)) → Decidable (d.KeepsReport host L m moves)
  | d, [] => inferInstanceAs (Decidable (d.Owes L m))
  | d, move :: moves =>
    have := decidableKeepsReport m (d.step host L move) moves
    inferInstanceAs (Decidable (d.Owes L m ∧ KeepsReport host L m (d.step host L move) moves))

/-- The processes are looked at in every move of the run. -/
instance decidableWaitsThroughout (m : UpdateMarker) : (d : ReportDevice β) →
    (moves : List (ReportMove β)) → Decidable (d.WaitsThroughout host L m moves)
  | _, [] => inferInstanceAs (Decidable True)
  | d, move :: moves =>
    have := decidableWaitsThroughout m (d.step host L move) moves
    inferInstanceAs (Decidable (d.Waits m move ∧
      WaitsThroughout host L m (d.step host L move) moves))

end ReportDevice

variable {host L} {m : UpdateMarker}

/-! ### What the programs do -/

/-- An operation that changes no file, and sends nothing but the report of the rollback of `m`. -/
def SysOp.Tells (m : UpdateMarker) (o : SysOp β) : Prop :=
  o.keepsFiles = true ∧ ∀ name payload, o = .setProperty name payload →
    name = "update_report" ∧ reportsRollback m payload = true

/-- What a process has to remember of the rollback of `m`: it is not armed, and it reports that
rollback if it reports at all. -/
structure Remembers (L : Layout) (m : UpdateMarker) (wd : UpdateWatchdog) : Prop where
  unarmed : wd.armed = false
  dir : wd.stateDir = L.stateDir
  marker : wd.reportPending = true → wd.marker = m

/-- What is left to do after an attempt: the removal of the marker, and nothing else. -/
def Removes (L : Layout) (m : UpdateMarker) (p : SysM β UpdateWatchdog) : Prop :=
  ∃ k, p = .call (.remove (L.path .state)) k ∧
    ∀ r, ∃ wd, k r = .ret wd ∧ Remembers L m wd ∧ wd.reportPending = false

/-- Up to the first attempt the program tells only. After it the program removes the marker. -/
def Reports (L : Layout) (m : UpdateMarker) (p : SysM β UpdateWatchdog) : Prop :=
  Until (SysOp.Tells m) (fun (o : SysOp β) (r : o.Res) => o.triesToSend r = true) (Removes L m)
    (Remembers L m) p

/-- A start over the marker `m`: it reads files, and does nothing else. -/
def StartsOver (host : Host β) (L : Layout) (m : UpdateMarker) (p : SysM β UpdateWatchdog)
    (w : World β) : Prop :=
  cwp (hostMachine host) (anyAnswer _ _) (fun w' => w'.marker L.stateDir = some m) p
      (fun r _ => ∀ wd, r = .ok wd → Remembers L m wd) w ∧
    guards (hostMachine host) (anyAnswer _ _) (fun _ o => o.reads = true) p w

/-- The reader of the marker performs nothing but a read. -/
theorem reads_readMarkerFile {path : Path} :
    AllOps (fun o : SysOp β => o.reads = true) (readMarkerFile path) := by
  refine .bind (.single rfl) fun content => ?_
  cases content with
  | none => trivial
  | some content => exact allOps_parseRecord

/-- The reader of the record performs nothing but a read. -/
theorem reads_lastReverted {dir : Path} :
    AllOps (fun o : SysOp β => o.reads = true) (lastReverted dir) := by
  refine .bind (.single rfl) fun content => ?_
  cases content with
  | none => trivial
  | some content => exact allOps_parseRecord

/-- An operation that reads is none that sends the report. -/
theorem SysOp.tells_of_reads {o : SysOp β} (h : o.reads = true) :
    o.Tells m ∧ ∀ r : o.Res, ¬ o.triesToSend r = true := by
  cases o with
  | read path => exact ⟨⟨rfl, by simp⟩, fun r => by simp [SysOp.triesToSend]⟩
  | _ => cases h

/-- The last operation: the removal, whatever it answers. -/
theorem removes_removeQuiet {wd : UpdateWatchdog} (hwd : Remembers L m wd)
    (hpending : wd.reportPending = false) :
    Removes L m (removeQuiet (L.path .state) >>= fun _ => .ret wd : SysM β UpdateWatchdog) :=
  ⟨_, rfl, fun _ => ⟨wd, rfl, hwd, hpending⟩⟩

/-- The attempt to send the report: whichever way it goes, the removal is next. -/
theorem reports_report {reason : String} {p : SysM β UpdateWatchdog} (hp : Removes L m p) :
    Reports L m (UpdateWatchdog.report "rolled_back" m.fromVersion m.toVersion reason
      >>= fun _ => p) := by
  unfold UpdateWatchdog.report
  refine ⟨⟨rfl, by simp⟩, fun (connected : Bool) => ?_⟩
  cases connected with
  | false => exact ⟨fun _ => hp, fun h => absurd rfl h⟩
  | true =>
    refine ⟨fun h => (by cases h), fun _ => ?_⟩
    refine Until.call ⟨rfl, by simp⟩ (fun _ h => (by cases h)) fun (at_ : Int64) => ?_
    refine ⟨⟨rfl, fun name payload h => ?_⟩, fun _ => ⟨fun _ => hp, fun h => absurd rfl h⟩⟩
    obtain ⟨rfl, rfl⟩ := SysOp.setProperty.inj h
    exact ⟨rfl, by simp [reportsRollback, Json.find, List.lookup_cons]⟩

/-- The report branch of `on_state` tells of the rollback and then removes the marker, with its
handler of exceptions around it. -/
theorem reports_claimReport {wd : UpdateWatchdog} (hwd : Remembers L m wd)
    (hpending : wd.reportPending = true) :
    Reports L m (wd.claimReport.tryCatch fun _ => .ret wd : SysM β UpdateWatchdog) := by
  refine Until.tryCatch (G := Removes L m) ?_ ?_ fun _ => hwd
  · refine Until.call ⟨rfl, by simp⟩ (fun _ h => (by cases h)) fun (free : Bool) => ?_
    cases free with
    | false => exact hwd
    | true =>
      show Reports L m (wd.reportRolledBack >>= fun _ => .ret { wd with reportPending := false })
      unfold UpdateWatchdog.reportRolledBack
      simp only [Prog.bind_assoc]
      refine Until.call ⟨rfl, by simp⟩ (fun _ h => (by cases h)) fun _ => ?_
      have hread : Until (SysOp.Tells m) (fun (o : SysOp β) (r : o.Res) => o.triesToSend r = true)
          (fun _ => False) (fun _ => True) (lastReverted wd.stateDir) :=
        reads_lastReverted.until_of_miss fun _ => SysOp.tells_of_reads
      refine Until.bind (p := lastReverted wd.stateDir) hread (fun _ h => h.elim) fun rv _ => ?_
      rw [hwd.marker hpending, UpdateWatchdog.markerPath, hwd.dir, L.stateFile_stateDir]
      exact reports_report (removes_removeQuiet ⟨hwd.unarmed, rfl, fun h => (by cases h)⟩ rfl)
  · rintro q ⟨k, rfl, hk⟩
    refine ⟨_, rfl, fun r => ?_⟩
    obtain ⟨wd', hret, hwd'⟩ := hk r
    exact ⟨wd', by rw [hret]; rfl, hwd'⟩

/-- A client state, over a marker of a rollback. -/
theorem reports_onState {wd : UpdateWatchdog} {state : ClientState} {reason : String}
    (hwd : Remembers L m wd) :
    Reports L m ((wd.onState state reason).tryCatch fun _ => .ret wd : SysM β UpdateWatchdog) := by
  rw [UpdateWatchdog.onState_eq]
  by_cases hready : state = .streamsReady
  · rw [if_pos hready]
    by_cases hpending : wd.reportPending = true
    · rw [if_pos hpending]
      exact reports_claimReport hwd hpending
    · rw [if_neg hpending, if_neg (by simp [hwd.unarmed])]
      exact hwd
  · rw [if_neg hready, if_neg (by simp [hwd.unarmed])]
    exact hwd

/-- A watchdog with nothing to report ignores every client state. -/
theorem onState_of_settled {wd : UpdateWatchdog} {state : ClientState} {reason : String}
    (hwd : Remembers L m wd) (hpending : wd.reportPending = false) :
    (wd.onState state reason : SysM β UpdateWatchdog) = .ret wd := by
  rw [UpdateWatchdog.onState_eq]
  simp [hwd.unarmed, hpending]

/-- The members of a watchdog that has read the marker, or has failed to. -/
theorem remembers_ofMarker {version : String} {marker : Option UpdateMarker}
    (hmarker : marker = some m ∨ marker = none) (hp : m.phase = .rolledBack) :
    Remembers L m (UpdateWatchdog.ofMarker L.stateDir version marker) := by
  refine ⟨?_, UpdateWatchdog.stateDir_ofMarker .., fun hpending => ?_⟩
  · rw [← Bool.not_eq_true]
    intro harmed
    obtain ⟨m', hm', hpending, -⟩ := UpdateWatchdog.armed_ofMarker.mp harmed
    rcases hmarker with rfl | rfl
    · cases hm'
      simp [hp] at hpending
    · cases hm'
  · rcases hmarker with rfl | rfl
    · exact UpdateWatchdog.marker_ofMarker ..
    · cases hpending

/-- A start reads the marker of a rollback, and does nothing about it. -/
theorem starts_startUp {w : World β} {version : String} (hm : w.marker L.stateDir = some m)
    (hp : m.phase = .rolledBack) : StartsOver host L m (startUp L.stateDir version) w := by
  have hquiet {marker : Option UpdateMarker} (hmarker : marker = some m ∨ marker = none) :
      (actOnBoot L.stateDir (decideBoot marker version) : SysM β BootOutcome) = .ret .proceed := by
    rcases hmarker with rfl | rfl
    · rw [actOnBoot, decideBoot_rolledBack hp]
      rfl
    · rfl
  have hcreate : cwp (hostMachine host) (anyAnswer _ _) (fun w' => w'.marker L.stateDir = some m)
      (UpdateWatchdog.create L.stateDir version) (fun r _ => ∀ wd, r = .ok wd → Remembers L m wd)
      w := by
    refine cwp_mono create_spec (fun w' hw' => hw' ▸ hm) fun r w' _ h wd hwd => ?_
    rcases h.2 wd hwd with rfl | ⟨-, rfl⟩
    · exact remembers_ofMarker (.inl hm) hp
    · exact remembers_ofMarker (.inr rfl) hp
  have hreads {path : Path} (v : World β) : guards (hostMachine host) (anyAnswer _ _)
      (fun _ o => o.reads = true) (readMarkerFile path) v :=
    guards_of_allOps (fun _ ho _ => ho) reads_readMarkerFile v
  -- What the start does to the files, and which operations it performs.
  refine ⟨?_, ?_⟩
  · unfold startUp checkBoot
    rw [Prog.bind_assoc]
    refine wp_readMarkerFile hm ?_ (fun _ => ?_) fun _ _ _ _ wd hwd => by cases hwd
    · rw [hm, hquiet (.inl rfl)]
      exact hcreate
    · rw [hquiet (.inr rfl)]
      exact hcreate
  · unfold startUp checkBoot
    refine guards_then (guards_bind (J := fun _ => True) (hreads w) ?_) fun outcome v => ?_
    · rw [← Prog.bind_ret (readMarkerFile _)]
      refine wp_readMarkerFile trivial ⟨trivial, ?_⟩ (fun _ => ⟨trivial, ?_⟩) (by simp)
      · rintro _ ⟨rfl⟩
        rw [hm, hquiet (.inl rfl)]
        trivial
      · rintro _ ⟨rfl⟩
        rw [hquiet (.inr rfl)]
        trivial
    · cases outcome with
      | revertedExit => trivial
      | proceed => exact guards_then (hreads v) fun _ _ => trivial

/-! ### The invariant -/

/-- What an operation that tells adds to the history. An attempt fails, or puts the report of the
rollback of `m` in flight. -/
theorem SysOp.Tells.history {o : SysOp β} (h : o.Tells m) (host : Host β) (w : World β)
    (c : Choice β) :
    (∀ payload ∈ o.schedules c, reportsRollback m payload = true) ∧
      (o.triesToSend (exec host w o c).1 = true → o.attemptFails c = true ∨ o.schedules c ≠ []) ∧
      (o.triesToSend (exec host w o c).1 = false → o.attemptFails c = false ∧
        o.schedules c = []) := by
  -- Two operations can be an attempt: the question for the connection, and the send.
  cases o with
  | isConnected =>
    refine ⟨fun payload hmem => (by cases hmem), fun htries => .inl ?_, fun htries => ⟨?_, rfl⟩⟩
    · have : (!c.error.isNone) = true := htries
      simpa [SysOp.attemptFails] using this
    · have : (!c.error.isNone) = false := htries
      simpa [SysOp.attemptFails] using this
  | setProperty name payload =>
    obtain ⟨rfl, hreports⟩ := h.2 name payload rfl
    refine ⟨fun payload' hmem => ?_, fun _ => ?_, fun htries => (by cases htries)⟩
    · simp only [SysOp.schedules] at hmem
      split at hmem
      · rw [List.mem_singleton.mp hmem]
        exact hreports
      · cases hmem
    · cases hc : c.error with
      | none => exact .inr (by simp [SysOp.schedules, hc])
      | some e => exact .inl (by simp [SysOp.attemptFails, hc])
  | _ => exact ⟨fun payload hmem => (by cases hmem), fun htries => (by cases htries),
      fun _ => ⟨rfl, rfl⟩⟩

/-- What a process is up to, with the history `r`: before an attempt the marker is there to be
reported, and after one at most its removal is left. -/
def RunWaits (host : Host β) (L : Layout) (m : UpdateMarker) (r : Reporting β) : Run β → Prop
  | .down => r.tried = false
  | .idle _ wd => Remembers L m wd ∧ (r.tried = true → wd.reportPending = false)
  | .busy _ _ p => r.tried = false ∧ (StartsOver host L m p r.world ∨ Reports L m p) ∨
      r.tried = true ∧ Removes L m p

/-- The report is waited for: the marker is there, no boot has failed, and every process that has
tried still has the removal before it, or has failed to remove the marker. -/
structure ReportDevice.Waiting (host : Host β) (L : Layout) (m : UpdateMarker)
    (d : ReportDevice β) : Prop where
  marker : d.reporting.world.marker L.stateDir = some m
  boots : d.reporting.failedBoots = 0
  flying : ∀ payload ∈ d.reporting.inFlight, reportsRollback m payload = true
  fresh : d.reporting.tried = false → d.reporting.failed = false ∧ d.reporting.inFlight = []
  stuck : d.reporting.tried = true → d.reporting.failed = true ∨ d.reporting.inFlight ≠ []
  run : RunWaits host L m d.reporting d.run

/-- When a process ends, and nothing was tried or the marker will be removed, the rest of the run
waits. -/
theorem runWaits_settle {img : β} {a : Option Activity} {p : SysM β UpdateWatchdog}
    {r : Reporting β} (h : r.tried = false ∧ (StartsOver host L m p r.world ∨ Reports L m p) ∨
      r.tried = true ∧ Removes L m p) : RunWaits host L m r (Run.settle img a p) := by
  cases p with
  | ret wd =>
    rcases h with ⟨htried, h | h⟩ | ⟨-, k, hcall, -⟩
    · exact ⟨h.1.2 wd rfl, fun ht => by simp [htried] at ht⟩
    · exact ⟨h, fun ht => by simp [htried] at ht⟩
    · cases hcall
  | throw e =>
    rcases h with ⟨htried, -⟩ | ⟨-, k, hcall, -⟩
    · exact htried
    · cases hcall
  | call o k => exact h

namespace ReportDevice

/-- While the report is waited for, it is owed and not settled by its failures. -/
theorem Waiting.owes {d : ReportDevice β} (h : d.Waiting host L m) (hp : m.phase = .rolledBack) :
    d.Owes L m := by
  refine .inl ?_
  unfold MarkerOwes
  rw [h.marker]
  cases hrun : d.run with
  | down =>
    have htried : d.reporting.tried = false := by
      have := h.run
      rwa [hrun] at this
    refine ⟨⟨hp, rfl, rfl⟩, ?_⟩
    simp [Reporting.countFailed, h.boots, (h.fresh htried).1]
  | idle img wd => exact ⟨hp, rfl, rfl⟩
  | busy img a p => exact ⟨hp, rfl, rfl⟩

/-- A process that reads or sends: the marker stays, and the history says what it has done. -/
theorem waiting_tells {d : ReportDevice β} {img : β} {a : Option Activity} {o : SysOp β}
    {k : o.Res → SysM β UpdateWatchdog} (h : d.Waiting host L m)
    (htried : d.reporting.tried = false)
    (ho : o.Tells m) (c : Choice β)
    (hk : RunWaits host L m ((reportMachine host).exec d.reporting o c).2
      (Run.settle img a (k (exec host d.reporting.world o c).1))) :
    Waiting host L m { reporting := ((reportMachine host).exec d.reporting o c).2
                       run := Run.settle img a (k (exec host d.reporting.world o c).1) } := by
  obtain ⟨hreports, hhit, hmiss⟩ := ho.history host d.reporting.world c
  obtain ⟨hfailed, hflight⟩ := h.fresh htried
  obtain ⟨r, s, hw⟩ : d.reporting.world.SameFiles (exec host d.reporting.world o c).2 :=
    exec_sameFiles_of_keeps host c ho.1
  -- The marker, the reports in flight, and the two cases of the attempt.
  refine ⟨?_, h.boots, ?_, fun ht => ?_, fun ht => ?_, hk⟩
  · show (exec host d.reporting.world o c).2.marker L.stateDir = some m
    rw [hw]
    exact h.marker
  · intro payload hmem
    rcases List.mem_append.mp hmem with hmem | hmem
    · exact h.flying payload hmem
    · exact hreports payload hmem
  · have hno : o.triesToSend (exec host d.reporting.world o c).1 = false := by
      simpa [reportMachine, htried] using ht
    obtain ⟨hfails, hschedules⟩ := hmiss hno
    simp [reportMachine, hfailed, hflight, hfails, hschedules]
  · have hyes : o.triesToSend (exec host d.reporting.world o c).1 = true := by
      simpa [reportMachine, htried] using ht
    rcases hhit hyes with hfails | hschedules
    · exact .inl (by simp [reportMachine, hfails])
    · exact .inr (by simp [reportMachine, hflight, hschedules])

/-- One operation of a process that waits keeps it waiting, since it fails once the process has
tried. -/
theorem waiting_op {d : ReportDevice β} {img : β} {a : Option Activity}
    {p : SysM β UpdateWatchdog} (hrun : d.run = .busy img a p) (h : d.Waiting host L m)
    {c : Choice β} (hwaits : d.reporting.tried = true → c.error.isSome = true) :
    Waiting host L m
      { reporting := ((reportMachine host).step (p, d.reporting) c).2
        run := Run.settle img a ((reportMachine host).step (p, d.reporting) c).1 } := by
  have hbusy := h.run
  rw [hrun] at hbusy
  cases p with
  | ret wd =>
    have hsettled : RunWaits host L m d.reporting (Run.settle img a (.ret wd)) :=
      runWaits_settle hbusy
    exact ⟨h.marker, h.boots, h.flying, h.fresh, h.stuck, hsettled⟩
  | throw e =>
    have hsettled : RunWaits host L m d.reporting (Run.settle img a (.throw e)) :=
      runWaits_settle hbusy
    exact ⟨h.marker, h.boots, h.flying, h.fresh, h.stuck, hsettled⟩
  | call o k =>
    -- The program is a start, a report, or the removal of the marker after it.
    rcases hbusy with ⟨htried, hstarts | hreports⟩ | ⟨htried, hremoves⟩
    · have hreads : o.reads = true := hstarts.2.1
      obtain ⟨htells, hno⟩ := SysOp.tells_of_reads (m := m) hreads
      refine waiting_tells h htried htells c (runWaits_settle (.inl ⟨?_, .inl ?_⟩))
      · simpa [reportMachine, htried] using hno _
      · exact ⟨hstarts.1.2 c trivial, hstarts.2.2 c trivial⟩
    · refine waiting_tells h htried hreports.1 c (runWaits_settle ?_)
      -- The attempt itself: what is left after it is the removal.
      by_cases hhit : o.triesToSend (exec host d.reporting.world o c).1 = true
      · exact .inr ⟨by simp [reportMachine, hhit], (hreports.2 _).1 hhit⟩
      · refine .inl ⟨?_, .inr ((hreports.2 _).2 hhit)⟩
        simpa [reportMachine, htried] using hhit
    · -- The removal of the marker fails, and the process is done.
      obtain ⟨k', hcall, hk⟩ := hremoves
      cases hcall
      obtain ⟨e, he⟩ := Option.isSome_iff_exists.mp (hwaits htried)
      obtain ⟨wd, hret, hwd, hpending⟩ := hk (exec host d.reporting.world (.remove _) c).1
      have hsame : (exec host d.reporting.world (.remove (L.path .state)) c).2 =
          d.reporting.world := by simp only [exec, he]
      refine ⟨?_, h.boots, ?_, fun ht => ?_, fun _ => ?_, ?_⟩
      · show (exec host d.reporting.world (.remove (L.path .state)) c).2.marker L.stateDir = some m
        rw [hsame]
        exact h.marker
      · simpa [Machine.step, reportMachine, SysOp.schedules] using h.flying
      · simp [Machine.step, reportMachine, htried] at ht
      · simpa [Machine.step, reportMachine, SysOp.schedules, SysOp.attemptFails] using
          h.stuck htried
      · show RunWaits host L m _ (Run.settle img a
          (k' (exec host d.reporting.world (.remove (L.path .state)) c).1))
        rw [hret]
        exact ⟨hwd, fun _ => hpending⟩

/-- The step lemma: a process that waits keeps the report waited for, until it is delivered. -/
theorem waiting_step {d : ReportDevice β} {move : ReportMove β} (hp : m.phase = .rolledBack)
    (h : d.Waiting host L m) (hundelivered : ¬ d.reporting.Delivered m) (hwaits : d.Waits m move) :
    (d.step host L move).Waiting host L m ∨ (d.step host L move).reporting.Delivered m := by
  cases move with
  | boot pid =>
    -- A boot starts over: nothing is tried yet, and the boots that were counted stay the same.
    simp only [step]
    split
    · next img hrun _ =>
      -- A process that dies has not tried, so the next one starts over.
      have htried : d.reporting.tried = false := by
        have := h.run
        rwa [hrun] at this
      obtain ⟨hfailed, hflight⟩ := h.fresh htried
      refine .inl ⟨h.marker, ?_, h.flying, fun _ => ⟨rfl, hflight⟩, fun ht => (by cases ht), ?_⟩
      · simp [Reporting.countFailed, h.boots, hfailed]
      · exact .inl ⟨rfl, .inl (starts_startUp h.marker hp)⟩
    · exact .inl h
  | event state reason =>
    simp only [step]
    split
    · next img wd hrun =>
      have hidle := h.run
      rw [hrun] at hidle
      refine .inl ⟨h.marker, h.boots, h.flying, h.fresh, h.stuck, ?_⟩
      -- Once the report was tried, the watchdog has nothing pending, and a state does nothing.
      cases htried : d.reporting.tried with
      | false => exact runWaits_settle (.inl ⟨htried, .inr (reports_onState hidle.1)⟩)
      | true =>
        have hpending := hidle.2 htried
        rw [onState_of_settled hidle.1 hpending]
        exact ⟨hidle.1, fun _ => hpending⟩
    · exact .inl h
  | op c =>
    simp only [step]
    split
    · next img a p hrun =>
      refine .inl (waiting_op hrun h fun htried => ?_)
      -- This is where the wait counts: the operation fails, as nothing was delivered.
      exact (hwaits htried (by rw [hrun]; rfl)).resolve_left hundelivered
    · exact .inl h
  | deliver i =>
    simp only [step]
    split
    · next payload hpayload =>
      exact .inr ⟨payload, List.mem_cons_self, h.flying payload (List.mem_of_getElem? hpayload)⟩
    · exact .inl h
  | lose i =>
    simp only [step]
    split
    · next payload hpayload =>
      -- What gets lost was in flight, so the process has tried.
      have htried : d.reporting.tried = true := by
        rw [← Bool.not_eq_false]
        intro htried
        rw [(h.fresh htried).2] at hpayload
        cases hpayload
      refine .inl ⟨h.marker, h.boots, fun payload hmem => ?_, fun ht => ?_, fun _ => .inl rfl, ?_⟩
      · exact h.flying payload (List.mem_of_mem_eraseIdx hmem)
      · simp [htried] at ht
      · have hrun := h.run
        cases hd : d.run with
        | down =>
          rw [hd] at hrun
          exact hrun
        | idle img wd =>
          rw [hd] at hrun
          exact hrun
        | busy img a p =>
          rw [hd] at hrun
          exact hrun
    · exact .inl h
  | die =>
    have htried : d.reporting.tried = false := by
      rw [← Bool.not_eq_true]
      exact fun htried => hundelivered (hwaits htried)
    obtain ⟨hfailed, hflight⟩ := h.fresh htried
    exact .inl ⟨h.marker, h.boots, fun _ hmem => (by cases hmem),
      fun _ => ⟨by simp [step, hfailed, hflight], rfl⟩, fun ht => (by cases ht), rfl⟩

/-- A removal that succeeds leaves no marker behind. -/
theorem marker_remove (host : Host β) (w : World β) {c : Choice β} (hc : c.error = none) :
    (exec host w (.remove (L.path .state)) c).2.marker L.stateDir = none := by
  refine World.marker_of_none ?_
  rw [L.stateFile_stateDir]
  simp only [exec, hc]
  split
  · rw [World.files_eq, World.entry_unlink, World.entry_push_self]
    rfl
  · next hgone => simpa using hgone

/-- A process that does not wait loses the report: it removes the marker, or it dies uncounted. -/
theorem not_owes_of_not_waits {d : ReportDevice β} {move : ReportMove β}
    (h : d.Waiting host L m) (hundelivered : ¬ d.reporting.Delivered m)
    (hwaits : ¬ d.Waits m move) : ¬ (d.step host L move).Owes L m := by
  -- No boot is counted, so the attempts are never used up.
  have hcount (r : Reporting β) (hboots : r.failedBoots = 0) :
      ¬ WATCHDOG_MAX_REPORT_ATTEMPTS.toInt ≤ r.countFailed := by
    have hmax : WATCHDOG_MAX_REPORT_ATTEMPTS.toInt = 5 := by decide
    unfold Reporting.countFailed
    split <;> omega
  cases move with
  | op c =>
    simp only [Waits, Classical.not_imp, not_or] at hwaits
    obtain ⟨htried, hbusy, -, hc⟩ := hwaits
    cases hrun : d.run with
    | busy img a p =>
      have hp := h.run
      rw [hrun] at hp
      -- The one operation after the attempt is the removal of the marker, and it has worked.
      rcases hp with ⟨hno, -⟩ | ⟨-, k, rfl, -⟩
      · rw [htried] at hno
        cases hno
      · have hnone := marker_remove (L := L) host d.reporting.world (c := c) (by simpa using hc)
        rintro (howes | hdelivered | hfailed)
        · unfold MarkerOwes at howes
          simp only [step, hrun] at howes
          have hstep : ((reportMachine host).step ((.call (.remove (L.path .state)) k :
              SysM β UpdateWatchdog), d.reporting) c).2.world.marker L.stateDir = none := hnone
          rw [hstep] at howes
          exact howes
        · simp only [step, hrun] at hdelivered
          exact hundelivered hdelivered
        · simp only [step, hrun] at hfailed
          exact hcount ((reportMachine host).exec d.reporting (.remove (L.path .state)) c).2
            h.boots hfailed
    | down => simp [hrun, Run.isBusy] at hbusy
    | idle img wd => simp [hrun, Run.isBusy] at hbusy
  | die =>
    simp only [Waits, Classical.not_imp] at hwaits
    have hfailed : (d.step host L .die).reporting.failed = true := by
      -- The report in flight dies with the process: the attempt has failed now.
      rcases h.stuck hwaits.1 with hfailed | hflight
      · simp [step, hfailed]
      · simp [step, hflight]
    rintro (howes | hdelivered | hmax)
    -- The marker would have to count this boot, and nothing has written it.
    · have howes : m.reportAttempts.toInt + (d.step host L .die).reporting.countFailed ≤
          m.reportAttempts.toInt := by
        unfold MarkerOwes at howes
        rw [show (d.step host L .die).reporting.world.marker L.stateDir = some m from h.marker]
          at howes
        exact howes.2
      rw [Reporting.countFailed, hfailed] at howes
      simp only [if_true] at howes
      omega
    · exact hundelivered hdelivered
    · exact hcount (d.step host L .die).reporting h.boots hmax
  | _ => exact absurd trivial hwaits

/-- A report that was delivered stays so in every later move. -/
theorem delivered_step {d : ReportDevice β} (move : ReportMove β)
    (h : d.reporting.Delivered m) : (d.step host L move).reporting.Delivered m := by
  obtain ⟨payload, hmem, hreports⟩ := h
  cases move with
  | deliver i =>
    simp only [step]
    split
    · exact ⟨payload, List.mem_cons_of_mem _ hmem, hreports⟩
    · exact ⟨payload, hmem, hreports⟩
  | op c =>
    simp only [step]
    split
    · next img a p _ => cases p <;> exact ⟨payload, hmem, hreports⟩
    · exact ⟨payload, hmem, hreports⟩
  | die => exact ⟨payload, hmem, hreports⟩
  | _ =>
    simp only [step]
    split <;> exact ⟨payload, hmem, hreports⟩

/-- After the delivery nothing more is asked of the process. -/
theorem waits_of_delivered {d : ReportDevice β} (move : ReportMove β)
    (h : d.reporting.Delivered m) : d.Waits m move := by
  cases move with
  | op c => exact fun _ _ => .inl h
  | die => exact fun _ => h
  | _ => trivial

/-- The run lemma, from a device whose report is waited for or was delivered. -/
theorem keepsReport_iff {d : ReportDevice β} {moves : List (ReportMove β)}
    (hp : m.phase = .rolledBack) (h : d.Waiting host L m ∨ d.reporting.Delivered m) :
    d.KeepsReport host L m moves ↔ d.WaitsThroughout host L m moves := by
  have howes : d.Owes L m := h.elim (fun h => h.owes hp) fun h => .inr (.inl h)
  induction moves generalizing d with
  | nil => exact iff_of_true howes trivial
  | cons move moves ih =>
    by_cases hwaits : d.Waits m move
    · have hnext : (d.step host L move).Waiting host L m ∨
          (d.step host L move).reporting.Delivered m := by
        by_cases hdelivered : d.reporting.Delivered m
        · exact .inr (delivered_step move hdelivered)
        · exact waiting_step hp (h.resolve_right hdelivered) hdelivered hwaits
      rw [KeepsReport, WaitsThroughout, and_iff_right howes, and_iff_right hwaits]
      exact ih hnext (hnext.elim (fun h => h.owes hp) fun h => .inr (.inl h))
    · refine iff_of_false (fun hkeeps => ?_) fun hthroughout => hwaits hthroughout.1
      have hundelivered : ¬ d.reporting.Delivered m := mt (waits_of_delivered move) hwaits
      have hnext : (d.step host L move).Owes L m := by
        cases moves with
        | nil => exact hkeeps.2
        | cons _ _ => exact hkeeps.2.1
      exact not_owes_of_not_waits (h.resolve_right hundelivered) hundelivered hwaits hnext

/-! ### Every device can lose its report -/

/-- The operations of an activity, one answer after the other. -/
theorem runMoves_ops {img : β} {a : Option Activity} {p : SysM β UpdateWatchdog}
    {r : Reporting β} (cs : List (Choice β)) :
    runMoves host L { reporting := r, run := Run.settle img a p } (cs.map .op) =
      { reporting := ((reportMachine host).after cs (p, r)).2
        run := Run.settle img a ((reportMachine host).after cs (p, r)).1 } := by
  induction cs generalizing p r with
  | nil => rfl
  | cons c cs ih =>
    have hstep : step host L { reporting := r, run := Run.settle img a p } (.op c) =
        { reporting := ((reportMachine host).step (p, r) c).2
          run := Run.settle img a ((reportMachine host).step (p, r) c).1 } := by
      cases p <;> rfl
    show runMoves host L (step host L { reporting := r, run := Run.settle img a p } (.op c))
      (cs.map .op) = _
    rw [hstep, ih]
    rfl

/-- The answers to the report branch up to the send: the record of the rollback cannot be read,
and the report is scheduled. -/
def reportAnswers : List (Choice β) := [.ok, .ok, .fail .enoent none, .ok, .num 0, .ok]

/-- Reading the marker goes on with the marker that is there, when the read works. -/
theorem step_readMarkerFile {α : Type} {f : Option UpdateMarker → SysM β α} {r : Reporting β}
    (hm : r.world.marker L.stateDir = some m) :
    (reportMachine host).step (readMarkerFile (stateFile L.stateDir) >>= f, r) .ok =
      (f (some m), r) := by
  -- A world with a marker has a text that is parsed as the marker.
  obtain ⟨content, hcontent, hparse⟩ : ∃ content,
      r.world.files (stateFile L.stateDir) = some content ∧
        (parseRecord UpdateMarker.fromJson content : SysM β _) = .ret (some m) := by
    unfold World.marker at hm
    cases hfile : r.world.files (stateFile L.stateDir) with
    | none => simp [hfile] at hm
    | some content =>
      refine ⟨content, rfl, ?_⟩
      simp only [hfile, Content.marker] at hm
      unfold parseRecord
      cases hjson : content.parse with
      | none => simp [hjson, Except.toOption] at hm
      | some j =>
        simp only [hjson] at hm
        cases hmarker : UpdateMarker.fromJson j with
        | error e => simp [hmarker, Except.toOption] at hm
        | ok found =>
          have hfound : found = some m := by simpa [hmarker, Except.toOption] using hm
          simp only [hmarker, hfound]
          rfl
  have hexec : exec host r.world (.read (stateFile L.stateDir)) .ok = (some content, r.world) := by
    rw [← hcontent]
    rfl
  obtain ⟨k, hprog, hnext⟩ : ∃ k : Option (Content β) → SysM β α,
      (readMarkerFile (stateFile L.stateDir) >>= f : SysM β α) =
        .call (.read (stateFile L.stateDir)) k ∧
      k (some content) = parseRecord UpdateMarker.fromJson content >>= f := ⟨_, rfl, rfl⟩
  rw [hparse, Prog.ret_bind] at hnext
  rw [hprog, ← hnext]
  simp only [Machine.step, reportMachine, hexec, SysOp.schedules, SysOp.triesToSend,
    SysOp.attemptFails, List.append_nil, Bool.or_false]

/-- A boot, a client that gets ready, and a send. -/
def readyMoves : List (ReportMove β) :=
  [.boot 0, .op .ok, .op .ok, .event .streamsReady ""] ++ reportAnswers.map .op

/-- After these moves the process has tried, and nothing was delivered. -/
theorem tried_readyMoves (host : Host β) {w : World β} {img : β} (hm : w.marker L.stateDir = some m)
    (hp : m.phase = .rolledBack) (himage : w.image (L.path .install) = some img) :
    (runMoves host L { reporting := { world := w } } readyMoves).reporting.tried = true ∧
      (runMoves host L { reporting := { world := w } } readyMoves).reporting.delivered = [] := by
  let booted : Reporting β :=
    { world := { w with proc := { pid := 0, exe := some (L.path .install) }, inProgress := false } }
  let wd : UpdateWatchdog :=
    UpdateWatchdog.ofMarker L.stateDir (host.reportedVersion img) (some m)
  -- One equation for each move: the boot, its two reads of the marker, and the event.
  have hpending : wd.reportPending = true := by
    simp [wd, UpdateWatchdog.ofMarker, hp]
  have hboot : step host L { reporting := { world := w } } (.boot 0) =
      { reporting := booted
        run := .busy img none (startUp L.stateDir (host.reportedVersion img)) } := by
    simp only [step, himage]
    rfl
  have hstart : step host L { reporting := booted
                              run := .busy img none
                                (startUp L.stateDir (host.reportedVersion img)) } (.op .ok) =
      { reporting := booted
        run := .busy img none (UpdateWatchdog.create L.stateDir (host.reportedVersion img)) } := by
    simp only [step]
    unfold startUp checkBoot
    rw [Prog.bind_assoc, step_readMarkerFile hm, actOnBoot, decideBoot_rolledBack hp]
    rfl
  have hcreate : step host L { reporting := booted
                               run := .busy img none (UpdateWatchdog.create L.stateDir
                                 (host.reportedVersion img)) } (.op .ok) =
      { reporting := booted, run := .idle img wd } := by
    simp only [step]
    unfold UpdateWatchdog.create
    rw [step_readMarkerFile hm]
    rfl
  have hevent : step host L { reporting := booted, run := .idle img wd }
      (.event .streamsReady "") =
        { reporting := booted
          run := Run.settle img (some (.event .streamsReady ""))
            (wd.claimReport.tryCatch fun _ => .ret wd) } := by
    simp only [step, UpdateWatchdog.onState_eq, if_true, hpending]
  have hready : runMoves host L { reporting := { world := w } } readyMoves =
      runMoves host L
        { reporting := booted
          run := Run.settle img (some (.event .streamsReady ""))
            (wd.claimReport.tryCatch fun _ => .ret wd) } (reportAnswers.map .op) := by
    rw [← hevent, ← hcreate, ← hstart, ← hboot]
    rfl
  rw [hready, runMoves_ops]
  exact ⟨rfl, rfl⟩

/-- The last move of a run in which every process waits is one in which it waits. -/
theorem waits_of_waitsThroughout {d : ReportDevice β} {moves : List (ReportMove β)}
    {move : ReportMove β} (h : d.WaitsThroughout host L m (moves ++ [move])) :
    (d.runMoves host L moves).Waits m move := by
  induction moves generalizing d with
  | nil => exact h.1
  | cons first moves ih => exact ih h.2

/-- A device with no binary installed never tries. -/
theorem waitsThroughout_of_none {d : ReportDevice β} {moves : List (ReportMove β)}
    (hrun : d.run = .down) (htried : d.reporting.tried = false)
    (himage : d.reporting.world.image (L.path .install) = none) :
    d.WaitsThroughout host L m moves := by
  -- Without a binary no process runs, so no move of one is possible.
  induction moves generalizing d with
  | nil => trivial
  | cons move moves ih =>
    refine ⟨?_, ?_⟩
    · cases move with
      | op c => exact fun h => by simp [htried] at h
      | die => exact fun h => by simp [htried] at h
      | _ => trivial
    · cases move with
      | boot pid =>
        simp only [step, hrun, himage]
        exact ih hrun htried himage
      | event state reason =>
        simp only [step, hrun]
        exact ih hrun htried himage
      | op c =>
        simp only [step, hrun]
        exact ih hrun htried himage
      | deliver i =>
        simp only [step]
        split
        · exact ih hrun htried himage
        · exact ih hrun htried himage
      | lose i =>
        simp only [step]
        split
        · exact ih hrun htried himage
        · exact ih hrun htried himage
      | die => exact ih rfl rfl himage

end ReportDevice

/-- After a rollback. In a run the report is owed or settled in every state exactly when each
process that has tried to send it waits for the delivery. It is so in all runs exactly of a device
with no binary to boot. -/
theorem reportKept_iff (host : Host β) (L : Layout) (m : UpdateMarker) (w : World β)
    (hm : w.marker L.stateDir = some m) (hp : m.phase = .rolledBack) :
    (∀ moves, ReportDevice.KeepsReport host L m { reporting := { world := w } } moves ↔
      ReportDevice.WaitsThroughout host L m { reporting := { world := w } } moves) ∧
    ((∀ moves, ReportDevice.KeepsReport host L m { reporting := { world := w } } moves) ↔
      w.image (L.path .install) = none) := by
  have hrun (moves : List (ReportMove β)) :
      ReportDevice.KeepsReport host L m { reporting := { world := w } } moves ↔
        ReportDevice.WaitsThroughout host L m { reporting := { world := w } } moves :=
    ReportDevice.keepsReport_iff hp
      (.inl ⟨hm, rfl, by simp, fun _ => ⟨rfl, rfl⟩, fun h => (by cases h), rfl⟩)
  refine ⟨hrun, fun hall => ?_, fun himage moves => ?_⟩
  · by_contra himage
    obtain ⟨img, himage⟩ := Option.ne_none_iff_exists'.mp himage
    obtain ⟨htried, hdelivered⟩ := ReportDevice.tried_readyMoves host hm hp himage
    -- The process dies right after the send.
    obtain ⟨payload, hmem, -⟩ := ReportDevice.waits_of_waitsThroughout
      ((hrun (ReportDevice.readyMoves ++ [.die])).mp (hall _)) htried
    rw [hdelivered] at hmem
    cases hmem
  · exact (hrun moves).mpr (ReportDevice.waitsThroughout_of_none rfl rfl himage)

end

/-- The binary 1 is installed again, and the report of the rollback from 2 is owed. -/
def sampleOwing : World Nat :=
  .ofFiles (fun p =>
    if p = Layout.system.path .install then some (.image 1)
    else if p = Layout.system.path .state then some (.json sampleMarker.done.toJson)
    else none) { pid := 1, exe := some (Layout.system.path .install) }

/-- A boot and the operations of the start, up to the construction of the watchdog. -/
def sampleBootMoves (pid : Nat) : List (ReportMove Nat) := [.boot pid, .op .ok, .op .ok]

/-- The report is delivered before its process comes to the removal, and the process dies. The
next one reports again, and removes the marker. -/
def sampleDeliveredMoves : List (ReportMove Nat) :=
  sampleBootMoves 2 ++ [.event .streamsReady ""] ++ ReportDevice.reportAnswers.map .op ++
    [.deliver 0, .die] ++ sampleBootMoves 3 ++ [.event .streamsReady ""] ++
    ((ReportDevice.reportAnswers ++ [.ok] : List (Choice Nat)).map .op)

/-- A run in which the report is delivered before the process goes on keeps it. Not every run of the
device does. -/
theorem reportKept_iff_sample :
    ReportDevice.KeepsReport sampleHost Layout.system sampleMarker.done
        { reporting := { world := sampleOwing } } sampleDeliveredMoves ∧
      ¬ ∀ moves, ReportDevice.KeepsReport sampleHost Layout.system sampleMarker.done
        { reporting := { world := sampleOwing } } moves := by
  obtain ⟨hrun, hall⟩ := reportKept_iff sampleHost Layout.system sampleMarker.done sampleOwing
    (by decide +kernel) rfl
  refine ⟨(hrun _).mpr (by decide +kernel), fun h => ?_⟩
  have himage := hall.mp h
  revert himage
  decide +kernel

/-- The client becomes ready and disconnects before the report is delivered: no report was
delivered, one boot has tried, and the marker is gone. -/
theorem not_reportKept_sample :
    ¬ ReportDevice.KeepsReport sampleHost Layout.system sampleMarker.done
      { reporting := { world := sampleOwing } }
      (sampleBootMoves 2 ++ [.event .streamsReady ""] ++
        ((ReportDevice.reportAnswers ++ [.ok] : List (Choice Nat)).map .op) ++ [.lose 0]) := by
  decide +kernel

end ThinrAgent
