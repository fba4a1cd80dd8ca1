import ThinrAgent.Effects.Pool
import ThinrAgent.Proofs.PowerCut

/-!
# `ThinrAgent.Proofs.Resolution`: a trial is resolved at most once

Three threads of a process touch the watchdog: the io thread that delivers the client's
states, the deadline thread, and the thread that calls `stop`. They share `resolved_` and
`deadline_stop_`. The thread that finds `resolved_` unset may resolve the trial, and the
others may not. `resolutionProtocol` states this discipline for the code of one thread, with a
token that a thread takes when its claim succeeds. `resolved_once` is the consequence for
every interleaving.
-/

set_option autoImplicit false

namespace ThinrAgent

open Effects

/-! ### The discipline of one thread -/

namespace SysOp

variable {β : Type}

/-- The operations that synchronise the threads and touch no file. -/
def quiet : SysOp β → Bool
  | claimResolution | setDeadlineStop | waitDeadline | joinDeadline | unsubscribe => true
  | _ => false

/-- The operations that write a file or rename one. -/
def writes : SysOp β → Bool
  | copyFile _ _ | rename _ _ | httpDownload _ _ | openTrunc _ _ | writeAll _ _ => true
  | _ => false

/-- The operations of a report: they read, and they send. -/
def tells : SysOp β → Bool
  | read _ | time | isConnected | setProperty _ _ => true
  | _ => false

/-- The operations that neither synchronise the threads nor end the process. -/
def onFiles : SysOp β → Bool
  | claimResolution | setDeadlineStop | waitDeadline | joinDeadline | enter _ | unsubscribe
  | raiseSigterm => false
  | _ => true

/-- The function an operation marks the entry of. -/
def entered : SysOp β → Option Resolution
  | enter r => some r
  | _ => none

end SysOp

/-- What a thread has to do with the resolution of the trial. -/
inductive Token where
  | idle
  | claimed
  | resolving (r : Resolution)
  deriving DecidableEq

/-- What a thread may do. Once it confirms or reports it writes nothing, and once it rolls
back it does not remove the marker. -/
def Token.may {β : Type} (stateDir : Path) : Token → SysOp β → Prop
  | idle, o => o.quiet = true
  | claimed, o => o.quiet = true ∨ o.entered.isSome = true
  | resolving .rollback, o => o.entered = none ∧ o ≠ .remove (stateFile stateDir)
  | resolving _, o => o.entered = none ∧ o.writes = false

/-- A claim succeeds only for a thread that has none, and gives it the token. -/
@[reducible] def resolutionProtocol (β : Type) (stateDir : Path) : Protocol (sysInterface β) where
  State := Token
  may := Token.may stateDir
  can t o := match o with
    | .claimResolution => fun (free : Bool) => free = true → t = .idle
    | _ => fun _ => True
  next t o := match o with
    | .claimResolution => fun (free : Bool) => if free then .claimed else t
    | .enter r => fun _ => .resolving r
    | _ => fun _ => t

section Discipline

variable {β : Type} {stateDir : Path} (wd : UpdateWatchdog)

/-- The operations that leave the token of a thread as it is. -/
def SysOp.Neutral (o : SysOp β) : Prop := o ≠ .claimResolution ∧ o.entered = none

/-- A program that neither claims nor enters a resolution, and does only what the token allows,
keeps the token. -/
theorem follows_of_neutral {α : Type} {t : Token} {p : SysM β α}
    (h : AllOps (fun o : SysOp β => o.Neutral ∧ t.may stateDir o) p) :
    (resolutionProtocol β stateDir).Follows t p fun t' _ => t' = t := by
  refine Protocol.follows_of_allOps (fun o ho => ⟨ho.2, fun r _ => ?_⟩) h
  obtain ⟨⟨hclaim, henter⟩, -⟩ := ho
  cases o with
  | claimResolution => exact absurd rfl hclaim
  | enter r => cases henter
  | _ => rfl

/-- The operations of `doRollback`: they work on files and leave the marker there. -/
abbrev KeepsMarker (stateDir : Path) (o : SysOp β) : Prop :=
  o.onFiles = true ∧ o ≠ .remove (stateFile stateDir)

/-- A rollback may perform the operations that keep the marker. -/
theorem KeepsMarker.may {o : SysOp β} (h : KeepsMarker stateDir o) :
    o.Neutral ∧ Token.may stateDir (.resolving .rollback) o := by
  have hentered : o.entered = none := by
    cases o with
    | enter r => exact absurd h.1 (by simp [SysOp.onFiles])
    | _ => rfl
  refine ⟨⟨?_, hentered⟩, hentered, h.2⟩
  rintro rfl
  exact absurd h.1 (by simp [SysOp.onFiles])

/-- The atomic write of a file does not remove the marker. -/
theorem allOps_writeAtomic {path : Path} {content : Content β} {mode : Nat} :
    AllOps (KeepsMarker stateDir) (writeAtomic path content mode) := by
  refine writeAtomic_ops.mono fun o ho => ?_
  cases ho with
  | remove pid => exact ⟨rfl, by simpa using tempPath_ne_stateFile path pid stateDir⟩
  | _ => exact ⟨rfl, by simp⟩

/-- The rollback writes and renames, and leaves the removal of the marker to the next start. -/
theorem allOps_doRollback {dir : Path} {m : UpdateMarker} {reason : String} :
    AllOps (KeepsMarker stateDir) (doRollback dir m reason : SysM β Bool) := by
  unfold doRollback getCurrentBinaryPath
  refine .bind (.bind (.single ⟨rfl, by simp⟩) fun link => ?_)
    fun install => ?_
  · cases link <;> trivial
  refine .ite (fun _ => trivial) fun _ => ?_
  refine .bind ⟨⟨rfl, by simp⟩, fun r => ?_⟩ fun found => ?_
  · cases r <;> trivial
  refine .ite (fun _ => trivial) fun _ => ?_
  refine .bind (.single ⟨rfl, by simp⟩) fun renamed => ?_
  refine .ite (fun _ => trivial) fun _ => ?_
  refine .bind (.single ⟨rfl, by simp⟩) fun _ => ?_
  refine .bind (.single ⟨rfl, by simp⟩) fun at_ => ?_
  exact .bind allOps_writeAtomic fun _ => .bind allOps_writeAtomic fun _ => trivial

/-- The operations of a confirmation and of a report: they leave the token alone and write
nothing. -/
abbrev WritesNothing (o : SysOp β) : Prop := o.Neutral ∧ o.entered = none ∧ o.writes = false

/-- An operation that is neutral and is not a write may stand in every resolution. -/
private theorem writesNothing {o : SysOp β} (hc : o ≠ .claimResolution) (he : o.entered = none)
    (hw : o.writes = false) : WritesNothing o := ⟨⟨hc, he⟩, he, hw⟩

/-- A removal whose failure is ignored is no write and no step of a resolution. -/
private theorem allOps_removeQuiet {path : Path} :
    AllOps WritesNothing (removeQuiet path : SysM β Unit) :=
  .bind (.single (writesNothing (by simp) rfl rfl)) fun _ => trivial

/-- An operation that only tells neither synchronises threads nor writes a file. -/
theorem writesNothing_of_tells {o : SysOp β} (h : o.tells = true) : WritesNothing o := by
  cases o <;> first
    | (cases h; done)
    | exact writesNothing (by simp) rfl rfl

/-- A report only sends a message, whatever its fields are. -/
theorem allOps_report (event fromVersion toVersion reason : String) :
    AllOps (fun o : SysOp β => o.tells = true)
      (UpdateWatchdog.report event fromVersion toVersion reason) := by
  unfold UpdateWatchdog.report
  refine .bind (.single rfl) fun connected => .ite (fun _ => trivial) fun _ => ?_
  exact .bind (.single rfl) fun at_ => .bind (.single rfl) fun _ => trivial

/-- Reading a record out of a text performs no operation, so it may stand anywhere. -/
theorem allOps_parseRecord {ok : SysOp β → Prop} {α : Type}
    {fromJson : Json → Except JsonError (Option α)} {content : Content β} :
    AllOps ok (parseRecord fromJson content) := by
  unfold parseRecord
  cases content.parse with
  | none => trivial
  | some j =>
    cases hj : fromJson j with
    | ok record => simp [hj]
    | error e => simp [hj]

/-- The record of the last rollback is read, and nothing else is done. -/
theorem allOps_lastReverted {dir : Path} :
    AllOps (fun o : SysOp β => o.tells = true) (lastReverted dir) := by
  unfold lastReverted
  refine .bind (.single rfl) fun content => ?_
  cases content with
  | none => trivial
  | some content => exact allOps_parseRecord

/-- A thread that has claimed the resolution may enter a function that keeps to what the
entered function may do. -/
theorem follows_enter {α : Type} {r : Resolution} {p : SysM β α}
    (h : AllOps (fun o : SysOp β => o.Neutral ∧ Token.may stateDir (.resolving r) o) p) :
    (resolutionProtocol β stateDir).Follows .claimed (enter r >>= fun _ => p)
      fun _ _ => True :=
  ⟨.inr rfl, fun _ _ => (follows_of_neutral h).mono fun _ _ _ => trivial⟩

/-- A thread that has claimed the resolution may roll back. It enters the rollback first and keeps
to it until the end. -/
theorem follows_rollback (reason : String) :
    (resolutionProtocol β stateDir).Follows .claimed (wd.rollback reason) fun _ _ => True := by
  have signal {o : SysOp β} (hc : o ≠ .claimResolution) (he : o.entered = none)
      (hr : o ≠ .remove (stateFile stateDir)) :
      o.Neutral ∧ Token.may stateDir (.resolving .rollback) o := ⟨⟨hc, he⟩, he, hr⟩
  refine follows_enter (r := .rollback) ?_
  refine .bind (.single (signal (by simp) rfl (by simp))) fun _ => ?_
  refine .bind (allOps_doRollback.mono fun o ho => ho.may) fun restored => ?_
  exact .ite (fun _ => .single (signal (by simp) rfl (by simp))) fun _ => trivial

/-- A confirmation marks its entry first, and writes nothing afterwards. -/
theorem confirm_eq : ∃ p : SysM β Unit, wd.confirm = (enter .confirm >>= fun _ => p) ∧
    AllOps WritesNothing p := by
  refine ⟨_, rfl, .bind (.single (writesNothing (by simp) rfl rfl)) fun _ => ?_⟩
  refine .bind allOps_removeQuiet fun _ => ?_
  have hreport := (allOps_report (β := β) "confirmed" wd.marker.fromVersion wd.marker.toVersion
    "ok").mono fun _ ho => writesNothing_of_tells ho
  exact .ite (fun _ => .bind allOps_removeQuiet fun _ => hreport) fun _ => hreport

/-- A report marks its entry first, and writes nothing afterwards. -/
theorem reportRolledBack_eq : ∃ p : SysM β Unit,
    wd.reportRolledBack = (enter .report >>= fun _ => p) ∧ AllOps WritesNothing p := by
  have htells {α : Type} {p : SysM β α} (h : AllOps (fun o : SysOp β => o.tells = true) p) :
      AllOps WritesNothing p := h.mono fun _ ho => writesNothing_of_tells ho
  exact ⟨_, rfl, .bind (htells allOps_lastReverted) fun rv =>
    .bind (htells (allOps_report ..)) fun _ => allOps_removeQuiet⟩

/-- A thread that has claimed the resolution may confirm the trial. -/
theorem follows_confirm :
    (resolutionProtocol β stateDir).Follows .claimed wd.confirm fun _ _ => True := by
  obtain ⟨p, hp, hops⟩ := confirm_eq (β := β) wd
  rw [hp]
  exact follows_enter hops

/-- A thread that has claimed the resolution may report the rollback of the process before. -/
theorem follows_reportRolledBack :
    (resolutionProtocol β stateDir).Follows .claimed wd.reportRolledBack fun _ _ => True := by
  obtain ⟨p, hp, hops⟩ := reportRolledBack_eq (β := β) wd
  rw [hp]
  exact follows_enter hops

/-- A claim: it succeeds for an idle thread only. -/
theorem follows_claim {α : Type} {t : Token} {k : Bool → SysM β α}
    {Q : Token → Except Exc α → Prop}
    (hfree : (resolutionProtocol β stateDir).Follows .claimed (k true) Q)
    (htaken : (resolutionProtocol β stateDir).Follows t (k false) Q) :
    (resolutionProtocol β stateDir).Follows t (claimResolution >>= k) Q := by
  refine ⟨?_, fun free hfree' => ?_⟩
  · match t with
    | .idle => rfl
    | .claimed => exact .inl rfl
    | .resolving .rollback => exact ⟨rfl, by simp⟩
    | .resolving .confirm => exact ⟨rfl, rfl⟩
    | .resolving .report => exact ⟨rfl, rfl⟩
  · cases free with
    | true => exact hfree
    | false => exact htaken

/-- The end of a part of a thread's code, whatever its outcome. -/
private theorem follows_then {α γ : Type} {t : Token} {p : SysM β α} {f : α → SysM β γ}
    (hp : (resolutionProtocol β stateDir).Follows t p fun _ _ => True)
    (hf : ∀ t a, (resolutionProtocol β stateDir).Follows t (f a) fun _ _ => True) :
    (resolutionProtocol β stateDir).Follows t (p >>= f) fun _ _ => True := by
  refine .bind (hp.mono fun t r _ => ?_)
  cases r with
  | ok a => exact hf t a
  | error e => trivial

/-- Whatever its token, a thread may deliver a client state to the watchdog. -/
theorem follows_onState (t : Token) (state : ClientState) (reason : String) :
    (resolutionProtocol β stateDir).Follows t (wd.onState state reason) fun _ _ => True := by
  unfold UpdateWatchdog.onState
  split
  · trivial
  dsimp only
  split
  · refine follows_claim ?_ trivial
    simp only [Bool.not_true, Bool.false_eq_true, if_false]
    split
    · exact follows_then (follows_reportRolledBack wd) fun _ _ => trivial
    · split
      · exact follows_then (follows_confirm wd) fun _ _ => trivial
      · trivial
  · split
    · trivial
    split
    · refine follows_claim ?_ trivial
      simp only [Bool.not_true, Bool.false_eq_true, if_false]
      exact follows_then (follows_rollback wd _) fun _ _ => trivial
    · trivial

/-- The deadline thread keeps to the protocol of the resolution, from the state without a token. -/
theorem follows_deadlineLoop :
    (resolutionProtocol β stateDir).Follows .idle wd.deadlineLoop fun _ _ => True := by
  refine ⟨rfl, fun stop _ => ?_⟩
  cases stop with
  | true => trivial
  | false =>
    refine follows_claim ?_ trivial
    exact follows_rollback wd _

/-- The thread that stops the watchdog never claims the resolution: it only sets the flag of the
deadline thread. -/
theorem follows_stop :
    (resolutionProtocol β stateDir).Follows .idle wd.stop fun _ _ => True := by
  refine ⟨rfl, fun _ _ => ?_⟩
  show (resolutionProtocol β stateDir).Follows .idle
    (if wd.armed then joinDeadline >>= fun _ => unsubscribe else unsubscribe) _
  split
  · exact ⟨rfl, fun _ _ => ⟨rfl, fun _ _ => trivial⟩⟩
  · exact ⟨rfl, fun _ _ => trivial⟩

end Discipline

/-! ### The threads of a process -/

/-- The threads that touch the watchdog: the one of the client, the one that waits for the deadline
and the one that ends the process. -/
inductive WatchdogThread where
  | io
  | deadline
  | stop
  deriving DecidableEq

section Threads

variable {β : Type} (wd : UpdateWatchdog)

/-- The io thread delivers the client states one after the other. The dispatcher swallows an
exception of the observer. -/
def ioThread (wd : UpdateWatchdog) : List (ClientState × String) → SysM β Unit
  | [] => .ret ()
  | (state, reason) :: events => do
    let wd ← (wd.onState state reason).tryCatch fun _ => .ret wd
    ioThread wd events

/-- The threads: a watchdog that is not armed has no deadline thread. -/
def watchdogThreads (events : List (ClientState × String)) : WatchdogThread → SysM β Unit
  | .io => ioThread wd events
  | .deadline => if wd.armed then wd.deadlineLoop else .ret ()
  | .stop => wd.stop

/-- `join` waits for the end of the deadline thread. No other operation waits for a thread. -/
def waitsFor : SysOp β → Option WatchdogThread
  | .joinDeadline => some .deadline
  | _ => none

/-- The pool of the watchdog's threads after the schedule `ms`, from the world `w`. -/
def watchdogRun (host : Host β) (events : List (ClientState × String)) (w : World β)
    (ms : List (WatchdogThread × Choice β)) :
    Pool (sysInterface β) Exc Unit (World β) WatchdogThread :=
  Pool.run (fun _ => hostMachine host) waitsFor ms
    { threads := watchdogThreads wd events, world := w }

/-- The io thread keeps to the discipline with every token, whatever states the client goes
through. -/
theorem follows_ioThread {stateDir : Path} (t : Token) (events : List (ClientState × String)) :
    (resolutionProtocol β stateDir).Follows t (ioThread wd events) fun _ _ => True := by
  induction events generalizing wd t with
  | nil => trivial
  | cons event events ih =>
    refine follows_then ?_ fun t wd => ih wd t
    refine .tryCatch ((follows_onState wd t _ _).mono fun t r _ => ?_)
    cases r <;> trivial

/-- Each of the three threads keeps to the discipline when it begins without the token. -/
theorem follows_watchdogThreads {stateDir : Path} (events : List (ClientState × String))
    (i : WatchdogThread) : (resolutionProtocol β stateDir).Follows .idle
      (watchdogThreads wd events i) fun _ _ => True := by
  cases i with
  | io => exact follows_ioThread wd _ events
  | deadline =>
    show (resolutionProtocol β stateDir).Follows .idle (if wd.armed then _ else _) _
    split
    · exact follows_deadlineLoop wd
    · trivial
  | stop => exact follows_stop wd

end Threads

/-! ### Every interleaving -/

section Interleaving

variable {β : Type} {stateDir : Path} {host : Host β}

/-- Only a claim of the resolution changes `resolved_`. -/
theorem exec_resolved {w : World β} {o : SysOp β} {c : Choice β} (ho : o ≠ .claimResolution) :
    (exec host w o c).2.proc.resolved = w.proc.resolved := by
  -- The operations that may fail or have a choice are split, and the others do not name the flag.
  cases o with
  | claimResolution => exact absurd rfl ho
  | remove p =>
    simp only [exec]
    split
    · rfl
    · split <;> rfl
  | copyFile src dst =>
    simp only [exec]
    split <;> rfl
  | rename src dst =>
    simp only [exec]
    split
    · rfl
    · split
      · rfl
      · show (w.rename src dst).proc.resolved = _
        unfold World.rename
        split <;> rfl
  | execVersion p =>
    simp only [exec]
    split <;> rfl
  | openTrunc p mode =>
    simp only [exec]
    split <;> rfl
  | writeAll p content =>
    simp only [exec]
    split <;> rfl
  | fsync p =>
    simp only [exec]
    split <;> rfl
  | fsyncDir d =>
    simp only [exec]
    split <;> rfl
  | _ => rfl

/-- A quiet operation is allowed after any resolution. -/
theorem may_of_quiet {o : SysOp β} (h : o.quiet = true) (r : Resolution) :
    Token.may stateDir (.resolving r) o := by
  cases o <;> first
    | (cases h; done)
    | (cases r <;> simp [Token.may, SysOp.entered, SysOp.writes])

/-- The invariant of the threads with the tokens `tok`: at most one thread has one, only after
`resolved_` is set, and every operation is allowed after the resolutions entered before it. -/
structure ResolutionInv (stateDir : Path) (tok : WatchdogThread → Token)
    (s : Pool (sysInterface β) Exc Unit (World β) WatchdogThread) : Prop where
  follows : ∀ i, (resolutionProtocol β stateDir).Follows (tok i) (s.threads i) fun _ _ => True
  unique : ∀ i j, tok i ≠ .idle → tok j ≠ .idle → i = j
  unresolved : s.world.proc.resolved = false → ∀ i, tok i = .idle
  entered : ∀ e ∈ s.log, ∀ r, e.2.entered = some r → ∃ i, tok i = .resolving r
  ordered : s.log.Pairwise fun later earlier =>
    ∀ r, earlier.2.entered = some r → Token.may stateDir (.resolving r) later.2

/-- What a thread may do is allowed after the resolution another one has entered. -/
theorem ResolutionInv.may {tok : WatchdogThread → Token}
    {s : Pool (sysInterface β) Exc Unit (World β) WatchdogThread} (h : ResolutionInv stateDir tok s)
    {i j : WatchdogThread} {o : SysOp β} {r : Resolution} (ho : Token.may stateDir (tok i) o)
    (hj : tok j = .resolving r) : Token.may stateDir (.resolving r) o := by
  by_cases hi : tok i = .idle
  · rw [hi] at ho
    exact may_of_quiet ho r
  · obtain rfl := h.unique i j hi (by simp [hj])
    rwa [hj] at ho

/-- One operation of one thread keeps the invariant. -/
theorem ResolutionInv.perform {tok : WatchdogThread → Token}
    {s : Pool (sysInterface β) Exc Unit (World β) WatchdogThread} (h : ResolutionInv stateDir tok s)
    {i : WatchdogThread} {c : Choice β} {o : SysOp β} {k : o.Res → SysM β Unit}
    (hi : s.threads i = .call o k) :
    ∃ tok', ResolutionInv stateDir tok'
      (s.perform (fun _ => hostMachine host) i c o k) := by
  have hfollows := h.follows i
  rw [hi] at hfollows
  obtain ⟨hmay, hcont⟩ := hfollows
  -- The order of the record, whatever the tokens become.
  have hordered : (s.perform (fun _ => hostMachine host) i c o k).log.Pairwise
      fun later earlier => ∀ r, earlier.2.entered = some r →
        Token.may stateDir (.resolving r) later.2 := by
    refine List.pairwise_cons.mpr ⟨fun e he r hr => ?_, h.ordered⟩
    obtain ⟨j, hj⟩ := h.entered e he r hr
    exact h.may hmay hj
  -- A thread that keeps its token.
  have keep (hresolved : (exec host s.world o c).2.proc.resolved = false →
        s.world.proc.resolved = false)
      (hk : (resolutionProtocol β stateDir).Follows (tok i) (k (exec host s.world o c).1)
        fun _ _ => True) (hentered : o.entered = none) :
      ResolutionInv stateDir tok (s.perform (fun _ => hostMachine host) i c o k) := by
    refine ⟨?_, h.unique, fun hr => h.unresolved (hresolved hr), ?_, hordered⟩
    · have hthreads := Pool.follows_perform (M := fun _ => hostMachine host) (i := i)
        h.follows hk
      rwa [Function.update_eq_self] at hthreads
    · intro e he r hr
      rcases List.mem_cons.mp he with rfl | he
      · rw [hentered] at hr
        cases hr
      · exact h.entered e he r hr
  by_cases hclaim : o = .claimResolution
  · subst hclaim
    cases hres : s.world.proc.resolved with
    | true =>
      refine ⟨tok, keep (fun hr => Bool.noConfusion (show true = false from hr)) ?_ rfl⟩
      rw [show (exec host s.world .claimResolution c).1 = false from
        show (!s.world.proc.resolved) = false by simp [hres]]
      exact hcont false (by simp)
    | false =>
      -- The claim succeeds, and no other thread has a token.
      have hidle := h.unresolved hres
      have only {j : WatchdogThread} (hj : Function.update tok i .claimed j ≠ .idle) : j = i := by
        by_contra hne
        rw [Function.update_of_ne hne] at hj
        exact hj (hidle j)
      refine ⟨Function.update tok i .claimed, Pool.follows_perform h.follows ?_,
        fun j j' hj hj' => by rw [only hj, only hj'], fun hr => ?_, ?_, hordered⟩
      · rw [show ((hostMachine host).exec s.world .claimResolution c).1 = true from
          show (!s.world.proc.resolved) = true by simp [hres]]
        exact hcont true fun _ => hidle i
      · exact Bool.noConfusion (show true = false from hr)
      · intro e he r hr
        rcases List.mem_cons.mp he with rfl | he
        · cases hr
        · obtain ⟨j, hj⟩ := h.entered e he r hr
          rw [hidle j] at hj
          cases hj
  · have hresolved : (exec host s.world o c).2.proc.resolved = s.world.proc.resolved :=
      exec_resolved hclaim
    cases hentered : o.entered with
    | none =>
      refine ⟨tok, keep (fun hr => hresolved ▸ hr) ?_ hentered⟩
      cases o with
      | claimResolution => exact absurd rfl hclaim
      | enter r => cases hentered
      | _ => exact hcont _ trivial
    | some r =>
      -- The thread has claimed the resolution, and no other one has a token.
      obtain rfl : o = .enter r := by
        cases o with
        | enter r' => rw [Option.some.inj hentered]
        | _ => cases hentered
      have hclaimed : tok i = .claimed := by
        generalize tok i = t at hmay
        match t with
        | .idle => cases hmay
        | .claimed => rfl
        | .resolving .rollback => cases hmay.1
        | .resolving .confirm => cases hmay.1
        | .resolving .report => cases hmay.1
      have other {j : WatchdogThread} (hj : tok j ≠ .idle) : j = i :=
        h.unique j i hj (by simp [hclaimed])
      have only {j : WatchdogThread} (hj : Function.update tok i (.resolving r) j ≠ .idle) :
          j = i := by
        by_contra hne
        rw [Function.update_of_ne hne] at hj
        exact hne (other hj)
      refine ⟨Function.update tok i (.resolving r), Pool.follows_perform h.follows
        (hcont () trivial),
        fun j j' hj hj' => by rw [only hj, only hj'], fun hr => ?_, ?_, hordered⟩
      · have hidle := h.unresolved hr i
        rw [hclaimed] at hidle
        cases hidle
      · intro e he r' hr
        rcases List.mem_cons.mp he with rfl | he
        · exact ⟨i, by rw [Function.update_self, Option.some.inj hr]⟩
        · obtain ⟨j, hj⟩ := h.entered e he r' hr
          obtain rfl := other (j := j) (by simp [hj])
          rw [hclaimed] at hj
          cases hj

/-- The invariant holds at the start, whatever `resolved_` is. -/
theorem resolutionInv_start (wd : UpdateWatchdog) (events : List (ClientState × String))
    (w : World β) : ResolutionInv stateDir (fun _ => .idle)
      { threads := watchdogThreads wd events, world := w } where
  follows i := follows_watchdogThreads wd events i
  unique _ _ hi := absurd rfl hi
  unresolved _ _ := rfl
  entered _ he := absurd he List.not_mem_nil
  ordered := List.Pairwise.nil

/-- The run of the threads keeps the invariant. -/
theorem resolutionInv_run (stateDir : Path) (host : Host β) (wd : UpdateWatchdog)
    (events : List (ClientState × String))
    (w : World β) (ms : List (WatchdogThread × Choice β)) :
    ∃ tok, ResolutionInv stateDir tok (watchdogRun wd host events w ms) := by
  refine Pool.run_inv (P := fun _ _ => True) (J := fun s => ∃ tok, ResolutionInv stateDir tok s)
    ?_ ⟨_, resolutionInv_start wd events w⟩ (Pool.meets_of_forall (fun _ _ _ => trivial) _)
  rintro s i c o k ⟨tok, h⟩ - hi -
  exact h.perform hi

/-- A client state that is no rejection by the server makes the watchdog roll nothing back. -/
theorem allOps_onState {wd : UpdateWatchdog} {state : ClientState} {reason : String}
    (h : UpdateWatchdog.eventOf state reason ≠ .authFailed) :
    AllOps (fun o : SysOp β => o.entered ≠ some .rollback) (wd.onState state reason) := by
  -- A confirmation and a report enter their resolution first, and then write nothing.
  have enters {p : SysM β Unit} {r : Resolution} (hr : r ≠ .rollback)
      (hp : AllOps WritesNothing p) :
      AllOps (fun o : SysOp β => o.entered ≠ some .rollback) (enter r >>= fun _ => p) :=
    .bind (.single (by simpa [SysOp.entered] using hr)) fun _ =>
      hp.mono fun o ho => by simp [ho.2.1]
  unfold UpdateWatchdog.onState
  refine .ite (fun _ => trivial) fun _ => ?_
  dsimp only
  refine .ite (fun _ => ?_) fun hready => ?_
  · refine .bind (.single (by simp [SysOp.entered])) fun free => .ite (fun _ => trivial) fun _ => ?_
    refine .ite (fun _ => ?_) fun _ => .ite (fun _ => ?_) fun _ => trivial
    · obtain ⟨p, hp, hops⟩ := reportRolledBack_eq (β := β) wd
      rw [hp]
      exact .bind (enters (by simp) hops) fun _ => trivial
    · obtain ⟨p, hp, hops⟩ := confirm_eq (β := β) wd
      rw [hp]
      exact .bind (enters (by simp) hops) fun _ => trivial
  · refine .ite (fun _ => trivial) fun _ => .ite (fun hroll => ?_) fun _ => trivial
    -- Only a rejection by the server leads to the rollback.
    cases hev : UpdateWatchdog.eventOf state reason with
    | authFailed => exact absurd hev h
    | streamsReady => exact absurd hev hready
    | authFailedIo => rw [hev] at hroll; cases hroll
    | stateOther => rw [hev] at hroll; cases hroll
    | deadline => cases state <;> simp [UpdateWatchdog.eventOf] at hev; split at hev <;> cases hev

/-- Without a rejection by the server the io thread never enters `rollback`. -/
theorem allOps_ioThread (wd : UpdateWatchdog) (events : List (ClientState × String))
    (h : ∀ reason, (ClientState.authFailed, reason) ∈ events → reason = "io_error") :
    AllOps (fun o : SysOp β => o.entered ≠ some .rollback) (ioThread wd events) := by
  induction events generalizing wd with
  | nil => trivial
  | cons event events ih =>
    obtain ⟨state, reason⟩ := event
    have hevent : UpdateWatchdog.eventOf state reason ≠ .authFailed := by
      cases state with
      | authFailed =>
        rw [h reason List.mem_cons_self]
        decide
      | streamsReady => simp [UpdateWatchdog.eventOf]
      | other name => simp [UpdateWatchdog.eventOf]
    exact .bind (.tryCatch (allOps_onState hevent) fun _ => trivial) fun wd =>
      ih wd fun reason hr => h reason (List.mem_cons_of_mem _ hr)

/-- The destructor's `stop` after its first operation, in the form in which it is stepped
through. -/
private theorem stop_eq (wd : UpdateWatchdog) : (wd.stop : SysM β Unit) =
    setDeadlineStop >>= fun _ =>
      if wd.armed then joinDeadline >>= fun _ => unsubscribe else unsubscribe := rfl

/-- `stop` passes the join only after the deadline thread has ended. -/
theorem deadline_done_of_stop (wd : UpdateWatchdog) (events : List (ClientState × String))
    (w : World β) (ms : List (WatchdogThread × Choice β))
    (h : ((watchdogRun wd host events w ms).threads .stop).Done) :
    ((watchdogRun wd host events w ms).threads .deadline).Done := by
  let joins : SysM β Unit :=
    if wd.armed then joinDeadline >>= fun _ => unsubscribe else unsubscribe
  -- `stop` is at its first call, at the join, or past it; the join is ready only once the
  -- deadline thread has ended.
  have hrun : (wd.armed = false → ((watchdogRun wd host events w ms).threads .deadline).Done) ∧
      ((watchdogRun wd host events w ms).threads .stop = wd.stop ∨
        (watchdogRun wd host events w ms).threads .stop = joins ∨
        ((watchdogRun wd host events w ms).threads .deadline).Done) := by
    refine Pool.run_inv (s := { threads := watchdogThreads wd events, world := w })
      (P := fun _ _ => True)
      (J := fun s => (wd.armed = false → (s.threads .deadline).Done) ∧
        (s.threads .stop = wd.stop ∨ s.threads .stop = joins ∨ (s.threads .deadline).Done))
      ?_ ⟨fun harmed => ?_, .inl rfl⟩ (Pool.meets_of_forall (fun _ _ _ => trivial) _)
    · rintro s i c o k ⟨hunarmed, hstop⟩ - hi hready
      refine ⟨fun harmed => Pool.done_perform hi (hunarmed harmed), ?_⟩
      by_cases his : i = .stop
      · subst his
        rcases hstop with hstop | hstop | hdone
        · -- The flag is set, and the join comes next.
          rw [hi, stop_eq] at hstop
          obtain ⟨rfl, hk⟩ := Prog.call.inj hstop
          refine .inr (.inl ?_)
          rw [Pool.threads_perform_self, eq_of_heq hk]
          rfl
        · -- The join needs the deadline thread to have ended.
          refine .inr (.inr (Pool.done_perform hi ?_))
          cases harmed : wd.armed with
          | false => exact hunarmed harmed
          | true =>
            simp only [joins, harmed, if_true] at hstop
            rw [hi] at hstop
            obtain ⟨rfl, -⟩ := Prog.call.inj hstop
            exact hready
        · exact .inr (.inr (Pool.done_perform hi hdone))
      · rw [Pool.threads_perform_ne (Ne.symm his)]
        exact hstop.imp_right (.imp_right (Pool.done_perform hi))
    · show (if wd.armed then wd.deadlineLoop else .ret () : SysM β Unit).Done
      rw [harmed]
      trivial
  rcases hrun.2 with hstop | hstop | hdone
  · rw [hstop] at h
    exact h.elim
  · refine hrun.1 ?_
    cases harmed : wd.armed with
    | false => rfl
    | true =>
      rw [hstop] at h
      simp only [joins, harmed, if_true] at h
      exact h.elim
  · exact hdone

/-- In every interleaving of the io thread, the deadline thread and `stop`, at most one of
`confirm`, `rollback` and the report is entered. After a confirmation nothing is written or
renamed, after a rollback the marker is not removed, `stop` leaves no deadline thread behind,
and a transport error rolls nothing back. -/
theorem resolved_once (wd : UpdateWatchdog) (host : Host β) (events : List (ClientState × String))
    (w : World β) (ms : List (WatchdogThread × Choice β)) :
    ((watchdogRun wd host events w ms).log.Pairwise fun later earlier =>
      (earlier.2.entered.isSome → later.2.entered = none) ∧
      (earlier.2 = .enter .confirm → later.2.writes = false) ∧
      (earlier.2 = .enter .rollback → later.2 ≠ .remove wd.markerPath)) ∧
    (((watchdogRun wd host events w ms).threads .stop).Done →
      ((watchdogRun wd host events w ms).threads .deadline).Done) ∧
    ((∀ reason, (ClientState.authFailed, reason) ∈ events → reason = "io_error") →
      (.io, .enter .rollback) ∉ (watchdogRun wd host events w ms).log) := by
  refine ⟨?_, deadline_done_of_stop wd events w ms, fun hio hrollback => ?_⟩
  -- The invariant says of each event what may follow it.
  · obtain ⟨tok, hinv⟩ := resolutionInv_run wd.stateDir host wd events w ms
    refine hinv.ordered.imp fun {later earlier} hmay => ⟨fun hentered => ?_, ?_, ?_⟩
    · obtain ⟨r, hr⟩ := Option.isSome_iff_exists.mp hentered
      have hlater := hmay r hr
      cases r with
      | confirm => exact hlater.1
      | rollback => exact hlater.1
      | report => exact hlater.1
    · intro hconfirm
      exact (hmay .confirm (by rw [hconfirm]; rfl)).2
    · intro hrollback
      exact (hmay .rollback (by rw [hrollback]; rfl)).2
  · exact Pool.run_allOps ms (i := .io) (allOps_ioThread wd events hio)
      (by simp) _ hrollback rfl rfl

end Interleaving

end ThinrAgent
