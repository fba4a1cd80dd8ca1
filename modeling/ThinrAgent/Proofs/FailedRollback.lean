import ThinrAgent.Proofs.Runtime

/-!
# `ThinrAgent.Proofs.FailedRollback`: a rollback that fails uses up the resolution

A thread that rolls back has claimed the resolution of the trial before it tries. When the
backup is missing or cannot be renamed, `rollback` returns and the process goes on, but
`resolved_` stays set. So a later `STREAMS_READY` finds the resolution claimed and confirms
nothing: the marker stays where it was. `attemptProtocol` follows one thread through its attempt,
and `attemptInv_run` follows all threads. `failed_rollback_stays` is the consequence for every
interleaving.
-/

set_option autoImplicit false

namespace ThinrAgent

open Effects

/-- How far a thread has come with a rollback. In `restored` the old binary is in place, and the
process still has to be ended. -/
inductive Attempt where
  | idle
  | claimed
  | trying     -- in `rollback`, with the backup not renamed
  | restored   -- the backup is in place, and the signal is still to come
  | signalled
  | settled    -- in `confirm` or in the report
  deriving DecidableEq

namespace SysOp

variable {β : Type}

/-- The operations of a rollback up to the rename: the path of the binary, the look for the backup,
and the rename itself. -/
def tries : SysOp β → Bool
  | .readlinkExe | .exists _ | .rename _ _ => true
  | _ => false

/-- The operation ends the process with `SIGTERM`, as a rollback does that has worked. -/
def signals : SysOp β → Bool
  | .raiseSigterm => true
  | _ => false

end SysOp

namespace Attempt

variable {β : Type}

/-- What a thread may do: an operation on the files only behind the token, and the signal only after
the files are restored. -/
def may : Attempt → SysOp β → Prop
  | idle, o => o.quiet = true
  | claimed, o => o.quiet = true ∨ o.entered.isSome = true
  | trying, o => o.quiet = true ∨ o.tries = true
  | restored, o => o.onFiles = true ∨ o = .raiseSigterm
  | signalled, o => o.quiet = true
  | settled, o => o.entered = none

/-- The thread is rolling the update back, or has done so. -/
def rolls : Attempt → Bool
  | trying | restored | signalled => true
  | _ => false

/-- The thread has not changed the files yet, so that the marker and the backup are as they were. -/
def untouched : Attempt → Bool
  | idle | claimed | trying => true
  | _ => false

end Attempt

/-- A claim succeeds only for a thread that has none. A successful rename ends the attempt. -/
@[reducible] def attemptProtocol (β : Type) : Protocol (sysInterface β) where
  State := Attempt
  may := Attempt.may
  can t o := match o with
    | .claimResolution => fun (free : Bool) => free = true → t = .idle
    | _ => fun _ => True
  next t o := match o with
    | .claimResolution => fun (free : Bool) => if free then .claimed else t
    | .enter r => fun _ => if r = .rollback then .trying else .settled
    | .rename _ _ => fun (e : Option Errno) => if t = .trying ∧ e = none then .restored else t
    | .raiseSigterm => fun _ => if t = .restored then .signalled else t
    | _ => fun _ => t

/-- A thread that has restored the backup does not end before the signal. -/
def Attempt.Settled {α : Type} (t : Attempt) (_ : Except Exc α) : Prop := t ≠ .restored

section Discipline

variable {β : Type} (wd : UpdateWatchdog)

/-- An operation that is no step of the attempt. -/
theorem next_attempt {t : Attempt} {o : SysOp β} (r : o.Res) (ho : o.Neutral)
    (hsignal : t = .restored → o ≠ .raiseSigterm) (htries : t = .trying → o.tries = false) :
    (attemptProtocol β).next t o r = t := by
  cases o with
  | claimResolution => exact absurd rfl ho.1
  | enter r => cases ho.2
  | raiseSigterm => exact if_neg fun h => absurd rfl (hsignal h)
  | rename src dst =>
    refine if_neg fun h => ?_
    cases htries h.1
  | _ => rfl

/-- Code that takes no step of the attempt leaves it where it is. -/
theorem follows_attempt_of_allOps {α : Type} {t : Attempt} {ok : SysOp β → Prop} {p : SysM β α}
    (hok : ∀ o, ok o → t.may o ∧ o.Neutral ∧ (t = .restored → o ≠ .raiseSigterm) ∧
      (t = .trying → o.tries = false)) (h : AllOps ok p) :
    (attemptProtocol β).Follows t p fun t' _ => t' = t := by
  refine Protocol.follows_of_allOps (fun o ho => ?_) h
  obtain ⟨hmay, hneutral, hsignal, htries⟩ := hok o ho
  exact ⟨hmay, fun r _ => next_attempt r hneutral hsignal htries⟩

/-- `doRollback` restores the backup and returns `true`, or changes no file. -/
theorem follows_attempt_doRollback (dir : Path) (m : UpdateMarker) (reason : String) :
    (attemptProtocol β).Follows .trying (doRollback dir m reason) fun t r =>
      t = .restored ∧ r = .ok true ∨ t = .trying ∧ r ≠ .ok true := by
  have gone {r : Except Exc Bool} (hr : r ≠ .ok true) :
      Attempt.trying = .restored ∧ r = .ok true ∨ Attempt.trying = .trying ∧ r ≠ .ok true :=
    .inr ⟨rfl, hr⟩
  -- Once the backup is in place, nothing stops the function.
  have finish (install : Path) : (attemptProtocol β).Follows .restored
      (do fsyncDir (parentPath install)
          let at_ ← time
          let _ ← writeAtomic (revertedFile dir) (.json (m.reverted reason at_).toJson) 0o644
          let _ ← writeAtomic (stateFile dir) (.json m.done.toJson) 0o644
          return true : SysM β Bool) fun t r =>
        t = .restored ∧ r = .ok true ∨ t = .trying ∧ r ≠ .ok true := by
    have hwrite (path : Path) (content : Content β) : (attemptProtocol β).Follows .restored
        (writeAtomic path content 0o644) fun t r => t = .restored ∧ ∃ a, r = .ok a := by
      have hops : AllOps (KeepsMarker dir) (writeAtomic path content 0o644) := allOps_writeAtomic
      refine Protocol.Follows.value (follows_attempt_of_allOps (fun o ho => ?_)
        (hops.mono fun o ho => ho.1)) neverThrows_writeAtomic
      refine ⟨.inl ho, ⟨?_, ?_⟩, fun _ => ?_, nofun⟩
      · rintro rfl
        cases ho
      · cases o <;> first | rfl | cases ho
      · rintro rfl
        cases ho
    refine ⟨.inl rfl, fun _ _ => ⟨.inl rfl, fun at_ _ => ?_⟩⟩
    show (attemptProtocol β).Follows .restored
      (writeAtomic (revertedFile dir) (.json (m.reverted reason at_).toJson) 0o644 >>= fun _ =>
        writeAtomic (stateFile dir) (.json m.done.toJson) 0o644 >>= fun _ => .ret true) _
    refine .bind ((hwrite _ _).mono fun t r ⟨ht, a, hr⟩ => ?_)
    subst ht hr
    refine .bind ((hwrite _ _).mono fun t r ⟨ht, a, hr⟩ => ?_)
    subst ht hr
    exact .inl ⟨rfl, rfl⟩
  have attempt (install : Path) : (attemptProtocol β).Follows .trying
      (do if m.prevBinary = "" then return false
          if !(← fsExists m.prevBinary) then return false
          if (← fsRename m.prevBinary install).isSome then return false
          fsyncDir (parentPath install)
          let at_ ← time
          let _ ← writeAtomic (revertedFile dir) (.json (m.reverted reason at_).toJson) 0o644
          let _ ← writeAtomic (stateFile dir) (.json m.done.toJson) 0o644
          return true : SysM β Bool) fun t r =>
        t = .restored ∧ r = .ok true ∨ t = .trying ∧ r ≠ .ok true := by
    split
    · exact gone (by simp)
    · refine ⟨.inr rfl, fun found _ => ?_⟩
      match found with
      | none => exact gone (by simp)
      | some false => exact gone (by simp)
      | some true =>
        refine ⟨.inr rfl, fun failed _ => ?_⟩
        match failed with
        | some e => exact gone (by simp)
        | none => exact finish install
  unfold doRollback getCurrentBinaryPath
  refine ⟨.inr rfl, fun link _ => ?_⟩
  match link with
  | none => exact attempt "./thinr-agent"
  | some path => exact attempt path

/-- A thread that rolls back has tried at its end: the backup is in place and the signal was raised,
or nothing was restored. -/
theorem follows_attempt_rollback (reason : String) :
    (attemptProtocol β).Follows .claimed (wd.rollback reason) Attempt.Settled := by
  refine ⟨.inr rfl, fun _ _ => ⟨.inl rfl, fun _ _ => ?_⟩⟩
  show (attemptProtocol β).Follows .trying
    (doRollback wd.stateDir wd.marker reason >>= fun restored =>
      if restored then raiseSigterm else .ret ()) Attempt.Settled
  refine .bind ((follows_attempt_doRollback ..).mono fun t r h => ?_)
  match r, h with
  | .ok true, .inl ⟨ht, _⟩ =>
    subst ht
    exact ⟨.inr rfl, fun _ _ => nofun⟩
  | .ok false, .inr ⟨ht, _⟩ =>
    subst ht
    exact nofun
  | .error e, .inr ⟨ht, _⟩ =>
    subst ht
    exact nofun

/-- After its entry, a confirmation or a report takes no part in an attempt. -/
theorem follows_attempt_enter {r : Resolution} {p : SysM β Unit} (hr : r ≠ .rollback)
    (h : AllOps WritesNothing p) :
    (attemptProtocol β).Follows .claimed (enter r >>= fun _ => p) Attempt.Settled := by
  refine ⟨.inr rfl, fun _ _ => ?_⟩
  have hnext : (attemptProtocol β).next .claimed (.enter r) () = .settled := if_neg hr
  rw [hnext]
  refine (follows_attempt_of_allOps (t := .settled) (fun o ho => ?_) h).mono ?_
  · exact ⟨ho.2.1, ho.1, nofun, nofun⟩
  · rintro t _ rfl
    exact nofun

/-- A claim: it succeeds for an idle thread only. -/
theorem follows_attempt_claim {α : Type} {t : Attempt} {k : Bool → SysM β α}
    {Q : Attempt → Except Exc α → Prop} (ht : t ≠ .restored)
    (hfree : (attemptProtocol β).Follows .claimed (k true) Q)
    (htaken : (attemptProtocol β).Follows t (k false) Q) :
    (attemptProtocol β).Follows t (claimResolution >>= k) Q := by
  refine ⟨?_, fun free _ => ?_⟩
  · match t with
    | .idle => rfl
    | .claimed => exact .inl rfl
    | .trying => exact .inl rfl
    | .restored => exact absurd rfl ht
    | .signalled => rfl
    | .settled => rfl
  · cases free with
    | true => exact hfree
    | false => exact htaken

/-- A function that resolves the trial, with the members returned after it. -/
theorem follows_attempt_then {α γ : Type} {t : Attempt} {p : SysM β α} {f : α → SysM β γ}
    (hp : (attemptProtocol β).Follows t p Attempt.Settled)
    (hf : ∀ t a, t ≠ .restored → (attemptProtocol β).Follows t (f a) Attempt.Settled) :
    (attemptProtocol β).Follows t (p >>= f) Attempt.Settled := by
  refine .bind (hp.mono fun t r ht => ?_)
  cases r with
  | ok a => exact hf t a ht
  | error e => exact ht

/-- The delivery of a client state keeps to the protocol of an attempt and ends settled, unless the
files are restored already. -/
theorem follows_attempt_onState {t : Attempt} (ht : t ≠ .restored) (state : ClientState)
    (reason : String) :
    (attemptProtocol β).Follows t (wd.onState state reason) Attempt.Settled := by
  rw [UpdateWatchdog.onState_eq]
  split
  · split
    · obtain ⟨p, hp, hops⟩ := reportRolledBack_eq (β := β) wd
      refine follows_attempt_claim ht (follows_attempt_then ?_ fun _ _ ht => ht) ht
      rw [hp]
      exact follows_attempt_enter (by simp) hops
    · split
      · obtain ⟨p, hp, hops⟩ := confirm_eq (β := β) wd
        refine follows_attempt_claim ht (follows_attempt_then ?_ fun _ _ ht => ht) ht
        rw [hp]
        exact follows_attempt_enter (by simp) hops
      · exact ht
  · split
    · exact follows_attempt_claim ht
        (follows_attempt_then (follows_attempt_rollback wd _) fun _ _ ht => ht) ht
    · exact ht

/-- The io thread makes at most one attempt, whatever states the client goes through. -/
theorem follows_attempt_ioThread {t : Attempt} (ht : t ≠ .restored)
    (events : List (ClientState × String)) :
    (attemptProtocol β).Follows t (ioThread wd events) Attempt.Settled := by
  induction events generalizing wd t with
  | nil => exact ht
  | cons event events ih =>
    refine follows_attempt_then (.tryCatch ?_) fun t wd ht => ih wd ht
    refine (follows_attempt_onState wd ht _ _).mono fun t r ht => ?_
    cases r <;> exact ht

/-- Each thread of the watchdog makes at most one attempt, whatever states are delivered to it. -/
theorem follows_attempt_threads (events : List (ClientState × String)) (i : WatchdogThread) :
    (attemptProtocol β).Follows .idle (watchdogThreads wd events i) Attempt.Settled := by
  cases i with
  | io => exact follows_attempt_ioThread (t := .idle) wd nofun events
  | deadline =>
    show (attemptProtocol β).Follows .idle (if wd.armed then wd.deadlineLoop else .ret ()) _
    split
    · refine ⟨rfl, fun stop _ => ?_⟩
      cases stop with
      | true => exact nofun
      | false => exact follows_attempt_claim nofun (follows_attempt_rollback wd _) nofun
    · exact nofun
  | stop =>
    refine ⟨rfl, fun _ _ => ?_⟩
    show (attemptProtocol β).Follows .idle
      (if wd.armed then joinDeadline >>= fun _ => unsubscribe else unsubscribe) _
    split
    · exact ⟨rfl, fun _ _ => ⟨rfl, fun _ _ => nofun⟩⟩
    · exact ⟨rfl, fun _ _ => nofun⟩

end Discipline

/-! ### Every interleaving -/

section Interleaving

variable {β : Type} {host : Host β}

/-- What one operation does to an attempt, and to the files while they are untouched. -/
inductive Attempt.Step (host : Host β) (w : World β) (o : SysOp β) (c : Choice β) :
    Attempt → Attempt → Prop where
  | claim (ho : o = .claimResolution) (hfree : w.proc.resolved = false) :
      Step host w o c .idle .claimed
  | roll (ho : o = .enter .rollback) : Step host w o c .claimed .trying
  | settle (r : Resolution) (ho : o = .enter r) (hr : r ≠ .rollback) :
      Step host w o c .claimed .settled
  | restore : Step host w o c .trying .restored
  | signal (ho : o = .raiseSigterm) : Step host w o c .restored .signalled
  | stay (t : Attempt) (hentered : o.entered = none)
      (hsame : t.untouched = true → w.SameFiles (exec host w o c).2) : Step host w o c t t

/-- A quiet operation other than a claim is no part of an attempt. -/
private theorem neutral_of_quiet {o : SysOp β} (hq : o.quiet = true) (hc : o ≠ .claimResolution) :
    o.Neutral ∧ o ≠ .raiseSigterm ∧ o.tries = false := by
  cases o <;> first
    | (cases hq; done)
    | exact absurd rfl hc
    | exact ⟨⟨by simp, rfl⟩, by simp, rfl⟩

/-- One operation that a thread may do is a step of its attempt. -/
theorem attempt_step (host : Host β) {w : World β} {t : Attempt} {o : SysOp β} (c : Choice β)
    (hmay : t.may o)
    (hidle : o = .claimResolution → w.proc.resolved = false → t = .idle) :
    Attempt.Step host w o c t ((attemptProtocol β).next t o (exec host w o c).1) := by
  -- Synchronisation leaves the files alone.
  have quiet (hq : o.quiet = true) (hc : o ≠ .claimResolution) :
      Attempt.Step host w o c t ((attemptProtocol β).next t o (exec host w o c).1) := by
    obtain ⟨hneutral, hsignal, htries⟩ := neutral_of_quiet hq hc
    rw [next_attempt _ hneutral (fun _ => hsignal) fun _ => htries]
    exact .stay t hneutral.2 fun _ => exec_sameFiles_of_quiet host c hq
  by_cases hc : o = .claimResolution
  · subst hc
    cases hres : w.proc.resolved with
    | false =>
      obtain rfl := hidle rfl hres
      rw [show (exec host w .claimResolution c).1 = true from
        show (!w.proc.resolved) = true by simp [hres]]
      exact .claim rfl hres
    | true =>
      rw [show (exec host w .claimResolution c).1 = false from
        show (!w.proc.resolved) = false by simp [hres]]
      exact .stay t rfl fun _ => exec_sameFiles_of_quiet host c rfl
  · cases t with
    | idle => exact quiet hmay hc
    | signalled => exact quiet hmay hc
    | claimed =>
      rcases hmay with hq | hentered
      · exact quiet hq hc
      · cases o with
        | enter r =>
          by_cases hr : r = .rollback
          · subst hr
            exact .roll rfl
          · rw [show (attemptProtocol β).next .claimed (.enter r) () = .settled from if_neg hr]
            exact .settle r rfl hr
        | _ => cases hentered
    | trying =>
      rcases hmay with hq | htries
      · exact quiet hq hc
      · cases o with
        | readlinkExe => exact .stay _ rfl fun _ => World.SameFiles.refl w
        | «exists» p => exact .stay _ rfl fun _ => World.SameFiles.refl w
        | rename src dst =>
          cases hres : (exec host w (.rename src dst) c).1 with
          | none => exact .restore
          | some e =>
            -- A rename that fails has changed nothing.
            refine .stay _ rfl fun _ => ?_
            have hsame : (exec host w (.rename src dst) c).2 = w := by
              simp only [exec] at hres ⊢
              split
              · rfl
              · split
                · rfl
                · simp_all
            rw [hsame]
            exact World.SameFiles.refl w
        | _ => cases htries
    | restored =>
      rcases hmay with hfiles | rfl
      · have hneutral : o.Neutral ∧ o ≠ .raiseSigterm := by
          cases o <;> first
            | (cases hfiles; done)
            | exact ⟨⟨by simp, rfl⟩, by simp⟩
        rw [next_attempt (t := .restored) _ hneutral.1 (fun _ => hneutral.2) fun h => by cases h]
        exact .stay _ hneutral.1.2 fun h => by cases h
      · exact .signal rfl
    | settled =>
      rw [next_attempt (t := .settled) _ ⟨hc, hmay⟩ (fun h => by cases h) fun h => by cases h]
      exact .stay _ hmay fun h => by cases h

/-- The threads with the attempts `tok`, in a run from the world `w`: at most one has claimed the
resolution, and while none has renamed the backup or settled the trial the files are those of
`w`. -/
structure AttemptInv (w : World β) (tok : WatchdogThread → Attempt)
    (s : Pool (sysInterface β) Exc Unit (World β) WatchdogThread) : Prop where
  follows : ∀ i, (attemptProtocol β).Follows (tok i) (s.threads i) Attempt.Settled
  unique : ∀ i j, tok i ≠ .idle → tok j ≠ .idle → i = j
  unresolved : s.world.proc.resolved = false → ∀ i, tok i = .idle
  rolls : ∀ e ∈ s.log, e.2 = .enter .rollback → (tok e.1).rolls = true
  settled : ∀ e ∈ s.log, ∀ r, e.2 = .enter r → r ≠ .rollback → tok e.1 = .settled
  signalled : ∀ i, tok i = .signalled → ∃ e ∈ s.log, e.2 = .raiseSigterm
  same : (∀ i, (tok i).untouched = true) → w.SameFiles s.world

namespace Attempt.Step

variable {w : World β} {o : SysOp β} {c : Choice β} {t t' : Attempt}

/-- A thread that rolls back goes on rolling back. -/
theorem rolls (h : Attempt.Step host w o c t t') (ht : t.rolls = true) : t'.rolls = true := by
  cases h <;> first | rfl | exact ht

/-- A thread that has settled stays so, whatever it does afterwards. -/
theorem settled (h : Attempt.Step host w o c t t') (ht : t = .settled) : t' = .settled := by
  subst ht
  cases h
  rfl

/-- A thread that has not changed the files had not changed them before. -/
theorem untouched (h : Attempt.Step host w o c t t') (ht : t'.untouched = true) :
    t.untouched = true := by
  cases h <;> first | rfl | exact ht

/-- A thread has raised the signal in this step or in an earlier one. -/
theorem signalled (h : Attempt.Step host w o c t t') (ht : t' = .signalled) :
    o = .raiseSigterm ∨ t = .signalled := by
  cases h with
  | signal ho => exact .inl ho
  | stay t => exact .inr ht
  | claim => cases ht
  | roll => cases ht
  | settle => cases ht
  | restore => cases ht

/-- A thread stops being idle by a claim only. -/
theorem ne_idle (h : Attempt.Step host w o c t t') (ht : t' ≠ .idle) :
    t ≠ .idle ∨ o = .claimResolution ∧ w.proc.resolved = false := by
  cases h with
  | claim ho hfree => exact .inr ⟨ho, hfree⟩
  | stay t => exact .inl ht
  | roll => exact .inl nofun
  | settle => exact .inl nofun
  | restore => exact .inl nofun
  | signal => exact .inl nofun

/-- In a step after which the thread has still changed nothing, the files stay the same. -/
theorem sameFiles (h : Attempt.Step host w o c t t') (ht : t'.untouched = true) :
    w.SameFiles (exec host w o c).2 := by
  cases h with
  | claim ho =>
    subst ho
    exact exec_sameFiles_of_keeps host c rfl
  | roll ho =>
    subst ho
    exact exec_sameFiles_of_keeps host c rfl
  | settle => cases ht
  | restore => cases ht
  | signal => cases ht
  | stay t _ hsame => exact hsame ht

end Attempt.Step

/-- One operation of one thread keeps the invariant. -/
theorem AttemptInv.perform {w : World β} {tok : WatchdogThread → Attempt}
    {s : Pool (sysInterface β) Exc Unit (World β) WatchdogThread} (h : AttemptInv w tok s)
    {i : WatchdogThread} {c : Choice β} {o : SysOp β} {k : o.Res → SysM β Unit}
    (hi : s.threads i = .call o k) :
    ∃ tok', AttemptInv w tok' (s.perform (fun _ => hostMachine host) i c o k) := by
  have hfollows := h.follows i
  rw [hi] at hfollows
  obtain ⟨hmay, hcont⟩ := hfollows
  have hidle : o = .claimResolution → s.world.proc.resolved = false → tok i = .idle :=
    fun _ hres => h.unresolved hres i
  have hstep := attempt_step host c hmay hidle
  have hcan : (attemptProtocol β).can (tok i) o (exec host s.world o c).1 := by
    cases o with
    | claimResolution =>
      intro hfree
      exact h.unresolved (by simpa [exec] using hfree) i
    | _ => trivial
  generalize ht' : (attemptProtocol β).next (tok i) o (exec host s.world o c).1 = t' at hstep
  have hk := hcont _ hcan
  rw [ht'] at hk
  have hself : Function.update tok i t' i = t' := Function.update_self ..
  have hother {j : WatchdogThread} (hj : j ≠ i) : Function.update tok i t' j = tok j :=
    Function.update_of_ne hj ..
  -- A thread that is not idle was not, or is the one whose claim succeeds now.
  have hactive {j : WatchdogThread} (hj : Function.update tok i t' j ≠ .idle) :
      tok j ≠ .idle ∨ j = i ∧ ∀ j', tok j' = .idle := by
    by_cases hji : j = i
    · subst hji
      rw [hself] at hj
      exact (hstep.ne_idle hj).imp_right fun hclaims => ⟨rfl, h.unresolved hclaims.2⟩
    · rw [hother hji] at hj
      exact .inl hj
  refine ⟨Function.update tok i t', Pool.follows_perform h.follows hk, fun j j' hj hj' => ?_,
    fun hres => ?_, fun e he hroll => ?_, fun e he r hr hne => ?_, fun j hj => ?_, fun hall => ?_⟩
  · rcases hactive hj with hold | ⟨hji, hall⟩ <;> rcases hactive hj' with hold' | ⟨hji', hall'⟩
    · exact h.unique j j' hold hold'
    · exact absurd (hall' j) hold
    · exact absurd (hall j') hold'
    · rw [hji, hji']
  · have hclaim : o ≠ .claimResolution := by
      rintro rfl
      exact Bool.noConfusion (show true = false from hres)
    have hres' : s.world.proc.resolved = false := (exec_resolved hclaim).symm.trans hres
    intro j
    by_contra hj
    rcases hactive hj with hj | ⟨rfl, -⟩
    · exact hj (h.unresolved hres' j)
    · rw [hself] at hj
      rcases hstep.ne_idle hj with hj | ⟨ho, -⟩
      · exact hj (h.unresolved hres' j)
      · exact hclaim ho
  · rcases List.mem_cons.mp he with rfl | he
    · obtain rfl : o = .enter .rollback := hroll
      rw [hself, ← ht']
      rfl
    · have hold := h.rolls e he hroll
      by_cases hei : e.1 = i
      · rw [hei] at hold ⊢
        rw [hself]
        exact hstep.rolls hold
      · rwa [hother hei]
  · rcases List.mem_cons.mp he with rfl | he
    · obtain rfl : o = .enter r := hr
      rw [hself, ← ht']
      exact if_neg hne
    · have hold := h.settled e he r hr hne
      by_cases hei : e.1 = i
      · rw [hei] at hold ⊢
        rw [hself]
        exact hstep.settled hold
      · rwa [hother hei]
  · by_cases hji : j = i
    · subst hji
      rw [hself] at hj
      rcases hstep.signalled hj with ho | hold
      · exact ⟨_, List.mem_cons_self, ho⟩
      · obtain ⟨e, he, hsignal⟩ := h.signalled j hold
        exact ⟨e, List.mem_cons_of_mem _ he, hsignal⟩
    · rw [hother hji] at hj
      obtain ⟨e, he, hsignal⟩ := h.signalled j hj
      exact ⟨e, List.mem_cons_of_mem _ he, hsignal⟩
  · have hnow := hall i
    rw [hself] at hnow
    refine (h.same fun j => ?_).trans (hstep.sameFiles hnow)
    by_cases hji : j = i
    · rw [hji]
      exact hstep.untouched hnow
    · have := hall j
      rwa [hother hji] at this

/-- The run of the threads keeps the invariant. -/
theorem attemptInv_run (host : Host β) (wd : UpdateWatchdog)
    (events : List (ClientState × String)) (w : World β) (ms : List (WatchdogThread × Choice β)) :
    ∃ tok, AttemptInv w tok (watchdogRun wd host events w ms) := by
  refine Pool.run_inv (P := fun _ _ => True) (J := fun s => ∃ tok, AttemptInv w tok s)
    ?_ ⟨fun _ => .idle, ?_⟩ (Pool.meets_of_forall (fun _ _ _ => trivial) _)
  · rintro s i c o k ⟨tok, h⟩ - hi -
    exact h.perform hi
  · exact { follows := follows_attempt_threads wd events
            unique := fun _ _ hi => absurd rfl hi
            unresolved := fun _ _ => rfl
            rolls := fun _ he => absurd he List.not_mem_nil
            settled := fun _ he => absurd he List.not_mem_nil
            signalled := nofun
            same := fun _ => World.SameFiles.refl w }

/-- A rollback of the run has come to its end without a signal to the process: it did not
restore the backup. -/
def RollbackFailed (s : Pool (sysInterface β) Exc Unit (World β) WatchdogThread) : Prop :=
  (∃ e ∈ s.log, e.2.entered = some .rollback ∧ (s.threads e.1).Done) ∧
    ∀ e ∈ s.log, e.2.signals = false

instance (s : Pool (sysInterface β) Exc Unit (World β) WatchdogThread) :
    Decidable (RollbackFailed s) := by
  unfold RollbackFailed
  infer_instance

/-- A thread that has ended meets the condition on its end. -/
private theorem ne_restored_of_done {t : Attempt} {p : SysM β Unit}
    (h : (attemptProtocol β).Follows t p Attempt.Settled) (hdone : p.Done) : t ≠ .restored := by
  cases p with
  | ret a => exact h
  | throw e => exact h
  | call o k => exact hdone.elim

/-- After a failed rollback no thread has touched the files, and none has confirmed. -/
theorem untouched_of_failed {w : World β} {tok : WatchdogThread → Attempt}
    {s : Pool (sysInterface β) Exc Unit (World β) WatchdogThread} (h : AttemptInv w tok s)
    (hfailed : RollbackFailed s) :
    w.SameFiles s.world ∧ ∀ e ∈ s.log, e.2.entered ≠ some .confirm := by
  obtain ⟨⟨e, he, hroll, hdone⟩, hquiet⟩ := hfailed
  have henter {e : WatchdogThread × SysOp β} {r : Resolution} (hr : e.2.entered = some r) :
      e.2 = .enter r := by
    obtain ⟨i, o⟩ := e
    cases o with
    | enter r' => exact congrArg SysOp.enter (Option.some.inj hr)
    | _ => cases hr
  have hrolls := h.rolls e he (henter hroll)
  have htrying : tok e.1 = .trying := by
    have hrestored := ne_restored_of_done (h.follows e.1) hdone
    have hsignalled : tok e.1 ≠ .signalled := fun hsig => by
      obtain ⟨e', he', hraise⟩ := h.signalled e.1 hsig
      have := hquiet e' he'
      rw [hraise] at this
      cases this
    generalize tok e.1 = t at hrolls hrestored hsignalled
    match t with
    | .trying => rfl
    | .restored => exact absurd rfl hrestored
    | .signalled => exact absurd rfl hsignalled
    | .idle => cases hrolls
    | .claimed => cases hrolls
    | .settled => cases hrolls
  -- No other thread has claimed anything.
  have hidle {j : WatchdogThread} (hj : j ≠ e.1) : tok j = .idle := by
    by_contra hne
    exact hj (h.unique j e.1 hne (by simp [htrying]))
  constructor
  · refine h.same fun j => ?_
    by_cases hj : j = e.1
    · rw [hj, htrying]
      rfl
    · rw [hidle hj]
      rfl
  · intro e' he' hconfirm
    have hsettled := h.settled e' he' .confirm (henter hconfirm) (by simp)
    by_cases hj : e'.1 = e.1
    · rw [hj, htrying] at hsettled
      cases hsettled
    · rw [hidle hj] at hsettled
      cases hsettled

/-- An update is refused while the marker is there. -/
theorem applyGuarded_refused {A : SysOp β → Choice β → Prop} {w : World β} (build : Build)
    {req : ApplyRequest} (hmarker : (w.files (stateFile req.stateDir)).isSome = true)
    (hA : ¬ CanFail A (.exists (stateFile req.stateDir))) :
    cwp (hostMachine host) A (fun _ => True) (applyGuarded host build req)
      (fun r _ => ∃ res, r = .ok res ∧ res.st = .error ∧ res.reason = "restart_pending") w := by
  unfold applyGuarded
  refine wp_fsExists trivial ?_ fun hf => absurd hf hA
  rw [if_pos hmarker]
  exact ⟨trivial, _, rfl, rfl, rfl⟩

/-- After a failed rollback the trial is never confirmed in the process. Whatever states the
client reaches, among them `STREAMS_READY`, every file stays as it was: the marker is still
there, and an update is refused. -/
theorem failed_rollback_stays (host : Host β) (wd : UpdateWatchdog)
    (events : List (ClientState × String)) (w : World β) (ms : List (WatchdogThread × Choice β))
    (hmarker : (w.files wd.markerPath).isSome = true)
    (hfailed : RollbackFailed (watchdogRun wd host events w ms)) :
    ((watchdogRun wd host events w ms).world.files wd.markerPath).isSome = true ∧
    (∀ p, (watchdogRun wd host events w ms).world.files p = w.files p) ∧
    (∀ e ∈ (watchdogRun wd host events w ms).log, e.2.entered ≠ some .confirm) ∧
    ∀ A build req, req.stateDir = wd.stateDir → ¬ CanFail A (.exists wd.markerPath) →
      cwp (hostMachine host) A (fun _ => True) (applyGuarded host build req)
        (fun r _ => ∃ res, r = .ok res ∧ res.st = .error ∧ res.reason = "restart_pending")
        (watchdogRun wd host events w ms).world := by
  obtain ⟨tok, hinv⟩ := attemptInv_run host wd events w ms
  obtain ⟨⟨r, d, hsame⟩, hconfirm⟩ := untouched_of_failed hinv hfailed
  have hfiles (p : Path) : (watchdogRun wd host events w ms).world.files p = w.files p := by
    rw [hsame]
    rfl
  have hstill : ((watchdogRun wd host events w ms).world.files wd.markerPath).isSome = true := by
    rw [hfiles]
    exact hmarker
  refine ⟨hstill, hfiles, hconfirm, fun A build req hdir hA => ?_⟩
  have hpath : stateFile req.stateDir = wd.markerPath := by rw [hdir, UpdateWatchdog.markerPath]
  exact applyGuarded_refused build (by rwa [hpath]) (by rwa [hpath])

end Interleaving

/-- The watchdog of the binary 2 on trial. -/
def sampleWatchdog : UpdateWatchdog :=
  .ofMarker Layout.system.stateDir "2" (some sampleMarker)

/-- The deadline passes and the rename of the backup fails. Then the streams are ready. -/
def sampleFailure : List (WatchdogThread × Choice Nat) :=
  List.replicate 6 (.deadline, .ok) ++ [(.deadline, .fail (.other 30) none), (.io, .ok)]

/-- The rollback of the sample fails, and the marker is still there after the streams are ready. -/
theorem failed_rollback_stays_sample :
    ((watchdogRun sampleWatchdog sampleHost [(.streamsReady, "")]
      (sampleTrial Layout.system.install) sampleFailure).world.files
        sampleWatchdog.markerPath).isSome = true :=
  (failed_rollback_stays sampleHost sampleWatchdog [(.streamsReady, "")]
    (sampleTrial Layout.system.install) sampleFailure (by decide +kernel) (by decide +kernel)).1

/-- A run that delivers `STREAMS_READY` after a failed rollback, with the marker left behind. -/
theorem not_confirmed_sample :
    RollbackFailed (watchdogRun sampleWatchdog sampleHost [(.streamsReady, "")]
      (sampleTrial Layout.system.install) sampleFailure) ∧
    ((watchdogRun sampleWatchdog sampleHost [(.streamsReady, "")]
      (sampleTrial Layout.system.install) sampleFailure).threads .io).Done ∧
    ((watchdogRun sampleWatchdog sampleHost [(.streamsReady, "")]
      (sampleTrial Layout.system.install) sampleFailure).world.files
        sampleWatchdog.markerPath).isSome = true := by
  decide +kernel

end ThinrAgent
