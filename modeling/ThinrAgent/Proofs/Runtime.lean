import ThinrAgent.Proofs.Resolution
import ThinrAgent.Proofs.RollbackTarget

/-!
# `ThinrAgent.Proofs.Runtime`: the files while the threads of a watchdog run

The threads share two flags besides the files. `World.SameFiles` relates two worlds that differ
in the flags only. A thread that has claimed the resolution and rolls back is not disturbed by
the others, which change the flags only. So the interleaved rollback has the effect of the
sequential one (`watchdogRun_armed`). A watchdog that is not armed removes the marker at most
(`watchdogRun_unarmed`).
-/

set_option autoImplicit false

namespace ThinrAgent

open Effects

section Flags

variable {β : Type} {host : Host β} {w w' w'' : World β}

/-- The world with other values of the flags the threads of the process share. -/
def World.setFlags (w : World β) (resolved stop : Bool) : World β :=
  { w with proc := { w.proc with resolved := resolved, deadlineStop := stop } }

/-- The flags of the threads are no part of the files. -/
@[simp] theorem World.files_setFlags (r d : Bool) : (w.setFlags r d).files = w.files := rfl

/-- A rename does not look at the flags, so it may be done before or after they are set. -/
theorem World.rename_setFlags (r d : Bool) (src dst : Path) :
    (w.setFlags r d).rename src dst = (w.rename src dst).setFlags r d := by
  unfold World.rename
  split <;> rfl

/-- The two worlds differ at most in the flags that the threads of a process share. -/
def World.SameFiles (w w' : World β) : Prop := ∃ r d, w' = w.setFlags r d

/-- A world has its own files, and what a process holds in memory does not matter. -/
theorem World.SameFiles.refl (w : World β) : w.SameFiles w := ⟨_, _, rfl⟩

/-- What differs in the flags twice differs in the flags. -/
theorem World.SameFiles.trans (h : w.SameFiles w') (h' : w'.SameFiles w'') : w.SameFiles w'' := by
  obtain ⟨r, d, rfl⟩ := h
  obtain ⟨r', d', rfl⟩ := h'
  exact ⟨r', d', rfl⟩

/-- The operations that read or write a shared flag. -/
def SysOp.shares : SysOp β → Bool
  | claimResolution | setDeadlineStop | waitDeadline => true
  | _ => false

/-- An operation that does not share the flags does not depend on them. -/
theorem exec_setFlags {o : SysOp β} (c : Choice β) (r d : Bool) (ho : o.shares = false) :
    exec host (w.setFlags r d) o c =
      ((exec host w o c).1, (exec host w o c).2.setFlags r d) := by
  cases o with
  | claimResolution => cases ho
  | setDeadlineStop => cases ho
  | waitDeadline => cases ho
  | rename src dst =>
    simp only [exec, World.files_setFlags, World.rename_setFlags]
    cases c.error with
    | some e => rfl
    | none => by_cases h : (w.files src).isNone = true <;> simp only [h] <;> rfl
  | remove p =>
    simp only [exec, World.files_setFlags]
    cases c.error with
    | some e => rfl
    | none => by_cases h : (w.files p).isSome = true <;> simp only [h] <;> rfl
  | _ =>
    simp only [exec, World.files_setFlags]
    repeat' split
    all_goals rfl

/-- An operation that reads no flag does the same in two worlds that differ in the flags. -/
theorem exec_sameFiles (host : Host β) {o : SysOp β} (c : Choice β) (h : w.SameFiles w')
    (hc : o ≠ .claimResolution) (hd : o ≠ .waitDeadline) :
    (exec host w' o c).1 = (exec host w o c).1 ∧
      (exec host w o c).2.SameFiles (exec host w' o c).2 := by
  obtain ⟨r, d, rfl⟩ := h
  by_cases hs : o = .setDeadlineStop
  · subst hs
    exact ⟨rfl, r, true, rfl⟩
  · have ho : o.shares = false := by
      cases o <;> first
        | rfl
        | exact absurd rfl hc
        | exact absurd rfl hd
        | exact absurd rfl hs
    rw [exec_setFlags c r d ho]
    exact ⟨rfl, r, d, rfl⟩

/-- The operations of the watchdog that change no file. -/
def SysOp.keepsFiles : SysOp β → Bool
  | enter _ => true
  | o => o.quiet || o.tells

/-- An operation that keeps the files changes nothing but the flags, whatever its answer. -/
theorem exec_sameFiles_of_keeps (host : Host β) {o : SysOp β} (c : Choice β)
    (ho : o.keepsFiles = true) :
    w.SameFiles (exec host w o c).2 := by
  cases o <;> first
    | (cases ho; done)
    | exact ⟨_, _, rfl⟩

/-- An operation that only synchronises changes no file. -/
theorem exec_sameFiles_of_quiet (host : Host β) {o : SysOp β} (c : Choice β) (ho : o.quiet = true) :
    w.SameFiles (exec host w o c).2 := by
  refine exec_sameFiles_of_keeps host c ?_
  cases o <;> first
    | (cases ho; done)
    | rfl

end Flags

/-! ### A rollback among the other threads -/

/-- The result that hands the resolution to a thread. -/
def SysOp.wins {β : Type} : (o : SysOp β) → o.Res → Prop
  | .claimResolution, free => free = true
  | _, _ => False

section Rolls

variable {β : Type} (host : Host β) (A : SysOp β → Choice β → Prop) (fin : World β → Prop)

/-- The thread only synchronises, until a claim of it succeeds and `G` holds of the rest. -/
abbrev Waits {α : Type} (G : SysM β α → Prop) (R : α → Prop) : SysM β α → Prop :=
  Until (fun o : SysOp β => o.quiet = true) SysOp.wins G R

/-- Against the answers `A` the thread comes to raise the signal in a world with `fin`, and from
then on waits. On the way it reads no shared flag. -/
def Rolls {α : Type} (R : α → Prop) : SysM β α → World β → Prop
  | .ret _, _ => False
  | .throw _, _ => False
  | .call o k, w =>
    o = .raiseSigterm ∧ fin w ∧ (∀ r, Waits (fun _ => True) R (k r)) ∨
      o ≠ .raiseSigterm ∧ o ≠ .claimResolution ∧ o ≠ .waitDeadline ∧
        ∀ c, A o c → Rolls R (k (exec host w o c).1) (exec host w o c).2

variable {host A fin} {α γ : Type}

/-- The other threads, which change no file, do not disturb a rollback on its way. -/
theorem Rolls.of_sameFiles {R : α → Prop} {p : SysM β α} {w w' : World β}
    (hfin : ∀ w w', w.SameFiles w' → fin w → fin w') (h : Rolls host A fin R p w)
    (hw : w.SameFiles w') : Rolls host A fin R p w' := by
  induction p generalizing w w' with
  | ret a => exact h
  | throw e => exact h
  | call o k ih =>
    rcases h with ⟨ho, hf, hk⟩ | ⟨ho, hc, hd, hk⟩
    · exact .inl ⟨ho, hfin _ _ hw hf, hk⟩
    · refine .inr ⟨ho, hc, hd, fun c he => ?_⟩
      obtain ⟨hres, hsame⟩ := exec_sameFiles host c hw hc hd
      rw [hres]
      exact ih _ (hk c he) hsame

/-- A thread that rolls back goes on after the signal as its continuation does, and this has to
wait. -/
theorem Rolls.bind {R : α → Prop} {R' : γ → Prop} {p : SysM β α} {f : α → SysM β γ} {w : World β}
    (h : Rolls host A fin R p w) (hf : ∀ a, R a → Waits (fun _ => True) R' (f a)) :
    Rolls host A fin R' (p >>= f) w := by
  induction p generalizing w with
  | ret a => exact h.elim
  | throw e => exact h.elim
  | call o k ih =>
    rcases h with ⟨ho, hfin, hk⟩ | ⟨ho, hc, hd, hk⟩
    · exact .inl ⟨ho, hfin, fun r => (hk r).bind (fun _ _ => trivial) hf⟩
    · exact .inr ⟨ho, hc, hd, fun c he => ih _ (hk c he)⟩

/-- A thread that rolls back under a handler: what the handler does comes after the signal or not at
all, and has to wait. -/
theorem Rolls.tryCatch {R : α → Prop} {p : SysM β α} {f : Exc → SysM β α} {w : World β}
    (h : Rolls host A fin R p w) (hf : ∀ e, Waits (fun _ => True) R (f e)) :
    Rolls host A fin R (p.tryCatch f) w := by
  induction p generalizing w with
  | ret a => exact h.elim
  | throw e => exact h.elim
  | call o k ih =>
    rcases h with ⟨ho, hfin, hk⟩ | ⟨ho, hc, hd, hk⟩
    · exact .inl ⟨ho, hfin, fun r => (hk r).tryCatch (fun _ _ => trivial) hf⟩
    · exact .inr ⟨ho, hc, hd, fun c he => ih _ (hk c he)⟩

/-- Sequential code that works on files, and then the signal. -/
theorem rolls_of_cwp {R : α → Prop} {p : SysM β γ} {k : γ → SysM β α} {w : World β}
    (hops : AllOps (fun o : SysOp β => o.onFiles = true) p)
    (h : cwp (hostMachine host) A (fun _ => True) p
      (fun r v => ∃ a, r = .ok a ∧ Rolls host A fin R (k a) v) w) :
    Rolls host A fin R (p >>= k) w := by
  induction p generalizing w with
  | ret a =>
    obtain ⟨-, a', ha, hk⟩ := h
    cases ha
    exact hk
  | throw e =>
    obtain ⟨-, a', ha, -⟩ := h
    cases ha
  | call o k ih =>
    have hne {o' : SysOp β} (ho' : o'.onFiles = false) : o ≠ o' := by
      rintro rfl
      rw [hops.1] at ho'
      cases ho'
    exact .inr ⟨hne rfl, hne rfl, hne rfl, fun c he => ih _ (hops.2 _) (h.2 c he)⟩

end Rolls

/-! ### The threads of an armed watchdog -/

section Armed

variable {β : Type} {host : Host β} {A : SysOp β → Choice β → Prop} {fin : World β → Prop}
  {w : World β} {wd : UpdateWatchdog}

/-- The thread is about to enter `rollback` in `w`, and rolls back. -/
def Begins {α : Type} (host : Host β) (A : SysOp β → Choice β → Prop) (fin : World β → Prop)
    (w : World β) (R : α → Prop)
    (p : SysM β α) : Prop :=
  Rolls host A fin R p w ∧ ∃ k, p = .call (.enter .rollback) k

/-- Before the streams are ready, an armed watchdog is not changed by a client state. -/
theorem waits_onState {state : ClientState} (reason : String) (harmed : wd.armed = true)
    (hroll : ∀ reason, Begins host A fin w (fun _ => True) (wd.rollback reason))
    (hstate : state ≠ .streamsReady) :
    Waits (Begins host A fin w fun wd' => wd' = wd) (fun wd' => wd' = wd)
      (wd.onState state reason) := by
  have hev : UpdateWatchdog.eventOf state reason ≠ .streamsReady := by
    cases state with
    | streamsReady => exact absurd rfl hstate
    | authFailed =>
      simp only [UpdateWatchdog.eventOf]
      split <;> simp
    | other name => simp [UpdateWatchdog.eventOf]
  unfold UpdateWatchdog.onState
  simp only [harmed, Bool.not_true, Bool.false_and, Bool.false_eq_true, if_false, if_neg hev]
  split
  -- A refused login claims the resolution. The thread that wins begins the rollback.
  · refine ⟨rfl, fun free => ⟨fun hfree => ?_, fun hfree => ?_⟩⟩
    · obtain rfl : free = true := hfree
      obtain ⟨hrolls, k, hk⟩ := hroll "auth_failed"
      refine ⟨hrolls.bind fun _ _ => rfl, fun r => k r >>= fun _ => .ret wd, ?_⟩
      show (wd.rollback "auth_failed" >>= fun _ => .ret wd) = _
      rw [hk]
      rfl
    · obtain rfl : free = false := Bool.eq_false_of_not_eq_true hfree
      exact rfl
  · exact rfl

/-- The io thread of an armed watchdog waits until it wins the claim, and then it begins the
rollback, unless the streams become ready. -/
theorem waits_ioThread {events : List (ClientState × String)} (harmed : wd.armed = true)
    (hroll : ∀ reason, Begins host A fin w (fun _ => True) (wd.rollback reason))
    (hevents : ∀ e ∈ events, e.1 ≠ .streamsReady) :
    Waits (Begins host A fin w fun _ => True) (fun _ => True) (ioThread wd events) := by
  induction events with
  | nil => trivial
  | cons event events ih =>
    obtain ⟨state, reason⟩ := event
    have hrest := ih fun e he => hevents e (List.mem_cons_of_mem _ he)
    have hstate := waits_onState reason harmed hroll (hevents _ List.mem_cons_self)
    refine .bind (G := Begins host A fin w fun wd' => wd' = wd) (R := fun wd' => wd' = wd)
      (hstate.tryCatch ?_ fun _ => rfl) ?_ ?_
    · rintro _ ⟨hrolls, k, rfl⟩
      exact ⟨hrolls.tryCatch fun _ => rfl, _, rfl⟩
    · rintro _ ⟨hrolls, k, rfl⟩
      refine ⟨hrolls.bind ?_, _, rfl⟩
      rintro _ rfl
      exact hrest.mono (fun _ _ => trivial) fun _ _ => trivial
    · rintro _ rfl
      exact hrest

/-- All three threads of an armed watchdog wait until they win the claim, and then they roll
back. -/
theorem waits_watchdogThreads {events : List (ClientState × String)} (harmed : wd.armed = true)
    (hroll : ∀ reason, Begins host A fin w (fun _ => True) (wd.rollback reason))
    (hevents : ∀ e ∈ events, e.1 ≠ .streamsReady) (i : WatchdogThread) :
    Waits (Begins host A fin w fun _ => True) (fun _ => True) (watchdogThreads wd events i) := by
  cases i with
  | io => exact waits_ioThread harmed hroll hevents
  | deadline =>
    simp only [watchdogThreads, harmed, if_true]
    refine .call rfl (fun _ => id) fun stop => ?_
    cases stop with
    | true => exact trivial
    | false =>
      refine ⟨rfl, fun free => ⟨fun hfree => ?_, fun hfree => ?_⟩⟩
      · obtain rfl : free = true := hfree
        exact hroll "deadline"
      · obtain rfl : free = false := Bool.eq_false_of_not_eq_true hfree
        exact trivial
  | stop =>
    show Waits _ _ wd.stop
    unfold UpdateWatchdog.stop
    simp only [harmed, if_true]
    exact .call rfl (fun _ => id) fun _ => .call rfl (fun _ => id) fun _ =>
      .call rfl (fun _ => id) fun _ => trivial

/-- The threads of an armed watchdog: all of them wait and the files are as at the start, or one
rolls back among the others, or it has finished. -/
inductive ArmedInv (host : Host β) (A : SysOp β → Choice β → Prop) (fin : World β → Prop)
    (w : World β)
    (s : Pool (sysInterface β) Exc Unit (World β) WatchdogThread) : Prop where
  | waiting (same : w.SameFiles s.world) (log : ∀ e ∈ s.log, e.2.quiet = true)
      (threads : ∀ i, Waits (Begins host A fin w fun _ => True) (fun _ => True) (s.threads i))
  | rolling (i : WatchdogThread) (resolved : s.world.proc.resolved = true)
      (unsignalled : ∀ e ∈ s.log, e.2 ≠ .raiseSigterm)
      (rolls : Rolls host A fin (fun _ => True) (s.threads i) s.world)
      (entered : ((∃ k, s.threads i = .call (.enter .rollback) k) ∧ w.SameFiles s.world ∧
        ∀ e ∈ s.log, e.2.quiet = true) ∨ ∃ e ∈ s.log, e.2 = .enter .rollback)
      (others : ∀ j, j ≠ i → Waits (fun _ => True) (fun _ => True) (s.threads j))
  | done (resolved : s.world.proc.resolved = true)
      (entered : ∃ e ∈ s.log, e.2 = .enter .rollback) (restored : fin s.world)
      (threads : ∀ i, Waits (fun _ => True) (fun _ => True) (s.threads i))

/-- A step of a thread that waits, when its claim does not succeed. -/
private theorem waits_perform {s : Pool (sysInterface β) Exc Unit (World β) WatchdogThread}
    {G : SysM β Unit → Prop} {i : WatchdogThread} {c : Choice β} {o : SysOp β}
    {k : o.Res → SysM β Unit} {P : WatchdogThread → Prop}
    (h : ∀ j, P j → Waits G (fun _ => True) (s.threads j))
    (hi : ¬ o.wins (exec host s.world o c).1 →
      Waits G (fun _ => True) (k (exec host s.world o c).1))
    (hno : ¬ o.wins (exec host s.world o c).1) :
    ∀ j, P j → Waits G (fun _ => True)
      ((s.perform (fun _ => hostMachine host) i c o k).threads j) := by
  intro j hj
  by_cases hji : j = i
  · subst hji
    rw [Pool.threads_perform_self]
    exact hi hno
  · rw [Pool.threads_perform_ne hji]
    exact h j hj

/-- Once the resolution is claimed, no claim succeeds and it stays claimed. -/
private theorem exec_of_resolved (host : Host β) (o : SysOp β) (c : Choice β)
    (h : w.proc.resolved = true) :
    ¬ o.wins (exec host w o c).1 ∧ (exec host w o c).2.proc.resolved = true := by
  by_cases ho : o = .claimResolution
  · subst ho
    exact ⟨by simp [SysOp.wins, exec, h], rfl⟩
  · refine ⟨fun hwins => ?_, (exec_resolved ho).trans h⟩
    cases o with
    | claimResolution => exact ho rfl
    | _ => exact hwins

/-- A quiet operation is none that is not. -/
private theorem ne_of_quiet {o o' : SysOp β} (h : o.quiet = true) (h' : o'.quiet = false) :
    o ≠ o' := by
  rintro rfl
  rw [h] at h'
  cases h'

/-- One operation of one thread keeps the invariant. -/
theorem ArmedInv.perform {s : Pool (sysInterface β) Exc Unit (World β) WatchdogThread}
    (hfin : ∀ w w', w.SameFiles w' → fin w → fin w') (h : ArmedInv host A fin w s)
    {i : WatchdogThread} {c : Choice β} {o : SysOp β} {k : o.Res → SysM β Unit}
    (hi : s.threads i = .call o k) (hc : A o c) :
    ArmedInv host A fin w (s.perform (fun _ => hostMachine host) i c o k) := by
  cases h with
  | waiting same log threads =>
    -- Nobody holds the claim yet, and every thread up to here only read or slept.
    have hthread := threads i
    rw [hi] at hthread
    obtain ⟨hquiet, hk⟩ := hthread
    have hsame : w.SameFiles (exec host s.world o c).2 :=
      same.trans (exec_sameFiles_of_quiet host c hquiet)
    have hlog : ∀ e ∈ (i, o) :: s.log, e.2.quiet = true := fun e he => by
      rcases List.mem_cons.mp he with rfl | he
      · exact hquiet
      · exact log e he
    by_cases hwins : o.wins (exec host s.world o c).1
    · -- The claim succeeds: this thread rolls back, and the others wait for ever.
      obtain ⟨hrolls, hbegins⟩ := (hk _).1 hwins
      have hresolved : (exec host s.world o c).2.proc.resolved = true := by
        cases o with
        | claimResolution => rfl
        | _ => exact hwins.elim
      refine .rolling i hresolved (fun e he => ne_of_quiet (hlog e he) rfl) ?_
        (.inl ⟨?_, hsame, hlog⟩) fun j hj => ?_
      · rw [Pool.threads_perform_self]
        exact hrolls.of_sameFiles hfin hsame
      · rw [Pool.threads_perform_self]
        exact hbegins
      · rw [Pool.threads_perform_ne hj]
        exact (threads j).mono (fun _ _ => trivial) fun _ _ => trivial
    -- A quiet step without the claim: all of them still wait.
    · exact .waiting hsame hlog fun j =>
        waits_perform (P := fun _ => True) (fun j _ => threads j) (hk _).2 hwins j trivial
  | rolling r resolved unsignalled rolls entered others =>
    obtain ⟨hno, hresolved⟩ := exec_of_resolved host o c resolved
    by_cases hir : i = r
    · subst hir
      rw [hi] at rolls
      rcases rolls with ⟨ho, hf, hk⟩ | ⟨ho, -, -, hk⟩
      · -- The signal ends the rollback.
        subst ho
        have hentered : ∃ e ∈ s.log, e.2 = .enter .rollback := by
          rcases entered with ⟨⟨k', hk'⟩, -⟩ | hentered
          · rw [hi] at hk'
            cases hk'
          · exact hentered
        obtain ⟨e, he, heq⟩ := hentered
        refine .done hresolved ⟨e, List.mem_cons_of_mem _ he, heq⟩ hf fun j => ?_
        by_cases hj : j = i
        · subst hj
          rw [Pool.threads_perform_self]
          exact hk _
        · rw [Pool.threads_perform_ne hj]
          exact others j hj
      · refine .rolling i hresolved ?_ ?_ (.inr ?_) fun j hj => ?_
        · intro e he
          rcases List.mem_cons.mp he with rfl | he
          · exact ho
          · exact unsignalled e he
        · rw [Pool.threads_perform_self]
          exact hk c hc
        · rcases entered with ⟨⟨k', hk'⟩, -⟩ | ⟨e, he, heq⟩
          · rw [hi] at hk'
            obtain ⟨rfl, -⟩ := Prog.call.inj hk'
            exact ⟨_, List.mem_cons_self, rfl⟩
          · exact ⟨e, List.mem_cons_of_mem _ he, heq⟩
        · rw [Pool.threads_perform_ne hj]
          exact others j hj
    · -- Another thread: it changes a flag at most.
      have hthread := others i hir
      rw [hi] at hthread
      obtain ⟨hquiet, hk⟩ := hthread
      have hsame : s.world.SameFiles (exec host s.world o c).2 :=
        exec_sameFiles_of_quiet host c hquiet
      refine .rolling r hresolved ?_ ?_ ?_ (waits_perform others (hk _).2 hno)
      · intro e he
        rcases List.mem_cons.mp he with rfl | he
        · exact ne_of_quiet hquiet rfl
        · exact unsignalled e he
      · rw [Pool.threads_perform_ne (Ne.symm hir)]
        exact rolls.of_sameFiles hfin hsame
      · rw [Pool.threads_perform_ne (Ne.symm hir)]
        refine entered.imp (fun ⟨hbegins, hw, hlog⟩ => ⟨hbegins, hw.trans hsame, fun e he => ?_⟩)
          fun ⟨e, he, heq⟩ => ⟨e, List.mem_cons_of_mem _ he, heq⟩
        rcases List.mem_cons.mp he with rfl | he
        · exact hquiet
        · exact hlog e he
  | done resolved entered restored threads =>
    obtain ⟨hno, hresolved⟩ := exec_of_resolved host o c resolved
    have hthread := threads i
    rw [hi] at hthread
    obtain ⟨hquiet, hk⟩ := hthread
    obtain ⟨e, he, heq⟩ := entered
    exact .done hresolved ⟨e, List.mem_cons_of_mem _ he, heq⟩
      (hfin _ _ (exec_sameFiles_of_quiet host c hquiet) restored) fun j =>
        waits_perform (P := fun _ => True) (fun j _ => threads j) (hk _).2 hno j trivial

/-- What the threads of an armed watchdog do to the files before the streams are ready: nothing,
or a rollback that has reached `fin` once it has raised the signal. -/
theorem watchdogRun_armed (events : List (ClientState × String))
    {ms : List (WatchdogThread × Choice β)} (harmed : wd.armed = true)
    (hms : Pool.Admits (fun _ => hostMachine host) waitsFor A ms
      { threads := watchdogThreads wd events, world := w })
    (hfin : ∀ w w', w.SameFiles w' → fin w → fin w')
    (hroll : ∀ reason, Begins host A fin w (fun _ => True) (wd.rollback reason))
    (hevents : ∀ e ∈ events, e.1 ≠ .streamsReady) :
    (∀ e ∈ (watchdogRun wd host events w ms).log, e.2 ≠ .enter .rollback) ∧
        w.SameFiles (watchdogRun wd host events w ms).world ∨
      (∃ e ∈ (watchdogRun wd host events w ms).log, e.2 = .enter .rollback) ∧
        ((∃ e ∈ (watchdogRun wd host events w ms).log, e.2 = .raiseSigterm) →
          fin (watchdogRun wd host events w ms).world) := by
  have hinv : ArmedInv host A fin w (watchdogRun wd host events w ms) := by
    refine Pool.run_inv (J := ArmedInv host A fin w)
      (fun s i c o k h hc hi _ => h.perform hfin hi (hc o k hi)) ?_ hms
    exact .waiting (World.SameFiles.refl w) (by simp) fun i =>
      waits_watchdogThreads harmed hroll hevents i
  cases hinv with
  | waiting same log threads => exact .inl ⟨fun e he => ne_of_quiet (log e he) rfl, same⟩
  | rolling i resolved unsignalled rolls entered others =>
    rcases entered with ⟨-, hsame, hlog⟩ | hentered
    · exact .inl ⟨fun e he => ne_of_quiet (hlog e he) rfl, hsame⟩
    · exact .inr ⟨hentered, fun ⟨e, he, heq⟩ => absurd heq (unsignalled e he)⟩
  | done resolved entered restored threads => exact .inr ⟨entered, fun _ => restored⟩

end Armed

/-- The trial of `m` was rolled back to `old`, and the records are there. -/
def Restored {β : Type} (L : Layout) (m : UpdateMarker) (old : β) (w : World β) : Prop :=
  (∃ reason, L.Recorded m reason w) ∧ w.files (L.path .install) = some (.image old)

section Rollback

variable {β : Type} {host : Host β} {A : SysOp β → Choice β → Prop} {L : Layout}
  {wd : UpdateWatchdog} {w : World β} {old : β}

/-- The restored state speaks of the files, so a change of the flags keeps it. -/
theorem Restored.of_sameFiles {m : UpdateMarker} (w w' : World β) (h : w.SameFiles w')
    (hw : Restored L m old w) : Restored L m old w' := by
  obtain ⟨r, d, rfl⟩ := h
  exact hw

/-- Where the writes and renames work and the backup is there, a rollback restores it. -/
theorem begins_rollback (hA : Benign A) (hdir : wd.stateDir = L.stateDir)
    (hprev : wd.marker.prevBinary = L.path .prev) (hexe : w.proc.binaryPath = L.path .install)
    (hfile : w.files (L.path .prev) = some (.image old)) (reason : String) :
    Begins host A (Restored L wd.marker old) w (fun _ => True) (wd.rollback reason) := by
  -- First the two operations that announce the rollback, then the rollback of the files.
  refine ⟨.inr ⟨by simp, by simp, by simp, fun _ _ => ?_⟩, _, rfl⟩
  refine .inr ⟨by simp, by simp, by simp, fun _ _ => ?_⟩
  show Rolls host A (Restored L wd.marker old) (fun _ => True)
    (doRollback wd.stateDir wd.marker reason >>= fun restored =>
      if restored then raiseSigterm else .ret ()) (w.setFlags w.proc.resolved true)
  have hops : AllOps (KeepsMarker wd.stateDir)
    (doRollback wd.stateDir wd.marker reason : SysM β Bool) :=
    allOps_doRollback
  refine rolls_of_cwp (hops.mono fun _ ho => ho.1) ?_
  have hsome : (w.setFlags w.proc.resolved true).files wd.marker.prevBinary ≠ none := by
    simp [hprev, hfile]
  rw [hdir, ← Prog.bind_ret (doRollback L.stateDir wd.marker reason)]
  refine wp_doRollback trivial (fun h => ?_) (fun hf => absurd hf (hA _ rfl))
    (fun _ _ _ => trivial) fun w' _ hrec hrecorded => ⟨trivial, true, rfl, ?_⟩
  · rcases h with h | h | h
    · exact absurd (hprev.symm.trans h) L.path_prev_ne_empty
    · exact absurd h hsome
    · exact absurd hA h
  · refine .inl ⟨rfl, ⟨⟨reason, hrecorded hA⟩, ?_⟩, fun _ => trivial⟩
    rw [hprev] at hrec
    exact ((restoresInstalled_of_recording hrec).mpr (.inl hexe)).1.trans hfile

end Rollback

/-! ### The threads of a watchdog that is not armed -/

section Unarmed

variable {β : Type} {host : Host β} {w w' w'' : World β} {p : Path} {wd : UpdateWatchdog}

/-- From `w` to `w'` the file at `p` was removed at most. -/
structure World.Removed (p : Path) (w w' : World β) : Prop where
  files : ∀ q, q ≠ p → w'.files q = w.files q
  disk : ∀ e ∈ w'.disk p, e = none ∨ e ∈ w.disk p
  exe : w.proc.exe ≠ some p → w'.proc.exe = w.proc.exe

/-- The operations of a watchdog that is not armed: it changes no file but the marker, and enters no
rollback. -/
def ReportsOnly (stateDir : Path) (o : SysOp β) : Prop :=
  o ≠ .enter .rollback ∧ (o.keepsFiles = true ∨ o = .remove (stateFile stateDir))

/-- An operation that only reports removes the marker at most. -/
theorem World.Removed.exec {stateDir : Path} {o : SysOp β} {c : Choice β}
    (h : World.Removed (stateFile stateDir) w w') (ho : ReportsOnly stateDir o) :
    World.Removed (stateFile stateDir) w (exec host w' o c).2 := by
  rcases ho.2 with hkeeps | rfl
  · obtain ⟨r, d, hw⟩ : w'.SameFiles (ThinrAgent.exec host w' o c).2 :=
      exec_sameFiles_of_keeps host c hkeeps
    rw [hw]
    exact ⟨h.files, h.disk, h.exe⟩
  -- The removal takes the marker from the files, and a power cut may bring it back.
  · have hunlink : World.Removed (stateFile stateDir) w (w'.unlink (stateFile stateDir)) := by
      refine ⟨fun q hq => ?_, fun e he => ?_, fun hexe => ?_⟩
      · rw [World.files_of_entry ((World.entry_unlink _ _).trans (World.entry_push_ne _ hq))]
        exact h.files q hq
      · rw [World.disk_unlink, World.disk_push_self] at he
        rcases List.mem_cons.mp he with rfl | he
        · exact .inl rfl
        · exact h.disk e he
      · show unlinkExe _ w'.proc.exe = _
        rw [h.exe hexe, unlinkExe, if_neg hexe]
    simp only [ThinrAgent.exec]
    split
    · exact h
    · show World.Removed _ w (if (w'.files (stateFile stateDir)).isSome then _ else w')
      split
      · exact hunlink
      · exact h

/-- An operation that only tells something is one of a watchdog that is not armed. -/
private theorem reportsOnly_of_tells {stateDir : Path} {o : SysOp β} (h : o.tells = true) :
    ReportsOnly stateDir o := by
  cases o <;> first
    | (cases h; done)
    | exact ⟨by simp, .inl rfl⟩

/-- A report of an earlier rollback removes the marker, and no other file. -/
theorem allOps_reportRolledBack : AllOps (ReportsOnly (β := β) wd.stateDir)
    wd.reportRolledBack := by
  have htells {α : Type} {p : SysM β α} (h : AllOps (fun o : SysOp β => o.tells = true) p) :
      AllOps (ReportsOnly wd.stateDir) p := h.mono fun _ ho => reportsOnly_of_tells ho
  refine .bind (.single ⟨by simp, .inl rfl⟩) fun _ =>
    .bind (htells allOps_lastReverted) fun rv => ?_
  refine .bind (htells (allOps_report ..)) fun _ => ?_
  exact .bind (.single ⟨by simp, .inr rfl⟩) fun _ => trivial

/-- A watchdog that is not armed stays so when a client state is delivered, and performs nothing but
reports. -/
theorem until_onState {G : SysM β UpdateWatchdog → Prop} {state : ClientState} {reason : String}
    (harmed : wd.armed = false) :
    Until (ReportsOnly wd.stateDir) (fun _ _ => False) G
      (fun wd' => wd'.armed = false ∧ wd'.stateDir = wd.stateDir) (wd.onState state reason) := by
  unfold UpdateWatchdog.onState
  simp only [harmed, Bool.not_false, Bool.true_and]
  split
  · exact ⟨harmed, rfl⟩
  split
  · refine .call ⟨by simp, .inl rfl⟩ (fun _ => id) fun free => ?_
    cases free with
    | false => exact ⟨harmed, rfl⟩
    | true =>
      simp only [Bool.false_eq_true, if_false]
      split
      · exact (allOps_reportRolledBack.until (G := fun _ => False)).bind (fun _ h => h.elim)
          fun _ _ => ⟨rfl, rfl⟩
      · exact ⟨harmed, rfl⟩
  · exact ⟨harmed, rfl⟩

/-- The io thread of a watchdog that is not armed removes the marker after its report and does
nothing else to the files. -/
theorem allOps_unarmed_ioThread {stateDir : Path} {events : List (ClientState × String)}
    (harmed : wd.armed = false) (hdir : wd.stateDir = stateDir) :
    AllOps (ReportsOnly (β := β) stateDir) (ioThread wd events) := by
  refine Until.allOps (G := fun _ => False) (R := fun _ => True) ?_
  induction events generalizing wd with
  | nil => trivial
  | cons event events ih =>
    subst hdir
    refine .bind (G := fun _ => False)
      (R := fun wd' => wd'.armed = false ∧ wd'.stateDir = wd.stateDir)
      ?_ (fun _ h => h.elim) fun wd' h => ih h.1 h.2
    exact .tryCatch (until_onState (G := fun _ => False) harmed) (fun _ h => h.elim)
      fun _ => ⟨harmed, rfl⟩

/-- None of the threads of a watchdog that is not armed rolls back or writes a file. -/
theorem allOps_unarmed_threads {events : List (ClientState × String)} (harmed : wd.armed = false)
    (i : WatchdogThread) :
    AllOps (ReportsOnly (β := β) wd.stateDir) (watchdogThreads wd events i) := by
  cases i with
  | io => exact allOps_unarmed_ioThread harmed rfl
  | deadline =>
    simp only [watchdogThreads, harmed, Bool.false_eq_true, if_false]
    trivial
  | stop =>
    show AllOps _ wd.stop
    unfold UpdateWatchdog.stop
    simp only [harmed, Bool.false_eq_true, if_false]
    exact .bind (.single ⟨by simp, .inl rfl⟩) fun _ => .single ⟨by simp, .inl rfl⟩

/-- The threads of a watchdog that is not armed roll nothing back, and remove the marker at
most. -/
theorem watchdogRun_unarmed (host : Host β) (w : World β) (events : List (ClientState × String))
    (ms : List (WatchdogThread × Choice β)) (harmed : wd.armed = false) :
    (∀ e ∈ (watchdogRun wd host events w ms).log, e.2 ≠ .enter .rollback) ∧
      World.Removed wd.markerPath w (watchdogRun wd host events w ms).world := by
  refine ⟨fun e he => ?_, ?_⟩
  · exact (Pool.run_allOps ms (i := e.1) (allOps_unarmed_threads harmed e.1) (by simp) e he rfl).1
  · exact Pool.run_world ms (fun _ w' o c ho h => h.exec ho) (allOps_unarmed_threads harmed)
      ⟨fun _ _ => rfl, fun e he => .inr he, fun _ => rfl⟩

end Unarmed

end ThinrAgent
