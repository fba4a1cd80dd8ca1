import ThinrAgent.Runtime.ClientStateDispatcher

/-!
# `ThinrAgent.Proofs.Dispatcher`: is an observer called after it has unsubscribed?

The lock protects the list of observers, and a dispatch calls a snapshot of it without the lock.
So an unsubscription keeps an observer out of every later snapshot, and leaves it in the ones that
are being called. `Gone n` says that the subscription `n` is in no list and no snapshot, and every
step keeps it. After a `reset` returns, the observer is never run again exactly when no dispatch
in progress holds it at that moment (`neverCalled_iff`).

The list is searched by the identifier. `Valid` relates it to the number of the subscription, and
the identifiers of the first `2 ^ 64` subscriptions differ.
-/

set_option autoImplicit false

namespace ThinrAgent

open Relation (ReflTransGen)

namespace ClientStateDispatcher

variable {τ η ω : Type} {d d' : ClientStateDispatcher τ η ω}

/-- What a step of a thread does: it follows `dispatch` from the store of the state over the
snapshot to the end of the last call. -/
inductive ThreadStep (d : ClientStateDispatcher τ η ω) :
    DispatchControl ω → DispatchControl ω → Prop where
  | dispatch (state : ClientState) (reason : String) : ThreadStep d .idle (.entered state reason)
  | snapshot (state : ClientState) (reason : String) :
      ThreadStep d (.entered state reason) (.calling state reason none d.observers)
  | call (state : ClientState) (reason : String) (e : ObserverEntry ω)
      (rest : List (ObserverEntry ω)) :
      ThreadStep d (.calling state reason none (e :: rest)) (.calling state reason (some e) rest)
  | endCall (state : ClientState) (reason : String) (e : ObserverEntry ω)
      (rest : List (ObserverEntry ω)) :
      ThreadStep d (.calling state reason (some e) rest) (.calling state reason none rest)
  | finish (state : ClientState) (reason : String) :
      ThreadStep d (.calling state reason none []) .idle

/-- A thread comes to hold only what it held and what is in the list. -/
theorem ThreadStep.held {c c' : DispatchControl ω} (h : d.ThreadStep c c') :
    ∀ e ∈ c'.held, e ∈ c.held ∨ e ∈ d.observers := by
  intro e he
  cases h with
  | dispatch => simp [DispatchControl.held] at he
  | snapshot => exact .inr (by simpa [DispatchControl.held] using he)
  | call => exact .inl (by simpa [DispatchControl.held] using he)
  | endCall _ _ e' =>
    exact .inl (List.mem_cons_of_mem e' (by simpa [DispatchControl.held] using he))
  | finish => simp [DispatchControl.held] at he

/-- What an observer runs is held by the snapshot of its thread. -/
theorem mem_held_of_running {c : DispatchControl ω} {e : ObserverEntry ω}
    (h : c.running = some e) : e ∈ c.held := by
  cases c with
  | idle => cases h
  | entered => cases h
  | calling _ _ running rest =>
    have hrunning : running = some e := h
    simp [DispatchControl.held, hrunning]

/-- The subscription `n` is a past one, in no list and in no snapshot. -/
structure Gone (d : ClientStateDispatcher τ η ω) (n : Nat) : Prop where
  past : n < d.count
  observers : ∀ e ∈ d.observers, e.number ≠ n
  held : ∀ t, ∀ e ∈ (d.threads t).held, e.number ≠ n

/-- A subscription that is gone is not called: it is in no snapshot, and no thread is in a call of
it. -/
theorem Gone.not_runs {n : Nat} (hgone : d.Gone n) : ¬ d.Runs n := by
  rintro ⟨t, e, he, hn⟩
  exact hgone.held t e (mem_held_of_running he) hn

/-- The identifier that the counter gives to the subscription `n`: the first one has one, and the
counter wraps at 64 bits. -/
def idOf (n : Nat) : UInt64 := UInt64.ofNat (n + 1)

/-- The first `2 ^ 64` identifiers are different from each other. -/
theorem idOf_inj {m n : Nat} (hm : m < 2 ^ 64) (hn : n < 2 ^ 64) (h : idOf m = idOf n) : m = n := by
  have hmod := congrArg UInt64.toNat h
  simp only [idOf, UInt64.toNat_ofNat'] at hmod
  omega

/-- The identifiers are those of the numbers, a number is in the list once, and a subscription
that is being reset is not in the list. -/
structure Valid (d : ClientStateDispatcher τ η ω) : Prop where
  next : d.nextId = idOf d.count
  entries : ∀ e ∈ d.observers, e.id = idOf e.number ∧ e.number < d.count
  distinct : (d.observers.map ObserverEntry.number).Nodup
  handles : ∀ h, (d.handles h).owner = true →
    (d.handles h).id = idOf (d.handles h).number ∧ (d.handles h).number < d.count
  resetting : ∀ h, (d.handles h).resetting = true → (d.handles h).owner = true ∧
    ∀ e ∈ d.observers, e.number ≠ (d.handles h).number

/-- The list of a new dispatcher is empty, so every identifier in it is the one of its
subscription. -/
theorem valid_init : ({} : ClientStateDispatcher τ η ω).Valid where
  next := rfl
  entries := by simp
  distinct := by simp
  handles := by simp
  resetting := by simp

/-- The search by identifier removes the entry of the subscription, and no other. -/
theorem Valid.notMem_eraseP (hv : d.Valid) (hcount : d.count ≤ 2 ^ 64) {h : η}
    (howner : (d.handles h).owner = true) {e : ObserverEntry ω}
    (he : e ∈ d.observers.eraseP fun e => e.id = (d.handles h).id) :
    e.number ≠ (d.handles h).number := by
  intro hnumber
  obtain ⟨hid, hlt⟩ := hv.handles h howner
  have hmem := List.mem_of_mem_eraseP he
  have hfound : decide (e.id = (d.handles h).id) = true := by
    rw [decide_eq_true_eq, (hv.entries e hmem).1, hnumber, hid]
  obtain ⟨first, before, after, -, hfirst, hsplit, herase⟩ :=
    List.exists_of_eraseP (p := fun e => e.id = (d.handles h).id) hmem hfound
  -- The entry that is found has the same identifier, so it has the same number.
  have hentry := hv.entries first (by simp [hsplit])
  have hsame : first.number = (d.handles h).number := by
    refine idOf_inj (lt_of_lt_of_le hentry.2 hcount) (lt_of_lt_of_le hlt hcount) ?_
    rw [← hentry.1, ← hid]
    exact of_decide_eq_true hfirst
  have hnodup := hv.distinct
  rw [hsplit, List.map_append, List.map_cons] at hnodup
  have hrest := (List.nodup_cons.mp (List.perm_middle.nodup_iff.mp hnodup)).1
  rw [herase] at he
  refine hrest ?_
  rw [← List.map_append, hsame, ← hnumber]
  exact List.mem_map_of_mem he

section
variable [DecidableEq η] (h : η) (sub : Subscription)

/-- A handle that is written does not change the list. -/
@[simp] theorem observers_setHandle : (d.setHandle h sub).observers = d.observers := rfl

/-- Nor does it change what the threads do. -/
@[simp] theorem threads_setHandle : (d.setHandle h sub).threads = d.threads := rfl

/-- Nor does it change the number of subscriptions so far. -/
@[simp] theorem count_setHandle : (d.setHandle h sub).count = d.count := rfl

/-- Nor does it change the identifier of the next one. -/
@[simp] theorem nextId_setHandle : (d.setHandle h sub).nextId = d.nextId := rfl

/-- A handle that is written has its new subscription, and every other handle has the old one. -/
@[simp] theorem handles_setHandle (h' : η) :
    (d.setHandle h sub).handles h' = if h' = h then sub else d.handles h' :=
  Function.update_apply ..

end

variable [DecidableEq τ]

/-- A thread that goes on is at its new place, and every other thread is where it was. -/
@[simp] theorem threads_setThread (t t' : τ) (c : DispatchControl ω) :
    (d.setThread t c).threads t' = if t' = t then c else d.threads t' :=
  Function.update_apply ..

variable [DecidableEq η]

/-- What a step changes: the list and the subscriptions, or one thread. -/
inductive StepCases (d d' : ClientStateDispatcher τ η ω) : Prop where
  | subscribed (h : η) (obs : ω) (hfree : (d.handles h).owner = false)
      (heq : d' = { d.setHandle h { owner := true, id := d.nextId, number := d.count } with
        observers := d.observers ++ [{ id := d.nextId, obs, number := d.count }]
        nextId := d.nextId + 1
        count := d.count + 1 })
  | moved (h other : η) (hfree : (d.handles h).owner = false)
      (hready : (d.handles other).resetting = false)
      (heq : d' = (d.setHandle h (d.handles other)).setHandle other
        { d.handles other with owner := false })
  | unsubscribed (h : η) (howner : (d.handles h).owner = true)
      (heq : d' = { d.setHandle h { d.handles h with resetting := true } with
        observers := d.observers.eraseP fun e => e.id = (d.handles h).id })
  | reset (h : η) (hresetting : (d.handles h).resetting = true)
      (heq : d' = d.setHandle h { d.handles h with owner := false, resetting := false })
  | thread (t : τ) (c : DispatchControl ω) (hthread : d.ThreadStep (d.threads t) c)
      (hobservers : d'.observers = d.observers) (hthreads : d'.threads = (d.setThread t c).threads)
      (hhandles : d'.handles = d.handles) (hnext : d'.nextId = d.nextId)
      (hcount : d'.count = d.count)
  | same (hobservers : d'.observers = d.observers) (hthreads : d'.threads = d.threads)
      (hhandles : d'.handles = d.handles) (hnext : d'.nextId = d.nextId)
      (hcount : d'.count = d.count)

/-- Each action of a thread is one of the kinds of `StepCases`. The proof goes through the actions
once, and later proofs through the kinds. -/
theorem stepCases_of_step {a : DispatcherAction τ η ω} (h : d.step a = some d') :
    StepCases d d' := by
  cases a with
  | subscribe k obs =>
    simp only [step] at h
    split at h
    · cases h
    · cases h
      exact .subscribed k obs (Bool.eq_false_iff.mpr ‹_›) rfl
  | move k other =>
    simp only [step] at h
    split at h
    · cases h
      -- A move onto itself: `if (this != &other)`.
      exact .same rfl rfl rfl rfl rfl
    · split at h
      · cases h
      · next hguard =>
        cases h
        rw [Bool.or_eq_true, not_or] at hguard
        exact .moved k other (by simpa using hguard.1) (by simpa using hguard.2) rfl
  | dispatch t state reason =>
    simp only [step] at h
    split at h
    · next hidle =>
      split at h
      · cases h
        exact .thread t (.entered state reason) (hidle ▸ .dispatch state reason) rfl rfl rfl rfl rfl
      · cases h
    · cases h
  | snapshot t =>
    simp only [step] at h
    split at h
    · next hc => cases h; exact .thread t _ (hc ▸ .snapshot _ _) rfl rfl rfl rfl rfl
    · cases h
  | call t =>
    simp only [step] at h
    split at h
    · next hc => cases h; exact .thread t _ (hc ▸ .call _ _ _ _) rfl rfl rfl rfl rfl
    · cases h
  | endCall t =>
    simp only [step] at h
    split at h
    · next hc => cases h; exact .thread t _ (hc ▸ .endCall _ _ _ _) rfl rfl rfl rfl rfl
    · cases h
  | finish t =>
    simp only [step] at h
    split at h
    · next hc => cases h; exact .thread t _ (hc ▸ .finish _ _) rfl rfl rfl rfl rfl
    · cases h
  | unsubscribe k =>
    simp only [step] at h
    split at h
    · next hguard =>
      cases h
      rw [Bool.and_eq_true] at hguard
      exact .unsubscribed k hguard.1 rfl
    · cases h
  | endReset k =>
    simp only [step] at h
    split at h
    · next hresetting => cases h; exact .reset k hresetting rfl
    · cases h
  | destroy =>
    cases h
    exact .same rfl rfl rfl rfl rfl

/-- A step keeps a subscription gone: a dispatch takes its snapshot from the list, and no new
subscription has an old number. -/
theorem Gone.step {n : Nat} (hgone : d.Gone n) (h : d.Step d') : d'.Gone n := by
  obtain ⟨a, h⟩ := h
  -- Only a subscription adds an entry and only a snapshot hands entries to a thread.
  cases stepCases_of_step h with
  | subscribed k obs _ heq =>
    subst heq
    refine ⟨Nat.lt_succ_of_lt hgone.past, fun e he => ?_, hgone.held⟩
    rcases List.mem_append.mp he with he | he
    · exact hgone.observers e he
    · have hnew : e.number = d.count := by rw [List.mem_singleton.mp he]
      have := hgone.past
      omega
  | moved k other _ _ heq => subst heq; exact ⟨hgone.past, hgone.observers, hgone.held⟩
  | unsubscribed k _ heq =>
    subst heq
    exact ⟨hgone.past, fun e he => hgone.observers e (List.mem_of_mem_eraseP he), hgone.held⟩
  | reset k _ heq => subst heq; exact ⟨hgone.past, hgone.observers, hgone.held⟩
  | thread t c hthread hobservers hthreads _ _ hcount =>
    refine ⟨hcount ▸ hgone.past, hobservers ▸ hgone.observers, fun t' e he => ?_⟩
    rw [hthreads, threads_setThread] at he
    split at he
    · rcases hthread.held e he with he | he
      · exact hgone.held t e he
      · exact hgone.observers e he
    · exact hgone.held t' e he
  | same hobservers hthreads _ _ hcount =>
    exact ⟨hcount ▸ hgone.past, hobservers ▸ hgone.observers, hthreads ▸ hgone.held⟩

/-- So does every sequence of steps. The induction is on the run. -/
theorem Gone.run {n : Nat} (hgone : d.Gone n) (h : ReflTransGen Step d d') : d'.Gone n := by
  induction h with
  | refl => exact hgone
  | tail _ hstep ih => exact ih.step hstep

/-- A step keeps the identifiers right, as long as no more than `2 ^ 64` subscriptions have been
made. -/
theorem Valid.step (hv : d.Valid) (h : d.Step d') (hcount : d'.count ≤ 2 ^ 64) : d'.Valid := by
  obtain ⟨a, h⟩ := h
  cases stepCases_of_step h with
  | subscribed k obs hfree heq =>
    -- The new entry has the identifier `nextId`, which no entry in the list has: the numbers
    -- below the count are all it was given.
    subst heq
    refine ⟨?_, fun e he => ?_, ?_, fun k' howner => ?_, fun k' hresetting => ?_⟩
    · show d.nextId + 1 = idOf (d.count + 1)
      rw [hv.next, idOf, idOf, UInt64.ofNat_add (d.count + 1) 1]
      rfl
    · show e.id = idOf e.number ∧ e.number < d.count + 1
      rcases List.mem_append.mp he with he | he
      · obtain ⟨hid, hlt⟩ := hv.entries e he
        exact ⟨hid, by omega⟩
      · rw [List.mem_singleton.mp he]
        exact ⟨hv.next, by simp⟩
    · simp only [List.map_append, List.map_cons, List.map_nil]
      refine List.nodup_append.mpr ⟨hv.distinct, by simp, fun n hn m hm => ?_⟩
      obtain ⟨e, he, rfl⟩ := List.mem_map.mp hn
      have hlt := (hv.entries e he).2
      rw [List.mem_singleton.mp hm]
      omega
    · simp only [handles_setHandle] at howner ⊢
      split
      · exact ⟨hv.next, by simp⟩
      · next hne =>
        obtain ⟨hid, hlt⟩ := hv.handles k' (by simpa [hne] using howner)
        exact ⟨hid, by omega⟩
    · simp only [handles_setHandle] at hresetting ⊢
      split
      · next heq => simp [heq] at hresetting
      · next hne =>
        obtain ⟨howner, hout⟩ := hv.resetting k' (by simpa [hne] using hresetting)
        refine ⟨howner, fun e he => ?_⟩
        rcases List.mem_append.mp he with he | he
        · exact hout e he
        -- A handle in its reset has an older number than the new entry.
        · have hlt := (hv.handles k' howner).2
          rw [List.mem_singleton.mp he]
          exact fun hn => by simp at hn; omega
  | moved k other hfree hready heq =>
    -- The owned identifier changes hands; neither handle was in its reset.
    subst heq
    refine ⟨hv.next, hv.entries, hv.distinct, fun k' howner => ?_, fun k' hresetting => ?_⟩
    · simp only [handles_setHandle] at howner ⊢
      split
      · next hk => simp [hk] at howner
      · next hk =>
        rw [if_neg hk] at howner
        split
        · next hk' => exact hv.handles other (by simpa [hk'] using howner)
        · next hk' => exact hv.handles k' (by simpa [hk'] using howner)
    · simp only [handles_setHandle] at hresetting ⊢
      split
      · next hk => simp [hk, hready] at hresetting
      · next hk =>
        rw [if_neg hk] at hresetting
        split
        · next hk' => simp [hk', hready] at hresetting
        · next hk' => exact hv.resetting k' (by simpa [hk'] using hresetting)
  | unsubscribed k howner heq =>
    -- This is where the bound on the count is used: below it, equal identifiers have equal
    -- numbers, so the erased entry is the handle's own.
    subst heq
    refine ⟨hv.next, fun e he => hv.entries e (List.mem_of_mem_eraseP he),
      hv.distinct.sublist (List.eraseP_sublist.map _), fun k' howner' => ?_,
      fun k' hresetting => ?_⟩
    · simp only [handles_setHandle] at howner' ⊢
      split
      · exact hv.handles k howner
      · next hne => exact hv.handles k' (by simpa [hne] using howner')
    · simp only [handles_setHandle] at hresetting ⊢
      split
      · exact ⟨howner, fun e he => hv.notMem_eraseP hcount howner he⟩
      · next hne =>
        obtain ⟨howner', hout⟩ := hv.resetting k' (by simpa [hne] using hresetting)
        exact ⟨howner', fun e he => hout e (List.mem_of_mem_eraseP he)⟩
  | reset k hresetting heq =>
    subst heq
    refine ⟨hv.next, hv.entries, hv.distinct, fun k' howner => ?_, fun k' hresetting' => ?_⟩
    · simp only [handles_setHandle] at howner ⊢
      split
      · next hk => simp [hk] at howner
      · next hk => exact hv.handles k' (by simpa [hk] using howner)
    · simp only [handles_setHandle] at hresetting' ⊢
      split
      · next hk => simp [hk] at hresetting'
      · next hk => exact hv.resetting k' (by simpa [hk] using hresetting')
  | thread t c _ hobservers _ hhandles hnext hcount' =>
    -- A dispatching thread reads the list and leaves the handles alone.
    refine ⟨by rw [hnext, hcount']; exact hv.next, ?_, hobservers ▸ hv.distinct, ?_, ?_⟩
    · rw [hobservers, hcount']; exact hv.entries
    · rw [hhandles, hcount']; exact hv.handles
    · rw [hhandles, hobservers]; exact hv.resetting
  | same hobservers _ hhandles hnext hcount' =>
    refine ⟨by rw [hnext, hcount']; exact hv.next, ?_, hobservers ▸ hv.distinct, ?_, ?_⟩
    · rw [hobservers, hcount']; exact hv.entries
    · rw [hhandles, hcount']; exact hv.handles
    · rw [hhandles, hobservers]; exact hv.resetting

/-- The number of subscriptions so far does not fall in any step of any thread. -/
theorem count_le_of_step (h : d.Step d') : d.count ≤ d'.count := by
  obtain ⟨a, h⟩ := h
  cases stepCases_of_step h with
  | subscribed _ _ _ heq => subst heq; exact Nat.le_succ _
  | moved _ _ _ _ heq => subst heq; exact le_rfl
  | unsubscribed _ _ heq => subst heq; exact le_rfl
  | reset _ _ heq => subst heq; exact le_rfl
  | thread _ _ _ _ _ _ _ hcount => exact hcount.ge
  | same _ _ _ _ hcount => exact hcount.ge

/-- Every state of a run with at most `2 ^ 64` subscriptions is valid. -/
theorem Valid.run (hv : d.Valid) (h : ReflTransGen Step d d') (hcount : d'.count ≤ 2 ^ 64) :
    d'.Valid := by
  induction h with
  | refl => exact hv
  | tail _ hstep ih => exact (ih ((count_le_of_step hstep).trans hcount)).step hstep hcount

/-- A list of actions that can be performed is a run. Sample runs are such lists, because they can
be evaluated. -/
theorem run_of_runActions {as : List (DispatcherAction τ η ω)} (h : d.runActions as = some d') :
    ReflTransGen Step d d' := by
  induction as generalizing d with
  | nil => cases h; exact .refl
  | cons a as ih =>
    obtain ⟨d₁, hstep, hrest⟩ := Option.bind_eq_some_iff.mp h
    exact .head ⟨a, hstep⟩ (ih hrest)

/-- A thread goes on to run what it has left to call. -/
theorem runs_of_rest (t : τ) {state : ClientState} {reason : String}
    {rest : List (ObserverEntry ω)} {e : ObserverEntry ω} (he : e ∈ rest)
    (hc : d.threads t = .calling state reason none rest) :
    ∃ d', ReflTransGen Step d d' ∧ d'.Runs e.number := by
  induction rest generalizing d with
  | nil => simp at he
  | cons e' rest ih =>
    have hcall : d.step (.call t) =
      some (d.setThread t (.calling state reason (some e') rest)) := by
      simp only [step, hc]
    by_cases heq : e = e'
    · refine ⟨_, .single ⟨_, hcall⟩, t, e', ?_, by rw [heq]⟩
      simp [DispatchControl.running]
    · have hend : (d.setThread t (.calling state reason (some e') rest)).step (.endCall t) =
          some ((d.setThread t (.calling state reason (some e') rest)).setThread t
            (.calling state reason none rest)) := by
        simp only [step, threads_setThread, if_pos]
      obtain ⟨d', hrun, hruns⟩ := ih ((List.mem_cons.mp he).resolve_left heq)
        (show ((d.setThread t (.calling state reason (some e') rest)).setThread t
          (.calling state reason none rest)).threads t = _ by simp)
      exact ⟨d', .head ⟨_, hcall⟩ (.head ⟨_, hend⟩ hrun), hruns⟩

/-- What a thread holds is run in some continuation. -/
theorem runs_of_held {t : τ} {e : ObserverEntry ω} (he : e ∈ (d.threads t).held) :
    ∃ d', ReflTransGen Step d d' ∧ d'.Runs e.number := by
  cases hc : d.threads t with
  | idle => simp [hc, DispatchControl.held] at he
  | entered => simp [hc, DispatchControl.held] at he
  | calling state reason running rest =>
    cases running with
    | none => exact runs_of_rest t (by simpa [hc, DispatchControl.held] using he) hc
    | some e' =>
      by_cases heq : e = e'
      · exact ⟨d, .refl, t, e', by simp [hc, DispatchControl.running], by rw [heq]⟩
      · have hend : d.step (.endCall t) =
            some (d.setThread t (.calling state reason none rest)) := by simp only [step, hc]
        obtain ⟨d', hrun, hruns⟩ := runs_of_rest t
          (show e ∈ rest by simpa [hc, DispatchControl.held, heq] using he)
          (show (d.setThread t (.calling state reason none rest)).threads t =
            .calling state reason none rest by simp)
        exact ⟨d', .head ⟨_, hend⟩ hrun, hruns⟩

/-- A `reset` returns in any run with at most `2 ^ 64` subscriptions. From then on the observer is
never run exactly when no thread holds it at that moment. -/
theorem neverCalled_iff (hreach : ReflTransGen Step ({} : ClientStateDispatcher τ η ω) d)
    (hcount : d.count ≤ 2 ^ 64) (h : η) (hreturn : d.step (.endReset h) = some d') :
    (∀ d'', ReflTransGen Step d' d'' → ¬ d''.Runs (d.handles h).number) ↔
      ∀ t, ∀ e ∈ (d.threads t).held, e.number ≠ (d.handles h).number := by
  have hv : d.Valid := valid_init.run hreach hcount
  simp only [step] at hreturn
  split at hreturn
  · next hresetting =>
    cases hreturn
    obtain ⟨howner, hout⟩ := hv.resetting h hresetting
    constructor
    · intro hnever t e he hnumber
      obtain ⟨d'', hrun, hruns⟩ := runs_of_held
        (d := d.setHandle h { d.handles h with owner := false, resetting := false }) he
      exact hnever d'' hrun (hnumber ▸ hruns)
    · intro hheld d'' hrun
      have hgone : (d.setHandle h { d.handles h with owner := false, resetting := false }).Gone
          (d.handles h).number := ⟨(hv.handles h howner).2, hout, hheld⟩
      exact (hgone.run hrun).not_runs
  · cases hreturn

/-- The subscriptions that the agent's members hold, in the order in which the agent makes them. -/
inductive AgentMember where
  | watchdog
  | poller
  deriving DecidableEq

/-- The threads that emit changes of the client state: the io thread, and the one that stops the
agent. -/
inductive EmittingThread where
  | io
  | stopping
  deriving DecidableEq

/-- The dispatcher of the agent, with its threads and with its members as the owners of
subscriptions. -/
abbrev AgentDispatcher := ClientStateDispatcher EmittingThread AgentMember String

/-- An action on the dispatcher of the agent. -/
abbrev AgentAction := DispatcherAction EmittingThread AgentMember String

/-- The construction of the agent, up to a `reset` of the watchdog that is about to return. In
between the threads take the given steps. -/
def stopActions (actions : List AgentAction) : List AgentAction :=
  [.subscribe .watchdog "update_watchdog::on_state", .subscribe .poller "update_poller::on_state"]
    ++ actions ++ [.unsubscribe .watchdog]

/-- The dispatcher when a sample run is about to return from the `reset` of the watchdog's
subscription. -/
def beforeReturn (actions : List AgentAction) : AgentDispatcher :=
  (({} : AgentDispatcher).runActions (stopActions actions)).getD {}

/-- The dispatcher when the reset of the watchdog's subscription has returned. -/
def afterReturn (actions : List AgentAction) : AgentDispatcher :=
  ((beforeReturn actions).step (.endReset .watchdog)).getD {}

/-- A dispatch of the io thread that calls both observers. -/
def dispatchActions : List AgentAction :=
  [.dispatch .io .streamsReady "", .snapshot .io, .call .io, .endCall .io, .call .io, .endCall .io,
    .finish .io]

/-- The io thread has finished a dispatch when the watchdog is stopped. -/
theorem neverCalled_iff_sample :
    (∀ d, ReflTransGen Step (afterReturn dispatchActions) d →
        ¬ d.Runs ((beforeReturn dispatchActions).handles .watchdog).number) ↔
      ∀ t, ∀ e ∈ ((beforeReturn dispatchActions).threads t).held,
        e.number ≠ ((beforeReturn dispatchActions).handles .watchdog).number := by
  have hrun : ({} : AgentDispatcher).runActions (stopActions dispatchActions) =
      some (beforeReturn dispatchActions) := rfl
  exact neverCalled_iff (run_of_runActions hrun) (by decide) AgentMember.watchdog rfl

/-- A dispatch of the io thread up to its snapshot. -/
def snapshotActions : List AgentAction := [.dispatch .io .streamsReady "", .snapshot .io]

/-- The io thread is between the snapshot and the first call when the watchdog is stopped: it runs
the observer of the watchdog after the `reset` has returned. -/
theorem not_neverCalled_sample :
    ReflTransGen Step ({} : AgentDispatcher) (beforeReturn snapshotActions) ∧
      (beforeReturn snapshotActions).step (.endReset .watchdog) =
        some (afterReturn snapshotActions) ∧
      ¬ ∀ d, ReflTransGen Step (afterReturn snapshotActions) d →
        ¬ d.Runs ((beforeReturn snapshotActions).handles .watchdog).number := by
  have hrun : ({} : AgentDispatcher).runActions (stopActions snapshotActions) =
      some (beforeReturn snapshotActions) := rfl
  refine ⟨run_of_runActions hrun, rfl, fun hnever => ?_⟩
  refine hnever _ (.single ⟨.call .io, rfl⟩) ⟨.io, ?_⟩
  exact ⟨{ id := 1, obs := "update_watchdog::on_state", number := 0 }, rfl, rfl⟩

end ClientStateDispatcher

end ThinrAgent
