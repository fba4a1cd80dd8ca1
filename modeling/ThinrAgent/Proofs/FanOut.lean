import Mathlib.Data.List.Nodup
import ThinrAgent.Proofs.Dispatcher
import ThinrAgent.Runtime.Subscriptions

/-!
# `ThinrAgent.Proofs.FanOut`: does every observer see every state?

`FanOut` says what the dispatcher is for: a list of observers in the order of their subscription,
each with the variable that owns it. A dispatch calls all of them. `Exact` relates the dispatcher
of one thread to it. The entries of the list and the variables with an owner are in one-to-one
correspondence, the identifiers differ, and the calls are the same. Every operation keeps it
(`exact_step`), so every sequence with at most `2 ^ 64` subscriptions does (`exact_run`).

The identifier of the next subscription has 64 bits. After `2 ^ 64` subscriptions it repeats, while
the first variable may still own its entry (`not_exact_sample`).
-/

set_option autoImplicit false

namespace ThinrAgent

open ClientStateDispatcher (idOf)

section General
variable {α β : Type}

/-- With distinct keys, the first element with a key is the only one. -/
theorem eraseP_eq_filter_of_nodup [DecidableEq β] {key : α → β} {l : List α}
    (h : (l.map key).Nodup) (b : β) :
    l.eraseP (fun x => key x = b) = l.filter fun x => key x ≠ b := by
  induction l with
  | nil => rfl
  | cons x l ih =>
    rw [List.map_cons, List.nodup_cons] at h
    by_cases hx : key x = b
    · have hrest : ∀ y ∈ l, decide (key y ≠ b) = true := by
        intro y hy
        rw [decide_eq_true_eq]
        rintro rfl
        exact h.1 (hx ▸ List.mem_map_of_mem hy)
      rw [List.eraseP_cons_of_pos (by simpa using hx), List.filter_cons_of_neg (by simpa using hx),
        List.filter_eq_self.mpr hrest]
    · rw [List.eraseP_cons_of_neg (by simpa using hx), List.filter_cons_of_pos (by simpa using hx),
        ih h.2]

end General

/-- The observers that watch the state, each with the variable that owns its subscription. -/
structure FanOut (η ω : Type) where
  watching : List (η × ω) := []
  last : ClientState := .other "DISCONNECTED"
  calls : List (ω × ClientState × String) := []

namespace FanOut

variable {η ω : Type} [DecidableEq η]

/-- The variables that own a subscription, in the order in which the observers were registered. -/
def holders (f : FanOut η ω) : List η := f.watching.map Prod.fst

/-- The observer that belongs to the variable `h` stops watching. A variable without a subscription
changes nothing. -/
def drop (f : FanOut η ω) (h : η) : FanOut η ω :=
  { f with watching := f.watching.filter fun w => w.1 ≠ h }

/-- The subscription of `other` passes to `h`, and keeps its place in the order. -/
def pass (f : FanOut η ω) (h other : η) : FanOut η ω :=
  { f with watching := f.watching.map fun w => (if w.1 = other then h else w.1, w.2) }

/-- One operation on the abstract fan-out. It is not possible to subscribe with a variable that
holds an observer, as the source moves a new subscription into an empty variable. -/
def step (f : FanOut η ω) : SubscriptionOp η ω → Option (FanOut η ω)
  | .subscribe h obs =>
    if h ∈ f.holders then none else some { f with watching := f.watching ++ [(h, obs)] }
  | .moveConstruct h other =>
    if h = other ∨ h ∈ f.holders then none else some (f.pass h other)
  | .moveAssign h other => some (if h ≠ other then (f.drop h).pass h other else f)
  | .reset h => some (f.drop h)
  | .destroy h => some (f.drop h)
  | .dispatch state reason =>
    some { f with
      last := state
      calls := f.calls ++ f.watching.map fun w => (w.2, state, reason) }

/-- A sequence of operations, each of which has to be possible where it comes. -/
def run (f : FanOut η ω) : List (SubscriptionOp η ω) → Option (FanOut η ω)
  | [] => some f
  | op :: ops => (f.step op).bind fun f' => f'.run ops

end FanOut

variable {η ω : Type}

namespace ClientStateDispatcher

/-- The entries belong to the variables with an owner, one to each, in the same order. -/
structure Linked (d : ClientStateDispatcher Unit η ω) (f : FanOut η ω) : Prop where
  entries : d.observers.map (fun e => (e.id, e.obs)) =
    f.watching.map fun w => ((d.handles w.1).id, w.2)
  distinct : f.holders.Nodup
  owner_iff : ∀ h, (d.handles h).owner = true ↔ h ∈ f.holders

variable {d : ClientStateDispatcher Unit η ω} {f : FanOut η ω}

/-- Nobody watches at the start, on either side. -/
theorem linked_init : Linked ({} : ClientStateDispatcher Unit η ω) ({} : FanOut η ω) :=
  ⟨rfl, List.nodup_nil, fun _ => by simp [FanOut.holders]⟩

/-- The identifiers of at most `2 ^ 64` subscriptions differ. -/
theorem Valid.ids_nodup (hv : d.Valid) (hcount : d.count ≤ 2 ^ 64) :
    (d.observers.map ObserverEntry.id).Nodup := by
  have hids : d.observers.map ObserverEntry.id =
      (d.observers.map ObserverEntry.number).map idOf := by
    rw [List.map_map]
    exact List.map_congr_left fun e he => (hv.entries e he).1
  rw [hids]
  refine List.Nodup.map_on (fun m hm n hn heq => ?_) hv.distinct
  obtain ⟨e, he, rfl⟩ := List.mem_map.mp hm
  obtain ⟨e', he', rfl⟩ := List.mem_map.mp hn
  exact idOf_inj ((hv.entries e he).2.trans_le hcount) ((hv.entries e' he').2.trans_le hcount) heq

/-- A variable with an owner is known by its identifier. -/
theorem Linked.id_inj (hl : Linked d f) (hids : (d.observers.map ObserverEntry.id).Nodup) {h k : η}
    (hh : h ∈ f.holders) (hk : k ∈ f.holders) (heq : (d.handles h).id = (d.handles k).id) :
    h = k := by
  have hsame : d.observers.map ObserverEntry.id = f.holders.map fun h => (d.handles h).id := by
    have := congrArg (List.map Prod.fst) hl.entries
    simpa only [FanOut.holders, List.map_map, Function.comp_def] using this
  rw [hsame] at hids
  exact List.inj_on_of_nodup_map hids hh hk heq

variable [DecidableEq η]

/-- To give up a subscription takes the same observer out of both lists. The identifiers have to
differ, since the dispatcher searches by them. -/
theorem Linked.reset (hl : Linked d f) (hids : (d.observers.map ObserverEntry.id).Nodup) (h : η) :
    Linked (d.reset h) (f.drop h) := by
  have hholders : (f.drop h).holders = f.holders.filter fun k => k ≠ h := by
    rw [FanOut.holders, FanOut.drop, FanOut.holders, List.filter_map]
    rfl
  cases howner : (d.handles h).owner with
  | false =>
    -- A handle that owns nothing: both sides stay as they are.
    have hout : h ∉ f.holders := fun hmem => by simpa [howner] using (hl.owner_iff h).mpr hmem
    have hsame : f.drop h = f := by
      have hall : f.watching.filter (fun w => w.1 ≠ h) = f.watching := by
        refine List.filter_eq_self.mpr fun w hw => ?_
        rw [decide_eq_true_eq]
        rintro rfl
        exact hout (List.mem_map_of_mem hw)
      rw [FanOut.drop, hall]
    rw [reset_of_free howner, hsame]
    exact hl
  | true =>
    have hmem : h ∈ f.holders := (hl.owner_iff h).mp howner
    rw [reset_of_owner howner]
    refine ⟨?_, hholders ▸ hl.distinct.filter _, fun k => ?_⟩
    · -- The identifier finds the entry of `h`, and no other.
      have hkeys : ((d.observers.map fun e => (e.id, e.obs)).map Prod.fst).Nodup := by
        rwa [List.map_map]
      have hother : ∀ w ∈ f.watching,
          decide ((d.handles w.1).id ≠ (d.handles h).id) = decide (w.1 ≠ h) := by
        intro w hw
        have hiff : (d.handles w.1).id = (d.handles h).id ↔ w.1 = h :=
          ⟨hl.id_inj hids (List.mem_map_of_mem hw) hmem, fun heq => by rw [heq]⟩
        simp only [ne_eq, hiff]
      calc (d.observers.eraseP fun e => e.id = (d.handles h).id).map (fun e => (e.id, e.obs))
          = (d.observers.map fun e => (e.id, e.obs)).eraseP
              (fun p => p.1 = (d.handles h).id) := by
            rw [List.eraseP_map]
            rfl
        _ = (f.watching.map fun w => ((d.handles w.1).id, w.2)).filter
              (fun p => p.1 ≠ (d.handles h).id) := by
            rw [eraseP_eq_filter_of_nodup hkeys, hl.entries]
        _ = (f.watching.filter fun w => w.1 ≠ h).map
              (fun w => ((d.handles w.1).id, w.2)) := by
            rw [List.filter_map]
            exact congrArg (List.map _) (List.filter_congr hother)
        _ = _ := by
            refine List.map_congr_left fun w hw => ?_
            have hne : w.1 ≠ h := of_decide_eq_true (List.mem_filter.mp hw).2
            simp only [handles_setHandle, if_neg hne]
            rfl
    · rw [hholders, List.mem_filter, handles_setHandle]
      by_cases hk : k = h
      · simp [hk]
      · rw [if_neg hk]
        exact (hl.owner_iff k).trans ⟨fun hmem => ⟨hmem, decide_eq_true hk⟩, And.left⟩

/-- To pass a subscription on changes its owner on both sides, and leaves the order of the
observers. -/
theorem Linked.moveConstruct (hl : Linked d f) {h other : η} (hne : h ≠ other)
    (hfree : (d.handles h).owner = false) : Linked (d.moveConstruct h other) (f.pass h other) := by
  have hout : h ∉ f.holders := fun hmem => by simpa [hfree] using (hl.owner_iff h).mpr hmem
  have hhandles : ∀ k, (d.moveConstruct h other).handles k =
      if k = other then { d.handles other with owner := false }
      else if k = h then d.handles other else d.handles k := by
    intro k
    rw [ClientStateDispatcher.moveConstruct, handles_setHandle, handles_setHandle]
  have hholders : (f.pass h other).holders =
      f.holders.map fun k => if k = other then h else k := by
    rw [FanOut.holders, FanOut.pass, FanOut.holders, List.map_map, List.map_map]
    rfl
  refine ⟨?_, ?_, fun k => ?_⟩
  · show d.observers.map (fun e => (e.id, e.obs)) = (f.watching.map _).map _
    rw [hl.entries, List.map_map]
    refine List.map_congr_left fun w hw => ?_
    have hw' : w.1 ≠ h := fun heq => hout (heq ▸ List.mem_map_of_mem hw)
    simp only [Function.comp_apply, hhandles]
    by_cases hother : w.1 = other
    · rw [if_pos hother, if_neg hne, if_pos rfl, hother]
    · rw [if_neg hother, if_neg hother, if_neg hw']
  · rw [hholders]
    -- The renaming of `other` to `h` is injective here, for `h` holds nothing.
    refine List.Nodup.map_on (fun k hk k' hk' heq => ?_) hl.distinct
    have hkh : k ≠ h := fun hkh => hout (hkh ▸ hk)
    have hkh' : k' ≠ h := fun hkh' => hout (hkh' ▸ hk')
    split at heq <;> split at heq <;> grind
  · rw [hholders, hhandles, List.mem_map]
    by_cases hko : k = other
    -- Who owns after the move: not `other`, `h` if `other` did, and every third handle as before.
    · rw [if_pos hko]
      constructor
      · intro hcontra
        cases hcontra
      · rintro ⟨k', hk', heq⟩
        split at heq <;> grind
    · rw [if_neg hko]
      by_cases hkh : k = h
      · rw [if_pos hkh, hl.owner_iff other]
        constructor
        · intro hmem
          exact ⟨other, hmem, by rw [if_pos rfl, hkh]⟩
        · rintro ⟨k', hk', heq⟩
          split at heq <;> grind
      · rw [if_neg hkh, hl.owner_iff k]
        constructor
        · intro hmem
          exact ⟨k, hmem, if_neg hko⟩
        · rintro ⟨k', hk', heq⟩
          split at heq <;> grind

/-- A variable that subscribes owns the new entry, and the others own what they did. -/
theorem handles_subscribe (d : ClientStateDispatcher Unit η ω) (h k : η) (obs : ω) :
    (d.subscribe h obs).handles k =
      if k = h then { owner := true, id := d.nextId, number := d.count } else d.handles k :=
  handles_setHandle (d := d) h _ k

/-- A new observer comes last on both sides. -/
theorem Linked.subscribe (hl : Linked d f) {h : η} (hfree : (d.handles h).owner = false) (obs : ω) :
    Linked (d.subscribe h obs) { f with watching := f.watching ++ [(h, obs)] } := by
  -- The variable is free, so it holds no place in the fan-out yet.
  have hout : h ∉ f.holders := fun hmem => by simpa [hfree] using (hl.owner_iff h).mpr hmem
  have hhandles := fun k => d.handles_subscribe h k obs
  refine ⟨?_, ?_, fun k => ?_⟩
  · show (d.observers ++ [_]).map (fun e : ObserverEntry ω => (e.id, e.obs)) =
      (f.watching ++ [(h, obs)]).map _
    rw [List.map_append, List.map_append, hl.entries]
    congr 1
    · refine List.map_congr_left fun w hw => ?_
      have hw' : w.1 ≠ h := fun heq => hout (heq ▸ List.mem_map_of_mem hw)
      rw [hhandles, if_neg hw']
    · simp only [List.map_cons, List.map_nil, hhandles, if_pos]
  · show ((f.watching ++ [(h, obs)]).map Prod.fst).Nodup
    rw [List.map_append]
    exact List.nodup_append'.mpr ⟨hl.distinct, List.nodup_singleton _,
      List.disjoint_singleton.mpr hout⟩
  · show _ ↔ k ∈ (f.watching ++ [(h, obs)]).map Prod.fst
    rw [hhandles, List.map_append, List.mem_append, List.map_cons, List.map_nil,
      List.mem_singleton]
    by_cases hk : k = h
    · simp [hk]
    · rw [if_neg hk, hl.owner_iff k]
      simp [hk, FanOut.holders]

end ClientStateDispatcher

/-- The dispatcher does what it is for: it holds exactly the observers of the abstract fan-out under
distinct identifiers, remembers the same last state, and has made the same calls. -/
structure Exact (s : DispatcherRun η ω) (f : FanOut η ω) : Prop where
  linked : s.dispatcher.Linked f
  ids : (s.dispatcher.observers.map ObserverEntry.id).Nodup
  last : s.dispatcher.last = f.last
  calls : s.calls.map (fun c => (c.obs, c.state, c.reason)) = f.calls

/-- A new dispatcher is an exact fan-out without observers. -/
theorem exact_init : Exact ({} : DispatcherRun η ω) ({} : FanOut η ω) :=
  ⟨ClientStateDispatcher.linked_init, List.nodup_nil, rfl, rfl⟩

/-- A dispatch calls every observer that watches, once and in order. -/
theorem Exact.calls_dispatch {s : DispatcherRun η ω} {f : FanOut η ω} (hexact : Exact s f)
    (throws : Nat → Bool) (state : ClientState) (reason : String) :
    ((ClientStateDispatcher.callAll throws state reason s.dispatcher.observers).run.run
        s.calls).2.map (fun c => (c.obs, c.state, c.reason)) =
      f.calls ++ f.watching.map fun w => (w.2, state, reason) := by
  obtain ⟨made, hrun, hmade⟩ := ClientStateDispatcher.run_callAll throws state reason
    s.dispatcher.observers s.calls
  have hobservers : s.dispatcher.observers.map ObserverEntry.obs = f.watching.map Prod.snd := by
    have := congrArg (List.map Prod.snd) hexact.linked.entries
    simpa only [List.map_map, Function.comp_def] using this
  rw [hrun]
  show (s.calls ++ made).map _ = _
  rw [List.map_append, hexact.calls, hmade]
  congr 1
  calc s.dispatcher.observers.map (fun e => (e.obs, state, reason))
      = (s.dispatcher.observers.map ObserverEntry.obs).map fun obs => (obs, state, reason) := by
        rw [List.map_map]; rfl
    _ = f.watching.map fun w => (w.2, state, reason) := by
        rw [hobservers, List.map_map]; rfl

/-- The operation uses up an identifier. No other one does. -/
def SubscriptionOp.subscribes : SubscriptionOp η ω → Bool
  | .subscribe _ _ => true
  | _ => false

section Run
variable [DecidableEq η] {throws : Nat → Bool} {s s' : DispatcherRun η ω} {f : FanOut η ω}
  {op : SubscriptionOp η ω}

/-- To give up a subscription does not change how many there have been. -/
theorem count_reset (d : ClientStateDispatcher Unit η ω) (h : η) : (d.reset h).count = d.count := by
  cases howner : (d.handles h).owner with
  | false => rw [ClientStateDispatcher.reset_of_free howner]
  | true => rw [ClientStateDispatcher.reset_of_owner howner]; rfl

/-- Nor does a `reset` change the last state, which a new observer can ask for. -/
theorem last_reset (d : ClientStateDispatcher Unit η ω) (h : η) : (d.reset h).last = d.last := by
  cases howner : (d.handles h).owner with
  | false => rw [ClientStateDispatcher.reset_of_free howner]
  | true => rw [ClientStateDispatcher.reset_of_owner howner]; rfl

/-- The dispatcher counts the subscriptions, and nothing else changes the count. -/
theorem count_step (hstep : s.step throws op = some s') :
    s'.dispatcher.count = s.dispatcher.count + if op.subscribes then 1 else 0 := by
  cases op with
  | subscribe h obs =>
    simp only [DispatcherRun.step] at hstep
    split at hstep
    · cases hstep
    · cases hstep; rfl
  | moveConstruct h other =>
    simp only [DispatcherRun.step] at hstep
    split at hstep
    · cases hstep
    · cases hstep; rfl
  | moveAssign h other =>
    cases hstep
    show (s.dispatcher.moveAssign h other).count = _
    -- An assignment of a variable to itself does nothing.
    unfold ClientStateDispatcher.moveAssign
    split
    · exact count_reset s.dispatcher h
    · rfl
  | reset h => cases hstep; exact count_reset s.dispatcher h
  | destroy h => cases hstep; exact count_reset s.dispatcher h
  | dispatch state reason => cases hstep; rfl

/-- An operation keeps the relation to the abstract fan-out, as long as the identifiers have not
wrapped. -/
theorem exact_step (hexact : Exact s f) (hv : s'.dispatcher.Valid)
    (hcount : s'.dispatcher.count ≤ 2 ^ 64) (hstep : s.step throws op = some s') :
    ∃ f', f.step op = some f' ∧ Exact s' f' := by
  have hids := hv.ids_nodup hcount
  have hl := hexact.linked
  have hfree : ∀ {h : η}, ¬ (s.dispatcher.handles h).owner = true → h ∉ f.holders :=
    fun howner hmem => howner ((hl.owner_iff _).mpr hmem)
  cases op with
  | subscribe h obs =>
    simp only [DispatcherRun.step] at hstep
    split at hstep
    · cases hstep
    · next howner =>
      cases hstep
      exact ⟨_, if_neg (hfree howner), hl.subscribe (Bool.eq_false_iff.mpr howner) obs, hids,
        hexact.last, hexact.calls⟩
  | moveConstruct h other =>
    simp only [DispatcherRun.step] at hstep
    split at hstep
    · cases hstep
    · next hguard =>
      cases hstep
      rw [not_or] at hguard
      exact ⟨_, if_neg (not_or.mpr ⟨hguard.1, hfree hguard.2⟩),
        hl.moveConstruct hguard.1 (Bool.eq_false_iff.mpr hguard.2), hids, hexact.last,
        hexact.calls⟩
  | moveAssign h other =>
    -- A move assignment is a reset and a move construction, or nothing at all on itself.
    cases hstep
    refine ⟨_, rfl, ?_⟩
    show Exact { s with dispatcher := s.dispatcher.moveAssign h other } _
    by_cases heq : h = other
    · rw [if_neg (not_not.mpr heq), ClientStateDispatcher.moveAssign, if_neg (not_not.mpr heq)]
      exact hexact
    · have hassign : s.dispatcher.moveAssign h other =
          (s.dispatcher.reset h).moveConstruct h other := if_pos heq
      rw [if_pos heq]
      refine ⟨?_, hids, ?_, hexact.calls⟩
      · show (s.dispatcher.moveAssign h other).Linked _
        rw [hassign]
        exact (hl.reset hexact.ids h).moveConstruct heq (s.dispatcher.owner_reset h)
      · show (s.dispatcher.moveAssign h other).last = f.last
        rw [hassign, ← hexact.last, ← last_reset s.dispatcher h]
        rfl
  | reset h =>
    cases hstep
    exact ⟨_, rfl, hl.reset hexact.ids h, hids, (last_reset s.dispatcher h).trans hexact.last,
      hexact.calls⟩
  | destroy h =>
    cases hstep
    exact ⟨_, rfl, hl.reset hexact.ids h, hids, (last_reset s.dispatcher h).trans hexact.last,
      hexact.calls⟩
  | dispatch state reason =>
    cases hstep
    exact ⟨_, rfl, ⟨hl.entries, hl.distinct, hl.owner_iff⟩, hids, rfl,
      hexact.calls_dispatch throws state reason⟩

/-- An operation keeps the identifiers right, as it is a sequence of steps of one thread. -/
theorem valid_step (hv : s.dispatcher.Valid) (hq : s.dispatcher.Quiet)
    (hstep : s.step throws op = some s') (hcount : s'.dispatcher.count ≤ 2 ^ 64) :
    s'.dispatcher.Valid :=
  hv.run (ClientStateDispatcher.run_of_runActions
    (DispatcherRun.runActions_of_step hstep hq).1) hcount

/-- A sequence of operations keeps the dispatcher exact, from any exact state with room for its
subscriptions. The induction is on the operations, with `exact_step` in each step. -/
theorem exact_run_from {ops : List (SubscriptionOp η ω)} (hexact : Exact s f)
    (hv : s.dispatcher.Valid) (hq : s.dispatcher.Quiet) (hrun : s.run throws ops = some s')
    (hcount : s.dispatcher.count + ops.countP SubscriptionOp.subscribes ≤ 2 ^ 64) :
    ∃ f', f.run ops = some f' ∧ Exact s' f' := by
  induction ops generalizing s f with
  | nil => cases hrun; exact ⟨f, rfl, hexact⟩
  | cons op ops ih =>
    obtain ⟨s₁, hstep, hrest⟩ := Option.bind_eq_some_iff.mp hrun
    have hcount₁ := count_step hstep
    rw [List.countP_cons] at hcount
    have hle : s₁.dispatcher.count + ops.countP SubscriptionOp.subscribes ≤ 2 ^ 64 := by omega
    have hv₁ := valid_step hv hq hstep (by omega)
    obtain ⟨f₁, hf₁, hexact₁⟩ := exact_step hexact hv₁ (by omega) hstep
    obtain ⟨f', hf', hexact'⟩ := ih hexact₁ hv₁ (DispatcherRun.runActions_of_step hstep hq).2 hrest
      hle
    exact ⟨f', Option.bind_eq_some_iff.mpr ⟨f₁, hf₁, hf'⟩, hexact'⟩

/-- With at most `2 ^ 64` subscriptions, the dispatcher does what it is for after every sequence of
operations: the abstract fan-out can make the same operations, and both have called the same
observers. -/
theorem exact_run {ops : List (SubscriptionOp η ω)}
    (hcount : ops.countP SubscriptionOp.subscribes ≤ 2 ^ 64)
    (hrun : ({} : DispatcherRun η ω).run throws ops = some s) :
    ∃ f, ({} : FanOut η ω).run ops = some f ∧ Exact s f :=
  exact_run_from exact_init ClientStateDispatcher.valid_init ClientStateDispatcher.quiet_init hrun
    (by rwa [show ({} : DispatcherRun η ω).dispatcher.count = 0 from rfl, Nat.zero_add])

end Run

/-- An observer that throws, a move over an owner and one onto itself, and two dispatches. -/
def sampleOps : List (SubscriptionOp (Fin 3) String) :=
  [.subscribe 0 "watchdog", .subscribe 1 "poller", .dispatch .streamsReady "", .moveConstruct 2 0,
    .moveAssign 2 1, .moveAssign 2 2, .dispatch .authFailed "denied", .reset 2, .destroy 2]

/-- A run in which observers throw, subscribe, move and go: it is possible on both sides, and
exact. -/
theorem exact_run_sample :
    ∃ s f, ({} : DispatcherRun (Fin 3) String).run (fun _ => true) sampleOps =
    some s ∧ ({} : FanOut (Fin 3) String).run sampleOps = some f ∧ Exact s f := by
  have hrun : (({} : DispatcherRun (Fin 3) String).run
    (fun _ => true) sampleOps).isSome := by decide
  obtain ⟨f, hf, hexact⟩ := exact_run (by decide) (Option.some_get hrun).symm
  exact ⟨_, f, (Option.some_get hrun).symm, hf, hexact⟩

/-- One subscription that stays, many that are made and reset at once, and one more. -/
def churn (k : Nat) : List (SubscriptionOp Bool String) :=
  .subscribe false "first" ::
    ((List.replicate k [.subscribe true "next", .reset true]).flatten ++ [.subscribe true "next"])

/-- The first subscription stays, and `k` others have come and gone. -/
structure Churned (s : DispatcherRun Bool String) (k : Nat) : Prop where
  observers : s.dispatcher.observers = [{ id := idOf 0, obs := "first", number := 0 }]
  nextId : s.dispatcher.nextId = idOf (k + 1)
  free : (s.dispatcher.handles true).owner = false

/-- Two sequences one after the other are one. -/
theorem run_append {throws : Nat → Bool} [DecidableEq η] {s s' s'' : DispatcherRun η ω}
    {ops ops' : List (SubscriptionOp η ω)} (hfst : s.run throws ops = some s')
    (hsnd : s'.run throws ops' = some s'') : s.run throws (ops ++ ops') = some s'' := by
  induction ops generalizing s with
  | nil => cases hfst; exact hsnd
  | cons op ops ih =>
    obtain ⟨s₁, hstep, hrest⟩ := Option.bind_eq_some_iff.mp hfst
    exact Option.bind_eq_some_iff.mpr ⟨s₁, hstep, ih hrest⟩

/-- A dispatcher that has been churned can take another subscription. -/
theorem Churned.subscribe {s : DispatcherRun Bool String} {k : Nat} (h : Churned s k) :
    s.step (fun _ => false) (.subscribe true "next") =
      some { s with dispatcher := s.dispatcher.subscribe true "next" } := by
  simp only [DispatcherRun.step, h.free, Bool.false_eq_true, if_false]

/-- A subscription and its reset leave the first entry where it is. -/
theorem Churned.next {s : DispatcherRun Bool String} {k : Nat} (h : Churned s k)
    (hk : k + 1 < 2 ^ 64) :
    ∃ s', s.run (fun _ => false) [.subscribe true "next", .reset true] = some s' ∧
      Churned s' (k + 1) := by
  have howner : ((s.dispatcher.subscribe true "next").handles true).owner = true := by
    rw [ClientStateDispatcher.handles_subscribe, if_pos rfl]
  have hid : ((s.dispatcher.subscribe true "next").handles true).id = idOf (k + 1) := by
    rw [ClientStateDispatcher.handles_subscribe, if_pos rfl, h.nextId]
  have hne : idOf 0 ≠ idOf (k + 1) := fun heq => by
    have := ClientStateDispatcher.idOf_inj (by omega) hk heq
    omega
  -- The new entry has another identifier than the first one, so its removal spares the first.
  refine ⟨{ s with dispatcher := (s.dispatcher.subscribe true "next").reset true }, ?_, ?_, ?_, ?_⟩
  · show (s.step _ (.subscribe true "next")).bind _ = _
    rw [h.subscribe]
    rfl
  · show ((s.dispatcher.subscribe true "next").reset true).observers = _
    rw [ClientStateDispatcher.reset_of_owner howner, hid]
    show (s.dispatcher.observers ++ [_]).eraseP
      (fun e : ObserverEntry String => e.id = idOf (k + 1))
      = _
    rw [h.observers, h.nextId]
    simp [hne]
  · show ((s.dispatcher.subscribe true "next").reset true).nextId = _
    rw [ClientStateDispatcher.reset_of_owner howner]
    show s.dispatcher.nextId + 1 = _
    rw [h.nextId, idOf, idOf, UInt64.ofNat_add (k + 1 + 1) 1]
    rfl
  · exact (s.dispatcher.subscribe true "next").owner_reset true

/-- Each round of a subscription that is given up again uses up one identifier. The induction is on
the rounds. -/
theorem Churned.run {s : DispatcherRun Bool String} {j : Nat} (h : Churned s j) (k : Nat)
    (hk : j + k < 2 ^ 64) :
    ∃ s', s.run (fun _ => false)
        (List.replicate k [.subscribe true "next", .reset true]).flatten = some s' ∧
      Churned s' (j + k) := by
  induction k generalizing s j with
  | zero => exact ⟨s, rfl, h⟩
  | succ k ih =>
    obtain ⟨s₁, hrun₁, h₁⟩ := h.next (by omega)
    obtain ⟨s', hrun', h'⟩ := ih h₁ (by omega)
    refine ⟨s', run_append hrun₁ hrun', ?_⟩
    rwa [show j + (k + 1) = j + 1 + k by omega]

/-- The whole run that uses up `k` identifiers and then subscribes once more. -/
theorem run_churn {k : Nat} (hk : k < 2 ^ 64) : ∃ s : DispatcherRun Bool String, Churned s k ∧
    ({} : DispatcherRun Bool String).run (fun _ => false) (churn k) =
      some { s with dispatcher := s.dispatcher.subscribe true "next" } := by
  let start : ClientStateDispatcher Unit Bool String := {}
  have hfirst : Churned { dispatcher := start.subscribe false "first" } 0 := ⟨rfl, rfl, rfl⟩
  obtain ⟨s, hrun, hs⟩ := hfirst.run k (by omega)
  rw [Nat.zero_add] at hs
  have hlast : s.run (fun _ => false) [.subscribe true "next"] =
      some { s with dispatcher := s.dispatcher.subscribe true "next" } := by
    show (s.step _ _).bind _ = _
    rw [hs.subscribe]
    rfl
  exact ⟨s, hs, run_append hrun hlast⟩

/-- The identifier of the `2 ^ 64 + 1`-st subscription is that of the first, which is still
registered. -/
theorem not_exact_sample : ¬ ∀ (ops : List (SubscriptionOp Bool String))
    (s : DispatcherRun Bool String),
    ({} : DispatcherRun Bool String).run (fun _ => false) ops = some s →
      ∃ f, ({} : FanOut Bool String).run ops = some f ∧ Exact s f := by
  intro hall
  obtain ⟨s, hs, hrun⟩ := run_churn (k := 2 ^ 64 - 1) (by omega)
  obtain ⟨f, -, hexact⟩ := hall _ _ hrun
  have hwrap : idOf (2 ^ 64 - 1 + 1) = idOf 0 := by decide +kernel
  let entry : ObserverEntry String :=
    { id := s.dispatcher.nextId, obs := "next", number := s.dispatcher.count }
  have hids : ((s.dispatcher.observers ++ [entry]).map ObserverEntry.id).Nodup := hexact.ids
  have hid : entry.id = idOf 0 := hs.nextId.trans hwrap
  rw [hs.observers, List.map_append] at hids
  simp [hid] at hids

end ThinrAgent
