import ThinrAgent.Proofs.PowerCut
import ThinrAgent.Utils.WriteCalls

/-!
# `ThinrAgent.Proofs.AtomicWrite`: `write_atomic` is all or nothing

`AtStage` is what holds between two system calls of `write_atomic`, for each call that may come
next: until the rename only the temporary file has changed, and the loop has written a prefix of
the content to it. `AtStage.step` is the step lemma, and `writeAtomic_allOrNothing` what follows
for every run and every power cut in it. The loop ends for every sequence of returns that is not
interrupted for ever (`exists_done`).

`writeAtomic_simulates` connects the calls with the program `writeAtomic`, which the rest of the
development reasons about.
-/

set_option autoImplicit false

namespace ThinrAgent

open Effects

namespace WriteCall

variable {β : Type} {c : WriteCall} {enc : List UInt8 → Content β} {opened : Prop} {w : World β}
  {s : State β} {r : SysReturn} {rs : List SysReturn}

/-- The temporary file is another file than the target. -/
theorem tmp_ne (c : WriteCall) : c.tmp ≠ c.path := tempPath_ne c.path c.pid

/-! ### Between two calls -/

/-- The target has the new content, and the temporary file is gone. A power cut leaves the new
content, or what it could leave before. -/
structure Renamed (c : WriteCall) (enc : List UInt8 → Content β) (w w' : World β) : Prop where
  target : w'.entry c.path = some (enc c.content, true)
  disk : w'.disk c.path ⊆ some (enc c.content, true) :: w.disk c.path
  tmp : w'.files c.tmp = none

/-- What holds before the call of a stage, for a call of `write_atomic` that began in `w`. Where it
is known to have opened its temporary file, a failure has removed that file. -/
def AtStage (c : WriteCall) (enc : List UInt8 → Content β) (opened : Prop) (w : World β)
    (s : State β) : Prop :=
  match s.stage with
  | .opening => ¬ opened ∧ s.written = [] ∧ s.world = w
  | .writing off => off < c.content.length ∧ s.written = c.content.take off ∧
      World.Scratch [c.tmp] w s.world ∧ s.world.entry c.tmp = some (enc s.written, false)
  | .syncing => s.written = c.content ∧ World.Scratch [c.tmp] w s.world ∧
      s.world.entry c.tmp = some (enc c.content, false)
  | .closing true | .moving => s.written = c.content ∧ World.Scratch [c.tmp] w s.world ∧
      s.world.entry c.tmp = some (enc c.content, true)
  | .closing false | .removing => s.written <+: c.content ∧ World.Scratch [c.tmp] w s.world
  | .syncingDir | .done true => s.written = c.content ∧ c.Renamed enc w s.world
  | .done false => s.written <+: c.content ∧ World.Scratch [c.tmp] w s.world ∧
      (s.world.files c.tmp = none ∨ ¬ opened ∧ s.world = w)

/-- The head of the loop, with a prefix written. -/
theorem atStage_loop {off : Nat} {w' : World β} (hoff : off ≤ c.content.length)
    (hw : World.Scratch [c.tmp] w w')
    (htmp : w'.entry c.tmp = some (enc (c.content.take off), false)) :
    c.AtStage enc opened w { stage := c.loop off, written := c.content.take off, world := w' } := by
  unfold loop
  split
  · exact ⟨‹_›, rfl, hw, htmp⟩
  · have hall : c.content.take off = c.content := List.take_of_length_le (by omega)
    exact ⟨hall, hw, by rwa [hall] at htmp⟩

/-- One more `write` appends the bytes after the ones that are written. -/
theorem take_append_chunk {text : List UInt8} {off n : Nat} :
    text.take off ++ (text.drop off).take n = text.take (off + n) :=
  List.take_add.symm

/-- The rename of a complete temporary file puts its content in the place of the target. A power cut
finds the old target or the new one. -/
theorem renamed_of_rename {w' : World β} (hw : World.Scratch [c.tmp] w w')
    (htmp : w'.entry c.tmp = some (enc c.content, true)) :
    c.Renamed enc w (w'.rename c.tmp c.path) := by
  have hne := c.tmp_ne
  rw [World.rename, if_neg hne]
  refine ⟨(World.entry_move_dst _ _).trans htmp, ?_, ?_⟩
  · rw [World.disk_move_dst hne, htmp]
    exact List.cons_subset_cons _ (hw.disk _ (by simpa using hne.symm))
  · rw [World.files_eq, World.entry_move_src hne]
    rfl

/-- The step lemma: every call keeps the invariant of its stage. -/
theorem AtStage.step (h : c.AtStage enc opened w s) (hr : c.Returns s.stage r) :
    c.AtStage enc opened w (c.step enc s r) := by
  obtain ⟨stage, written, world⟩ := s
  have failed (hw : World.Scratch [c.tmp] w world) (hwritten : written <+: c.content) :
      c.AtStage enc opened w { stage := .closing false, written, world } := ⟨hwritten, hw⟩
  cases stage with
  | opening =>
    -- An `open` that fails leaves no temporary file, so there is nothing to remove.
    obtain ⟨hopened, rfl, rfl⟩ := h
    cases r with
    | ok =>
      refine atStage_loop (Nat.zero_le _) (World.Scratch.setFile _ _ _) ?_
      rw [World.setFile, World.entry_push_self]
      rfl
    | _ => exact ⟨List.nil_prefix, World.Scratch.refl _ _, .inr ⟨hopened, rfl⟩⟩
  | writing off =>
    obtain ⟨hoff, rfl, hw, htmp⟩ := h
    cases r with
    | ok => exact hr.elim
    | wrote n =>
      have hn : off + n ≤ c.content.length := hr.2
      -- A partial write: the loop goes on from the new offset.
      show c.AtStage enc opened w { stage := c.loop (off + n), written := _, world := _ }
      rw [take_append_chunk]
      refine atStage_loop hn (hw.trans (World.Scratch.setFile _ _ _)) ?_
      rw [World.setFile, World.entry_push_self]
      rfl
    -- Nothing was written: the same call again.
    | eintr => exact ⟨hoff, rfl, hw, htmp⟩
    | error => exact failed hw (List.take_prefix _ _)
  | syncing =>
    obtain ⟨rfl, hw, htmp⟩ := h
    cases r with
    | ok =>
      refine ⟨rfl, hw.trans (World.Scratch.syncFile _ _), ?_⟩
      show (world.syncFile c.tmp).entry c.tmp = _
      rw [World.entry_syncFile_self, htmp]
      rfl
    | _ => exact failed hw List.prefix_rfl
  | closing ok =>
    cases ok with
    | true =>
      cases r with
      | ok => exact h
      | _ => exact ⟨h.1 ▸ List.prefix_rfl, h.2.1⟩
    | false => exact h
  | removing =>
    -- The result of `unlink` is not looked at.
    obtain rfl : r = .ok := hr
    obtain ⟨hwritten, hw⟩ := h
    refine ⟨hwritten, ?_, .inl ?_⟩
    · show World.Scratch [c.tmp] w (if (world.files c.tmp).isSome then _ else _)
      split
      · exact hw.trans (World.Scratch.unlink _ _)
      · exact hw
    · show (if (world.files c.tmp).isSome then world.unlink c.tmp else world).files c.tmp = none
      split
      · rw [World.files_eq, World.entry_unlink, World.entry_push_self]
        rfl
      · rename_i hnone
        simpa using hnone
  | moving =>
    -- The one step that touches the target, and it does so only with the whole text on disk.
    obtain ⟨rfl, hw, htmp⟩ := h
    cases r with
    | ok => exact ⟨rfl, renamed_of_rename hw htmp⟩
    | _ => exact ⟨List.prefix_rfl, hw⟩
  | syncingDir =>
    -- A failed sync of the directory only loses the durability of the rename.
    cases r with
    | ok =>
      obtain ⟨hwritten, hrenamed⟩ := h
      refine ⟨hwritten, hrenamed.target, ?_, hrenamed.tmp⟩
      exact List.Subset.trans (World.disk_syncDir_subset _ _) hrenamed.disk
    | _ => exact h
  | done result => exact h

/-- The run lemma: after any number of allowed returns, the files are as the stage says. -/
theorem AtStage.after (h : c.AtStage enc opened w s) (hrs : c.Allows enc s rs) :
    c.AtStage enc opened w (c.after enc s rs) := by
  induction rs generalizing s with
  | nil => exact h
  | cons r rs ih => exact ih (h.step hrs.1) hrs.2

/-! ### Every run -/

/-- The target after a call has the old content or the new one. -/
theorem AtStage.target (h : c.AtStage enc opened w s) :
    s.world.entry c.path = w.entry c.path ∧ s.world.disk c.path ⊆ w.disk c.path ∨
      c.Renamed enc w s.world := by
  have same (hw : World.Scratch [c.tmp] w s.world) :
      s.world.entry c.path = w.entry c.path ∧ s.world.disk c.path ⊆ w.disk c.path :=
    ⟨hw.entry _ (by simpa using c.tmp_ne.symm), hw.disk _ (by simpa using c.tmp_ne.symm)⟩
  obtain ⟨stage, written, world⟩ := s
  cases stage with
  | opening =>
    obtain ⟨-, -, rfl⟩ := h
    exact .inl ⟨rfl, List.Subset.refl _⟩
  | writing off => exact .inl (same h.2.2.1)
  | syncing => exact .inl (same h.2.1)
  | closing ok => cases ok with
    | true => exact .inl (same h.2.1)
    | false => exact .inl (same h.2)
  | removing => exact .inl (same h.2)
  | moving => exact .inl (same h.2.1)
  | syncingDir => exact .inr h.2
  | done result => cases result with
    | true => exact .inr h.2
    | false => exact .inl (same h.2.1)

/-- In every stage the bytes that are written are the first ones of the content. -/
theorem AtStage.written_prefix (h : c.AtStage enc opened w s) : s.written <+: c.content := by
  obtain ⟨stage, written, world⟩ := s
  have all (hw : written = c.content) : written <+: c.content := hw ▸ List.prefix_rfl
  cases stage with
  | opening => exact h.2.1 ▸ List.nil_prefix
  | writing off => exact h.2.1 ▸ List.take_prefix _ _
  | syncing => exact all h.1
  | closing ok => cases ok with
    | true => exact all h.1
    | false => exact h.1
  | removing => exact h.1
  | moving => exact all h.1
  | syncingDir => exact all h.1
  | done result => cases result with
    | true => exact all h.1
    | false => exact h.1

/-- Once the temporary file is open, the invariant knows it. -/
theorem atStage_opened (w : World β) :
    c.AtStage enc True w (c.step enc { world := w } .ok) := by
  refine atStage_loop (Nat.zero_le _) (World.Scratch.setFile _ _ _) ?_
  rw [World.setFile, World.entry_push_self]
  rfl

/-- What a call of `write_atomic` has done after the returns `rs`. -/
structure AllOrNothing (c : WriteCall) (enc : List UInt8 → Content β) (w : World β)
    (rs : List SysReturn) (s : State β) : Prop where
  /-- The target holds its old content or the new one. -/
  current : s.world.files c.path = w.files c.path ∨ s.world.files c.path = some (enc c.content)
  /-- After a power cut it holds the new content, or what a cut could leave before the call. -/
  crash : ∀ f, s.world.PowerCut f →
    (∃ e ∈ w.disk c.path, Entry.Leaves e (f c.path)) ∨ f c.path = some (enc c.content)
  /-- Every byte is written once and in its place. -/
  written : s.written <+: c.content
  success : s.stage = .done true →
    s.world.files c.path = some (enc c.content) ∧ s.written = c.content
  /-- The temporary file is gone, unless it could not be opened. Then nothing has changed. -/
  failure : s.stage = .done false → s.world.files c.path = w.files c.path ∧
    (s.world.files c.tmp = none ∨ rs.head? ≠ some .ok ∧ s.world = w)

/-- What the invariant of a stage says about the target, the power cuts and the bytes. The remark
about a file that could not be opened needs the first return. -/
theorem AtStage.allOrNothing (h : c.AtStage enc opened w s)
    (hopened : opened ∨ rs.head? ≠ some .ok) : c.AllOrNothing enc w rs s where
  current := by
    rcases h.target with ⟨hentry, -⟩ | hrenamed
    · exact .inl (World.files_of_entry hentry)
    · exact .inr (by rw [World.files_eq, hrenamed.target]; rfl)
  crash f hf := by
    -- A cut shows an entry of the target's disk, which the rename has only added to.
    obtain ⟨e, he, hleaves⟩ := hf c.path
    rcases h.target with ⟨-, hdisk⟩ | hrenamed
    · exact .inl ⟨e, hdisk he, hleaves⟩
    · rcases List.mem_cons.mp (hrenamed.disk he) with rfl | he
      · exact .inr hleaves
      · exact .inl ⟨e, he, hleaves⟩
  written := h.written_prefix
  success hdone := by
    simp only [AtStage, hdone] at h
    exact ⟨by rw [World.files_eq, h.2.target]; rfl, h.1⟩
  failure hdone := by
    -- Without a first return `ok` the file was never opened, and nothing has to be removed.
    simp only [AtStage, hdone] at h
    obtain ⟨-, hw, htmp⟩ := h
    refine ⟨hw.files (by simpa using c.tmp_ne.symm), htmp.imp_right fun ⟨hno, heq⟩ => ?_⟩
    exact ⟨hopened.resolve_left hno, heq⟩

/-- Every run of the calls is all or nothing, also one that is cut short after any of its
returns. -/
theorem allOrNothing_of_allows (hrs : c.Allows enc { world := w } rs) :
    c.AllOrNothing enc w rs (c.after enc { world := w } rs) := by
  cases rs with
  | nil =>
    have h : c.AtStage enc False w { world := w } := ⟨not_false, rfl, rfl⟩
    exact h.allOrNothing (.inr (by simp))
  | cons r rs =>
    by_cases hr : r = .ok
    · subst hr
      exact ((atStage_opened w).after hrs.2).allOrNothing (.inl trivial)
    · have h : c.AtStage enc False w { world := w } := ⟨not_false, rfl, rfl⟩
      exact (h.after hrs).allOrNothing (.inr (by simpa using hr))

/-! ### The loop ends -/

/-- How many returns are still to come at most, interruptions apart. It falls with every return that
is none. -/
def remaining (c : WriteCall) : WriteStage → Nat
  | .opening => c.content.length + 8
  | .writing off => c.content.length - off + 7
  | .syncing => 6
  | .closing _ => 5
  | .moving => 4
  | .removing | .syncingDir => 3
  | .done _ => 0

/-- The measure of the loop's next stage is the one of its offset. -/
theorem remaining_loop (c : WriteCall) (off : Nat) :
    c.remaining (c.loop off) ≤ c.content.length - off + 7 := by
  unfold loop
  split
  · exact Nat.le_refl _
  · show 6 ≤ _
    omega

/-- A call comes closer to the end, or is an interrupted `write` that is made again. -/
theorem remaining_step (enc : List UInt8 → Content β) (hr : c.Returns s.stage r)
    (hdone : ∀ b, s.stage ≠ .done b) :
    r = .eintr ∧ c.step enc s r = s ∨
      c.remaining (c.step enc s r).stage < c.remaining s.stage := by
  obtain ⟨stage, written, world⟩ := s
  cases stage with
  | opening =>
    refine .inr ?_
    cases r with
    | ok =>
      have hloop := c.remaining_loop 0
      show c.remaining (c.loop 0) < c.content.length + 8
      omega
    | _ => exact Nat.succ_pos _
  | writing off =>
    cases r with
    | ok => exact hr.elim
    | wrote n =>
      obtain ⟨hn, hlen⟩ := hr
      have hloop := c.remaining_loop (off + n)
      refine .inr ?_
      show c.remaining (c.loop (off + n)) < c.content.length - off + 7
      omega
    -- The only return after which nothing is nearer.
    | eintr => exact .inl ⟨rfl, rfl⟩
    | error =>
      refine .inr ?_
      show 5 < c.content.length - off + 7
      omega
  | syncing => cases r <;> exact .inr (by decide : 5 < 6)
  | closing ok =>
    cases ok with
    | true => cases r <;> first | exact .inr (by decide : 4 < 5) | exact .inr (by decide : 3 < 5)
    | false => exact .inr (by decide : 3 < 5)
  | removing => cases r <;> exact .inr (by decide : 0 < 3)
  | moving => cases r <;> exact .inr (by decide : 3 < 4)
  | syncingDir => cases r <;> exact .inr (by decide : 0 < 3)
  | done result => exact absurd rfl (hdone result)

/-- The call after the first `n` returns of an endless sequence. -/
def prefixAfter (c : WriteCall) (enc : List UInt8 → Content β) (w : World β)
    (returns : Nat → SysReturn) (n : Nat) : State β :=
  c.after enc { world := w } ((List.range n).map returns)

variable {returns : Nat → SysReturn}

/-- One more return is one more step at the end of the run. -/
theorem prefixAfter_succ (n : Nat) : c.prefixAfter enc w returns (n + 1) =
    c.step enc (c.prefixAfter enc w returns n) (returns n) := by
  simp only [prefixAfter, after, List.range_succ, List.map_append, List.foldl_append,
    List.map_cons, List.map_nil, List.foldl_cons, List.foldl_nil]

/-- A sequence of allowed returns that is not interrupted for ever ends the call. -/
theorem exists_done
    (hreturns : ∀ n, c.Returns (c.prefixAfter enc w returns n).stage (returns n))
    (hint : ∀ n, ∃ m, n ≤ m ∧ returns m ≠ .eintr) :
    ∃ n b, (c.prefixAfter enc w returns n).stage = .done b := by
  by_contra hnever
  have hdone (n : Nat) (b : Bool) : (c.prefixAfter enc w returns n).stage ≠ .done b :=
    fun h => hnever ⟨n, b, h⟩
  have hstep (n : Nat) := remaining_step enc (hreturns n) (hdone n)
  -- The number of returns to come never grows, and each return that is no interruption lowers it.
  have hle (n k : Nat) : c.remaining (c.prefixAfter enc w returns (n + k)).stage ≤
      c.remaining (c.prefixAfter enc w returns n).stage := by
    induction k with
    | zero => exact Nat.le_refl _
    | succ k ih =>
      rw [← Nat.add_assoc, prefixAfter_succ]
      rcases hstep (n + k) with ⟨-, hsame⟩ | hless
      · rwa [hsame]
      · omega
  have hless (k : Nat) : ∃ n, c.remaining (c.prefixAfter enc w returns n).stage + k ≤
      c.remaining (c.prefixAfter enc w returns 0).stage := by
    induction k with
    | zero => exact ⟨0, Nat.le_refl _⟩
    | succ k ih =>
      obtain ⟨n, hn⟩ := ih
      obtain ⟨m, hm, hreal⟩ := hint n
      obtain ⟨d, rfl⟩ := Nat.exists_eq_add_of_le hm
      refine ⟨n + d + 1, ?_⟩
      have hbefore := hle n d
      rcases hstep (n + d) with ⟨hintr, -⟩ | hnow
      · exact absurd hintr hreal
      · rw [prefixAfter_succ]
        omega
  obtain ⟨n, hn⟩ := hless (c.remaining (c.prefixAfter enc w returns 0).stage + 1)
  omega

/-- For every content, every previous file and every sequence of allowed returns: the call is all
or nothing after each of them, also when the power is cut there. An endless sequence that is not
interrupted for ever has ended it. -/
theorem writeAtomic_allOrNothing {β : Type} (c : WriteCall) (enc : List UInt8 → Content β)
    (w : World β) :
    (∀ rs, c.Allows enc { world := w } rs →
        c.AllOrNothing enc w rs (c.after enc { world := w } rs)) ∧
      ∀ returns, (∀ n, c.Returns (c.prefixAfter enc w returns n).stage (returns n)) →
        (∀ n, ∃ m, n ≤ m ∧ returns m ≠ .eintr) →
        ∃ n b, (c.prefixAfter enc w returns n).stage = .done b :=
  ⟨fun _ hrs => allOrNothing_of_allows hrs, fun _ hreturns hint => exists_done hreturns hint⟩

/-- A call of the process 7, whose temporary file has this number in its name. -/
def sampleCall : WriteCall := { path := "update.state", pid := 7, content := [1] }

/-- The file that an earlier process with the number 7 has left behind. -/
def sampleStale : State Nat where
  world := .ofFiles (fun p => if p = sampleCall.tmp then some (.raw "\x7b") else none)
    { pid := 7, exe := none }

/-- A temporary file of an earlier process with the same number stays when it cannot be opened. -/
theorem not_removed_sample :
    sampleCall.Allows (fun _ => .raw "") sampleStale [.error] ∧
      (sampleCall.after (fun _ => .raw "") sampleStale [.error]).stage = .done false ∧
      (sampleCall.after (fun _ => .raw "") sampleStale [.error]).world.files sampleCall.tmp =
        some (.raw "\x7b") :=
  ⟨⟨trivial, trivial⟩, rfl, by simp [after, step, sampleStale, World.files_ofFiles]⟩

/-! ### The program -/

/-- `v` and `w` are the same, apart from what a power cut may find of the file `tmp`. -/
structure Follows (tmp : Path) (v w : World β) : Prop where
  entry : v.entry = w.entry
  disk : ∀ q, q ≠ tmp → v.disk q ⊆ w.disk q
  proc : v.proc = w.proc
  renamed : v.renamed = w.renamed

namespace Follows

variable {v : World β} {tmp : Path}

/-- A world follows itself, as nothing of the temporary file has to be hidden. -/
theorem refl (tmp : Path) (w : World β) : Follows tmp w w :=
  ⟨rfl, fun _ _ => List.Subset.refl _, rfl, rfl⟩

/-- The files of two such worlds are the same, as far as a program can see. -/
theorem files (h : Follows tmp v w) : v.files = w.files := by
  funext q
  rw [World.files_eq, World.files_eq, h.entry]

/-- A change of the content of a file is carried over. -/
theorem push (h : Follows tmp v w) (p : Path) (e : Entry β) :
    Follows tmp (v.push p e) (w.push p e) where
  entry := by
    show Function.update v.entry p e = Function.update w.entry p e
    rw [h.entry]
  disk q hq := by
    by_cases hp : q = p
    · subst hp
      rw [World.disk_push_self, World.disk_push_self]
      exact List.cons_subset_cons _ (h.disk q hq)
    · rw [World.disk_push_ne _ hp, World.disk_push_ne _ hp]
      exact h.disk q hq
  proc := h.proc
  renamed := h.renamed

/-- A file that is filled in one step follows one that is filled in several. -/
theorem refill {content content' : Option (Content β)}
    (h : Follows tmp (v.setFile tmp content) w) :
    Follows tmp (v.setFile tmp content') (w.setFile tmp content') where
  entry := by
    funext q
    have hentry := congrFun h.entry q
    by_cases hq : q = tmp
    · subst hq
      rw [World.setFile, World.setFile, World.entry_push_self, World.entry_push_self]
    · rw [World.setFile, World.entry_push_ne _ hq] at hentry
      rw [World.setFile, World.setFile, World.entry_push_ne _ hq, World.entry_push_ne _ hq, hentry]
  disk q hq := by
    have hdisk := h.disk q hq
    rw [World.setFile, World.disk_push_ne _ hq] at hdisk ⊢
    rwa [World.setFile, World.disk_push_ne _ hq]
  proc := h.proc
  renamed := h.renamed

/-- What the file held before does not count. -/
theorem setFile_left {content content' : Option (Content β)}
    (h : Follows tmp (v.setFile tmp content) w) :
    Follows tmp ((v.setFile tmp content').setFile tmp content) w where
  entry := by
    rw [← h.entry]
    exact Function.update_idem ..
  disk q hq := by
    have hdisk := h.disk q hq
    rw [World.setFile, World.disk_push_ne _ hq] at hdisk ⊢
    rwa [World.setFile, World.disk_push_ne _ hq]
  proc := h.proc
  renamed := h.renamed

/-- A sync of the temporary file is carried over: what a power cut finds of it is left open
anyway. -/
theorem syncFile (h : Follows tmp v w) : Follows tmp (v.syncFile tmp) (w.syncFile tmp) where
  entry := by
    show Function.update v.entry tmp _ = Function.update w.entry tmp _
    rw [h.entry]
  disk q hq := by
    rw [World.disk_syncFile_ne hq, World.disk_syncFile_ne hq]
    exact h.disk q hq
  proc := h.proc
  renamed := h.renamed

/-- The removal of a file is carried over. -/
theorem unlink (h : Follows tmp v w) (p : Path) : Follows tmp (v.unlink p) (w.unlink p) where
  entry := (h.push p none).entry
  disk := (h.push p none).disk
  proc := by
    show { v.proc with exe := unlinkExe p v.proc.exe } =
      { w.proc with exe := unlinkExe p w.proc.exe }
    rw [h.proc]
  renamed := h.renamed

/-- A rename in the one world is carried over by the same rename in the other. -/
theorem rename (h : Follows tmp v w) (src dst : Path) :
    Follows tmp (v.rename src dst) (w.rename src dst) := by
  unfold World.rename
  split
  · exact h
  have hpush := (h.push src none).push dst (w.entry src)
  refine ⟨?_, ?_, ?_, ?_⟩
  · show ((v.push src none).push dst (v.entry src)).entry = _
    rw [h.entry]
    exact hpush.entry
  · intro q hq
    show ((v.push src none).push dst (v.entry src)).disk q ⊆ _
    rw [h.entry]
    exact hpush.disk q hq
  · rw [World.proc_move_eq, World.proc_move_eq, h.proc]
  · show (src, dst) :: v.renamed = (src, dst) :: w.renamed
    rw [h.renamed]

/-- A sync of a directory is carried over. -/
theorem syncDir (h : Follows tmp v w) (d : Path) : Follows tmp (v.syncDir d) (w.syncDir d) where
  entry := h.entry
  disk q hq := by
    show v.entry q :: (if d ≠ "" ∧ dirName (parentPath q) = dirName d then [] else v.older q) ⊆
      w.entry q :: (if d ≠ "" ∧ dirName (parentPath q) = dirName d then [] else w.older q)
    split
    · rw [h.entry]
      exact List.Subset.refl _
    · exact h.disk q hq
  proc := h.proc
  renamed := h.renamed

end Follows

section Prog
variable (c : WriteCall) (content : Content β) (mode : Nat)

/-- The end of `writeAtomic` that gives up: the temporary file is removed, and the result is
false. -/
def progRemoving : SysM β Bool := do
  let _ ← fsRemove c.tmp
  return false

/-- `writeAtomic` from the rename on. After the rename the result is true, whatever the directory's
`fsync` answers. -/
def progMoving : SysM β Bool := do
  if (← fsRename c.tmp c.path).isSome then c.progRemoving
  else
    fsyncDir (parentDir c.path)
    return true

/-- `writeAtomic` from the `close` on. The file is closed in every case, also when the write or the
`fsync` has failed. -/
def progClosing (synced : Bool) : SysM β Bool := do
  let closed ← close c.tmp
  if !(synced && closed) then c.progRemoving else c.progMoving

/-- `writeAtomic` from the loop on, behind the `open` of the temporary file. -/
def progWriting : SysM β Bool := do
  let written ← writeAll c.tmp content
  let synced ← if written then fsync c.tmp else pure false
  c.progClosing synced

/-- The program `writeAtomic` from the call of a stage on, which connects the two models of the
function. -/
def prog : WriteStage → SysM β Bool
  | .opening => do
    if !(← openTrunc c.tmp mode) then return false
    c.progWriting content
  | .writing _ => c.progWriting content
  | .syncing => do c.progClosing (← fsync c.tmp)
  | .closing ok => c.progClosing ok
  | .removing => c.progRemoving
  | .moving => c.progMoving
  | .syncingDir => do
    fsyncDir (parentDir c.path)
    return true
  | .done result => return result

end Prog

variable {content : Content β} {mode : Nat} {host : Host β} {v : World β}

/-- `writeAtomic` asks for the number of the process first. -/
theorem after_getpid (hpid : w.proc.pid = c.pid) :
    (hostMachine host).after [.ok] (writeAtomic c.path content mode, w) =
      (c.prog content mode .opening, w) := by
  show ((do
    if !(← openTrunc (tempPath c.path w.proc.pid) mode) then return false
    let written ← writeAll (tempPath c.path w.proc.pid) content
    let synced ← if written then fsync (tempPath c.path w.proc.pid) else pure false
    let closed ← close (tempPath c.path w.proc.pid)
    if !(synced && closed) then
      let _ ← fsRemove (tempPath c.path w.proc.pid)
      return false
    if (← fsRename (tempPath c.path w.proc.pid) c.path).isSome then
      let _ ← fsRemove (tempPath c.path w.proc.pid)
      return false
    fsyncDir (parentDir c.path)
    return true : SysM β Bool), w) = _
  rw [hpid]
  rfl

/-- The world of the program at a stage: the file is filled in one step, after the loop. -/
def Matches (c : WriteCall) (enc : List UInt8 → Content β) (s : State β) (v : World β) : Prop :=
  match s.stage with
  | .writing _ => Follows c.tmp (v.setFile c.tmp (some (enc s.written))) s.world
  | _ => Follows c.tmp v s.world

/-- Where the loop goes on, the program has not filled the file yet. Where it ends, it has. -/
theorem matches_loop (host : Host β) (mode : Nat) {off : Nat} {w' : World β}
    (hoff : off ≤ c.content.length)
    (h : Follows c.tmp (v.setFile c.tmp (some (enc (c.content.take off)))) w') :
    ∃ ds v', (hostMachine host).after ds (c.progWriting (enc c.content), v) =
        (c.prog (enc c.content) mode (c.loop off), v') ∧
      c.Matches enc { stage := c.loop off, written := c.content.take off, world := w' } v' := by
  unfold loop
  split
  · exact ⟨[], v, rfl, h⟩
  · have hall : c.content.take off = c.content := List.take_of_length_le (by omega)
    exact ⟨[.ok], _, rfl, by rwa [hall] at h⟩

/-- Every system call is at most two operations of the program, which goes the same way. -/
theorem Matches.step (host : Host β) (mode : Nat) (h : c.Matches enc s v)
    (hat : c.AtStage enc opened w s)
    (hr : c.Returns s.stage r) :
    ∃ ds v', (hostMachine host).after ds (c.prog (enc c.content) mode s.stage, v) =
        (c.prog (enc c.content) mode (c.step enc s r).stage, v') ∧
      c.Matches enc (c.step enc s r) v' := by
  obtain ⟨stage, written, world⟩ := s
  cases stage with
  | opening =>
    -- The program writes the whole text in one operation, where the calls write it in parts; the
    -- parts so far are the operation cut short.
    cases r with
    | ok =>
      have hempty : Follows c.tmp ((v.setFile c.tmp (some (.raw ""))).setFile c.tmp
          (some (enc (c.content.take 0)))) (world.setFile c.tmp (some (enc (c.content.take 0)))) :=
        Follows.setFile_left (Follows.push h c.tmp _)
      obtain ⟨ds, v', hds, hv'⟩ := matches_loop host mode (Nat.zero_le _) hempty
      exact ⟨.ok :: ds, v', hds, hv'⟩
    | _ => exact ⟨[.fail (.other 0) none], v, rfl, h⟩
  | writing off =>
    obtain ⟨hoff, rfl, -, -⟩ := hat
    cases r with
    | ok => exact hr.elim
    | wrote n =>
      have hn : off + n ≤ c.content.length := hr.2
      have hnext : Follows c.tmp (v.setFile c.tmp (some (enc (c.content.take (off + n)))))
          (world.setFile c.tmp (some (enc (c.content.take (off + n))))) := Follows.refill h
      obtain ⟨ds, v', hds, hv'⟩ := matches_loop host mode hn hnext
      refine ⟨ds, v', hds, ?_⟩
      show c.Matches enc { stage := c.loop (off + n), written := _, world := _ } v'
      rw [take_append_chunk]
      exact hv'
    -- The program does not see an interrupted write.
    | eintr => exact ⟨[], v, rfl, h⟩
    | error => exact ⟨[.fail (.other 0) (some (enc (c.content.take off)))], _, rfl, h⟩
  | syncing =>
    cases r with
    | ok => exact ⟨[.ok], _, rfl, h.syncFile⟩
    | _ => exact ⟨[.fail (.other 0) none], v, rfl, h⟩
  | closing ok =>
    cases ok with
    | true =>
      cases r with
      | ok => exact ⟨[.ok], v, rfl, h⟩
      | _ => exact ⟨[.fail (.other 0) none], v, rfl, h⟩
    | false => exact ⟨[.ok], v, rfl, h⟩
  | removing =>
    obtain rfl : r = .ok := hr
    refine ⟨[.ok], if (v.files c.tmp).isSome then v.unlink c.tmp else v, rfl, ?_⟩
    have hfollows : Follows c.tmp v world := h
    show Follows c.tmp (if (v.files c.tmp).isSome then v.unlink c.tmp else v)
      (if (world.files c.tmp).isSome then world.unlink c.tmp else world)
    rw [hfollows.files]
    split
    · exact hfollows.unlink _
    · exact hfollows
  | moving =>
    -- The temporary file exists, so the program's rename is not the one that fails for a missing
    -- source.
    have hfollows : Follows c.tmp v world := h
    have hfile : (v.files c.tmp).isNone = false := by
      have htmp : world.entry c.tmp = some (enc c.content, true) := hat.2.2
      rw [hfollows.files, World.files_eq, htmp]
      rfl
    cases r with
    | ok =>
      refine ⟨[.ok], v.rename c.tmp c.path, ?_, hfollows.rename _ _⟩
      have hexec : exec host v (.rename c.tmp c.path) .ok = (none, v.rename c.tmp c.path) := by
        simp only [exec, Choice.error, hfile]
        rfl
      show ((fun res : Option Errno => if res.isSome then c.progRemoving else
          (do fsyncDir (parentDir c.path)
              return true : SysM β Bool)) (exec host v (.rename c.tmp c.path) .ok).1,
        (exec host v (.rename c.tmp c.path) .ok).2) = _
      rw [hexec]
      rfl
    | _ => exact ⟨[.fail (.other 0) none], v, rfl, h⟩
  | syncingDir =>
    cases r with
    | ok => exact ⟨[.ok], _, rfl, h.syncDir _⟩
    | _ => exact ⟨[.fail (.other 0) none], v, rfl, h⟩
  | done result => exact ⟨[], v, rfl, h⟩

/-- The run lemma of the simulation: after any allowed returns there are answers with which
`writeAtomic` is at the same stage, in a world that matches. -/
theorem Matches.after (host : Host β) (mode : Nat) (h : c.Matches enc s v)
    (hat : c.AtStage enc opened w s)
    (hrs : c.Allows enc s rs) :
    ∃ ds v', (hostMachine host).after ds (c.prog (enc c.content) mode s.stage, v) =
        (c.prog (enc c.content) mode (c.after enc s rs).stage, v') ∧
      c.Matches enc (c.after enc s rs) v' := by
  induction rs generalizing s v with
  | nil => exact ⟨[], v, rfl, h⟩
  | cons r rs ih =>
    obtain ⟨ds, v', hds, hv'⟩ := h.step host mode hat hrs.1
    obtain ⟨ds', v'', hds', hv''⟩ := ih hv' (hat.step hrs.1) hrs.2
    refine ⟨ds ++ ds', v'', ?_, hv''⟩
    rw [Machine.after_append, hds, hds']
    rfl

/-- The program `writeAtomic` does what the calls do: for every sequence of allowed returns that
ends the call there are answers of the environment with which the program returns the same result
and leaves the same files. -/
theorem writeAtomic_simulates {result : Bool} (host : Host β) (mode : Nat)
    (hpid : w.proc.pid = c.pid) (hrs : c.Allows enc { world := w } rs)
    (hdone : (c.after enc { world := w } rs).stage = .done result) :
    ∃ cs v, (hostMachine host).after cs (writeAtomic c.path (enc c.content) mode, w) =
        (.ret result, v) ∧
      Follows c.tmp v (c.after enc { world := w } rs).world := by
  have hat : c.AtStage enc False w { world := w } := ⟨not_false, rfl, rfl⟩
  have hmatches : c.Matches enc { world := w } w := Follows.refl c.tmp w
  obtain ⟨ds, v, hds, hv⟩ := hmatches.after host mode hat hrs
  refine ⟨.ok :: ds, v, ?_, ?_⟩
  · rw [← List.singleton_append, Machine.after_append, after_getpid hpid, hds, hdone]
    rfl
  · rwa [Matches, hdone] at hv

end WriteCall

end ThinrAgent
