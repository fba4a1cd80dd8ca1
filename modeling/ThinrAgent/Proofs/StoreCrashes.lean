import ThinrAgent.Proofs.PowerCut
import ThinrAgent.Proofs.TwoPartStore

/-!
# `ThinrAgent.Proofs.StoreCrashes`: the configuration file after crashes and power cuts

`StoreLife` is the life of the configuration file: calls one after the other, each with failures of
its writes, a process that may die in a call, and power cuts at any time. `store_survives` says what
its readers find: the store of two parts after some of the calls, in their order. A call that threw
is not among them. A call that was acknowledged is, if no write failed.

The invariant (`StoreSurvives`) is about every entry that a power cut may leave, not just the
current one. A call puts one entry before them, whose content is whole (`StoreCall.crash_spec`). A
power cut picks one of them. The `fsync` of the directory drops all but the newest.
-/

set_option autoImplicit false

namespace ThinrAgent

open Effects

section Call

variable {β : Type} {A : SysOp β → Choice β → Prop} {w w' : World β} {configPath : Path}

/-- The rename of a valid call has been issued. A power cut may take it back until the directory is
durable. -/
def StoreCall.Commits (call : StoreCall) (configPath : Path) (w w' : World β) : Prop :=
  call.Valid ∧ World.Committed (tempPath configPath w.proc.pid) configPath
    (.json (call.config (w.config configPath))) w w'

/-- What a call has done at every moment, and at its end. -/
theorem StoreCall.crash_spec (host : Host β) (hA : ∀ o c, A o c → CanRead configPath o c)
    (call : StoreCall) :
    cwp (hostMachine host) A
      (fun w' => World.Scratch [tempPath configPath w.proc.pid] w w' ∨
        call.Commits configPath w w')
      (call.prog configPath)
      (fun r w' => (∀ e, r = .error e → World.Scratch [tempPath configPath w.proc.pid] w w') ∧
        (r = .ok () → call.Commits configPath w w' ∧
          (Benign A → w'.Durable configPath (.json (call.config (w.config configPath)))))) w := by
  -- A configuration that is there can be read, so the object starts from its text.
  have hread : ¬ (CanFail A (.exists configPath) ∨ CanFail A (.read configPath)) := by
    have hle (o : SysOp β) (hf : CanFail A o) : CanFail (CanRead configPath) o := by
      obtain ⟨c, e, hc, he⟩ := hf
      exact ⟨c, e, hA o c hc, he⟩
    exact fun hf => not_canFail_canRead (hf.imp (hle _) (hle _))
  have hself := World.Scratch.refl [tempPath configPath w.proc.pid] w
  cases call with
  | save credentials =>
    show cwp _ _ _ (ThinrAgent.save configPath credentials) _ w
    unfold ThinrAgent.save
    split
    · exact ⟨.inl hself, fun _ _ => hself, nofun⟩
    · rename_i hvalid
      have hvalid : credentials.isValid = true := by simpa using hvalid
      -- Until the rename only the temporary file differs.
      refine wp_ensureConfigDirectory (.inl hself) ?_ fun _ e => ⟨fun _ _ => hself, nofun⟩
      refine wp_readRaw_or_empty (.inl hself) ?_ fun hf => absurd hf hread
      rw [← Prog.bind_ret (writeRaw configPath _)]
      refine wp_writeRaw (fun w' hw' => .inl hw') (fun w' hw' => .inr ⟨hvalid, hw'⟩) ?_ ?_
      · intro w' hw' hdurable
        exact ⟨.inr ⟨hvalid, hw'⟩, nofun, fun _ => ⟨⟨hvalid, hw'⟩, hdurable⟩⟩
      · intro _ e w' hw'
        exact ⟨fun _ _ => hw', nofun⟩
  | writeUpdateSection updateObj =>
    show cwp _ _ _ (ThinrAgent.writeUpdateSection configPath updateObj) _ w
    unfold ThinrAgent.writeUpdateSection
    refine wp_fsExists (.inl hself) ?_ fun hf => absurd (.inl hf) hread
    split
    · exact ⟨.inl hself, fun _ _ => hself, nofun⟩
    · refine wp_readRaw (.inl hself) ?_ fun _ e => ⟨fun _ _ => hself, nofun⟩
      rw [← Prog.bind_ret (writeRaw configPath _)]
      refine wp_writeRaw (fun w' hw' => .inl hw') (fun w' hw' => .inr ⟨trivial, hw'⟩) ?_ ?_
      · intro w' hw' hdurable
        exact ⟨.inr ⟨trivial, hw'⟩, nofun, fun _ => ⟨⟨trivial, hw'⟩, hdurable⟩⟩
      · intro _ e w' hw'
        exact ⟨fun _ _ => hw', nofun⟩

end Call

/-! ### The life of the file -/

section Life

variable {β : Type} (host : Host β) (configPath : Path)

/-- What the file holds at first, with the credentials if it has valid ones. -/
def Stored.found (w : World β) (configPath : Path) : Stored :=
  { Stored.initial w configPath with
    credentials :=
      match (w.files configPath).bind Content.parse with
      | some (.obj kvs) => (credentialsOf configPath (.obj kvs)).toOption
      | _ => none }

/-- The file holds what is found in it at first. -/
theorem Holds.found (w : World β) (configPath : Path) :
    Holds configPath (Stored.found w configPath) w := by
  refine ⟨fun credentials hc => ?_, rfl, fun _ _ => rfl⟩
  unfold Stored.found at hc
  dsimp only at hc
  split at hc
  · next kvs hparse =>
    have hconfig : w.config configPath = .obj kvs := by
      obtain ⟨content, hfile, hcontent⟩ := Option.bind_eq_some_iff.mp hparse
      rw [World.config, hfile]
      show content.config = .obj kvs
      rw [Content.config, hcontent]
    rw [hconfig]
    refine ⟨hparse, ?_⟩
    -- Credentials that cannot be loaded are not found, so there is nothing to hold.
    cases hcred : credentialsOf configPath (.obj kvs) with
    | error e =>
      rw [hcred] at hc
      cases hc
    | ok credentials' =>
      rw [hcred] at hc
      cases hc
      rfl
  · cases hc

/-- The environment in which the file can be read, and nothing that writes it fails. -/
def StoreSound : SysOp β → Choice β → Prop :=
  fun o c => CanRead configPath o c ∧ (o.vital = true → c.error = none)

/-- A call of a process against some answers. -/
def StoreCall.runIn (call : StoreCall) (proc : Process) (choices : List (Choice β)) (w : World β) :
    SysM β Unit × World β :=
  (hostMachine host).after choices (call.prog configPath, { w with proc := proc })

/-- The calls that may have changed the file. One that has thrown has not. -/
def triedAfter (tried : List StoreCall) (call : StoreCall) :
    Option (Except Exc Unit) → List StoreCall
  | some (.error _) => tried
  | _ => tried ++ [call]

/-- The life of the file from `w₀` on, with the calls that were tried and those that were
acknowledged. -/
inductive StoreLife (w₀ : World β) : List StoreCall → List StoreCall → World β → Prop
  | start : StoreLife w₀ [] [] w₀
  /-- A process performs a call, and may die in it. -/
  | call {tried acknowledged : List StoreCall} {w : World β}
      (h : StoreLife w₀ tried acknowledged w) (call : StoreCall) (proc : Process)
      (choices : List (Choice β))
      (hread : (hostMachine host).Admits (CanRead configPath) choices
        (call.prog configPath, { w with proc := proc })) :
      StoreLife w₀ (triedAfter tried call (call.runIn host configPath proc choices w).1.result)
        acknowledged (call.runIn host configPath proc choices w).2
  /-- A call succeeds, and no write has failed. -/
  | acknowledge {tried acknowledged : List StoreCall} {w : World β}
      (h : StoreLife w₀ tried acknowledged w) (call : StoreCall) (proc : Process)
      (choices : List (Choice β))
      (hsound : (hostMachine host).Admits (StoreSound configPath) choices
        (call.prog configPath, { w with proc := proc }))
      (hok : (call.runIn host configPath proc choices w).1.result = some (.ok ())) :
      StoreLife w₀ (tried ++ [call]) (acknowledged ++ [call])
        (call.runIn host configPath proc choices w).2
  | powerCut {tried acknowledged : List StoreCall} {w : World β}
      (h : StoreLife w₀ tried acknowledged w) {found : Files β} (hcut : w.PowerCut found)
      (proc : Process) : StoreLife w₀ tried acknowledged (.ofFiles found proc)
  /-- Other files change. -/
  | elsewhere {tried acknowledged : List StoreCall} {w w' : World β}
      (h : StoreLife w₀ tried acknowledged w) (hdisk : w'.disk configPath = w.disk configPath) :
      StoreLife w₀ tried acknowledged w'

variable {host configPath} {w w' : World β} {s₀ : Stored}
  {tried tried' acknowledged : List StoreCall}

/-- The entry holds a whole store: some of the calls that were tried, and all that were
acknowledged. -/
def Kept (configPath : Path) (s₀ : Stored) (tried acknowledged : List StoreCall) (e : Entry β) :
    Prop :=
  ∃ kept, acknowledged.Sublist kept ∧ kept.Sublist tried ∧ e = e.map (fun c => (c.1, true)) ∧
    ∀ v : World β, v.files configPath = e.map Prod.fst →
      Holds configPath (kept.foldl Stored.step s₀) v

/-- The invariant: so does every entry that a power cut may leave. -/
def StoreSurvives (configPath : Path) (s₀ : Stored) (tried acknowledged : List StoreCall)
    (w : World β) : Prop :=
  ∀ e ∈ w.disk configPath, Kept configPath s₀ tried acknowledged e

/-- An entry that is kept stays so when more calls have been tried. -/
theorem Kept.mono {e : Entry β} (h : Kept configPath s₀ tried acknowledged e)
    (htried : tried.Sublist tried') : Kept configPath s₀ tried' acknowledged e := by
  obtain ⟨kept, hack, hkept, hrest⟩ := h
  exact ⟨kept, hack, hkept.trans htried, hrest⟩

/-- What a power cut may leave decides alone, so a world with fewer of these entries survives
too. -/
theorem StoreSurvives.of_disk (h : StoreSurvives configPath s₀ tried acknowledged w)
    (hdisk : w'.disk configPath ⊆ w.disk configPath) :
    StoreSurvives configPath s₀ tried acknowledged w' :=
  fun e he => h e (hdisk he)

/-- The entry that a call puts first holds what it was called for. -/
theorem StoreSurvives.committed {call : StoreCall}
    (h : StoreSurvives configPath s₀ tried acknowledged w)
    (hw' : call.Commits configPath w w') :
    ∃ kept, acknowledged.Sublist kept ∧ kept.Sublist tried ∧
      ∀ v : World β, v.files configPath = some (.json (call.config (w.config configPath))) →
        Holds configPath ((kept ++ [call]).foldl Stored.step s₀) v := by
  obtain ⟨kept, hack, hkept, -, hholds⟩ := h (w.entry configPath) List.mem_cons_self
  refine ⟨kept, hack, hkept, fun v hv => ?_⟩
  rw [List.foldl_append]
  have hstep := (hholds w rfl).step hw'.1 hw'.2.toReplaced
  exact hstep.of_files (hv.trans hw'.2.files_target.symm)

/-- A call, wherever it is stopped, leaves a store that survives: either only its temporary file was
touched, or it has committed. -/
theorem StoreSurvives.call {call : StoreCall} (h : StoreSurvives configPath s₀ tried acknowledged w)
    (hw' : World.Scratch [tempPath configPath w.proc.pid] w w' ∨ call.Commits configPath w w') :
    StoreSurvives configPath s₀ (tried ++ [call]) acknowledged w' := by
  rcases hw' with hw' | hw'
  · have hdisk := hw'.disk configPath (by simpa using (tempPath_ne configPath w.proc.pid).symm)
    intro e he
    exact (h e (hdisk he)).mono (List.sublist_append_left _ _)
  · intro e he
    rcases List.mem_cons.mp (hw'.2.disk he) with rfl | he
    · obtain ⟨kept, hack, hkept, hholds⟩ := h.committed hw'
      exact ⟨kept ++ [call], hack.trans (List.sublist_append_left _ _),
        hkept.append (List.Sublist.refl _), rfl, fun v hv => hholds v hv⟩
    · exact (h e he).mono (List.sublist_append_left _ _)

/-- A call that is acknowledged leaves no entry without it. -/
theorem StoreSurvives.acknowledge {call : StoreCall}
    (h : StoreSurvives configPath s₀ tried acknowledged w)
    (hw' : call.Commits configPath w w')
    (hdurable : w'.Durable configPath (.json (call.config (w.config configPath)))) :
    StoreSurvives configPath s₀ (tried ++ [call]) (acknowledged ++ [call]) w' := by
  obtain ⟨kept, hack, hkept, hholds⟩ := h.committed hw'
  intro e he
  obtain rfl := hdurable e he
  exact ⟨kept ++ [call], hack.append (List.Sublist.refl _), hkept.append (List.Sublist.refl _), rfl,
    fun v hv => hholds v hv⟩

/-- A power cut leaves one of the entries, and it is whole. -/
theorem StoreSurvives.powerCut (h : StoreSurvives configPath s₀ tried acknowledged w)
    {found : Files β}
    (hcut : w.PowerCut found) (proc : Process) :
    StoreSurvives configPath s₀ tried acknowledged (.ofFiles found proc) := by
  obtain ⟨e, he, hleaves⟩ := hcut configPath
  have hfound : found configPath = e.map Prod.fst := by
    obtain ⟨-, -, -, hwhole, -⟩ := h e he
    cases e with
    | none => exact hleaves
    | some c =>
      obtain ⟨content, durable⟩ := c
      obtain rfl : durable = true := congrArg Prod.snd (Option.some.inj hwhole)
      exact hleaves
  intro e' he'
  rw [World.disk_ofFiles, List.mem_singleton, hfound, Option.map_map] at he'
  obtain ⟨kept, hack, hkept, hwhole, hholds⟩ := h e he
  have heq : e' = e := he'.trans hwhole.symm
  exact ⟨kept, hack, hkept, heq ▸ hwhole, heq ▸ hholds⟩

/-- The run lemma: the induction is on the life of the file. -/
theorem StoreLife.survives {w₀ : World β}
    (hwhole : w₀.disk configPath = [(w₀.files configPath).map fun c => (c, true)])
    (h : StoreLife host configPath w₀ tried acknowledged w) :
    StoreSurvives configPath (.found w₀ configPath) tried acknowledged w := by
  induction h with
  | start =>
    intro e he
    rw [hwhole, List.mem_singleton] at he
    subst he
    refine ⟨[], List.Sublist.refl _, List.Sublist.refl _, ?_, fun v hv => ?_⟩
    · rw [Option.map_map]
      rfl
    refine (Holds.found w₀ configPath).of_files (hv.trans ?_)
    rw [Option.map_map]
    exact congrFun Option.map_id _
  | @call tried acknowledged w _ call proc choices hread ih =>
    have ih : StoreSurvives configPath (.found w₀ configPath) tried acknowledged
        { w with proc := proc } := ih
    have hspec := StoreCall.crash_spec host (w := { w with proc := proc })
      (A := CanRead configPath) (fun o c hc => hc) call
    cases hres : (call.runIn host configPath proc choices w).1.result with
    | none => exact ih.call (cwp_after_inv hspec hread)
    | some r =>
      cases r with
      | ok u => exact ih.call (cwp_after_inv hspec hread)
      | error e =>
        -- Nothing was renamed.
        have hend := (ensures_of_cwp hspec choices hread _ hres).1 e rfl
        exact ih.of_disk (hend.disk configPath
          (by simpa using (tempPath_ne configPath proc.pid).symm))
  | @acknowledge tried acknowledged w _ call proc choices hsound hok ih =>
    have ih : StoreSurvives configPath (.found w₀ configPath) tried acknowledged
        { w with proc := proc } := ih
    have hspec := StoreCall.crash_spec host (w := { w with proc := proc })
      (A := StoreSound configPath) (fun o c hc => hc.1) call
    obtain ⟨hcommits, hdurable⟩ := (ensures_of_cwp hspec choices hsound _ hok).2 rfl
    refine ih.acknowledge hcommits (hdurable ?_)
    intro o ho hf
    obtain ⟨c, e, hc, he⟩ := hf
    rw [hc.2 ho] at he
    cases he
  | powerCut _ hcut proc ih => exact ih.powerCut hcut proc
  | elsewhere _ hdisk ih => exact ih.of_disk fun e he => hdisk ▸ he

/-- The configuration file survives crashes and power cuts as a store of two parts: whatever writes
have failed, wherever the processes have died and the power was cut, the readers find what some of
the calls have stored, in the order of the calls. No call that threw is among them, and every call
that was acknowledged without a failed write is. -/
theorem store_survives {w₀ : World β}
    (hwhole : w₀.disk configPath = [(w₀.files configPath).map fun c => (c, true)])
    (h : StoreLife host configPath w₀ tried acknowledged w) :
    ∃ kept, acknowledged.Sublist kept ∧ kept.Sublist tried ∧
      ReadsBack host configPath (kept.foldl Stored.step (.found w₀ configPath)) w := by
  obtain ⟨kept, hack, hkept, -, hholds⟩ := h.survives hwhole (w.entry configPath) List.mem_cons_self
  exact ⟨kept, hack, hkept, (hholds w rfl).readsBack⟩

end Life

/-- The save of the sample credentials, and a power cut. -/
theorem store_survives_sample : ∃ kept, [StoreCall.save sampleOptOutDevice].Sublist kept ∧
    kept.Sublist [StoreCall.save sampleOptOutDevice] ∧
    ReadsBack sampleStoreHost SYSTEM_CONFIG_PATH
      (kept.foldl Stored.step (.found sampleManaged SYSTEM_CONFIG_PATH))
      (.ofFiles (sampleSave sampleWorks).after.files { pid := 8, exe := none }) := by
  have hack : StoreLife sampleStoreHost SYSTEM_CONFIG_PATH sampleManaged
      ([] ++ [.save sampleOptOutDevice]) ([] ++ [.save sampleOptOutDevice])
      (sampleSave sampleWorks).after := by
    refine .acknowledge .start (.save sampleOptOutDevice) { pid := 7, exe := none } sampleWorks
      (admits_of_forall _ (fun c hc o => ?_) _) (by decide +kernel)
    rw [List.eq_of_mem_replicate hc]
    exact ⟨fun _ => rfl, fun _ => rfl⟩
  have hlife := hack.powerCut
    (show World.PowerCut _ (sampleSave sampleWorks).after.files from fun p =>
      ⟨_, List.mem_cons_self, Entry.leaves_self _⟩)
    { pid := 8, exe := none }
  exact store_survives (World.disk_ofFiles _ _ _) hlife

end ThinrAgent
