import ThinrAgent.Extensions.Scripts

/-!
# `ThinrAgent.Proofs.Scripts`: is a reload as good as a restart?

Scripts and native resources share one namespace, and the last registration wins. A construction
registers the natives of `late` after the scripts, and a reload registers the scripts last. A
reload also unbinds every name that had a script, also when a native resource is bound to it. So
the resources after a history of reloads are those of a restart exactly when no script present
has the name of a native of `late`, and no script that went away had the name of any native
(`reloadsLikeRestart_iff`). To repeat a reload changes nothing, in any history.
-/

set_option autoImplicit false

namespace ThinrAgent

/-- The names that the scripts of a directory register. -/
def scriptNames (dir : ScriptsDir) : List String :=
  (scanDirectory "" dir).map ScriptInfo.name

/-- The names of the native resources, of the early and of the late ones. -/
def nativeNames (late : List String) : List String := earlyEntries.map Prod.fst ++ late

/-- The scripts are bound to their own names, in their order. -/
@[simp] theorem map_fst_scriptEntries (scripts : List ScriptInfo) :
    (scriptEntries scripts).map Prod.fst = scripts.map ScriptInfo.name := by
  simp [scriptEntries, Function.comp_def]

/-- The extensions that register late are bound to their names. -/
@[simp] theorem map_fst_lateEntries (late : List String) :
    (lateEntries late).map Prod.fst = late := by
  simp [lateEntries, Function.comp_def]

/-- The names do not depend on where the directory is. -/
theorem map_name_scanDirectory (base : Path) (dir : ScriptsDir) :
    (scanDirectory base dir).map ScriptInfo.name = scriptNames dir := by
  simp only [scriptNames, scanDirectory, List.map_filterMap]
  congr 1
  funext file
  split <;> [rfl; (split <;> rfl)]

/-- A script is never bound to a handler of the agent's own. -/
theorem handler_ne_native (info : ScriptInfo) (name : String) : info.handler ≠ .native name := by
  unfold ScriptInfo.handler
  split <;> nofun

/-- No file name has a separator, so no script has the name of a management resource. -/
theorem slash_of_mem_scriptNames {dir : ScriptsDir} {name : String} (h : name ∈ scriptNames dir) :
    '/' ∉ name.toList := by
  simp only [scriptNames, scanDirectory, List.mem_map, List.mem_filterMap] at h
  obtain ⟨info, ⟨file, -, hinfo⟩, rfl⟩ := h
  split at hinfo
  · simp at hinfo
  · split at hinfo
    · simp at hinfo
    · cases hinfo
      exact fun hslash => file.noSlash (mem_stem hslash)

/-- A script that is present binds its name, never to a native. -/
theorem scriptEntries_bound (base : Path) {dir : ScriptsDir} {name : String}
    (h : name ∈ scriptNames dir) :
    ∃ info : ScriptInfo, Registry.empty.bindAll (scriptEntries (scanDirectory base dir)) name =
      some info.handler := by
  obtain ⟨v, hv, hbound, -⟩ := Registry.bindAll_of_mem Registry.empty Registry.empty
    (show name ∈ (scriptEntries (scanDirectory base dir)).map Prod.fst by
      simpa [map_name_scanDirectory] using h)
  simp only [scriptEntries, List.mem_map, Prod.mk.injEq] at hv
  obtain ⟨info, -, -, rfl⟩ := hv
  exact ⟨info, hbound⟩

section
variable (late : List String) (base : Path)

/-- A start with the content `first`, and a reload after each change of the content. -/
def reloadAll (first : ScriptsDir) (changes : List ScriptsDir) : ScriptResources :=
  changes.foldl (reload base) (createResources late base first)

/-- The content of the directory at the end: that of the last change, or the first where nothing
changed. -/
def lastContent (first : ScriptsDir) (changes : List ScriptsDir) : ScriptsDir :=
  changes.getLastD first

/-- Reloads are as good as a restart: the same names are bound to the same handlers, the native
resources are all there, and a reload without a change does nothing. -/
structure ReloadsLikeRestart (first : ScriptsDir) (changes : List ScriptsDir) : Prop where
  /-- Every name is bound as a new agent would bind it. -/
  binds : ∀ name, (reloadAll late base first changes).resources name =
    (createResources late base (lastContent first changes)).resources name
  /-- No native resource is missing. -/
  natives : ∀ name ∈ nativeNames late, (reloadAll late base first changes).resources name ≠ none
  /-- To repeat a reload is a no-op. -/
  noOp : ∀ dir, reload base (reload base (reloadAll late base first changes) dir) dir =
    reload base (reloadAll late base first changes) dir

variable {late base}

/-- What a new agent binds. A late native comes before a script, and a script before the rest. -/
theorem createResources_of_mem_late {dir : ScriptsDir} {name : String} (h : name ∈ late) :
    (createResources late base dir).resources name = some (.native name) := by
  obtain ⟨v, hv, hbound, -⟩ := Registry.bindAll_of_mem
    ((Registry.empty.bindAll earlyEntries).bindAll (scriptEntries (scanDirectory base dir)))
    Registry.empty (show name ∈ (lateEntries late).map Prod.fst by simpa using h)
  have hnative : v = .native name := by
    simp only [lateEntries, List.mem_map, Prod.mk.injEq] at hv
    obtain ⟨n, -, rfl, rfl⟩ := hv
    rfl
  rw [← hnative]
  exact hbound

/-- The name of a script is bound to the script when no late extension has it. -/
theorem createResources_of_mem_scripts {dir : ScriptsDir} {name : String}
    (hscript : name ∈ scriptNames dir) (hlate : name ∉ late) :
    (createResources late base dir).resources name =
      Registry.empty.bindAll (scriptEntries (scanDirectory base dir)) name := by
  show Registry.bindAll _ (lateEntries late) name = _
  rw [Registry.bindAll_of_notMem _ (by simpa using hlate)]
  exact Registry.bindAll_eq_of_mem _ _ (by simpa [map_name_scanDirectory] using hscript)

/-- A name of no script and no late extension is bound to what the early ones have. -/
theorem createResources_of_notMem {dir : ScriptsDir} {name : String}
    (hscript : name ∉ scriptNames dir) (hlate : name ∉ late) :
    (createResources late base dir).resources name = Registry.empty.bindAll earlyEntries name := by
  show Registry.bindAll _ (lateEntries late) name = _
  rw [Registry.bindAll_of_notMem _ (by simpa using hlate),
    Registry.bindAll_of_notMem _ (by simpa [map_name_scanDirectory] using hscript)]

/-- Without a script of the name, a new agent binds exactly the natives. -/
theorem createResources_eq_none_iff {dir : ScriptsDir} {name : String}
    (hscript : name ∉ scriptNames dir) :
    (createResources late base dir).resources name = none ↔ name ∉ nativeNames late := by
  by_cases hlate : name ∈ late
  · simp [createResources_of_mem_late hlate, nativeNames, hlate]
  · rw [createResources_of_notMem hscript hlate]
    simp only [nativeNames, List.mem_append, hlate, or_false]
    constructor
    · intro hnone hmem
      obtain ⟨v, -, hbound, -⟩ :=
        Registry.bindAll_of_mem Registry.empty Registry.empty hmem
      simp [hbound] at hnone
    · intro h
      exact Registry.bindAll_of_notMem _ h

/-- A new agent binds every native name, whatever scripts it has found. -/
theorem createResources_native {dir : ScriptsDir} {name : String} (h : name ∈ nativeNames late) :
    (createResources late base dir).resources name ≠ none := by
  by_cases hscript : name ∈ scriptNames dir
  · by_cases hlate : name ∈ late
    · simp [createResources_of_mem_late hlate]
    · obtain ⟨info, hinfo⟩ := scriptEntries_bound base hscript
      simp [createResources_of_mem_scripts hscript hlate, hinfo]
  · exact fun hnone => (createResources_eq_none_iff hscript).mp hnone h

/-- The agent knows the scripts it has registered. -/
theorem reloadAll_scripts (first : ScriptsDir) (changes : List ScriptsDir) :
    (reloadAll late base first changes).scripts =
      scanDirectory base (lastContent first changes) := by
  induction changes using List.reverseRecOn with
  | nil => rfl
  | append_singleton changes dir ih => simp [reloadAll, lastContent, reload]

/-- One reload: the names of the scripts present, of those that went away, and the others. -/
theorem reloadAll_concat (first : ScriptsDir) (changes : List ScriptsDir) (dir : ScriptsDir) :
    (reloadAll late base first (changes ++ [dir])).resources =
      (reloadAll late base first changes).resources.replace
        (scriptNames (lastContent first changes)) (scriptEntries (scanDirectory base dir)) := by
  have hscripts : (reloadAll late base first changes).scripts = _ := reloadAll_scripts first changes
  rw [← map_name_scanDirectory base, ← hscripts]
  simp [reloadAll, reload]

/-- The resources after at least one reload, by the contents of the whole history. The scripts
present come last, a name that ever had a script is free, and the others are as at the start. -/
theorem reloadAll_resources (first : ScriptsDir) {changes : List ScriptsDir} (hne : changes ≠ [])
    (name : String) :
    (reloadAll late base first changes).resources name =
      if name ∈ scriptNames (lastContent first changes) then
        Registry.empty.bindAll
          (scriptEntries (scanDirectory base (lastContent first changes))) name
      else if ∃ dir ∈ first :: changes, name ∈ scriptNames dir then none
      else (createResources late base first).resources name := by
  -- The induction is on the history from its end: the last reload has the last word.
  induction changes using List.reverseRecOn with
  | nil => exact absurd rfl hne
  | append_singleton changes dir ih =>
    have hentries : ∀ k, k ∈ (scriptEntries (scanDirectory base dir)).map Prod.fst ↔
        k ∈ scriptNames dir := by
      intro k
      rw [map_fst_scriptEntries, map_name_scanDirectory]
    rw [reloadAll_concat, show lastContent first (changes ++ [dir]) = dir by simp [lastContent]]
    by_cases hnew : name ∈ scriptNames dir
    · rw [if_pos hnew, Registry.replace_of_mem _ _ ((hentries name).mpr hnew)]
    · have hfree := mt (hentries name).mp hnew
      rw [if_neg hnew]
      -- A script of the content before is unbound, and what had no script keeps its value.
      by_cases hold : name ∈ scriptNames (lastContent first changes)
      · have hmem : lastContent first changes ∈ first :: (changes ++ [dir]) := by
          rw [← List.cons_append]
          refine List.mem_append_left _ ?_
          show changes.getLastD first ∈ first :: changes
          rw [List.getLastD_eq_getLast?, List.getLast?_eq_getElem?]
          cases changes <;> simp
        rw [if_pos ⟨_, hmem, hold⟩, Registry.replace_of_mem_old _ hfree hold]
      · rw [Registry.replace_of_notMem _ hfree hold]
        by_cases hempty : changes = []
        · subst hempty
          have hfirst : name ∉ scriptNames first := hold
          simp [reloadAll, hfirst, hnew]
        · rw [ih hempty, if_neg hold]
          congr 1
          simp [hnew]

/-- To repeat a reload changes nothing, whatever was there before. -/
theorem reload_reload (s : ScriptResources) (dir : ScriptsDir) :
    reload base (reload base s dir) dir = reload base s dir := by
  have hnames : (scanDirectory base dir).map ScriptInfo.name =
      (scriptEntries (scanDirectory base dir)).map Prod.fst := (map_fst_scriptEntries _).symm
  simp only [reload, ScriptResources.mk.injEq, and_true]
  rw [hnames]
  exact Registry.replace_replace ..

/-- The management resources stay where they are, in every history. -/
theorem reloadAll_management (first : ScriptsDir) (changes : List ScriptsDir) {name : String}
    (h : '/' ∈ name.toList) :
    (reloadAll late base first changes).resources name =
      (createResources late base first).resources name := by
  have hscript : ∀ dir, name ∉ scriptNames dir := fun dir hmem => slash_of_mem_scriptNames hmem h
  by_cases hne : changes = []
  · rw [hne]
    rfl
  · rw [reloadAll_resources first hne, if_neg (hscript _)]
    simp [hscript]

/-- The bindings agree exactly when no script present has the name of a late native, and no
script that went away had the name of a native. -/
theorem reloadAll_binds_iff (first : ScriptsDir) {changes : List ScriptsDir} (hne : changes ≠ []) :
    (∀ name, (reloadAll late base first changes).resources name =
        (createResources late base (lastContent first changes)).resources name) ↔
      (∀ name ∈ scriptNames (lastContent first changes), name ∉ late) ∧
        ∀ dir ∈ first :: changes, ∀ name ∈ scriptNames dir,
          name ∉ scriptNames (lastContent first changes) → name ∉ nativeNames late := by
  constructor
  · intro h
    refine ⟨fun name hscript hlate => ?_, fun dir hdir name hscript hgone => ?_⟩
    · have hbound := h name
      obtain ⟨info, hinfo⟩ := scriptEntries_bound base hscript
      rw [reloadAll_resources first hne, if_pos hscript, createResources_of_mem_late hlate,
        hinfo] at hbound
      exact handler_ne_native info name (Option.some.inj hbound)
    · have hbound := h name
      rw [reloadAll_resources first hne, if_neg hgone, if_pos ⟨dir, hdir, hscript⟩] at hbound
      exact (createResources_eq_none_iff hgone).mp hbound.symm
  · rintro ⟨hlate, hgone⟩ name
    rw [reloadAll_resources first hne]
    split
    · next hscript => exact (createResources_of_mem_scripts hscript (hlate name hscript)).symm
    · next hscript =>
      split
      · next hever =>
        obtain ⟨dir, hdir, hmem⟩ := hever
        exact ((createResources_eq_none_iff hscript).mpr
          (hgone dir hdir name hmem hscript)).symm
      · next hnever =>
        -- The name never had a script, so both sides are the registrations of the agent.
        have hfirst : name ∉ scriptNames first := fun hmem =>
          hnever ⟨first, List.mem_cons_self, hmem⟩
        by_cases hname : name ∈ late
        · rw [createResources_of_mem_late hname, createResources_of_mem_late hname]
        · rw [createResources_of_notMem hfirst hname, createResources_of_notMem hscript hname]

end

/-- Reloads are as good as a restart exactly when there is none, or no script present has the
name of a resource that is registered after the scripts, and no script that went away had the
name of a native resource. -/
theorem reloadsLikeRestart_iff (late : List String) (base : Path) (first : ScriptsDir)
    (changes : List ScriptsDir) :
    ReloadsLikeRestart late base first changes ↔
      changes = [] ∨
        (∀ name ∈ scriptNames (lastContent first changes), name ∉ late) ∧
          ∀ dir ∈ first :: changes, ∀ name ∈ scriptNames dir,
            name ∉ scriptNames (lastContent first changes) → name ∉ nativeNames late := by
  constructor
  · intro h
    by_cases hne : changes = []
    · exact .inl hne
    · exact .inr ((reloadAll_binds_iff first hne).mp h.binds)
  · intro h
    have hbinds : ∀ name, (reloadAll late base first changes).resources name =
        (createResources late base (lastContent first changes)).resources name := by
      intro name
      rcases h with rfl | h
      · rfl
      · by_cases hne : changes = []
        · rw [hne]
          rfl
        · exact (reloadAll_binds_iff first hne).mpr h name
    -- A native name is bound after a restart, so it is bound after the reloads.
    refine ⟨hbinds, fun name hname => ?_, fun dir => reload_reload _ dir⟩
    rw [hbinds]
    exact createResources_native hname

/-- An executable script that describes nothing: its run with `--describe` fails. -/
def sampleScript (filename : String) (h : '/' ∉ filename.toList) : ScriptFile :=
  { filename, noSlash := h, isRegularFile := true, permissions := 0o755, exitCode := 1
    output := none }

/-- The script `monitoring.sh` is there at the start and goes away before a reload, which leaves
the name of the native resource unbound. The script `shell.sh` stays, and a reload without any
change takes the name from the native resource that the start bound to it. -/
theorem not_reloadsLikeRestart_sample :
    ¬ ReloadsLikeRestart ["shell", "cmd"] "/etc/thinr-agent"
        (some [sampleScript "monitoring.sh" (by decide)]) [some []] ∧
      ¬ ReloadsLikeRestart ["shell", "cmd"] "/etc/thinr-agent"
        (some [sampleScript "shell.sh" (by decide)])
        [some [sampleScript "shell.sh" (by decide)]] := by
  constructor
  · intro h
    exact h.natives "monitoring" (by decide) (by rfl)
  · intro h
    have hbound : some (Handler.outputOnly "/etc/thinr-agent/scripts/shell.sh") =
        some (Handler.native "shell") := h.binds "shell"
    cases hbound

end ThinrAgent
