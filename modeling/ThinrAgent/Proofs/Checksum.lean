import ThinrAgent.Proofs.Cycle

/-!
# `ThinrAgent.Proofs.Checksum`: which binaries an update installs

The checksum of a manifest comes to the apply through two readers. `Carries` says that a
manifest's text has a string for an architecture, and both readers find it then
(`checksumFor_of_carries`, `versionInfo_of_carries`). An apply whose request carries a checksum
executes the downloaded file and installs it only when the digest is the checksum. Without one
it verifies nothing.

`update_verified` puts this together for the two callers of the apply. `not_verified_sample` is
a run for each condition that cannot be dropped.
-/

set_option autoImplicit false

namespace ThinrAgent

open Effects

/-- The manifest's text has the string `checksum` for the architecture among its checksums. -/
def Carries (text : Option Json) (arch checksum : String) : Prop :=
  ∃ j checksums, text = some j ∧ j.find "checksums" = some checksums ∧
    checksums.find arch = some (.str checksum)

/-- Every manifest that is fetched with a body is this text, whatever its address. -/
def Serves {β : Type} (A : SysOp β → Choice β → Prop) (text : Option Json) : Prop :=
  ∀ url c body, A (.httpGet url) c → c.httpGet? = .response 200 body → body = text

/-- The content has the digest that the checksum names, in the form with the prefix `sha256:`. -/
def HasDigest {β : Type} (host : Host β) (checksum : String) (content : Content β) : Prop :=
  "sha256:" ++ host.sha256 content = checksum

instance {β : Type} (host : Host β) (checksum : String) (content : Content β) :
    Decidable (HasDigest host checksum content) :=
  inferInstanceAs (Decidable (_ = _))

/-- A file is executed only when its digest is the checksum. -/
def Vetted {β : Type} (host : Host β) (checksum : String) (w : World β) (o : SysOp β) : Prop :=
  ∀ file, o = .execVersion file → ∀ content, w.files file = some content →
    HasDigest host checksum content

/-- The operation executes nothing: it is not the run of a binary with `--version`. -/
def NoExec {β : Type} (o : SysOp β) : Prop := ∀ file, o ≠ .execVersion file

/-- The installed file is a binary with the digest of the checksum. -/
def InstalledVerified {β : Type} (L : Layout) (host : Host β) (checksum : String) (w : World β) :
    Prop :=
  ∃ b, w.files (L.path .install) = some (.image b) ∧ HasDigest host checksum (.image b)

/-! ### The two readers -/

section Readers

variable {text : Option Json} {arch checksum : String} {cast : Json.FloatCast}

/-- A string entry survives the reader that keeps the strings. -/
theorem lookup_filterMap {entries : List (String × Json)}
    (h : entries.lookup arch = some (.str checksum)) :
    (entries.filterMap Manifest.checksumEntry).lookup arch = some checksum := by
  induction entries with
  | nil => cases h
  | cons entry entries ih =>
    obtain ⟨key, value⟩ := entry
    rw [List.lookup_cons] at h
    by_cases hkey : arch == key
    · simp only [hkey] at h
      cases h
      have hkept : Manifest.checksumEntry (key, .str checksum) = some (key, checksum) := rfl
      rw [List.filterMap_cons_some hkept, List.lookup_cons]
      simp only [hkey]
    · simp only [hkey] at h
      have ih := ih h
      -- An entry for another architecture is dropped or passed over.
      cases value with
      | str s =>
        have hkept : Manifest.checksumEntry (key, .str s) = some (key, s) := rfl
        rw [List.filterMap_cons_some hkept, List.lookup_cons]
        simpa only [hkey] using ih
      | _ => rwa [List.filterMap_cons_none rfl]

/-- The cycle finds the checksum that the text carries. -/
theorem checksumFor_of_carries (h : Carries text arch checksum) :
    (Manifest.parse cast text).checksumFor arch = some checksum := by
  obtain ⟨j, checksums, rfl, hfind, hentry⟩ := h
  have hobject : j.isObject = true := by
    cases j <;> first | rfl | cases hfind
  rw [Manifest.checksumFor, (Manifest.parse_plain cast hobject).2.1, Manifest.checksumsIn, hfind]
  cases checksums with
  | obj entries => exact lookup_filterMap hentry
  | _ => cases hentry

/-- `run` finds the checksum that the text carries. -/
theorem versionInfo_of_carries {j : Json} {info : VersionInfo} (h : Carries (some j) arch checksum)
    (hinfo : versionInfo arch j = .ok info) : info.checksum = checksum := by
  obtain ⟨j', checksums, hj, hfind, hentry⟩ := h
  obtain rfl : j = j' := by simpa using hj
  have hlatest : latestChecksum arch j = .ok checksum := by
    simp [latestChecksum, hfind, hentry]
  unfold versionInfo at hinfo
  split at hinfo
  · split at hinfo
    · cases hinfo
    · rw [hlatest] at hinfo
      cases hinfo
      rfl
    · cases hinfo
  · cases hinfo

/-- An entry of another type is an error for the reader of `run`. -/
theorem versionInfo_of_ill_typed {j entry : Json} {checksums : Json}
    (hfind : j.find "checksums" = some checksums) (hentry : checksums.find arch = some entry)
    (hty : ∀ s, entry ≠ .str s) (info : VersionInfo) : versionInfo arch j ≠ .ok info := by
  have hlatest : latestChecksum arch j = .error .typeError := by
    cases entry with
    | str s => exact absurd rfl (hty s)
    | _ => simp [latestChecksum, hfind, hentry]
  intro hinfo
  unfold versionInfo at hinfo
  split at hinfo
  · split at hinfo
    · cases hinfo
    · rw [hlatest] at hinfo
      cases hinfo
    · cases hinfo
  · cases hinfo

end Readers

/-! ### The apply -/

section Apply

variable {β α : Type} {host : Host β} {A : SysOp β → Choice β → Prop} {w : World β} {L : Layout}
  {build : Build} {req : ApplyRequest} {checksum : String}

/-- Operations that execute nothing meet the guard, which only speaks of executions. -/
theorem guards_of_no_exec {p : SysM β α} (h : AllOps NoExec p)
    (w : World β) : guards (hostMachine host) A (Vetted host checksum) p w :=
  guards_of_allOps (fun _ ho _ file hfile => absurd hfile (ho file)) h w

/-- The download of a request with a checksum executes only a file whose digest is the checksum. -/
theorem vetted_fetchBinary {install : Path} (hchecksum : req.checksum ≠ "")
    (hread : req.checksum = "sha256:" → ∀ file, ¬ CanFail A (.read file)) :
    guards (hostMachine host) A (Vetted host req.checksum) (fetchBinary host req install) w := by
  have refuse (r : ApplyResult) (v : World β) : guards (hostMachine host) A
      (Vetted host req.checksum) (do
        let _ ← fsRemove (newPath install)
        return some r : SysM β (Option ApplyResult)) v := by
    refine guards_of_no_exec ?_ v
    exact .bind (.single (by simp [NoExec])) fun _ => trivial
  have download : AllOps (NoExec (β := β)) (downloadBinary req.url (newPath install)) := by
    refine .bind (.single (by simp [NoExec])) fun r => ?_
    cases r <;> trivial
  have check : AllOps (NoExec (β := β)) (checksumMatches host req.checksum (newPath install)) := by
    refine .ite (fun _ => trivial) fun _ => .bind (.bind (.single (by simp [NoExec])) fun r => ?_)
      fun _ => trivial
    cases r <;> trivial
  have sessions : AllOps (NoExec (β := β)) (sessionsBusy req.origin) :=
    .ite (fun _ => .bind (.single (by simp [NoExec])) fun _ => trivial) fun _ => trivial
  unfold fetchBinary
  refine guards_then (guards_of_no_exec download w) fun good v => ?_
  split
  · exact refuse _ v
  refine guards_bind (J := fun _ => True) (guards_of_no_exec check v) ?_
  rw [← Prog.bind_ret (checksumMatches host req.checksum (newPath install))]
  refine wp_checksumMatches ⟨trivial, ?_⟩ fun hgenuine => ⟨trivial, ?_⟩
  · rintro _ ⟨rfl⟩
    exact refuse _ v
  · rintro _ ⟨rfl⟩
    -- The file that is executed is the one that was checked.
    simp only [Bool.not_true, Bool.false_eq_true, if_false]
    refine ⟨by simp [Vetted], fun c _ => ?_⟩
    refine ⟨fun file hfile content hcontent => ?_, fun c' _ => ?_⟩
    · cases hfile
      exact hgenuine content hcontent hchecksum fun hbare => hread hbare _
    · refine guards_of_no_exec ?_ _
      refine .ite (fun _ => .bind (.single (by simp [NoExec])) fun _ => trivial) fun _ => ?_
      refine .bind sessions fun busy => ?_
      exact .ite (fun _ => .bind (.single (by simp [NoExec])) fun _ => trivial) fun _ => trivial

/-- An apply with a checksum executes a vetted file only. -/
theorem vetted_applyWithWatchdog (hchecksum : req.checksum ≠ "")
    (hread : req.checksum = "sha256:" → ∀ file, ¬ CanFail A (.read file)) :
    guards (hostMachine host) A (Vetted host req.checksum)
      (applyWithWatchdog host build req) w := by
  -- Only the download executes a file. The other parts execute none.
  have swap {install : Path} : AllOps (NoExec (β := β)) (swapBinary host build req install) := by
    refine swapBinary_ops.mono fun o ho => ?_
    cases ho with
    | mark install startedAt h hc => cases h <;> simp [NoExec]
    | _ => simp [NoExec]
  have sessions : AllOps (NoExec (β := β)) (sessionsBusy req.origin) :=
    .ite (fun _ => .bind (.single (by simp [NoExec])) fun _ => trivial) fun _ => trivial
  have binaryPath : AllOps (NoExec (β := β)) getCurrentBinaryPath := by
    refine .bind (.single (by simp [NoExec])) fun link => ?_
    cases link <;> trivial
  have lookup {file : Path} : AllOps (NoExec (β := β)) (fsExists file) := by
    refine ⟨by simp [NoExec], fun r => ?_⟩
    cases r <;> trivial
  have guarded (v : World β) : guards (hostMachine host) A (Vetted host req.checksum)
      (applyGuarded host build req) v := by
    unfold applyGuarded
    refine guards_then (guards_of_no_exec lookup v) fun found v => ?_
    split
    · trivial
    refine guards_then (guards_of_no_exec sessions v) fun busy v => ?_
    split
    · trivial
    refine guards_then (guards_of_no_exec binaryPath v) fun install v => ?_
    refine guards_then (vetted_fetchBinary hchecksum hread) fun refused v => ?_
    cases refused with
    | some r => trivial
    | none => exact guards_of_no_exec swap v
  -- The flag of the process stands around the apply, also when it throws.
  unfold applyWithWatchdog
  split
  · trivial
  refine guards_then (guards_of_no_exec (.single (by simp [NoExec])) w) fun free v => ?_
  split
  · trivial
  · exact guards_ensure (guarded v) fun v =>
      guards_of_no_exec (.single (by simp [NoExec])) v

end Apply

/-! ### The callers -/

/-- The program executes and installs a file only when its digest is the checksum, and the
installed binary has it when the program reports success. -/
structure Verifies {β α : Type} (host : Host β) (A : SysOp β → Choice β → Prop) (L : Layout)
    (checksum : String) (p : SysM β α) (updated : α → Prop) (w : World β) : Prop where
  executes : guards (hostMachine host) A (Vetted host checksum) p w
  installs : cwp (hostMachine host) A
    (fun v => v.files (L.path .install) = w.files (L.path .install) ∨
      InstalledVerified L host checksum v) p
    (fun r v => ∀ a, r = .ok a → updated a → InstalledVerified L host checksum v) w

section Callers

variable {β α : Type} {host : Host β} {A : SysOp β → Choice β → Prop} {w : World β} {L : Layout}
  {build : Build} {req : ApplyRequest} {text : Option Json} {checksum : String}

/-- The apply of a request with a checksum verifies what it executes and what it installs, and
reports an update only then. -/
theorem verifies_applyWithWatchdog (hchecksum : req.checksum ≠ "")
    (hread : req.checksum = "sha256:" → ∀ file, ¬ CanFail A (.read file))
    (hdir : req.stateDir = L.stateDir) (hexe : w.proc.binaryPath = L.path .install) :
    Verifies host A L req.checksum (applyWithWatchdog host build req)
      (fun ar => ar.st = .updated) w where
  executes := vetted_applyWithWatchdog hchecksum hread
  installs := by
    have authentic {v : World β} (h : L.Authentic req host A v) :
        InstalledVerified L host req.checksum v := by
      obtain ⟨b, hb, hgenuine⟩ := h
      exact ⟨b, hb, hgenuine hchecksum fun hbare => hread hbare _⟩
    refine cwp_mono (applyWithWatchdog_checked hdir fun _ => hexe)
      (fun v h => h.2.imp id authentic) ?_
    intro r v _ h res hr hupdated
    exact authentic (h.2 res hr hupdated)

/-- A program that changes nothing comes first. What follows may use what it returned. -/
theorem Verifies.after {γ : Type} {q : SysM β γ} {g : γ → SysM β α} {R : γ → Prop}
    {updated : α → Prop} (hops : AllOps NoExec q)
    (hq : cwp (hostMachine host) A (fun v => v = w) q
      (fun r v => v = w ∧ ∀ a, r = .ok a → R a) w)
    (hg : ∀ a, R a → Verifies host A L checksum (g a) updated w) :
    Verifies host A L checksum (q >>= g) updated w where
  executes := by
    refine guards_bind (guards_of_no_exec hops w) (cwp_mono hq (fun _ h => h) ?_)
    rintro r v - ⟨rfl, hr⟩ a ha
    exact (hg a (hr a ha)).executes
  installs := by
    refine cwp_bind (cwp_mono hq ?_ ?_)
    · rintro v rfl
      exact .inl rfl
    · rintro r v - ⟨rfl, hr⟩
      cases r with
      | ok a => exact (hg a (hr a rfl)).installs
      | error e => nofun

/-- A program that changes no file comes last. -/
theorem Verifies.before {γ : Type} {q : SysM β α} {g : α → SysM β γ} {updated : α → Prop}
    {updated' : γ → Prop} (h : Verifies host A L checksum q updated w)
    (hops : ∀ a, AllOps NoExec (g a))
    (hg : ∀ a v, cwp (hostMachine host) A (fun v' => v'.files = v.files) (g a)
      (fun r v' => v'.files = v.files ∧ ∀ c, r = .ok c → updated' c → updated a) v) :
    Verifies host A L checksum (q >>= g) updated' w where
  executes := guards_then h.executes fun a v => guards_of_no_exec (hops a) v
  installs := by
    refine cwp_bind (cwp_mono h.installs (fun _ h => h) ?_)
    intro r v hv hr
    cases r with
    | ok a =>
      refine cwp_mono (hg a v) (fun v' hfiles => ?_) ?_
      · unfold InstalledVerified at hv ⊢
        rw [hfiles]
        exact hv
      · rintro r v' - ⟨hfiles, hupdated⟩ c hc hc'
        have hend := hr a rfl (hupdated c hc hc')
        unfold InstalledVerified at hend ⊢
        rw [hfiles]
        exact hend
    | error e => nofun

/-- A program that returns without having done anything. -/
theorem Verifies.ret {a : α} {updated : α → Prop} (h : ¬ updated a) :
    Verifies host A L checksum (.ret a) updated w where
  executes := trivial
  installs := ⟨.inl rfl, by rintro _ ⟨rfl⟩ ha; exact absurd ha h⟩

/-- The cycle of the automatic poll executes and installs nothing that the checksum does not let
through. -/
theorem verifies_runCycle {cast : Json.FloatCast} {f : Fractions} {user : User} {p : UpdatePoller}
    (hserves : Serves A text) (hcarries : Carries text build.binarySuffix checksum)
    (hchecksum : checksum ≠ "") (hread : checksum = "sha256:" → ∀ file, ¬ CanFail A (.read file))
    (hdir : p.stateDir = L.stateDir) (hexe : w.proc.binaryPath = L.path .install) :
    Verifies host A L checksum (p.runCycle host build cast f user)
      (fun r => r.1 = .restarting) w := by
  -- Once a manifest was chosen: the request carries its checksum, and the cycle restarts exactly
  -- after an apply that went through.
  have apply (settings : UpdateSettings) (man : Manifest) (hman : man = Manifest.parse cast text) :
      Verifies host A L checksum
        (UpdatePoller.applyCandidate host build (p.request build settings man))
        (fun r => r = .restarting) w := by
    have hreq : (p.request build settings man).checksum = checksum := by
      simp [UpdatePoller.request, hman, checksumFor_of_carries hcarries]
    have happly : Verifies host A L (p.request build settings man).checksum
        (applyWithWatchdog host build (p.request build settings man))
        (fun ar => ar.st = .updated) w :=
      verifies_applyWithWatchdog (by rwa [hreq]) (by rwa [hreq]) hdir hexe
    rw [hreq] at happly
    unfold UpdatePoller.applyCandidate
    refine happly.before (fun ar => ?_) fun ar v => ?_
    · cases ar.st with
      | updated => exact .bind (.single (by simp [NoExec])) fun _ => trivial
      | deferred => trivial
      | error => trivial
    · cases ar.st with
      | updated => exact ⟨rfl, fun _ _ => ⟨rfl, rfl, fun _ _ _ => rfl⟩⟩
      | deferred => exact ⟨rfl, rfl, by rintro _ ⟨rfl⟩ h; cases h⟩
      | error => exact ⟨rfl, rfl, by rintro _ ⟨rfl⟩ h; cases h⟩
  have rest (settings : UpdateSettings) :
      Verifies host A L checksum (p.runLocal host build cast f settings)
        (fun r => r = .restarting) w := by
    have hops : AllOps (NoExec (β := β)) (p.candidate cast f settings) := by
      refine candidate_ops.mono fun o ho => ?_
      cases ho <;> simp [NoExec]
    unfold UpdatePoller.runLocal
    refine .after (R := fun man? => ∀ man, man? = some man → man = Manifest.parse cast text)
      hops ?_ fun man? hman => ?_
    · rw [← Prog.bind_ret (p.candidate cast f settings)]
      refine wp_candidate rfl ⟨rfl, rfl, ?_⟩ (fun man hchosen => ?_)
        fun _ _ => ⟨rfl, fun _ h => by cases h⟩
      · rintro _ ⟨rfl⟩ _ h
        cases h
      -- A chosen manifest was fetched, so it is the one that is served.
      obtain ⟨c, body, hc, hget, hparse⟩ := hchosen.published
      refine ⟨rfl, rfl, ?_⟩
      rintro _ ⟨rfl⟩ man' ⟨rfl⟩
      rw [hparse, hserves _ c body hc hget]
    · cases man? with
      | none => exact .ret (by simp)
      | some man => exact apply settings man (hman man rfl)
  have hlocal : AllOps (NoExec (β := β)) (UpdatePoller.readLocal user p.configPath) := by
    unfold UpdatePoller.readLocal
    split
    · trivial
    · exact .bind (readUpdateSection_ops (by simp [NoExec]) (by simp [NoExec])) fun _ => trivial
  -- The settings are read first, whatever they say.
  unfold UpdatePoller.runCycle
  refine .after (R := fun _ => True) hlocal ?_ fun settings _ => ?_
  · cases hpath : configPathOf user p.configPath with
    | error e =>
      rw [UpdatePoller.readLocal, hpath]
      exact ⟨rfl, rfl, fun _ h => by cases h⟩
    | ok path =>
      rw [readLocal_eq hpath]
      exact wp_readUpdateSection rfl ⟨rfl, rfl, fun _ _ => trivial⟩
        fun _ => ⟨rfl, rfl, fun _ _ => trivial⟩
  · refine (rest settings).before (fun _ => trivial) fun result v => ⟨rfl, rfl, ?_⟩
    rintro _ ⟨rfl⟩ h
    exact h

/-- The version of a channel comes from a text that converts. -/
theorem wp_fetchLatestVersion {J : World β → Prop} {Q : Except Exc α → World β → Prop}
    {channel : String} {k : VersionInfo → SysM β α} (hJ : J w) (hthrow : ∀ e, Q (.error e) w)
    (hk : ∀ c j info, A (.httpGet (manifestUrl channel)) c → c.httpGet? = .response 200 (some j) →
      versionInfo build.binarySuffix j = .ok info → cwp (hostMachine host) A J (k info) Q w) :
    cwp (hostMachine host) A J (fetchLatestVersion build channel >>= k) Q w := by
  unfold fetchLatestVersion
  rw [Prog.bind_assoc]
  refine wp_httpGet hJ fun c hc => ?_
  cases hget : c.httpGet? with
  | error what => exact ⟨hJ, hthrow _⟩
  | response status body =>
    show cwp _ A J ((if status ≠ 200 then _ else _) >>= k) Q w
    split
    · exact ⟨hJ, hthrow _⟩
    · rename_i hstatus
      obtain rfl : status = 200 := not_not.mp hstatus
      cases body with
      | none => exact ⟨hJ, hthrow _⟩
      | some j =>
        simp only
        cases hinfo : versionInfo build.binarySuffix j with
        | ok info => exact hk c j info hc hget hinfo
        | error e => exact ⟨hJ, hthrow _⟩

/-- What `run` finds out about the channel. Nothing has changed then. -/
theorem latest_spec {channel : String} {R : VersionInfo → Prop}
    (h : ∀ c j info, A (.httpGet (manifestUrl channel)) c → c.httpGet? = .response 200 (some j) →
      versionInfo build.binarySuffix j = .ok info → R info) :
    cwp (hostMachine host) A (fun v => v = w)
      (((do return Except.ok (← fetchLatestVersion build channel)) :
        SysM β (Except Exc VersionInfo)).tryCatch fun e => return .error e)
      (fun r v => v = w ∧ ∃ a, r = .ok a ∧ ∀ info, a = .ok info → R info) w := by
  refine cwp_tryCatch (wp_fetchLatestVersion rfl (fun e => ⟨rfl, rfl, _, rfl, nofun⟩)
    fun c j info hc hget hinfo => ⟨rfl, rfl, _, rfl, ?_⟩)
  rintro _ ⟨rfl⟩
  exact h c j info hc hget hinfo

/-- Reading the manifest of a channel executes no file. -/
private theorem latest_no_exec {channel : String} : AllOps (NoExec (β := β))
    (((do return Except.ok (← fetchLatestVersion build channel)) :
      SysM β (Except Exc VersionInfo)).tryCatch fun e => return .error e) := by
  refine .tryCatch (.bind (.bind (.single (by simp [NoExec])) fun res => ?_) fun _ => trivial)
    fun _ => trivial
  cases res with
  | error what => trivial
  | response status body =>
    refine .ite (fun _ => trivial) fun _ => ?_
    cases body with
    | none => trivial
    | some j =>
      simp only
      cases versionInfo build.binarySuffix j <;> trivial

/-- The entry point of the command line and of the `update` resource. -/
theorem verifies_run {user : User} {library : Exc → String} {act : Action} {channel : String}
    {origin : UpdateOrigin} (hserves : Serves A text)
    (hcarries : Carries text build.binarySuffix checksum) (hchecksum : checksum ≠ "")
    (hread : checksum = "sha256:" → ∀ file, ¬ CanFail A (.read file))
    (hdir : ∀ stateDir, defaultStateDir user = .ok stateDir → stateDir = L.stateDir)
    (hexe : w.proc.binaryPath = L.path .install) :
    Verifies host A L checksum (run host build user library act channel origin)
      (fun r => r.status = "updated") w := by
  unfold run
  -- The checksum of the channel is the one in the served text.
  refine .after (R := fun latest => ∀ info, latest = .ok info → info.checksum = checksum)
    latest_no_exec ?_ fun latest hlatest => ?_
  · refine cwp_mono (latest_spec (R := fun info => info.checksum = checksum)
      fun c j info hc hget hinfo => ?_) (fun _ h => h) ?_
    · rw [← hserves _ c (some j) hc hget] at hcarries
      exact versionInfo_of_carries hcarries hinfo
    · rintro _ v - ⟨hv, latest, rfl, hlatest⟩
      refine ⟨hv, ?_⟩
      rintro _ ⟨rfl⟩
      exact hlatest
  · cases latest with
    | error e => exact .ret (by simp)
    | ok latest =>
      have hinfo : latest.checksum = checksum := hlatest latest rfl
      show Verifies host A L checksum (runLatest host build user act channel origin latest) _ w
      unfold runLatest
      -- No version, the running one, or a check only: nothing is installed.
      split
      · exact .ret (by simp)
      simp only
      split
      · exact .ret (by simp)
      split
      · exact .ret (by simp)
      split
      · exact ⟨trivial, .inl rfl, nofun⟩
      · rename_i stateDir hstateDir
        have happly : Verifies host A L (runRequest build channel origin stateDir latest).checksum
            (applyWithWatchdog host build (runRequest build channel origin stateDir latest))
            (fun ar => ar.st = .updated) w :=
          verifies_applyWithWatchdog (by rwa [← hinfo] at hchecksum) (by rwa [← hinfo] at hread)
            (hdir stateDir hstateDir) hexe
        rw [show (runRequest build channel origin stateDir latest).checksum = checksum from hinfo]
          at happly
        refine happly.before (fun _ => trivial) fun ar v => ⟨rfl, rfl, ?_⟩
        rintro _ ⟨rfl⟩ h
        revert h
        -- Only an apply that went through is reported as `updated`.
        unfold RunResult.ofApply
        split
        · exact fun _ => ‹_›
        · simp
        · simp

/-- An entry of another type than a string ends `run` with an error. It has changed nothing. -/
theorem run_refuses {user : User} {library : Exc → String} {act : Action} {channel : String}
    {origin : UpdateOrigin} {j entry checksums : Json} (hserves : Serves A (some j))
    (hfind : j.find "checksums" = some checksums)
    (hentry : checksums.find build.binarySuffix = some entry) (hty : ∀ s, entry ≠ .str s) :
    guards (hostMachine host) A (fun _ o => NoExec o)
        (run host build user library act channel origin) w ∧
      cwp (hostMachine host) A (fun v => v = w) (run host build user library act channel origin)
        (fun r _ => ∃ result, r = .ok result ∧ result.status = "error") w := by
  -- The reader of the text throws, and `run` turns the exception into an error.
  have hlatest : cwp (hostMachine host) A (fun v => v = w)
      (((do return Except.ok (← fetchLatestVersion build channel)) :
        SysM β (Except Exc VersionInfo)).tryCatch fun e => return .error e)
      (fun r v => v = w ∧ ∃ a, r = .ok a ∧ ∀ info, a = .ok info → False) w := by
    refine latest_spec fun c j' info hc hget hinfo => ?_
    obtain rfl : j' = j := by simpa using hserves _ c (some j') hc hget
    exact versionInfo_of_ill_typed hfind hentry hty info hinfo
  unfold run
  constructor
  · refine guards_bind (guards_of_allOps (fun _ ho _ => ho) latest_no_exec w)
      (cwp_mono hlatest (fun _ h => h) ?_)
    rintro _ v - ⟨rfl, a, rfl, hr⟩ _ ⟨rfl⟩
    cases a with
    | error e => trivial
    | ok info => exact (hr info rfl).elim
  · refine cwp_bind (cwp_mono hlatest (fun _ h => h) ?_)
    rintro _ v hv ⟨-, a, rfl, hr⟩
    cases a with
    | error e => exact ⟨hv, _, rfl, rfl⟩
    | ok info => exact (hr info rfl).elim

end Callers

/-- What an update verifies, for a manifest's text and every answer of the environment that serves
it. A string checksum for the architecture, other than the empty one, is compared with the file
before the file is executed and before it is installed, for the automatic poll and for `run` of
every origin. (The bare prefix is one that a failed read matches.) An entry of another type ends
`run` with an error. -/
theorem update_verified {β : Type} (host : Host β) (build : Build) (cast : Json.FloatCast)
    (f : Fractions) (user : User) (library : Exc → String) {A : SysOp β → Choice β → Prop}
    {w : World β} {L : Layout} {text : Option Json} (hserves : Serves A text)
    (hexe : w.proc.binaryPath = L.path .install) :
    (∀ checksum, Carries text build.binarySuffix checksum → checksum ≠ "" →
      (checksum = "sha256:" → ∀ file, ¬ CanFail A (.read file)) →
        (∀ p : UpdatePoller, p.stateDir = L.stateDir →
          Verifies host A L checksum (p.runCycle host build cast f user)
            (fun r => r.1 = .restarting) w) ∧
        ((∀ stateDir, defaultStateDir user = .ok stateDir → stateDir = L.stateDir) →
          ∀ act channel origin,
            Verifies host A L checksum (run host build user library act channel origin)
              (fun r => r.status = "updated") w)) ∧
    ∀ j checksums entry, text = some j → j.find "checksums" = some checksums →
      checksums.find build.binarySuffix = some entry → (∀ s, entry ≠ .str s) →
        ∀ act channel origin,
          guards (hostMachine host) A (fun _ o => NoExec o)
              (run host build user library act channel origin) w ∧
            cwp (hostMachine host) A (fun v => v = w)
              (run host build user library act channel origin)
              (fun r _ => ∃ result, r = .ok result ∧ result.status = "error") w := by
  refine ⟨fun checksum hcarries hchecksum hread =>
    ⟨fun p hp => ?_, fun hdir act channel origin => ?_⟩, ?_⟩
  · exact verifies_runCycle hserves hcarries hchecksum hread hp hexe
  · exact verifies_run hserves hcarries hchecksum hread hdir hexe
  · rintro j checksums entry rfl hfind hentry hty act channel origin
    exact run_refuses hserves hfind hentry hty

/-! ### Sample runs -/

/-- The sample host with a digest function that gives every content the digest `00`. -/
def digestHost : Host Nat := { sampleHost with sha256 := fun _ => "00" }

/-- A manifest for the version 2 with the given entries under `checksums`. -/
def manifestWith (checksums : List (String × Json)) : Json :=
  .obj [("version", .str "2"), ("checksums", .obj checksums)]

/-- The environment that serves a manifest with the digest of every file. -/
def ServesDigest (_ : SysOp Nat) (c : Choice Nat) : Prop :=
  ∀ body, c.httpGet? = .response 200 body → body = some (manifestWith [("linux", .str "sha256:00")])

/-- An update from the command line with the digest of the binary that is served. -/
theorem update_verified_sample : Verifies digestHost ServesDigest Layout.system "sha256:00"
    (run digestHost sampleBuild sampleRoot (fun _ => "") .apply "latest" .cli)
    (fun r => r.status = "updated") sampleWorld :=
  ((update_verified digestHost sampleBuild .wrap
    (deviceFraction fun _ => []) sampleRoot (fun _ => "")
    (fun _ _ body hc hget => hc body hget) rfl).1 "sha256:00"
    ⟨_, _, rfl, rfl, rfl⟩ (by decide) (fun h => absurd h (by decide))).2
    (fun stateDir h => by cases h; decide) _ _ _

/-- The run of an update by the command line, when the channel serves `text` and the read of the
downloaded file for its digest is answered by `answers`. -/
def sampleUnverified (text : Json) (answers : List (Choice Nat)) : SysM Nat RunResult × World Nat :=
  (hostMachine digestHost).after
    ([.body (.response 200 (some text)), .ok, .ok, .ok, .http (.response 200 1)
      (some (.image 2))] ++
      answers ++ List.replicate 16 .ok)
    (run digestHost sampleBuild sampleRoot (fun _ => "") .apply "latest" .cli, sampleWorld)

/-- Without a checksum the update is installed all the same. So is it with the bare prefix, when
the read of the file fails. -/
theorem not_verified_sample :
    ((sampleUnverified (.obj [("version", .str "2")]) []).1.result.map fun r =>
        (r.toOption.map RunResult.status)) = some (some "updated") ∧
      (sampleUnverified (.obj [("version", .str "2")]) []).2.image Layout.system.install = some 2 ∧
      ((sampleUnverified (manifestWith [("linux", .str "sha256:")])
        [.fail (.other 5) none]).1.result.map
        fun r => (r.toOption.map RunResult.status)) = some (some "updated") ∧
      ¬ HasDigest digestHost "sha256:" (.image 2) := by
  decide +kernel

end ThinrAgent
