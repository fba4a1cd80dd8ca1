import ThinrAgent.Effects.GiveUp
import ThinrAgent.Proofs.Checksum

/-!
# `ThinrAgent.Proofs.SameRequest`: the two ways to an update ask for the same

`updater::run` and the cycle of the poll read the manifest of a channel each in its own way, and
each builds a request of its own. `runToRequest` is `run` up to its request (`run_eq`), as
`upToRequest` is the cycle up to its own (`runCycle_eq`). `RunAsks` and `CycleAsks` say that a
request is reached while the channel serves a text.

Both take the version and the binary's address from the same places. `exists_runAsks_iff` and
`exists_cycleAsks_iff` say for which texts each of them asks for something, and `sameRequest_iff`
where the two differ: in the deadline, which `run` does not take from the settings, and for a
checksum of another type than a string, which the cycle passes over.
-/

set_option autoImplicit false

namespace ThinrAgent

open Effects

/-! ### What a text offers -/

/-- The text is an object with a version other than the one that runs. -/
def Offers (build : Build) (text : Option Json) : Prop :=
  ∃ j, text = some j ∧ j.isObject = true ∧ Manifest.versionIn j ≠ "" ∧
    Manifest.versionIn j ≠ build.version

/-- The checksum for an architecture, where the text has one, is a string. -/
def ChecksumTyped (arch : String) (text : Option Json) : Prop :=
  ∀ j checksums entry, text = some j → j.find "checksums" = some checksums →
    checksums.find arch = some entry → ∃ s, entry = .str s

section Texts

variable {arch : String} {j : Json} {cast : Json.FloatCast} {build : Build}

/-- An architecture without an entry has none among the checksums that the cycle reads. -/
theorem lookup_filterMap_none {entries : List (String × Json)} (h : entries.lookup arch = none) :
    (entries.filterMap Manifest.checksumEntry).lookup arch = none := by
  induction entries with
  | nil => rfl
  | cons entry entries ih =>
    obtain ⟨key, value⟩ := entry
    rw [List.lookup_cons] at h
    cases hkey : arch == key with
    | true => simp [hkey] at h
    | false =>
      simp only [hkey] at h
      cases value with
      | str s =>
        have hkept : Manifest.checksumEntry (key, .str s) = some (key, s) := rfl
        rw [List.filterMap_cons_some hkept, List.lookup_cons]
        simpa only [hkey] using ih h
      | _ => exact ih h

/-- A checksum that `run` accepts is the one of the parsed manifest. -/
theorem checksumFor_of_latest {checksum : String} (hobj : j.isObject = true)
    (h : latestChecksum arch j = .ok checksum) :
    ((Manifest.parse cast (some j)).checksumFor arch).getD "" = checksum := by
  rw [Manifest.checksumFor, (Manifest.parse_plain cast hobj).2.1, Manifest.checksumsIn]
  unfold latestChecksum at h
  -- `run` takes a missing checksum for an empty one and accepts a string only, so there is
  -- nothing that the parser of the manifest would pass over.
  cases hfind : j.find "checksums" with
  | none =>
    simp only [hfind, Option.bind_none] at h
    cases h
    rfl
  | some checksums =>
    simp only [hfind, Option.bind_some] at h
    cases checksums with
    | obj entries =>
      cases hentry : entries.lookup arch with
      | none =>
        simp only [Json.find, hentry] at h
        cases h
        simp only [lookup_filterMap_none hentry, Option.getD_none]
      | some entry =>
        simp only [Json.find, hentry] at h
        cases entry with
        | str s =>
          cases h
          simp only [lookup_filterMap hentry, Option.getD_some]
        | _ => cases h
    | _ =>
      cases h
      rfl

/-- `run` reads the checksum without an exception exactly when it is missing or a string. -/
theorem latestChecksum_isOk :
    (∃ checksum, latestChecksum arch j = .ok checksum) ↔ ChecksumTyped arch (some j) := by
  unfold latestChecksum ChecksumTyped
  constructor
  · rintro ⟨checksum, h⟩ _ checksums entry ⟨rfl⟩ hfind hentry
    simp only [hfind, Option.bind_some, hentry] at h
    cases entry with
    | str s => exact ⟨s, rfl⟩
    | _ => cases h
  · intro htyped
    cases hfind : j.find "checksums" with
    | none => exact ⟨"", rfl⟩
    | some checksums =>
      simp only [Option.bind_some]
      cases hentry : checksums.find arch with
      | none => exact ⟨"", rfl⟩
      | some entry =>
        obtain ⟨s, rfl⟩ := htyped j checksums entry rfl hfind hentry
        exact ⟨s, rfl⟩

/-- What `run` takes from a text: its version and its checksum. -/
theorem versionInfo_eq_ok {info : VersionInfo} : versionInfo arch j = .ok info ↔
    j.isObject = true ∧ j.find "version" = some (.str info.version) ∧
      latestChecksum arch j = .ok info.checksum := by
  unfold versionInfo
  constructor
  · intro h
    split at h
    · rename_i hobj
      split at h
      · cases h
      · rename_i version hversion
        cases hlatest : latestChecksum arch j with
        | error e =>
          rw [hlatest] at h
          cases h
        | ok checksum =>
          rw [hlatest] at h
          cases h
          -- The one branch with a result, in which both fields were read.
          exact ⟨hobj, hversion, rfl⟩
      · cases h
    · cases h
  · rintro ⟨hobj, hversion, hlatest⟩
    rw [if_pos hobj, hversion, hlatest]
    rfl

/-- The version the cycle reads is the one in the text. -/
theorem versionIn_eq {version : String} (h : j.find "version" = some (.str version)) :
    Manifest.versionIn j = version := by
  rw [Manifest.versionIn, h]

/-- A version that is not empty was a string in the text. -/
theorem find_version_of_ne (h : Manifest.versionIn j ≠ "") :
    j.find "version" = some (.str (Manifest.versionIn j)) := by
  unfold Manifest.versionIn at h ⊢
  split
  · assumption
  · rename_i hno
    split at h
    · exact absurd ‹_› (hno _)
    · exact absurd rfl h

/-- A manifest with a version to go to is parsed from a text that offers one. -/
theorem offers_iff {text : Option Json} :
    Offers build text ↔ (Manifest.parse cast text).valid = true ∧
      (Manifest.parse cast text).version ≠ build.version := by
  constructor
  · rintro ⟨j, rfl, hobj, hversion, hdiffers⟩
    obtain ⟨hv, -, hvalid⟩ := Manifest.parse_plain cast hobj
    rw [hvalid, hv]
    exact ⟨decide_eq_true hversion, hdiffers⟩
  · rintro ⟨hvalid, hdiffers⟩
    cases text with
    | none => cases hvalid
    | some j =>
      by_cases hobj : j.isObject = true
      · obtain ⟨hv, -, hvalid'⟩ := Manifest.parse_plain cast hobj
        rw [hvalid', decide_eq_true_eq] at hvalid
        exact ⟨j, rfl, hobj, hvalid, hv ▸ hdiffers⟩
      · rw [Manifest.parse, if_neg hobj] at hvalid
        cases hvalid

end Texts

/-! ### Up to the request -/

section Requests

variable {β : Type}

/-- `run` up to the request it builds, or its answer when it builds none. -/
def runToRequest (build : Build) (user : User) (library : Exc → String) (channel : String)
    (origin : UpdateOrigin) : SysM β (RunResult × Option ApplyRequest) := do
  let r : RunResult := { current := build.version, arch := build.binarySuffix }
  let latest ← ((do return Except.ok (← fetchLatestVersion build channel)) :
    SysM β (Except Exc VersionInfo)).tryCatch fun e => return .error e
  match latest with
  | .error e =>
    return ({ r with status := "error",
                     message := "Failed to check for updates: " ++ e.what library }, none)
  | .ok latest =>
    if latest.version = "" then
      return ({ r with status := "error", message := "Empty version response from CDN" }, none)
    let r := { r with latest := latest.version }
    if r.current = latest.version then return ({ r with status := "up_to_date" }, none)
    match defaultStateDir user with
    | .error e => .throw e
    | .ok stateDir => return (r, some (runRequest build channel origin stateDir latest))

/-- `run` builds its request, if any, and applies it. -/
theorem run_eq (host : Host β) (build : Build) (user : User) (library : Exc → String)
    (channel : String) (origin : UpdateOrigin) :
    run host build user library .apply channel origin =
      runToRequest build user library channel origin >>= fun r =>
        match r.2 with
        | none => .ret r.1
        | some req => do return r.1.ofApply (← applyWithWatchdog host build req) := by
  unfold run runToRequest runLatest
  simp only [Prog.bind_assoc]
  refine congrArg _ (funext fun latest => ?_)
  cases latest with
  | error e => rfl
  | ok latest =>
    simp only
    split
    · rfl
    split
    · rfl
    rw [if_neg (by decide)]
    cases defaultStateDir user <;> rfl

/-- The channel answers every request for its manifest with this text. -/
def ServesText (channel : String) (text : Option Json) (o : SysOp β) (c : Choice β) : Prop :=
  o = .httpGet (manifestUrl channel) → c.httpGet? = .response 200 text

/-- `run` reaches an apply with this request, in some world and with answers in which the channel
gives the text to every request for its manifest. -/
def RunAsks (host : Host β) (build : Build) (user : User) (library : Exc → String)
    (channel : String) (origin : UpdateOrigin) (text : Option Json) (req : ApplyRequest) : Prop :=
  ∃ w cs r, (hostMachine host).Admits (ServesText channel text) cs
      (runToRequest build user library channel origin, w) ∧
    ((hostMachine host).after cs (runToRequest build user library channel origin, w)).1 =
      .ret (r, some req)

/-- A cycle that has read the local section passes its gates and reaches an apply with this
request. -/
def CycleAsks (host : Host β) (build : Build) (cast : Json.FloatCast) (f : Fractions) (user : User)
    (p : UpdatePoller) (localSection : Json) (text : Option Json) (req : ApplyRequest) : Prop :=
  ∃ w cs, (hostMachine host).Admits
      (ServesText (UpdateSettings.fromJson localSection).channel text) cs
      (p.upToRequest build cast f user, w) ∧
    ((hostMachine host).after cs (p.upToRequest build cast f user, w)).1 =
      .ret (.fromJson localSection, some req)

/-- Two requests agree on what is installed and on the deadline of its trial. -/
structure ApplyRequest.SameUpdate (req req' : ApplyRequest) : Prop where
  version : req.version = req'.version
  url : req.url = req'.url
  checksum : req.checksum = req'.checksum
  rollbackDeadlineS : req.rollbackDeadlineS = req'.rollbackDeadlineS

variable {host : Host β} {build : Build} {cast : Json.FloatCast} {f : Fractions} {user : User}
  {library : Exc → String} {channel : String} {origin : UpdateOrigin} {text : Option Json}
  {p : UpdatePoller} {localSection : Json} {req : ApplyRequest}

/-- The request of `run` is the one for what it takes from the text. -/
theorem runToRequest_spec {w : World β} :
    cwp (hostMachine host) (ServesText channel text) (fun v => v = w)
      (runToRequest build user library channel origin)
      (fun r _ => ∀ result req, r = .ok (result, some req) → ∃ j info stateDir, text = some j ∧
        versionInfo build.binarySuffix j = .ok info ∧ info.version ≠ "" ∧
        build.version ≠ info.version ∧
        req = runRequest build channel origin stateDir info) w := by
  unfold runToRequest
  -- `run` fetches the text, and then has three reasons to give up.
  refine cwp_bind (cwp_mono (latest_spec (R := fun info => ∃ j, text = some j ∧
    versionInfo build.binarySuffix j = .ok info) fun c j info hc hget hinfo => ?_)
    (fun _ h => h) ?_)
  · have hserves := hc rfl
    rw [hget] at hserves
    cases hserves
    exact ⟨j, rfl, hinfo⟩
  · rintro _ v hv ⟨-, latest, rfl, hlatest⟩
    cases latest with
    | error e => exact ⟨hv, by simp⟩
    | ok info =>
      obtain ⟨j, htext, hinfo⟩ := hlatest info rfl
      simp only
      split
      · exact ⟨hv, by simp⟩
      rename_i hversion
      split
      · exact ⟨hv, by simp⟩
      rename_i hdiffers
      split
      · exact ⟨hv, by simp⟩
      · rename_i stateDir _
        refine ⟨hv, fun result req h => ?_⟩
        cases h
        exact ⟨j, info, stateDir, htext, hinfo, hversion, hdiffers, rfl⟩

/-- What `run` asks for tells what the text was: it names another version than the one that runs,
and the request is the one `run` builds of it. -/
theorem RunAsks.request (h : RunAsks host build user library channel origin text req) :
    ∃ j info stateDir, text = some j ∧ versionInfo build.binarySuffix j = .ok info ∧
      info.version ≠ "" ∧ build.version ≠ info.version ∧
      req = runRequest build channel origin stateDir info := by
  obtain ⟨w, cs, r, hcs, hend⟩ := h
  exact cwp_after_ret runToRequest_spec hcs hend r req rfl

/-- What the cycle asks for tells that the text offers something, and the request is the one the
cycle builds of it. -/
theorem CycleAsks.request (hversion : p.runningVersion = build.version)
    (h : CycleAsks host build cast f user p localSection text req) :
    Offers build text ∧ req = p.request build (.fromJson localSection) (.parse cast text) := by
  obtain ⟨w, cs, hcs, hend⟩ := h
  obtain ⟨man, hchosen, rfl⟩ := (cwp_after_ret upToRequest_spec hcs hend).2 _ _ rfl
  obtain ⟨c, body, hc, hget, rfl⟩ := hchosen.published
  have hserves := hc rfl
  rw [hget] at hserves
  cases hserves
  exact ⟨offers_iff.mpr ⟨hchosen.valid, hversion ▸ hchosen.differs⟩, rfl⟩

/-- `fetch_latest_version` may return what the text that is served holds. -/
theorem may_fetchLatestVersion {j : Json} {info : VersionInfo} {w : World β}
    (hinfo : versionInfo build.binarySuffix j = .ok info) :
    may (hostMachine host) (ServesText channel (some j)) (fetchLatestVersion build channel)
      (fun latest _ => latest = info) w := by
  unfold fetchLatestVersion
  refine may_bind ⟨.body (.response 200 (some j)), fun _ => rfl, ?_⟩
  have hget : (hostMachine host).exec w (.httpGet (manifestUrl channel))
      (.body (.response 200 (some j))) = (.response 200 (some j), w) := rfl
  rw [hget]
  simp only [may, hinfo]
  rfl

/-- A read of a section may return the one that is there. -/
theorem may_readUpdateSection {A : SysOp β → Choice β → Prop} {path : Path} {w : World β}
    (hexists : A (.exists path) .ok) (hread : A (.read path) .ok)
    (hfile : w.files path = some (.json (.obj [("update", localSection)]))) :
    may (hostMachine host) A (readUpdateSection path) (fun j _ => j = localSection) w := by
  unfold readUpdateSection readRaw
  refine may_tryCatch (may_bind (may_bind ⟨.ok, hexists, ?_⟩))
  show may _ _ (if !(w.files path).isSome then _ else _) _ w
  rw [hfile]
  refine may_bind ⟨.ok, hread, ?_⟩
  have hget : (hostMachine host).exec w (.read path) .ok =
      (some (.json (.obj [("update", localSection)])), w) := by
    rw [← hfile]
    rfl
  rw [hget]
  rfl

/-- A cycle that passes its gates at some moment may choose the version of the text that is served.
In this run there is no record of a rollback. -/
theorem may_candidate {settings : UpdateSettings} {now : Int64} {w : World β}
    (hpolicy : effectivePolicy settings p.remoteOverride ≠ .managed)
    (hconnected : p.connected = true)
    (hvalid : (Manifest.parse cast text).valid = true)
    (hdiffers : (Manifest.parse cast text).version ≠ p.runningVersion)
    (heligible : isEligible (evaluateEligibility f (.parse cast text) p.deviceId now) = true) :
    may (hostMachine host) (ServesText settings.channel text) (p.candidate cast f settings)
      (fun man _ => man = some (.parse cast text)) w := by
  unfold UpdatePoller.candidate
  rw [if_neg hpolicy, hconnected]
  refine may_bind ⟨.body (.response 200 text), fun _ => rfl, ?_⟩
  show may _ _ (if !(Manifest.parse cast text).valid then _
    else if (Manifest.parse cast text).version = p.runningVersion then _ else _) _ w
  rw [hvalid, if_neg Bool.noConfusion, if_neg hdiffers]
  refine may_bind (may_bind ⟨.fail .enoent none, nofun, ?_⟩)
  refine may_bind ⟨.num now.toInt, nofun, ?_⟩
  show may _ _ (if !isEligible (evaluateEligibility f _ p.deviceId (Int64.ofInt now.toInt))
    then _ else _) _ w
  rw [Int64.ofInt_toInt, heligible]
  rfl

/-- `run` asks for something exactly when the text offers a version with a checksum it accepts. -/
theorem exists_runAsks_iff {stateDir : Path} (hdir : defaultStateDir user = .ok stateDir)
    (w : World β) : (∃ req, RunAsks host build user library channel origin text req) ↔
      Offers build text ∧ ChecksumTyped build.binarySuffix text := by
  constructor
  · rintro ⟨req, h⟩
    obtain ⟨j, info, dir, rfl, hinfo, hversion, hdiffers, -⟩ := h.request
    obtain ⟨hobj, hfind, hlatest⟩ := versionInfo_eq_ok.mp hinfo
    have heq := versionIn_eq hfind
    exact ⟨⟨j, rfl, hobj, heq ▸ hversion, heq ▸ hdiffers.symm⟩, latestChecksum_isOk.mp ⟨_, hlatest⟩⟩
  · rintro ⟨⟨j, rfl, hobj, hversion, hdiffers⟩, htyped⟩
    obtain ⟨checksum, hlatest⟩ := latestChecksum_isOk.mpr htyped
    have hinfo : versionInfo build.binarySuffix j = .ok ⟨Manifest.versionIn j, checksum⟩ :=
      versionInfo_eq_ok.mpr ⟨hobj, find_version_of_ne hversion, hlatest⟩
    have hreturns : may (hostMachine host) (ServesText channel (some j))
        (runToRequest build user library channel origin) (fun r _ => ∃ req, r.2 = some req) w := by
      refine may_bind (may_tryCatch (may_bind (may_mono (may_fetchLatestVersion hinfo) ?_)))
      rintro _ v rfl
      show may _ _ (if Manifest.versionIn j = "" then _ else if _ then _ else _) _ v
      rw [if_neg hversion, if_neg hdiffers.symm, hdir]
      exact ⟨_, rfl⟩
    obtain ⟨cs, ⟨r, _⟩, hcs, hend, req, rfl⟩ := exists_run_of_may hreturns
    exact ⟨req, w, cs, r, hcs, hend⟩

/-- The gates of a cycle, for a section and a text: the policy lets it go on, the client is
connected, and there is a moment at which the device is eligible. -/
def UpdatePoller.PassesGates (p : UpdatePoller) (cast : Json.FloatCast) (f : Fractions)
    (localSection : Json) (text : Option Json) : Prop :=
  effectivePolicy (.fromJson localSection) p.remoteOverride ≠ .managed ∧ p.connected = true ∧
    ∃ now, isEligible (evaluateEligibility f (.parse cast text) p.deviceId now) = true

/-- Behind its gates, a cycle asks for something exactly when the text offers a version. -/
theorem exists_cycleAsks_iff {configPath : Path} (hversion : p.runningVersion = build.version)
    (hconfig : configPathOf user p.configPath = .ok configPath) :
    (∃ req, CycleAsks host build cast f user p localSection text req) ↔
      p.PassesGates cast f localSection text ∧ Offers build text := by
  constructor
  · rintro ⟨req, h⟩
    refine ⟨?_, (h.request hversion).1⟩
    obtain ⟨w, cs, hcs, hend⟩ := h
    obtain ⟨man, hchosen, -⟩ := (cwp_after_ret upToRequest_spec hcs hend).2 _ _ rfl
    obtain ⟨c, body, hc, hget, rfl⟩ := hchosen.published
    have hserves := hc rfl
    rw [hget] at hserves
    cases hserves
    obtain ⟨c, -, heligible⟩ := hchosen.eligible
    exact ⟨hchosen.policy, hchosen.connected, _, heligible⟩
  · rintro ⟨⟨hpolicy, hconnected, now, heligible⟩, hoffers⟩
    obtain ⟨hvalid, hdiffers⟩ : (Manifest.parse cast text).valid = true ∧
        (Manifest.parse cast text).version ≠ build.version := offers_iff.mp hoffers
    let settings := UpdateSettings.fromJson localSection
    -- A machine with the section in its configuration and without a record of a rollback.
    let w : World β := .ofFiles (fun path => if path = configPath then
      some (.json (.obj [("update", localSection)])) else none) { pid := 1, exe := none }
    have hsection : may (hostMachine host) (ServesText settings.channel text)
        (readUpdateSection configPath) (fun j _ => j = localSection) w :=
      may_readUpdateSection nofun nofun (by simp [w, World.ofFiles, World.files])
    have hreturns : may (hostMachine host) (ServesText settings.channel text)
        (p.upToRequest build cast f user)
        (fun r _ => r = (settings, some (p.request build settings (.parse cast text)))) w := by
      unfold UpdatePoller.upToRequest
      rw [readLocal_eq hconfig, Prog.bind_assoc]
      refine may_bind (may_mono hsection ?_)
      rintro _ v rfl
      rw [Prog.ret_bind]
      refine may_bind (may_mono (may_candidate hpolicy hconnected hvalid
        (fun h => hdiffers (h.trans hversion)) heligible) ?_)
      rintro _ v' rfl
      rfl
    obtain ⟨cs, _, hcs, hend, rfl⟩ := exists_run_of_may hreturns
    exact ⟨_, w, cs, hcs, hend⟩

/-- For every local section, poller and text, two things hold together exactly under one condition.
The requests of `run` on the section's channel and of the cycle agree whenever both are reached.
And where the cycle passes its gates, one of the two asks for something if and only if the other
does. The condition is that a text which offers a version to a cycle behind its gates gives a
string for the checksum, and that the section's deadline is then the one `run` uses. -/
theorem sameRequest_iff {β : Type} (host : Host β) (build : Build) (cast : Json.FloatCast)
    (f : Fractions) (user : User) (library : Exc → String) (origin : UpdateOrigin)
    (stateDir configPath : Path) (hdir : defaultStateDir user = .ok stateDir) (p : UpdatePoller)
    (hconfig : configPathOf user p.configPath = .ok configPath)
    (hversion : p.runningVersion = build.version) (localSection : Json) (text : Option Json)
    (w : World β) :
    ((∀ req req', RunAsks host build user library (UpdateSettings.fromJson localSection).channel
          origin text req → CycleAsks host build cast f user p localSection text req' →
          req.SameUpdate req') ∧
        (p.PassesGates cast f localSection text →
          ((∃ req, RunAsks host build user library (UpdateSettings.fromJson localSection).channel
              origin text req) ↔
            ∃ req, CycleAsks host build cast f user p localSection text req))) ↔
      (p.PassesGates cast f localSection text → Offers build text →
        ChecksumTyped build.binarySuffix text ∧
          (UpdateSettings.fromJson localSection).rollbackDeadlineS = 90) := by
  -- Each of the two asks for something under a condition on the text alone.
  have hrun : (∃ req, RunAsks host build user library (UpdateSettings.fromJson localSection).channel
      origin text req) ↔ Offers build text ∧ ChecksumTyped build.binarySuffix text :=
    exists_runAsks_iff hdir w
  have hcycle : (∃ req, CycleAsks host build cast f user p localSection text req) ↔
      p.PassesGates cast f localSection text ∧ Offers build text :=
    exists_cycleAsks_iff hversion hconfig
  constructor
  -- The cycle asks here, so `run` has to, and the two requests have one deadline.
  · rintro ⟨hsame, hboth⟩ hpasses hoffers
    obtain ⟨req', hasks'⟩ := hcycle.mpr ⟨hpasses, hoffers⟩
    have hasks := (hboth hpasses).mpr ⟨req', hasks'⟩
    refine ⟨(hrun.mp hasks).2, ?_⟩
    obtain ⟨req, hasks⟩ := hasks
    obtain ⟨j, info, dir, -, -, -, -, hreq⟩ := hasks.request
    have hdeadline := (hsame req req' hasks hasks').rollbackDeadlineS
    rw [hreq, (hasks'.request hversion).2] at hdeadline
    exact hdeadline.symm
  · intro hcond
    constructor
    -- Both requests come from one text, which fixes every other field.
    · intro req req' hasks hasks'
      obtain ⟨hpasses, hoffers⟩ := hcycle.mp ⟨req', hasks'⟩
      have h90 := (hcond hpasses hoffers).2
      obtain ⟨j, info, dir, rfl, hinfo, -, -, rfl⟩ := hasks.request
      obtain ⟨-, rfl⟩ := hasks'.request hversion
      obtain ⟨hobj, hfind, hlatest⟩ := versionInfo_eq_ok.mp hinfo
      refine ⟨?_, rfl, (checksumFor_of_latest hobj hlatest).symm, h90.symm⟩
      show info.version = (Manifest.parse cast (some j)).version
      rw [(Manifest.parse_plain cast hobj).1, versionIn_eq hfind]
    · intro hpasses
      rw [hrun, hcycle]
      exact ⟨fun h => ⟨hpasses, h.1⟩, fun h => ⟨h.2, (hcond hpasses h.2).1⟩⟩

end Requests

/-! ### Sample requests -/

/-- The section of a user who gives a new binary two minutes. -/
def sampleLocalSection : Json := .obj [("rollback_deadline_s", .int 120)]

/-- A manifest with a version and nothing else. -/
def sampleText : Option Json := some (.obj [("version", .str "2")])

/-- A configuration file that holds nothing but the sample section. -/
def sampleConfigured : World Nat :=
  .ofFiles (fun p =>
    if p = SYSTEM_CONFIG_PATH then some (.json (.obj [("update", sampleLocalSection)]))
    else none) { pid := 1, exe := none }

/-- A server that answers every request with the sample manifest. -/
def sampleTextAnswers : List (Choice Nat) := List.replicate 6 (.body (.response 200 sampleText))

/-- The answers of this server are those of a channel that serves the manifest. -/
theorem sampleText_admits {α : Type} (s : SysM Nat α × World Nat) :
    (hostMachine sampleHost).Admits (ServesText "latest" sampleText) sampleTextAnswers s := by
  refine admits_of_forall _ (fun c hc o _ => ?_) s
  rw [List.eq_of_mem_replicate hc]
  rfl

/-- A device that the text reaches, with a section that says nothing of the deadline. -/
theorem sameRequest_iff_sample :
    (∀ req req', RunAsks sampleHost sampleBuild sampleRoot (fun _ => "") "latest" .cli sampleText
          req →
        CycleAsks sampleHost sampleBuild .wrap (deviceFraction fun _ => []) sampleRoot samplePoller
          (.obj []) sampleText req' → req.SameUpdate req') ∧
      (samplePoller.PassesGates .wrap (deviceFraction fun _ => []) (.obj []) sampleText →
        ((∃ req, RunAsks sampleHost sampleBuild sampleRoot (fun _ => "") "latest" .cli sampleText
            req) ↔
          ∃ req, CycleAsks sampleHost sampleBuild .wrap (deviceFraction fun _ => []) sampleRoot
            samplePoller (.obj []) sampleText req)) := by
  refine (sameRequest_iff sampleHost sampleBuild .wrap (deviceFraction fun _ => []) sampleRoot
    (fun _ => "") .cli "/etc/thinr-agent" SYSTEM_CONFIG_PATH (by decide +kernel) samplePoller
    (by decide +kernel) rfl (.obj []) sampleText sampleConfigured).mpr fun _ _ => ⟨?_, rfl⟩
  rintro _ checksums entry ⟨rfl⟩ hfind
  cases hfind

/-- The section asks for 120 seconds. The cycle's request has them, and the one of `run` has 90. -/
theorem not_sameRequest_sample :
    ¬ ∀ req req', RunAsks sampleHost sampleBuild sampleRoot (fun _ => "")
        (UpdateSettings.fromJson sampleLocalSection).channel .cli sampleText req →
      CycleAsks sampleHost sampleBuild .wrap (deviceFraction fun _ => []) sampleRoot samplePoller
        sampleLocalSection sampleText req' → req.SameUpdate req' := by
  intro hsame
  have hrun : RunAsks sampleHost sampleBuild sampleRoot (fun _ => "")
      (UpdateSettings.fromJson sampleLocalSection).channel .cli sampleText
      (runRequest sampleBuild "latest" .cli "/etc/thinr-agent" ⟨"2", ""⟩) :=
    ⟨sampleConfigured, sampleTextAnswers, { current := "1", arch := "linux", latest := "2" },
      sampleText_admits _, Prog.result_eq_ok.mp (by decide +kernel)⟩
  have hcycle : CycleAsks sampleHost sampleBuild .wrap (deviceFraction fun _ => []) sampleRoot
      samplePoller sampleLocalSection sampleText
      (samplePoller.request sampleBuild (.fromJson sampleLocalSection) (.parse .wrap sampleText)) :=
    ⟨sampleConfigured, sampleTextAnswers, sampleText_admits _,
      Prog.result_eq_ok.mp (by decide +kernel)⟩
  have hdeadline := (hsame _ _ hrun hcycle).rollbackDeadlineS
  revert hdeadline
  decide +kernel

end ThinrAgent
