import ThinrAgent.Config.ConfigStore

/-!
# `ThinrAgent.Proofs.TwoPartStore`: the configuration file is a store of two parts

`Stored` is what the file is for: the credentials of the last `save`, the `update` section, and the
keys that no writer knows. `save_spec` and `writeUpdateSection_spec` say what one call does to the
file, and `twoPartStore` what its readers find after every sequence of calls in which no `save`
fails to read a file that is there.
-/

set_option autoImplicit false

namespace ThinrAgent

open Effects

/-! ### One call -/

/-- The object in a file's text. Where there is none, a writer goes on with the empty one. -/
def Content.config {β : Type} (content : Content β) : Json :=
  match content.parse with
  | some (.obj kvs) => .obj kvs
  | _ => .obj []

/-- The object in the configuration file, which is empty where there is no file or no object in
it. -/
def World.config {β : Type} (w : World β) (configPath : Path) : Json :=
  match w.files configPath with
  | none => .obj []
  | some content => content.config

section Rules

variable {β α : Type} {host : Host β} {A : SysOp β → Choice β → Prop} {J : World β → Prop}
  {w : World β} {Q : Except Exc α → World β → Prop} {configPath : Path} {config updateObj : Json}
  {credentials : DeviceCredentials}

/-- What `readRaw` does with a text: an object is taken, and anything else counts as the empty
one. -/
theorem Content.config_cases (content : Content β) :
    (∃ kvs, content.parse = some (.obj kvs) ∧ content.config = .obj kvs) ∨
      (∀ kvs, content.parse ≠ some (.obj kvs)) ∧ content.config = .obj [] := by
  unfold Content.config
  split
  · exact .inl ⟨_, ‹_›, rfl⟩
  · exact .inr ⟨‹_›, rfl⟩

/-- What a writer starts from is an object: a file that is missing, or that holds no object, is an
empty one. -/
theorem World.isObject_config (w : World β) (configPath : Path) :
    (w.config configPath).isObject = true := by
  unfold World.config
  split
  · rfl
  · unfold Content.config
    split <;> rfl

/-- The section that the readers find is the one of the configuration, and an empty object without
it. -/
theorem World.updateSection_eq (w : World β) (configPath : Path) :
    w.updateSection configPath = ((w.config configPath).find "update").getD (.obj []) := by
  unfold World.updateSection World.config
  cases w.files configPath with
  | none => rfl
  | some content =>
    show content.updateSection = (content.config.find "update").getD (.obj [])
    rcases content.config_cases with ⟨kvs, hparse, hconfig⟩ | ⟨hparse, hconfig⟩
    · rw [hconfig, Content.updateSection, hparse]
    · rw [hconfig, Content.updateSection]
      split
      · exact absurd ‹_› (hparse _)
      · rfl

/-- After a writer has replaced the file, its object is the one that was written. -/
theorem World.config_of_replaced {tmp : Path} {w' : World β}
    (h : World.Replaced tmp configPath (.json config) w w') (hobj : config.isObject = true) :
    w'.config configPath = config := by
  rw [World.config, h.files_target]
  cases config <;> first | rfl | cases hobj

/-- The environment `A` fails no operation that a writer of the configuration needs. -/
def StoreWorks (A : SysOp β → Choice β → Prop) (configPath : Path) : Prop :=
  Writable A ∧ ¬ CanFail A (.createDirectories (parentPath configPath)) ∧
    ¬ CanFail A (.read configPath)

/-- Where the store works, a look whether a file is there does not fail. -/
theorem StoreWorks.exists (h : StoreWorks A configPath) (p : Path) : ¬ CanFail A (.exists p) :=
  h.1 _ rfl (by simp)

/-- The rule for the directory of the configuration. When it throws, some call of the store has
failed. -/
theorem wp_ensureConfigDirectory {k : Unit → SysM β α} (hJ : J w)
    (hok : cwp (hostMachine host) A J (k ()) Q w)
    (hthrow : ¬ StoreWorks A configPath → ∀ e, Q (.error e) w) :
    cwp (hostMachine host) A J (ensureConfigDirectory configPath >>= k) Q w := by
  unfold ensureConfigDirectory
  simp only [Prog.bind_assoc]
  refine wp_fsExists hJ ?_ fun hf => hthrow (fun h => h.exists _ hf) _
  split
  · rw [Prog.bind_assoc]
    exact wp_fsCreateDirectories hJ hok fun hf => ⟨hJ, hthrow (fun h => h.2.1 hf) _⟩
  · exact hok

/-- The rule for the write of a configuration: the file is replaced as a whole, or the write throws
and has touched the temporary file only. -/
theorem wp_writeRaw {k : Unit → SysM β α}
    (hJ : ∀ w', World.Scratch [tempPath configPath w.proc.pid] w w' → J w')
    (hJrenamed : ∀ w', World.Committed (tempPath configPath w.proc.pid) configPath (.json config)
      w w' → J w')
    (hok : ∀ w', World.Committed (tempPath configPath w.proc.pid) configPath (.json config) w w' →
      (Benign A → w'.Durable configPath (.json config)) →
      cwp (hostMachine host) A J (k ()) Q w')
    (hthrow : ¬ StoreWorks A configPath → ∀ e w',
      World.Scratch [tempPath configPath w.proc.pid] w w' → Q (.error e) w') :
    cwp (hostMachine host) A J (writeRaw configPath config >>= k) Q w := by
  unfold writeRaw
  rw [Prog.bind_assoc]
  refine wp_ensureConfigDirectory (hJ w (World.Scratch.refl _ w)) ?_ fun hf e =>
    hthrow hf e w (World.Scratch.refl _ _)
  rw [Prog.bind_assoc]
  refine wp_writeAtomic_committed hJ hJrenamed (fun hf w' hw' => ?_) fun w' hw' hdurable => ?_
  · exact ⟨hJ w' hw', hthrow (fun h => hf h.1) _ w' hw'⟩
  · exact hok w' hw' hdurable

/-- The file is read as it is, or as the empty object when it cannot be read. -/
theorem wp_readRaw_or_empty {k : Json → SysM β α} (hJ : J w)
    (hok : cwp (hostMachine host) A J (k (w.config configPath)) Q w)
    (hfail : CanFail A (.exists configPath) ∨ CanFail A (.read configPath) →
      cwp (hostMachine host) A J (k (.obj [])) Q w) :
    cwp (hostMachine host) A J
      ((readRaw configPath).tryCatch (fun _ => return .obj []) >>= k) Q w := by
  unfold readRaw
  -- Every way to fail ends in the handler.
  refine cwp_bind (cwp_tryCatch ?_)
  refine wp_fsExists hJ ?_ fun hf => ⟨hJ, hfail (.inl hf)⟩
  unfold World.config at hok
  cases hfile : w.files configPath with
  | none =>
    rw [hfile] at hok
    exact ⟨hJ, hok⟩
  | some content =>
    simp only [Option.isSome_some, Bool.not_true, Bool.false_eq_true, if_false]
    refine wp_readFile hJ ?_ fun hf => ⟨hJ, hJ, hfail (.inr hf)⟩
    simp only [hfile] at hok ⊢
    rcases content.config_cases with ⟨kvs, hparse, hconfig⟩ | ⟨hparse, hconfig⟩
    · rw [hconfig] at hok
      rw [hparse]
      exact ⟨hJ, hok⟩
    · rw [hconfig] at hok
      split
      · exact absurd ‹_› (hparse _)
      · exact ⟨hJ, hJ, hok⟩

/-- Where `readRaw` does not throw, it has read the file. -/
theorem wp_readRaw {k : Json → SysM β α} (hJ : J w)
    (hok : cwp (hostMachine host) A J (k (w.config configPath)) Q w)
    (hthrow : (StoreWorks A configPath → ∀ kvs,
      (w.files configPath).bind Content.parse ≠ some (.obj kvs)) → ∀ e, Q (.error e) w) :
    cwp (hostMachine host) A J (readRaw configPath >>= k) Q w := by
  unfold readRaw
  rw [Prog.bind_assoc]
  refine wp_fsExists hJ ?_ fun hf => hthrow (fun h => absurd hf (h.exists _)) _
  unfold World.config at hok
  cases hfile : w.files configPath with
  | none =>
    rw [hfile] at hok
    exact hok
  | some content =>
    simp only [Option.isSome_some, Bool.not_true, Bool.false_eq_true, if_false]
    rw [Prog.bind_assoc]
    refine wp_readFile hJ ?_ fun hf =>
      ⟨hJ, hthrow (fun h => absurd hf h.2.2) _⟩
    simp only [hfile] at hok hthrow ⊢
    -- A text that is no object throws, whatever else works.
    rcases content.config_cases with ⟨kvs, hparse, hconfig⟩ | ⟨hparse, hconfig⟩
    · rw [hconfig] at hok
      rw [hparse]
      exact hok
    · split
      · exact absurd ‹_› (hparse _)
      · exact ⟨hJ, hthrow (fun _ => hparse) _⟩

/-- What a writer has done: it has replaced the file by `config`, or it has thrown, and has touched
nothing but a temporary file. -/
def Wrote (configPath : Path) (config : Json) (w : World β) (r : Except Exc Unit) (w' : World β) :
    Prop :=
  match r with
  | .ok () => World.Replaced (tempPath configPath w.proc.pid) configPath (.json config) w w'
  | .error _ => World.Scratch [tempPath configPath w.proc.pid] w w'

/-- One write: it has written when it returns, and where the store works it returns. -/
theorem writeRaw_spec : cwp (hostMachine host) A (fun _ => True) (writeRaw configPath config)
    (fun r w' => Wrote configPath config w r w' ∧ (StoreWorks A configPath → r = .ok ())) w := by
  rw [← Prog.bind_ret (writeRaw configPath config)]
  exact wp_writeRaw (fun _ _ => trivial) (fun _ _ => trivial)
    (fun _ hw' _ => ⟨trivial, hw'.toReplaced, fun _ => rfl⟩) fun hf _ _ hw' =>
      ⟨hw', fun h => absurd h hf⟩

/-- `save` puts the credentials into the object it finds, or into the empty one when it cannot read
the file. -/
theorem save_spec : cwp (hostMachine host) A (fun _ => True) (save configPath credentials)
    (fun r w' => ∃ config, Wrote configPath (config.withCredentials credentials) w r w' ∧
      (r = .ok () → credentials.isValid = true) ∧
      (config = w.config configPath ∨
        (CanFail A (.exists configPath) ∨ CanFail A (.read configPath)) ∧ config = .obj [])) w := by
  have same (e : Exc) : Wrote configPath ((w.config configPath).withCredentials credentials) w
      (.error e) w := World.Scratch.refl _ _
  unfold save
  split
  · exact ⟨trivial, _, same _, nofun, .inl rfl⟩
  · rename_i hvalid
    refine wp_ensureConfigDirectory trivial ?_ fun _ e => ⟨_, same e, nofun, .inl rfl⟩
    refine wp_readRaw_or_empty trivial ?_ fun hf => ?_
    · exact cwp_mono writeRaw_spec (fun _ h => h) fun r w' _ hr =>
        ⟨_, hr.1, fun _ => by simpa using hvalid, .inl rfl⟩
    · exact cwp_mono writeRaw_spec (fun _ h => h) fun r w' _ hr =>
        ⟨_, hr.1, fun _ => by simpa using hvalid, .inr ⟨hf, rfl⟩⟩

/-- `writeUpdateSection` puts the section into the object it finds. It throws when there is none, or
when an operation fails. -/
theorem writeUpdateSection_spec :
    cwp (hostMachine host) A (fun _ => True) (writeUpdateSection configPath updateObj)
      (fun r w' => Wrote configPath ((w.config configPath).set "update" updateObj) w r w' ∧
        (StoreWorks A configPath → ∀ kvs,
          (w.files configPath).bind Content.parse = some (.obj kvs) → r = .ok ())) w := by
  have same (e : Exc) : Wrote configPath ((w.config configPath).set "update" updateObj) w
      (.error e) w := World.Scratch.refl _ _
  unfold writeUpdateSection
  refine wp_fsExists trivial ?_ fun hf => ⟨same _, fun h => absurd hf (h.exists _)⟩
  split
  · rename_i hnone
    refine ⟨trivial, same _, fun _ kvs hkvs => ?_⟩
    obtain ⟨content, hfile, -⟩ := Option.bind_eq_some_iff.mp hkvs
    simp [hfile] at hnone
  · refine wp_readRaw trivial (cwp_mono writeRaw_spec (fun _ h => h) fun r w' _ hr => ?_)
      fun hno e => ?_
    · exact ⟨hr.1, fun h _ _ => hr.2 h⟩
    · exact ⟨same e, fun h kvs hkvs => absurd hkvs (hno h kvs)⟩

end Rules

/-! ### The readers -/

section Readers

variable {β : Type} {host : Host β} {w w' : World β} {configPath : Path} {config updateObj : Json}
  {credentials : DeviceCredentials}

/-- The environment in which the file at `configPath` can be read. -/
def CanRead (configPath : Path) : SysOp β → Choice β → Prop :=
  fun o c => o = .exists configPath ∨ o = .read configPath → c.error = none

/-- Where the configuration can be read, neither the look for it nor the read of it fails. -/
theorem not_canFail_canRead :
    ¬ (CanFail (CanRead (β := β) configPath) (.exists configPath) ∨
      CanFail (CanRead (β := β) configPath) (.read configPath)) := by
  rintro (⟨c, e, hc, he⟩ | ⟨c, e, hc, he⟩)
  · rw [hc (.inl rfl)] at he
    cases he
  · rw [hc (.inr rfl)] at he
    cases he

/-- What is stored for some credentials: the credentials with the version that `save` fills in. -/
def DeviceCredentials.stored (credentials : DeviceCredentials) : DeviceCredentials :=
  { credentials with version := credentials.storedVersion }

/-- The credentials do not depend on the section. -/
theorem credentialsOf_set_update (config updateObj : Json) :
    credentialsOf configPath (config.set "update" updateObj) = credentialsOf configPath config := by
  have hdevice : (config.set "update" updateObj).find "device" = config.find "device" :=
    Json.find_set_ne _ _ (by decide)
  have hhost := config.value_set_ne Json.getString updateObj "" (by decide : "host" ≠ "update")
  have hversion := config.value_set_ne Json.getString updateObj "1.0.0"
    (by decide : "version" ≠ "update")
  have hverify := config.value_set_ne Json.getBool updateObj true
    (by decide : "verify_ssl" ≠ "update")
  rw [credentialsOf, credentialsOf, tokenOf, tokenOf, hdevice, hhost, hversion, hverify]

/-- A configuration with new credentials is an object, so it is a configuration for the next
writer. -/
theorem isObject_withCredentials (credentials : DeviceCredentials)
    (hobj : config.isObject = true) : (config.withCredentials credentials).isObject = true :=
  Json.isObject_set _ _ (Json.isObject_set _ _ (Json.isObject_set _ _ (Json.isObject_set _ _ hobj)))

/-- The credentials are read back from the object they were put into. -/
theorem credentialsOf_withCredentials (hobj : config.isObject = true)
    (hvalid : credentials.isValid = true) :
    credentialsOf configPath (config.withCredentials credentials) = .ok credentials.stored := by
  have hhostObj := Json.isObject_set "host" (.str credentials.host) hobj
  -- The four entries, looked up among the ones that are set after them.
  have hdevice : (config.withCredentials credentials).find "device" = some (.obj
      [("id", .str credentials.deviceId), ("name", .str credentials.deviceName),
        ("user", .str credentials.deviceUser),
        ("token", .str (encryptToken credentials.deviceToken))]) := by
    rw [Json.withCredentials, Json.find_set_ne _ _ (by decide), Json.find_set_ne _ _ (by decide),
      Json.find_set_self _ _ hhostObj]
  have hhost : (config.withCredentials credentials).find "host" = some (.str credentials.host) := by
    rw [Json.withCredentials, Json.find_set_ne _ _ (by decide), Json.find_set_ne _ _ (by decide),
      Json.find_set_ne _ _ (by decide), Json.find_set_self _ _ hobj]
  have hversion : (config.withCredentials credentials).find "version" =
      some (.str credentials.storedVersion) := by
    rw [Json.withCredentials, Json.find_set_ne _ _ (by decide),
      Json.find_set_self _ _ (Json.isObject_set _ _ hhostObj)]
  have hverify : (config.withCredentials credentials).find "verify_ssl" =
      some (.bool credentials.verifySsl) :=
    Json.find_set_self _ _ (Json.isObject_set _ _ (Json.isObject_set _ _ hhostObj))
  have hobj' := isObject_withCredentials credentials hobj
  -- What the reader makes of each of them.
  have htoken : tokenOf (config.withCredentials credentials) = .ok credentials.deviceToken := by
    rw [tokenOf, hdevice]
    exact decryptToken_encryptToken credentials.deviceToken
  have hhost' : Json.value Json.getString (config.withCredentials credentials) "host" "" =
      .ok credentials.host := Json.value_of_find hobj' hhost rfl
  have hversion' : Json.value Json.getString (config.withCredentials credentials) "version"
      "1.0.0" = .ok credentials.storedVersion := Json.value_of_find hobj' hversion rfl
  have hverify' : Json.value Json.getBool (config.withCredentials credentials) "verify_ssl" true =
      .ok credentials.verifySsl := Json.value_of_find hobj' hverify rfl
  rw [credentialsOf, htoken, hdevice, hhost', hversion', hverify']
  show (if credentials.isValid then _ else _) = Except.ok credentials.stored
  rw [if_pos hvalid]
  rfl

/-- The rule for `load` where the file can be read and holds valid credentials. -/
theorem load_readable {credentials : DeviceCredentials}
    (hfile : (w.files configPath).bind Content.parse = some config)
    (hcredentials : credentialsOf configPath config = .ok credentials) :
    cwp (hostMachine host) (CanRead configPath) (fun _ => True) (load configPath)
      (fun r _ => r = .ok credentials) w := by
  obtain ⟨content, hcontent, hparse⟩ := Option.bind_eq_some_iff.mp hfile
  unfold load
  refine wp_fsExists trivial ?_ fun hf => absurd (.inl hf) not_canFail_canRead
  simp only [hcontent, Option.isSome_some, Bool.not_true, Bool.false_eq_true, if_false]
  refine wp_readFile trivial ?_ fun hf => absurd (.inr hf) not_canFail_canRead
  rw [hcontent]
  simp only [Content.credentials, hparse, hcredentials]
  exact ⟨trivial, rfl⟩

/-- The rule for `readUpdateSection` where the file can be read: it gives the section that is
there. -/
theorem readUpdateSection_spec :
    cwp (hostMachine host) (CanRead configPath) (fun _ => True) (readUpdateSection configPath)
      (fun r _ => r = .ok (w.updateSection configPath)) w := by
  rw [← Prog.bind_ret (readUpdateSection configPath)]
  refine wp_readUpdateSection trivial ⟨trivial, rfl⟩ fun hf => absurd hf not_canFail_canRead

end Readers

/-! ### The store -/

/-- The two writers of the configuration file, each with what it is given. -/
inductive StoreCall where
  | save (credentials : DeviceCredentials)
  | writeUpdateSection (updateObj : Json)

/-- What a call does. Each writer reads the file, changes its own part and writes everything
back. -/
def StoreCall.prog {β : Type} (configPath : Path) : StoreCall → SysM β Unit
  | save credentials => ThinrAgent.save configPath credentials
  | writeUpdateSection updateObj => ThinrAgent.writeUpdateSection configPath updateObj

/-- The top-level keys that one of the two writers knows. -/
def storeKeys : List String := ["host", "device", "version", "verify_ssl", "update"]

/-- What the file is for: the credentials of the last `save`, the `update` section, and the other
keys. -/
structure Stored where
  credentials : Option DeviceCredentials
  update : Json
  other : String → Option Json

namespace Stored

/-- What the initial file holds, seen as two parts and the keys that neither writer knows. -/
def initial {β : Type} (w : World β) (configPath : Path) : Stored where
  credentials := none
  update := w.updateSection configPath
  other := (w.config configPath).find

/-- What a successful call does to the two parts: each writer replaces its own. -/
def step (s : Stored) : StoreCall → Stored
  | .save credentials => { s with credentials := some credentials.stored }
  | .writeUpdateSection updateObj => { s with update := updateObj }

end Stored

section Runs

variable {β : Type} (host : Host β) (configPath : Path)

/-- What the readers of the file find, where it can be read. -/
structure ReadsBack (s : Stored) (w : World β) : Prop where
  load : ∀ credentials, s.credentials = some credentials →
    Ensures (hostMachine host) (CanRead configPath) (load configPath)
      (fun r _ => r = .ok credentials) w
  readUpdateSection : Ensures (hostMachine host) (CanRead configPath) (readUpdateSection configPath)
    (fun r _ => r = .ok s.update) w
  other : ∀ key, key ∉ storeKeys → (w.config configPath).find key = s.other key

/-- One call with the world before it, the answers of the environment to it, and its result. -/
structure StoreRun (β : Type) where
  call : StoreCall
  before : World β
  choices : List (Choice β)
  result : Except Exc Unit
  after : World β

/-- The call comes to its end with the result and in the world that the run names. -/
def StoreRun.Ends (r : StoreRun β) : Prop :=
  ((hostMachine host).after r.choices (r.call.prog configPath, r.before)).1.result = some r.result ∧
    ((hostMachine host).after r.choices (r.call.prog configPath, r.before)).2 = r.after

/-- Calls one after the other. Between two of them nothing writes the file. -/
def StoreRuns : World β → List (StoreRun β) → World β → Prop
  | w, [], w' => w'.files configPath = w.files configPath
  | w, r :: rs, w' => r.before.files configPath = w.files configPath ∧ r.Ends host configPath ∧
      StoreRuns r.after rs w'

/-- A `save` that finds an object in the file can read it. -/
def StoreRun.ReadsFile (r : StoreRun β) : Prop :=
  ∀ credentials, r.call = .save credentials →
    (∃ kvs, (r.before.files configPath).bind Content.parse = some (.obj kvs)) →
    (hostMachine host).Admits (CanRead configPath) r.choices (r.call.prog configPath, r.before)

/-- The calls that did not throw, in their order. -/
def succeeded (rs : List (StoreRun β)) : List StoreCall :=
  rs.filterMap fun r => if r.result.isOk then some r.call else none

variable {host configPath} {w w' : World β} {s : Stored} {r : StoreRun β} {rs : List (StoreRun β)}

/-- The invariant: the file holds what the store holds, the credentials, the section, and every key
that no writer knows. -/
structure Holds (configPath : Path) (s : Stored) (w : World β) : Prop where
  credentials : ∀ credentials, s.credentials = some credentials →
    (w.files configPath).bind Content.parse = some (w.config configPath) ∧
      credentialsOf configPath (w.config configPath) = .ok credentials
  update : w.updateSection configPath = s.update
  other : ∀ key, key ∉ storeKeys → (w.config configPath).find key = s.other key

/-- At the start the file holds what its readers find there. -/
theorem Holds.initial (w : World β) (configPath : Path) :
    Holds configPath (Stored.initial w configPath) w :=
  ⟨nofun, rfl, fun _ _ => rfl⟩

/-- Whether a file holds something depends on the file only. -/
theorem Holds.of_files (h : Holds configPath s w)
    (hfile : w'.files configPath = w.files configPath) : Holds configPath s w' := by
  have hconfig : w'.config configPath = w.config configPath := by
    rw [World.config, World.config, hfile]
  refine ⟨fun credentials hs => ?_, ?_, fun key hkey => ?_⟩
  · rw [hconfig, hfile]
    exact h.credentials credentials hs
  · rw [World.updateSection_eq, hconfig, ← World.updateSection_eq, h.update]
  · rw [hconfig, h.other key hkey]

/-- A file that holds the two parts gives them to its readers, whichever of them they read. -/
theorem Holds.readsBack (h : Holds configPath s w) : ReadsBack host configPath s w where
  load credentials hs :=
    ensures_of_cwp (load_readable (h.credentials credentials hs).1 (h.credentials credentials hs).2)
  readUpdateSection := h.update ▸ ensures_of_cwp readUpdateSection_spec
  other := h.other

/-- The object that a call puts in the place of the one it found. -/
def StoreCall.config (found : Json) : StoreCall → Json
  | save credentials => found.withCredentials credentials
  | writeUpdateSection updateObj => found.set "update" updateObj

/-- A call that does not throw stores valid credentials. -/
def StoreCall.Valid : StoreCall → Prop
  | save credentials => credentials.isValid = true
  | writeUpdateSection _ => True

/-- What a call does, whatever the environment answers. -/
theorem StoreCall.spec {A : SysOp β → Choice β → Prop} (call : StoreCall) :
    cwp (hostMachine host) A (fun _ => True) (call.prog configPath)
      (fun r w' => ∃ config, Wrote configPath (call.config config) w r w' ∧
        (r = .ok () → call.Valid) ∧
        (config = w.config configPath ∨
          (CanFail A (.exists configPath) ∨ CanFail A (.read configPath)) ∧ config = .obj [] ∧
            ∃ credentials, call = .save credentials)) w := by
  cases call with
  | save credentials =>
    refine cwp_mono save_spec (fun _ h => h) ?_
    rintro r w' - ⟨config, hwrote, hvalid, hconfig⟩
    exact ⟨config, hwrote, hvalid, hconfig.imp_right fun h => ⟨h.1, h.2, _, rfl⟩⟩
  | writeUpdateSection updateObj =>
    exact cwp_mono writeUpdateSection_spec (fun _ h => h) fun r w' _ hwrote =>
      ⟨_, hwrote.1, fun _ => trivial, .inl rfl⟩

/-- A write that throws leaves the configuration as it was. -/
theorem World.files_of_wrote {config : Json} {result : Except Exc Unit} {e : Exc}
    (h : Wrote configPath config w result w') (hthrown : result = .error e) :
    w'.files configPath = w.files configPath := by
  subst hthrown
  exact World.Scratch.files h (by simpa using (tempPath_ne configPath w.proc.pid).symm)

/-- A call that throws leaves the file as it was. -/
theorem StoreRun.Ends.thrown {e : Exc} (h : r.Ends host configPath)
    (hthrown : r.result = .error e) :
    r.after.files configPath = r.before.files configPath := by
  obtain ⟨config, hwrote, -⟩ := ensures_of_cwp (StoreCall.spec r.call) r.choices
    (admits_anyAnswer _ _ _) r.result h.1
  rw [h.2] at hwrote
  exact World.files_of_wrote hwrote hthrown

/-- A call that does not throw replaces the object in the file. -/
theorem StoreRun.Ends.replaced (h : r.Ends host configPath) (hread : r.ReadsFile host configPath)
    (hok : r.result = .ok ()) : r.call.Valid ∧
      World.Replaced (tempPath configPath r.before.proc.pid) configPath
        (.json (r.call.config (r.before.config configPath))) r.before r.after := by
  have hreplaced (config : Json) (hwrote : Wrote configPath (r.call.config config) r.before r.result
      r.after) : World.Replaced (tempPath configPath r.before.proc.pid) configPath
        (.json (r.call.config config)) r.before r.after := by
    rwa [hok] at hwrote
  obtain ⟨config, hwrote, hvalid, hconfig⟩ := ensures_of_cwp (StoreCall.spec r.call) r.choices
    (admits_anyAnswer _ _ _) r.result h.1
  rw [h.2] at hwrote
  refine ⟨hvalid hok, ?_⟩
  -- The call has used the object of the file, or an empty one in its place.
  rcases hconfig with rfl | ⟨-, rfl, credentials, hsave⟩
  · exact hreplaced _ hwrote
  by_cases hobj : ∃ kvs, (r.before.files configPath).bind Content.parse = some (.obj kvs)
  · -- The file has an object, and the environment lets it be read.
    obtain ⟨config, hwrote, -, hconfig⟩ := ensures_of_cwp (StoreCall.spec r.call) r.choices
      (hread credentials hsave hobj) r.result h.1
    rw [h.2] at hwrote
    obtain rfl := hconfig.resolve_right fun hf => not_canFail_canRead hf.1
    exact hreplaced _ hwrote
  · have hempty : r.before.config configPath = .obj [] := by
      unfold World.config
      cases hfile : r.before.files configPath with
      | none => rfl
      | some content =>
        rcases content.config_cases with ⟨kvs, hparse, -⟩ | ⟨-, hconfig⟩
        · exact absurd ⟨kvs, by rw [hfile]; exact hparse⟩ hobj
        · exact hconfig
    rw [hempty]
    exact hreplaced _ hwrote

/-- The step lemma: a call that replaces the object does to the store what it is for. -/
theorem Holds.step {call : StoreCall} {tmp : Path} (h : Holds configPath s w)
    (hvalid : call.Valid) (hw : World.Replaced tmp configPath
      (.json (call.config (w.config configPath))) w w') :
    Holds configPath (s.step call) w' := by
  have hobj := w.isObject_config configPath
  have hparse : (w'.files configPath).bind Content.parse =
      some (call.config (w.config configPath)) := by
    rw [hw.files_target]
    rfl
  cases call with
  | save credentials =>
    -- `save` sets four keys; the update section and all other keys are kept.
    have hconfig : w'.config configPath = (w.config configPath).withCredentials credentials :=
      World.config_of_replaced hw (isObject_withCredentials credentials hobj)
    have hother (key : String) (hkey : key ∉ ["host", "device", "version", "verify_ssl"]) :
        (w'.config configPath).find key = (w.config configPath).find key := by
      simp only [List.mem_cons, List.not_mem_nil, or_false, not_or] at hkey
      obtain ⟨hhost, hdevice, hversion, hverify⟩ := hkey
      rw [hconfig, Json.withCredentials, Json.find_set_ne _ _ hverify,
        Json.find_set_ne _ _ hversion, Json.find_set_ne _ _ hdevice, Json.find_set_ne _ _ hhost]
    refine ⟨fun c hc => ?_, ?_, fun key hkey => ?_⟩
    · obtain rfl := Option.some.inj hc
      rw [hconfig]
      exact ⟨hparse, credentialsOf_withCredentials hobj hvalid⟩
    · rw [World.updateSection_eq, hother "update" (by decide), ← World.updateSection_eq]
      exact h.update
    · rw [hother key fun hmem => hkey (by simp only [storeKeys, List.mem_cons] at hmem ⊢; tauto)]
      exact h.other key hkey
  | writeUpdateSection updateObj =>
    -- The section is one key, and none that the credentials are read from.
    have hconfig : w'.config configPath = (w.config configPath).set "update" updateObj :=
      World.config_of_replaced hw (Json.isObject_set _ _ hobj)
    refine ⟨fun c hc => ?_, ?_, fun key hkey => ?_⟩
    · rw [hconfig, credentialsOf_set_update]
      exact ⟨hparse, (h.credentials c hc).2⟩
    · rw [World.updateSection_eq, hconfig, Json.find_set_self _ _ hobj]
      rfl
    · have hne : key ≠ "update" := fun heq => hkey (by simp [storeKeys, heq])
      rw [hconfig, Json.find_set_ne _ _ hne]
      exact h.other key hkey

/-- The run lemma: after any sequence of calls, the file holds what the successful ones have
left. -/
theorem Holds.runs (h : Holds configPath s w) (hrs : StoreRuns host configPath w rs w')
    (hread : ∀ r ∈ rs, r.ReadsFile host configPath) :
    Holds configPath ((succeeded rs).foldl Stored.step s) w' := by
  induction rs generalizing w s with
  | nil => exact h.of_files hrs
  | cons r rs ih =>
    obtain ⟨hfile, hends, hrest⟩ := hrs
    have hbefore : Holds configPath s r.before := h.of_files hfile
    have hrest' (r' : StoreRun β) (hr' : r' ∈ rs) := hread r' (List.mem_cons_of_mem _ hr')
    cases hres : r.result with
    | error e =>
      rw [succeeded, List.filterMap_cons_none (by rw [hres]; rfl)]
      exact ih (hbefore.of_files (hends.thrown hres)) hrest hrest'
    | ok u =>
      obtain ⟨hvalid, hw⟩ := hends.replaced (hread r List.mem_cons_self) hres
      rw [succeeded, List.filterMap_cons_some (b := r.call) (by rw [hres]; rfl)]
      exact ih (hbefore.step hvalid hw) hrest hrest'

/-- Each call in a sequence ends as a single call does. -/
theorem ends_of_mem (hrs : StoreRuns host configPath w rs w') (hr : r ∈ rs) :
    r.Ends host configPath := by
  induction rs generalizing w with
  | nil => cases hr
  | cons r' rs ih =>
    obtain ⟨-, hends, hrest⟩ := hrs
    rcases List.mem_cons.mp hr with rfl | hr
    · exact hends
    · exact ih hrest hr

/-- The configuration file is a store of two parts: for every initial file and every sequence of
calls in which no `save` fails to read an object in the file, the readers find what the calls that
did not throw have stored. A call that throws never changes the file. -/
theorem twoPartStore {β : Type} {host : Host β} {configPath : Path} {w w' : World β}
    {rs : List (StoreRun β)} (hrs : StoreRuns host configPath w rs w')
    (hread : ∀ r ∈ rs, r.ReadsFile host configPath) :
    ReadsBack host configPath ((succeeded rs).foldl Stored.step (.initial w configPath)) w' ∧
      ∀ r ∈ rs, ∀ e, r.result = .error e →
        r.after.files configPath = r.before.files configPath :=
  ⟨((Holds.initial w configPath).runs hrs hread).readsBack, fun _ hr _ he =>
    (ends_of_mem hrs hr).thrown he⟩

/-! ### Sample calls -/

/-- A host whose digests and versions play no part. -/
def sampleStoreHost : Host Nat where
  sha256 _ := ""
  runVersion _ := { exitCode := 0, timedOut := false, output := "" }
  strerror _ := ""

/-- A device whose user has opted out of automatic updates, and which has no credentials yet. -/
def sampleManaged : World Nat :=
  .ofFiles (fun p => if p = SYSTEM_CONFIG_PATH then
    some (.json (.obj [("update", .obj [("policy", .str "managed"),
      ("policy_source", .str "local_explicit")])])) else none)
    { pid := 7, exe := none }

/-- A device with a token that is no text in UTF-8. -/
def sampleOptOutDevice : DeviceCredentials where
  host := "h"
  deviceId := "d"
  deviceUser := "u"
  deviceToken := [0xff]

/-- A `save` of the sample credentials against some answers. -/
def sampleSave (choices : List (Choice Nat)) : StoreRun Nat where
  call := .save sampleOptOutDevice
  before := sampleManaged
  choices
  result := .ok ()
  after := ((hostMachine sampleStoreHost).after choices
    (save SYSTEM_CONFIG_PATH sampleOptOutDevice, sampleManaged)).2

/-- Enough answers for one call, all of which work. -/
def sampleWorks : List (Choice Nat) := List.replicate 13 .ok

/-- The file is there, and it cannot be opened. -/
def sampleUnreadable : List (Choice Nat) :=
  [.ok, .ok, .ok, .fail (.other 13) none] ++ List.replicate 9 .ok

/-- The section of a device that takes updates again. -/
def sampleOptIn : Json :=
  .obj [("policy", .str "auto"), ("policy_source", .str "local_explicit")]

/-- A `write_update_section` after the sample `save`, in the world that it has left. -/
def sampleWrite : StoreRun Nat where
  call := .writeUpdateSection sampleOptIn
  before := (sampleSave sampleWorks).after
  choices := sampleWorks
  result := .ok ()
  after := ((hostMachine sampleStoreHost).after sampleWorks
    (writeUpdateSection SYSTEM_CONFIG_PATH sampleOptIn, (sampleSave sampleWorks).after)).2

/-- Credentials are saved, and then a section is written: both are read back. -/
theorem twoPartStore_sample :
    StoreRuns sampleStoreHost SYSTEM_CONFIG_PATH sampleManaged
        [sampleSave sampleWorks, sampleWrite] sampleWrite.after ∧
      ReadsBack sampleStoreHost SYSTEM_CONFIG_PATH
        ((succeeded [sampleSave sampleWorks, sampleWrite]).foldl Stored.step
          (.initial sampleManaged SYSTEM_CONFIG_PATH)) sampleWrite.after := by
  have hsave : (sampleSave sampleWorks).Ends sampleStoreHost SYSTEM_CONFIG_PATH :=
    ⟨by decide +kernel, rfl⟩
  have hwrite : sampleWrite.Ends sampleStoreHost SYSTEM_CONFIG_PATH := ⟨by decide +kernel, rfl⟩
  have hruns : StoreRuns sampleStoreHost SYSTEM_CONFIG_PATH sampleManaged
      [sampleSave sampleWorks, sampleWrite] sampleWrite.after :=
    ⟨rfl, hsave, rfl, hwrite, rfl⟩
  refine ⟨hruns, (twoPartStore hruns fun r hr credentials _ _ => ?_).1⟩
  have hchoices : r.choices = sampleWorks := by
    simp only [List.mem_cons, List.not_mem_nil, or_false] at hr
    rcases hr with rfl | rfl <;> rfl
  refine admits_of_forall _ (fun c hc o _ => ?_) _
  rw [hchoices] at hc
  rw [List.eq_of_mem_replicate hc]
  rfl

/-- A `save` that cannot open the file drops the opt-out and reports success. -/
theorem not_readBack_sample :
    StoreRuns sampleStoreHost SYSTEM_CONFIG_PATH sampleManaged [sampleSave sampleUnreadable]
        (sampleSave sampleUnreadable).after ∧
      (sampleSave sampleUnreadable).result = .ok () ∧
      ¬ ReadsBack sampleStoreHost SYSTEM_CONFIG_PATH
        ((succeeded [sampleSave sampleUnreadable]).foldl Stored.step
          (.initial sampleManaged SYSTEM_CONFIG_PATH))
        (sampleSave sampleUnreadable).after := by
  have hends : (sampleSave sampleUnreadable).Ends sampleStoreHost SYSTEM_CONFIG_PATH :=
    ⟨by decide +kernel, rfl⟩
  refine ⟨⟨rfl, hends, rfl⟩, rfl, fun hback => ?_⟩
  let read := (hostMachine sampleStoreHost).after [.ok, .ok]
    (readUpdateSection SYSTEM_CONFIG_PATH, (sampleSave sampleUnreadable).after)
  obtain ⟨r, hr⟩ : ∃ r, read.1.result = some r := Option.isSome_iff_exists.mp (by decide +kernel)
  have hadmits : (hostMachine sampleStoreHost).Admits (CanRead SYSTEM_CONFIG_PATH) [.ok, .ok]
      (readUpdateSection SYSTEM_CONFIG_PATH, (sampleSave sampleUnreadable).after) :=
    admits_of_forall _ (fun c hc o _ => by simp at hc; rw [hc]; rfl) _
  obtain rfl := hback.readUpdateSection [.ok, .ok] hadmits r hr
  have hpolicy := congrArg (Option.map fun r => r.toOption.map fun j => (j.find "policy").isSome) hr
  exact absurd hpolicy (by decide +kernel)

end Runs

end ThinrAgent
