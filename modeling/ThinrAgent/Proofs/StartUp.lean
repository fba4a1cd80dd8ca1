import ThinrAgent.Cli.CommandHandler
import ThinrAgent.Proofs.CrashLoop

/-!
# `ThinrAgent.Proofs.StartUp`: failed starts are counted

A start of the program comes to the boot check after a number of steps that may throw, and
`main` turns every exception into the exit code 1. `Invocation` is a command line with the paths
that the start computes from it, and `Startable` what the start has to find: an init system and
a configuration file that loads. `StartWorks` is the environment that fails nothing on the way to
the count.

`startUp_counts` follows one start through all its steps. `failedStarts_counted` is about every
sequence of starts that fail, whatever fails in them after the boot check: three of them count
one attempt each, and the fourth restores the backup.
-/

set_option autoImplicit false

namespace ThinrAgent

open Effects

/-! ### The operations of a start -/

section Ops

variable {β : Type}

/-- The operation works on the file of the certificates that are compiled in. -/
def SysOp.onCerts (user : User) : SysOp β → Bool
  | openTrunc p _ | writeAll p _ | close p => decide (p = embeddedCertPath user)
  | _ => false

/-- The operations of a start before and after the boot check. -/
def SysOp.startsUp (user : User) : SysOp β → Bool
  | .exists _ | isRegularFile _ | read _ | createDirectories _ | getenv _ | serviceStatus
  | isInteractive | managementMenu | configureClient | initExtensions | startClient
  | setDeadlineStop | joinDeadline | unsubscribe => true
  | o => o.onCerts user

/-- The operation is one of those that a start performs. -/
def StartsUp (user : User) (o : SysOp β) : Prop := o.startsUp user = true

/-- The operation is not about the certificates, which may lie anywhere in the file system. -/
def OffCerts (user : User) (o : SysOp β) : Prop := o.onCerts user = false

/-- The files of the update protocol are the same, and no power cut can bring older ones back. -/
def Layout.SameOn (L : Layout) (w w' : World β) : Prop :=
  ∀ f : UpdateFile, w'.entry (L.path f) = w.entry (L.path f) ∧
    w'.disk (L.path f) ⊆ w.disk (L.path f)

variable {host : Host β} {L : Layout} {w w' : World β} {user : User}

/-- Where the files of the layout have the same entries, they have the same contents. -/
theorem Layout.SameOn.files (h : L.SameOn w w') (f : UpdateFile) :
    w'.files (L.path f) = w.files (L.path f) :=
  World.files_of_entry (h f).1

/-- They are as durable as well: what a power cut may leave is the same in both worlds. -/
theorem Layout.SameOn.durable (h : L.SameOn w w') {f : UpdateFile} {content : Content β}
    (hw : w.Durable (L.path f) content) : w'.Durable (L.path f) content :=
  fun e he => hw e ((h f).2 he)

/-- What writes only a file outside the layout leaves the layout as it is. -/
theorem Layout.SameOn.of_scratch {p : Path} (hp : ∀ f, L.path f ≠ p) (h : World.Scratch [p] w w') :
    L.SameOn w w' := fun f =>
  ⟨h.entry _ (by simpa using hp f), h.disk _ (by simpa using hp f)⟩

/-- The certificate file is none of the files of the update protocol, when it is not the binary. -/
theorem Layout.path_ne_certs (h : L.install ≠ embeddedCertPath user) (f : UpdateFile) :
    L.path f ≠ embeddedCertPath user := by
  have hcert : lastChar (embeddedCertPath user) = some 't' := lastChar_append _ (by decide)
  have differs {c : Char} (hc : lastChar (L.path f) = some c) (hne : c ≠ 't') :
      L.path f ≠ embeddedCertPath user := by
    refine ne_of_lastChar ?_
    rw [hc, hcert]
    exact fun heq => hne (Option.some.inj heq)
  have temporary {file : Path} {pid : Nat} (hf : L.path f = tempPath file pid) :
      L.path f ≠ embeddedCertPath user := by
    obtain ⟨c, hc, hdigit⟩ := lastChar_tempPath file pid
    refine differs (hf ▸ hc) ?_
    rintro rfl
    exact absurd hdigit (by decide)
  cases f with
  | install => exact h
  | new => exact differs (lastChar_append _ (by decide)) (by decide)
  | prev => exact differs (lastChar_append _ (by decide)) (by decide)
  | prevTmp => exact differs (lastChar_append _ (by decide)) (by decide)
  | state => exact differs (lastChar_pathJoin _ (by decide)) (by decide)
  | reverted => exact differs (lastChar_pathJoin _ (by decide)) (by decide)
  | stateTmp pid => exact temporary rfl
  | revertedTmp pid => exact temporary rfl

/-- An operation of a start changes no file of the update protocol. -/
theorem SysOp.sameOn_of_startsUp (hcerts : ∀ f, L.path f ≠ embeddedCertPath user) {o : SysOp β}
    (c : Choice β) (ho : o.startsUp user = true) : L.SameOn w (exec host w o c).2 := by
  have same : L.SameOn w w := fun f => ⟨rfl, List.Subset.refl _⟩
  have written (v : Option (Content β)) : L.SameOn w (w.setFile (embeddedCertPath user) v) :=
    .of_scratch hcerts (World.Scratch.setFile w _ v)
  cases o with
  | openTrunc p mode =>
    obtain rfl : p = embeddedCertPath user := of_decide_eq_true ho
    simp only [exec]
    split
    · exact same
    · exact written _
  | writeAll p content =>
    obtain rfl : p = embeddedCertPath user := of_decide_eq_true ho
    simp only [exec]
    split
    · exact written _
    · exact written _
  | _ => first
    | (cases ho; done)
    | exact fun f => ⟨rfl, List.Subset.refl _⟩

/-- The configuration of the certificates consists of operations of a start. It looks for bundles,
and may not find any. -/
theorem configureSslCertificates_ops {certs : String} :
    AllOps (StartsUp (β := β) user) (configureSslCertificates user certs) := by
  have exists_ (p : Path) : AllOps (StartsUp (β := β) user) (fsExists p) :=
    ⟨rfl, fun r => by cases r <;> trivial⟩
  have isEnvSet (name : String) : AllOps (StartsUp (β := β) user)
      (isEnvSet name) := by
    refine .bind (.single rfl) fun value => ?_
    cases value <;> trivial
  have find (paths : List Path) : AllOps (StartsUp (β := β) user)
      (findCertFile paths) := by
    induction paths with
    | nil => trivial
    | cons path paths ih =>
      refine .bind (exists_ path) fun found => .ite (fun _ => ?_) fun _ => ih
      refine .bind ⟨rfl, fun r => ?_⟩ fun regular => .ite (fun _ => trivial) fun _ => ih
      cases r <;> trivial
  have write : AllOps (StartsUp (β := β) user)
      (writeEmbeddedCerts certs (embeddedCertPath user)) := by
    have certOp {o : SysOp β} (h : o.onCerts user = true) (h' : o.startsUp user = o.onCerts user) :
        o.startsUp user = true := h'.trans h
    refine .bind (.single rfl) fun made => ?_
    cases made with
    | none => trivial
    | some _ =>
      refine .bind (.single (certOp (decide_eq_true rfl) rfl)) fun opened =>
        .ite (fun _ => trivial) fun _ => ?_
      refine .bind (.single (certOp (decide_eq_true rfl) rfl)) fun _ => ?_
      exact .bind (.single (certOp (decide_eq_true rfl) rfl)) fun _ => trivial
  -- The function is made of these four, with a choice after each.
  unfold configureSslCertificates
  refine .bind (isEnvSet _) fun set => .ite (fun _ => trivial) fun _ => ?_
  refine .bind (isEnvSet _) fun set => .ite (fun _ => trivial) fun _ => ?_
  refine .bind (find _) fun file => .ite (fun _ => trivial) fun _ => .bind ?_ fun _ => trivial
  refine .bind (exists_ _) fun found => .ite (fun _ => ?_) fun _ => write
  exact .bind (.single rfl) fun content => .ite (fun _ => trivial) fun _ => write

/-- The stop of the watchdog consists of operations of a start. It runs when a step behind the
watchdog throws. -/
theorem stop_ops {wd : UpdateWatchdog} :
    AllOps (StartsUp (β := β) user) wd.stop := by
  refine .bind (.single rfl) fun _ => .ite (fun _ => ?_) fun _ => .single rfl
  exact .bind (.single rfl) fun _ => .single rfl

/-- The operations of the constructor after the boot check. -/
theorem initAgent_ops {certs : String} {build : Build} {credentials : DeviceCredentials}
    {configPath stateDir : Path} : AllOps (StartsUp (β := β) user)
      (initAgent user certs build credentials configPath stateDir) := by
  have create : AllOps (StartsUp (β := β) user)
      (UpdateWatchdog.create stateDir build.version) := by
    refine .bind (.bind (.single rfl) fun content => ?_) fun marker => trivial
    cases content with
    | none => trivial
    | some content =>
      simp only [parseRecord]
      split
      · trivial
      · split <;> trivial
  unfold initAgent
  refine .ite (fun _ => trivial) fun _ => .bind configureSslCertificates_ops fun _ => ?_
  refine .bind ⟨rfl, fun r => by cases r <;> trivial⟩ fun _ => ?_
  refine .bind create fun wd => .bind (.tryCatch ?_ fun e => .bind stop_ops fun _ => trivial)
    fun _ => trivial
  exact ⟨rfl, fun r => by cases r <;> trivial⟩

/-- No operation of the boot check works on the certificate file. -/
theorem checkBoot_off_certs {version : String} :
    AllOps (OffCerts (β := β) user) (checkBoot L.stateDir version) := by
  -- The certificate file ends in a letter, a temporary file in a digit.
  have hcert : lastChar (embeddedCertPath user) = some 't' := lastChar_append _ (by decide)
  have htmp (file : Path) (pid : Nat) : tempPath file pid ≠ embeddedCertPath user := by
    obtain ⟨c, hc, hdigit⟩ := lastChar_tempPath file pid
    refine ne_of_lastChar ?_
    rw [hc, hcert]
    rintro ⟨rfl⟩
    exact absurd hdigit (by decide)
  have write (file : Path) (content : Content β) :
      AllOps (OffCerts (β := β) user) (writeAtomic file content 0o644) := by
    refine writeAtomic_ops.mono fun o ho => ?_
    cases ho with
    | openTrunc pid mode => exact decide_eq_false (htmp file pid)
    | writeAll pid content => exact decide_eq_false (htmp file pid)
    | close pid => exact decide_eq_false (htmp file pid)
    | _ => rfl
  -- The rollback writes its two records, and nothing else of its own.
  have restore (m : UpdateMarker) (reason : String) :
      AllOps (OffCerts (β := β) user) (doRollback L.stateDir m reason) := by
    unfold doRollback
    refine .bind (.bind (.single rfl) fun link => by cases link <;> trivial) fun install => ?_
    refine .ite (fun _ => trivial) fun _ =>
      .bind ⟨rfl, fun r => by cases r <;> trivial⟩ fun found => ?_
    refine .ite (fun _ => trivial) fun _ => .bind (.single rfl) fun renamed => ?_
    refine .ite (fun _ => trivial) fun _ => .bind (.single rfl) fun _ => ?_
    refine .bind (.single rfl) fun at_ => .bind (write _ _) fun _ =>
      .bind (write _ _) fun _ => trivial
  -- The read of the marker, and one case for each decision.
  unfold checkBoot
  refine .bind (.bind (.single rfl) fun content => ?_) fun marker => ?_
  · cases content with
    | none => trivial
    | some content =>
      simp only [parseRecord]
      split
      · trivial
      · split <;> trivial
  · unfold actOnBoot removeQuiet
    split
    · trivial
    · refine .bind (.bind (.single rfl) fun _ => trivial) fun _ =>
        .ite (fun _ => ?_) fun _ => trivial
      exact .bind (.bind (.single rfl) fun _ => trivial) fun _ => trivial
    · trivial
    · exact .bind (write _ _) fun _ => trivial
    · exact .bind (restore _ _) fun done => .ite (fun _ => trivial) fun _ => trivial

end Ops

/-! ### The rules of the steps -/

/-- The init system is one of the supported ones, by the name of the system or a file that tells
it. -/
def InitFound {β : Type} (sysname : Option String) (w : World β) : Prop :=
  sysname = some "Darwin" ∨
    (∃ p ∈ ["/run/systemd/system", "/systemd", "/sbin/openrc", "/sbin/upstart", "/etc/inittab",
      "/etc/rc.d/", "/etc/init.d/"], w.files p ≠ none) ∨
    w.files "/etc/init/" ≠ none ∧ w.files "/sbin/initctl" ≠ none

section Rules

variable {β α : Type} {host : Host β} {A : SysOp β → Choice β → Prop} {J : World β → Prop}
  {Q : Except Exc α → World β → Prop} {w : World β} {user : User}

/-- The rule for an existence check that cannot fail, by whether the file is there. -/
theorem wp_fsExists_cases {p : Path} {k : Bool → SysM β α} (hA : ∀ p, ¬ CanFail A (.exists p))
    (hJ : J w) (hyes : w.files p ≠ none → cwp (hostMachine host) A J (k true) Q w)
    (hno : w.files p = none → cwp (hostMachine host) A J (k false) Q w) :
    cwp (hostMachine host) A J (fsExists p >>= k) Q w := by
  refine wp_fsExists hJ ?_ fun hf => absurd hf (hA p)
  cases hfile : w.files p with
  | none => exact hno hfile
  | some content => exact hyes (by simp [hfile])

/-- The rule for a search among some paths, where no look at a path fails: it finds one exactly when
one is there. -/
theorem wp_fsExistsAny {paths : List Path} {k : Bool → SysM β α}
    (hA : ∀ p, ¬ CanFail A (.exists p)) (hJ : J w)
    (hyes : (∃ p ∈ paths, w.files p ≠ none) → cwp (hostMachine host) A J (k true) Q w)
    (hno : (∀ p ∈ paths, w.files p = none) → cwp (hostMachine host) A J (k false) Q w) :
    cwp (hostMachine host) A J (fsExistsAny paths >>= k) Q w := by
  induction paths with
  | nil => exact hno (by simp)
  | cons path paths ih =>
    unfold fsExistsAny
    rw [Prog.bind_assoc]
    refine wp_fsExists_cases hA hJ (fun h => hyes ⟨path, List.mem_cons_self, h⟩) fun h => ?_
    refine ih (fun ⟨p, hp, hfile⟩ => hyes ⟨p, List.mem_cons_of_mem _ hp, hfile⟩) fun hall => hno ?_
    exact List.forall_mem_cons.mpr ⟨h, hall⟩

/-- The rule for two files that have to be there, where no look fails. -/
theorem wp_fsExistsBoth {first second : Path} {k : Bool → SysM β α}
    (hA : ∀ p, ¬ CanFail A (.exists p)) (hJ : J w)
    (hyes : w.files first ≠ none → w.files second ≠ none →
      cwp (hostMachine host) A J (k true) Q w)
    (hno : w.files first = none ∨ w.files second = none →
      cwp (hostMachine host) A J (k false) Q w) :
    cwp (hostMachine host) A J (fsExistsBoth first second >>= k) Q w := by
  unfold fsExistsBoth
  rw [Prog.bind_assoc]
  refine wp_fsExists_cases hA hJ (fun hfirst => ?_) fun hfirst => hno (.inl hfirst)
  exact wp_fsExists_cases hA hJ (hyes hfirst) fun hsecond => hno (.inr hsecond)

/-- Where a supported init system is found, the service installer is constructed without an
exception. -/
theorem createServiceInstaller_spec {sysname : Option String} (hA : ∀ p, ¬ CanFail A (.exists p))
    (hinit : InitFound sysname w) (hJ : J w) :
    cwp (hostMachine host) A J (createServiceInstaller sysname)
      (fun r v => r = .ok () ∧ v = w) w := by
  -- Every file that is looked up stands for one init system, and the first one found decides.
  have found (i : InitSystem) (h : i ≠ .unknown) : cwp (hostMachine host) A J
      (if i = .unknown then .throw (.runtimeError "Unsupported init system: Unknown")
        else .ret () : SysM β Unit) (fun r v => r = .ok () ∧ v = w) w := by
    rw [if_neg h]
    exact ⟨hJ, rfl, rfl⟩
  unfold createServiceInstaller detectInitSystem
  split
  · exact found .launchd (by decide)
  rename_i hsysname
  rw [Prog.bind_assoc]
  refine wp_fsExistsAny hA hJ (fun _ => found .systemd (by decide)) fun h1 => ?_
  simp only [Bool.false_eq_true, if_false, Prog.bind_assoc]
  refine wp_fsExists_cases hA hJ (fun _ => found .openRC (by decide)) fun h2 => ?_
  simp only [Bool.false_eq_true, if_false, Prog.bind_assoc]
  refine wp_fsExistsBoth hA hJ (fun _ _ => found .openRC (by decide)) fun h3 => ?_
  simp only [Bool.false_eq_true, if_false, Prog.bind_assoc]
  refine wp_fsExists_cases hA hJ (fun _ => found .upstart (by decide)) fun h4 => ?_
  simp only [Bool.false_eq_true, if_false, Prog.bind_assoc]
  refine wp_fsExistsBoth hA hJ (fun _ _ => found .upstart (by decide)) fun h5 => ?_
  simp only [Bool.false_eq_true, if_false, Prog.bind_assoc]
  refine wp_fsExistsAny hA hJ (fun _ => found .sysV (by decide)) fun h6 => ?_
  -- None was found, so the one that is there has been looked up in vain.
  rcases hinit with h | ⟨p, hp, hfile⟩ | ⟨hdir, hctl⟩
  · exact absurd h hsysname
  · simp only [List.mem_cons, List.not_mem_nil, or_false, forall_eq_or_imp, forall_eq] at hp h1 h6
    rcases hp with rfl | rfl | rfl | rfl | rfl | rfl | rfl
    · exact absurd h1.1 hfile
    · exact absurd h1.2 hfile
    · exact absurd h2 hfile
    · exact absurd h4 hfile
    · exact absurd h6.1 hfile
    · exact absurd h6.2.1 hfile
    · exact absurd h6.2.2 hfile
  · rcases h5 with h5 | h5
    · exact absurd h5 hdir
    · exact absurd h5 hctl

/-- The construction of the command handler changes nothing and gives the default path. -/
theorem createCommandHandler_spec {sysname : Option String} {defaultPath : Path}
    (hA : ∀ p, ¬ CanFail A (.exists p)) (hinit : InitFound sysname w)
    (hdefault : defaultConfigPath user = .ok defaultPath) (hJ : J w) :
    cwp (hostMachine host) A J (createCommandHandler user sysname)
      (fun r v => r = .ok defaultPath ∧ v = w) w := by
  have create : cwp (hostMachine host) A J (createServiceInstaller sysname)
      (fun r v => r = .ok () ∧ v = w) w := createServiceInstaller_spec hA hinit hJ
  unfold createCommandHandler
  rw [hdefault]
  refine cwp_bind (cwp_mono create (fun _ h => h) ?_)
  rintro _ v - ⟨rfl, rfl⟩
  refine cwp_bind (cwp_mono create (fun _ h => h) ?_)
  rintro _ v hv ⟨rfl, rfl⟩
  exact ⟨hv, rfl, rfl⟩

/-- The certificate set-up writes its own file only, and throws only when a check of a path
does. -/
theorem configureSslCertificates_spec {certs : String} :
    cwp (hostMachine host) A (World.Scratch [embeddedCertPath user] w)
      (configureSslCertificates user certs)
      (fun r _ => (∀ p, ¬ CanFail A (.exists p)) → (∀ p, ¬ CanFail A (.isRegularFile p)) →
        r = .ok ()) w := by
  have h0 := World.Scratch.refl [embeddedCertPath user] w
  -- The four ways on of the function, each from a state that differs in the scratch file at most:
  -- `done` returns, `write` stores the embedded bundle, `set` reads a variable, `find` goes
  -- through the known places.
  have done {v : World β} (hv : World.Scratch [embeddedCertPath user] w v) :
      cwp (hostMachine host) A (World.Scratch [embeddedCertPath user] w) (.ret () : SysM β Unit)
        (fun r _ => (∀ p, ¬ CanFail A (.exists p)) → (∀ p, ¬ CanFail A (.isRegularFile p)) →
          r = .ok ()) v := ⟨hv, fun _ _ => rfl⟩
  have write : cwp (hostMachine host) A (World.Scratch [embeddedCertPath user] w)
      (writeEmbeddedCerts certs (embeddedCertPath user) >>= fun _ => .ret ())
      (fun r _ => (∀ p, ¬ CanFail A (.exists p)) → (∀ p, ¬ CanFail A (.isRegularFile p)) →
        r = .ok ()) w := by
    unfold writeEmbeddedCerts
    rw [Prog.bind_assoc]
    refine wp_fsCreateDirectories h0 ?_ fun _ => done h0
    simp only [Prog.bind_assoc]
    have h1 := World.Scratch.setFile w (embeddedCertPath user) (some (.raw ""))
    refine wp_openTrunc h0 ?_ fun _ => done h0
    refine wp_writeAll h1 ?_ fun v _ => ?_
    · have h2 := h1.trans (World.Scratch.setFile _ _ (some (.raw certs)))
      exact wp_close h2 fun _ _ => done h2
    · have h2 := h1.trans (World.Scratch.setFile _ _ v)
      exact wp_close h2 fun _ _ => done h2
  have set (name : String) {k : Bool → SysM β Unit}
      (hk : ∀ b, cwp (hostMachine host) A (World.Scratch [embeddedCertPath user] w) (k b)
        (fun r _ => (∀ p, ¬ CanFail A (.exists p)) → (∀ p, ¬ CanFail A (.isRegularFile p)) →
          r = .ok ()) w) :
      cwp (hostMachine host) A (World.Scratch [embeddedCertPath user] w) (isEnvSet name >>= k)
        (fun r _ => (∀ p, ¬ CanFail A (.exists p)) → (∀ p, ¬ CanFail A (.isRegularFile p)) →
          r = .ok ()) w := by
    unfold isEnvSet
    rw [Prog.bind_assoc]
    refine wp_getenv h0 fun value => ?_
    cases value with
    | none => exact hk false
    | some text => exact hk _
  have find (paths : List Path) {k : Path → SysM β Unit}
      (hk : ∀ p, cwp (hostMachine host) A (World.Scratch [embeddedCertPath user] w) (k p)
        (fun r _ => (∀ p, ¬ CanFail A (.exists p)) → (∀ p, ¬ CanFail A (.isRegularFile p)) →
          r = .ok ()) w) :
      cwp (hostMachine host) A (World.Scratch [embeddedCertPath user] w) (findCertFile paths >>= k)
        (fun r _ => (∀ p, ¬ CanFail A (.exists p)) → (∀ p, ¬ CanFail A (.isRegularFile p)) →
          r = .ok ()) w := by
    induction paths with
    | nil => exact hk ""
    | cons path paths ih =>
      unfold findCertFile
      rw [Prog.bind_assoc]
      refine wp_fsExists h0 ?_ fun hf hno _ => absurd hf (hno path)
      split
      · rw [Prog.bind_assoc]
        refine wp_fsIsRegularFile h0 (fun regular => ?_) fun hf _ hno => absurd hf (hno path)
        split
        · exact hk path
        · exact ih
      · exact ih
  unfold configureSslCertificates
  -- `SSL_CERT_FILE`, then `SSL_CERT_DIR`, then the system's bundles.
  refine set _ fun file => ?_
  split
  · exact done h0
  refine set _ fun dir => ?_
  split
  · exact done h0
  refine find _ fun found => ?_
  split
  · exact done h0
  -- No bundle found: the embedded one, unless the file already holds it.
  unfold writeEmbeddedCertsIfNeeded
  rw [Prog.bind_assoc]
  refine wp_fsExists h0 ?_ fun hf hno _ => absurd hf (hno _)
  split
  · rw [Prog.bind_assoc]
    refine wp_readFile h0 ?_ fun _ => ?_
    · split
      · exact done h0
      · exact write
    · split
      · exact done h0
      · exact write
  · exact write

/-- The rule for the status of the service, which may be any. The question may throw. -/
theorem wp_serviceStatus {k : ServiceStatus → SysM β α} (hJ : J w)
    (hk : ∀ status, cwp (hostMachine host) A J (k status) Q w)
    (hthrow : CanFail A .serviceStatus → Q (.error (.runtimeError "")) w) :
    cwp (hostMachine host) A J (serviceStatus >>= k) Q w := by
  refine ⟨hJ, fun c hc => ?_⟩
  show cwp _ A J (orFail (exec host w .serviceStatus c).1 >>= k) Q w
  cases he : c.error with
  | none => simpa [exec, he, orFail] using hk _
  | some e => simpa [exec, he, orFail] using ⟨hJ, hthrow ⟨c, e, hc, he⟩⟩

/-- Nothing but the menu can throw where the service is to be managed. -/
theorem managesService_spec {status : ServiceStatus} {configPath : Path} :
    cwp (hostMachine host) A (fun v => v = w) (managesService status configPath)
      (fun r _ => ¬ CanFail A .managementMenu → ∃ b, r = .ok b) w := by
  unfold managesService
  split
  · refine ⟨rfl, fun c _ => ?_⟩
    show cwp (hostMachine host) A _ (if c.error.isNone = true then _ else _) _ w
    split
    · split
      · refine ⟨rfl, fun c hc => ?_⟩
        cases he : c.error with
        | none =>
          simp only [hostMachine, exec, he, orFail]
          exact ⟨rfl, fun _ => ⟨_, rfl⟩⟩
        | some e =>
          simp only [hostMachine, exec, he, orFail]
          exact ⟨rfl, fun hno => absurd ⟨c, e, hc, he⟩ hno⟩
      · exact ⟨rfl, fun _ => ⟨_, rfl⟩⟩
    · exact ⟨rfl, fun _ => ⟨_, rfl⟩⟩
  · exact ⟨rfl, fun _ => ⟨_, rfl⟩⟩

/-- `load` gives the credentials of the file, or throws. -/
theorem load_spec {path : Path} {content : Content β} (hfile : w.files path = some content) :
    cwp (hostMachine host) A (fun v => v = w) (load path)
      (fun r _ => (∀ e, content.credentials path = .error e → ∃ e', r = .error e') ∧
        ∀ c, content.credentials path = .ok c → ¬ CanFail A (.exists path) →
          ¬ CanFail A (.read path) → r = .ok c) w := by
  unfold load
  refine wp_fsExists rfl ?_ fun hf => ⟨fun _ _ => ⟨_, rfl⟩, fun _ _ hno => absurd hf hno⟩
  simp only [hfile, Option.isSome_some, Bool.not_true, Bool.false_eq_true, if_false]
  refine wp_readFile rfl ?_ fun hf =>
    ⟨rfl, fun _ _ => ⟨_, rfl⟩, fun _ _ _ hno => absurd hf hno⟩
  rw [hfile]
  simp only
  cases hcontent : content.credentials path with
  | ok c => exact ⟨rfl, by simp, fun _ h _ _ => congrArg _ (Except.ok.inj h)⟩
  | error e => exact ⟨rfl, fun _ _ => ⟨e, rfl⟩, by simp⟩

end Rules

/-! ### One start -/

/-- A command line without a command, by some user, with the paths that the start computes from
it. Neither the installed binary nor the configuration is the certificate file. -/
structure Invocation (L : Layout) where
  user : User
  certs : String
  sysname : Option String
  res : ParseResult
  defaultPath : Path
  path : Path
  hdefault : defaultConfigPath user = .ok defaultPath
  hpath : configPathOf user res.configPath = .ok path
  hdir : agentStateDir user path = .ok L.stateDir
  apart : L.install ≠ embeddedCertPath user ∧ path ≠ embeddedCertPath user

section Start

variable {β : Type} {L : Layout}

/-- The program of a start, of a binary with some constants. -/
def Invocation.prog (I : Invocation L) (build : Build) (setup : SysM β Nat) : SysM β Nat :=
  mainNoCommand I.user I.certs build setup I.sysname I.res

/-- What a start has to find: an init system, and a configuration file that loads. -/
structure Startable (I : Invocation L) (w : World β) : Prop where
  init : InitFound I.sysname w
  config : ∃ content credentials, w.files I.path = some content ∧
    content.credentials I.path = .ok credentials

/-- The environment in which nothing fails on the way to the count: the checks of the paths, the
queries of the service, the reads of the configuration and of the marker, and the writes of the
records. The certificates may fail to be written. -/
def StartWorks (I : Invocation L) : SysOp β → Choice β → Prop
  | .isRegularFile _, c => c.error = none
  | .serviceStatus, c => c.error = none
  | .managementMenu, c => c.error = none
  | .read p, c => p = I.path ∨ p = L.path .state → c.error = none
  | o, c => o.vital = true → o.onCerts I.user = false → c.error = none

variable {host : Host β} {w : World β} {I : Invocation L} {build : Build} {setup : SysM β Nat}

/-- In the boot check this is an environment in which the records work. -/
theorem recordsWork_of_startWorks {o : SysOp β} {c : Choice β} (ho : OffCerts I.user o)
    (hc : StartWorks I o c) : RecordsWork L o c := by
  rintro (hvital | rfl)
  · cases o with
    | isRegularFile p => exact hc
    | serviceStatus => exact hc
    | managementMenu => exact hc
    | read p => cases hvital
    | _ => exact hc hvital ho
  · exact hc (.inr rfl)

/-- The program ends with an exit code, and the code is 1 only where `T` holds. -/
def ExitsOver (T : World β → Prop) (r : Except Exc Nat) (w : World β) : Prop :=
  ∃ code, r = .ok code ∧ (code = 1 → T w)

/-- The start of an agent in an environment that fails nothing on the way to the count: when it
ends with the exit code 1, what the boot check has made true holds. -/
theorem startUp_counts (build : Build) (setup : SysM β Nat) {T : World β → Prop}
    (hkeep : ∀ v v', L.SameOn v v' → T v → T v')
    (hstart : Startable I w)
    (hboot : ∀ v, World.Scratch [embeddedCertPath I.user] w v →
      cwp (hostMachine host) (StartWorks I) (fun _ => True) (checkBoot L.stateDir build.version)
        (fun r v' => ∃ outcome, r = .ok outcome ∧ T v') v) :
    cwp (hostMachine host) (StartWorks I) (fun _ => True) (I.prog build setup) (ExitsOver T) w := by
  have works {o : SysOp β} (h : ∀ c, StartWorks I o c → c.error = none) :
      ¬ CanFail (StartWorks I) o := by
    rintro ⟨c, e, hc, he⟩
    rw [h c hc] at he
    cases he
  have hexists (p : Path) : ¬ CanFail (StartWorks (β := β) I) (.exists p) :=
    works fun c hc => hc rfl rfl
  have hregular (p : Path) : ¬ CanFail (StartWorks (β := β) I) (.isRegularFile p) :=
    works fun c hc => hc
  have hmenu : ¬ CanFail (StartWorks (β := β) I) .managementMenu := works fun c hc => hc
  have hstatus : ¬ CanFail (StartWorks (β := β) I) .serviceStatus := works fun c hc => hc
  have hread : ¬ CanFail (StartWorks (β := β) I) (.read I.path) := works fun c hc => hc (.inl rfl)
  obtain ⟨content, credentials, hfile, hcredentials⟩ := hstart.config
  have hcerts := L.path_ne_certs I.apart.1
  -- Agent mode, from the load of the configuration on.
  have mode {v : World β} (hv : World.Scratch [embeddedCertPath I.user] w v) :
      cwp (hostMachine host) (StartWorks I) (fun _ => True)
        (agentMode I.user I.certs build I.path) (ExitsOver T) v := by
    have hfile : v.files I.path = some content :=
      (hv.files (by simpa using I.apart.2)).trans hfile
    unfold agentMode runAgent createAgent
    rw [I.hdir]
    refine cwp_tryCatch (cwp_bind (cwp_mono (load_spec hfile) (fun _ _ => trivial) ?_))
    rintro r v' rfl ⟨-, hload⟩
    rw [hload credentials hcredentials (hexists _) hread]
    simp only [Prog.bind_assoc]
    refine cwp_bind (cwp_mono (hboot v' hv) (fun _ h => h) ?_)
    rintro _ u - ⟨outcome, rfl, hu⟩
    cases outcome with
    | revertedExit => exact ⟨trivial, trivial, 1, rfl, fun _ => hu⟩
    | proceed =>
      have hops : AllOps (StartsUp (β := β) I.user)
          (initAgent I.user I.certs build credentials I.path L.stateDir >>= fun agent =>
            startClient.ensure agent.1.stop >>= fun _ => .ret 0) := by
        refine .bind initAgent_ops fun agent => .bind (.ensure ?_ stop_ops) fun _ => trivial
        exact ⟨rfl, fun r => by cases r <;> trivial⟩
      refine cwp_mono (cwp_of_allOps (J := T) (fun v o c ho hv => ?_) hops hu)
        (fun _ _ => trivial) fun r v _ hv => ?_
      · exact hkeep v _ (SysOp.sameOn_of_startsUp hcerts c ho) hv
      · cases r with
        | ok code => exact ⟨code, rfl, fun _ => hv⟩
        | error e => exact ⟨trivial, 1, rfl, fun _ => hv⟩
  -- From the certificates on.
  have rest : cwp (hostMachine host) (StartWorks I) (fun _ => True)
      (configureSslCertificates I.user I.certs >>= fun _ =>
        handleNoCommand I.user I.certs build setup I.path I.res.configPath)
      (ExitsOver T) w := by
    refine cwp_bind (cwp_mono configureSslCertificates_spec (fun _ _ => trivial) ?_)
    rintro r v hv hr
    obtain rfl := hr hexists hregular
    have hfile : v.files I.path = some content :=
      (hv.files (by simpa using I.apart.2)).trans hfile
    unfold handleNoCommand
    refine wp_fsExists_cases hexists trivial (fun _ => ?_) fun hnone => by simp [hfile] at hnone
    rw [if_pos rfl]
    refine wp_serviceStatus trivial (fun status => ?_) fun hf => absurd hf hstatus
    refine cwp_bind (cwp_mono managesService_spec (fun _ _ => trivial) ?_)
    rintro r v' rfl hr
    obtain ⟨leaves, rfl⟩ := hr hmenu
    cases leaves with
    | true => exact ⟨trivial, 0, rfl, by simp⟩
    | false => exact mode hv
  have main : cwp (hostMachine host) (StartWorks I) (fun _ => True)
      (do
        let defaultPath ← createCommandHandler I.user I.sysname
        execute I.user I.certs build setup defaultPath I.res) (ExitsOver T) w := by
    refine cwp_bind (cwp_mono (createCommandHandler_spec hexists hstart.init I.hdefault rfl)
      (fun _ _ => trivial) ?_)
    rintro _ v - ⟨rfl, rfl⟩
    unfold execute
    rw [I.hpath]
    simp only
    split
    · exact wp_fsExists_cases hexists trivial (fun _ => rest) fun _ => rest
    · exact rest
  unfold Invocation.prog mainNoCommand
  refine cwp_tryCatch (cwp_mono main (fun _ h => h) ?_)
  rintro _ v - ⟨code, rfl, hcode⟩
  exact ⟨code, rfl, hcode⟩

/-- The boot check of a start, in the environment of the start. -/
theorem checkBoot_startWorks {Q : Except Exc BootOutcome → World β → Prop}
    (h : cwp (hostMachine host) (RecordsWork L) (fun _ => True)
      (checkBoot L.stateDir build.version) Q w) :
    cwp (hostMachine host) (StartWorks I) (fun _ => True)
      (checkBoot L.stateDir build.version) Q w :=
  cwp_anti (fun _ _ => recordsWork_of_startWorks) checkBoot_off_certs h

/-! ### Every sequence of failed starts -/

/-- A start that has ended with the exit code 1. The environment allows its answers. -/
structure FailedStart (host : Host β) (I : Invocation L) (build : Build) (setup : SysM β Nat)
    (A : SysOp β → Choice β → Prop) (before last : World β) : Prop where
  ended : ∃ cs, (hostMachine host).Admits A cs (I.prog build setup, before) ∧
    (hostMachine host).after cs (I.prog build setup, before) = (.ret 1, last)

/-- The sequence of starts after the world `w`, each one failed: the world in which it began and
the world in which it ended. -/
def FailedStarts (host : Host β) (I : Invocation L) (build : Build) (setup : SysM β Nat)
    (A : SysOp β → Choice β → Prop) : World β → List (World β × World β) → Prop
  | _, [] => True
  | w, (before, last) :: rest =>
    Restart L w before ∧ FailedStart host I build setup A before last ∧
      FailedStarts host I build setup A last rest

/-- What the starts have to do when `k` attempts of the trial of `m` are used: three of them count
one attempt each, and the fourth restores the backup, with both records. -/
def Counted (L : Layout) (new old : β) (m : UpdateMarker) : Nat → List (World β × World β) → Prop
  | _, [] => True
  | k, (_, last) :: rest =>
    if k < 3 then L.OnTrial new old m (k + 1) last ∧ Counted L new old m (k + 1) rest
    else L.Recorded (m.withAttempts 4) "crash_loop" last ∧
      last.files (L.path .install) = some (.image old)

variable {new old : β} {m : UpdateMarker} {k : Nat}

/-- What the boot check has made of a trial, the rest of the start keeps. -/
theorem Layout.OnTrial.of_sameOn {w' : World β} (h : L.OnTrial new old m k w)
    (hw : L.SameOn w w') : L.OnTrial new old m k w' :=
  ⟨(hw.files .install).trans h.install, (hw.files .prev).trans h.prev, hw.durable h.state⟩

/-- A rollback stays recorded while the files of the layout stay. -/
theorem Layout.Recorded.of_sameOn {reason : String} {w' : World β} (h : L.Recorded m reason w)
    (hw : L.SameOn w w') : L.Recorded m reason w' := by
  obtain ⟨hstate, t, hreverted⟩ := h
  exact ⟨hw.durable (f := .state) hstate, t, hw.durable (f := .reverted) hreverted⟩

/-- What the boot check makes true of every world that has the files of the update protocol in
common with the one before the start, holds after a failed start. -/
theorem FailedStart.kept {T : World β → Prop} {w' : World β}
    (h : FailedStart host I build setup (StartWorks I) w w') (hstart : Startable I w)
    (hexe : w.proc.exe = some (L.path .install)) (hkeep : ∀ v v', L.SameOn v v' → T v → T v')
    (hboot : ∀ v, L.SameOn w v → v.proc.binaryPath = L.path .install →
      cwp (hostMachine host) (RecordsWork L) (fun _ => True) (checkBoot L.stateDir build.version)
        (fun r v' => ∃ outcome, r = .ok outcome ∧ T v') v) : T w' := by
  obtain ⟨cs, hcs, hend⟩ := h.ended
  have hboot (v : World β) (hv : World.Scratch [embeddedCertPath I.user] w v) :
      cwp (hostMachine host) (StartWorks I) (fun _ => True) (checkBoot L.stateDir build.version)
        (fun r v' => ∃ outcome, r = .ok outcome ∧ T v') v := by
    have hsame : v.proc.exe = some (L.path .install) := by
      refine (hv.exe fun p hp => ?_).trans hexe
      obtain rfl := List.mem_singleton.mp hp
      rw [hexe]
      exact fun heq => I.apart.1 (Option.some.inj heq)
    refine checkBoot_startWorks (hboot v (.of_scratch (L.path_ne_certs I.apart.1) hv) ?_)
    rw [Process.binaryPath, hsame]
    rfl
  obtain ⟨code, hcode, hT⟩ := cwp_after_ret
    (startUp_counts build setup hkeep hstart hboot) hcs (congrArg Prod.fst hend)
  rw [hend] at hT
  exact hT (Except.ok.inj hcode).symm

/-- A process that is started anew runs from the installed binary, whatever the one before it ran
from. -/
theorem Layout.exe_of_restart {w' : World β} (hr : Restart L w w') :
    w'.proc.exe = some (L.path .install) := by
  cases hr with
  | crash pid next => rw [next]
  | powerCut pid f cut install prev next =>
    rw [next]
    rfl

/-- For every sequence of failed starts of the binary `new` on trial, each of which finds an init
system and a configuration file that loads: every start counts one attempt until the backup is
due, and the fourth start restores it. -/
theorem failedStarts_counted {β : Type} (host : Host β) (L : Layout) (I : Invocation L)
    (build : Build) (setup : SysM β Nat) (new old : β) (m : UpdateMarker) (k : Nat) (hk : k ≤ 3)
    (hm : m.phase = .pending) (hprev : m.prevBinary = L.path .prev)
    (hversion : build.version = m.toVersion) (w : World β) (hw : L.OnTrial new old m k w)
    (starts : List (World β × World β))
    (hstarts : FailedStarts host I build setup (StartWorks I) w starts)
    (hstartable : ∀ s ∈ starts, Startable I s.1) : Counted L new old m k starts := by
  -- The induction is on the starts, over all numbers of attempts.
  induction starts generalizing w k with
  | nil => trivial
  | cons s starts ih =>
    obtain ⟨before, last⟩ := s
    obtain ⟨hrestart, hfailed, hrest⟩ := hstarts
    have hready : Startable I before := hstartable _ List.mem_cons_self
    have htrial := hw.restart hrestart
    have hexe := Layout.exe_of_restart hrestart
    show if k < 3 then _ else _
    split
    · rename_i hk3
      have hcounted : L.OnTrial new old m (k + 1) last := by
        refine hfailed.kept hready hexe (fun _ _ hsame h => h.of_sameOn hsame) fun v hv hpath => ?_
        refine cwp_mono (checkBoot_counts benign_recordsWork not_canFail_readMarker
          hpath hm hversion (htrial.of_sameOn hv) hk3) (fun _ h => h) ?_
        exact fun r u _ hr => ⟨_, hr.1, hr.2.1⟩
      refine ⟨hcounted, ih (k + 1) (by omega) last hcounted hrest fun s hs => ?_⟩
      exact hstartable s (List.mem_cons_of_mem _ hs)
    · obtain rfl : k = 3 := by omega
      refine hfailed.kept (T := fun v => L.Recorded (m.withAttempts 4) "crash_loop" v ∧
        v.files (L.path .install) = some (.image old)) hready hexe ?_ fun v hv hpath => ?_
      · exact fun _ _ hsame h => ⟨h.1.of_sameOn hsame, (hsame.files .install).trans h.2⟩
      · refine cwp_mono (checkBoot_restores benign_recordsWork not_canFail_readMarker
          hpath hm hprev hversion (htrial.of_sameOn hv)) (fun _ h => h) ?_
        exact fun r u _ hr => ⟨_, hr.1, hr.2⟩

end Start

/-! ### Sample starts -/

/-- The marker that an update from 1 to 2 leaves. It allows the attempts that the source allows. -/
def sampleStartMarker : UpdateMarker :=
  pendingMarker sampleBuild (sampleRequest "2") (Layout.system.path .install) 0

/-- The operations that must work in such a start for a trial to be counted: those on the
configuration, on the marker and on the service. -/
def Invocation.needs {β : Type} {L : Layout} (I : Invocation L) : SysOp β → Bool
  | .isRegularFile _ => true
  | .serviceStatus => true
  | .managementMenu => true
  | .read p => p = I.path || p = L.path .state
  | o => o.vital && !o.onCerts I.user

/-- An answer is one of an environment that works for a start when the operations the start needs do
not fail. -/
theorem startWorks_iff {β : Type} {L : Layout} {I : Invocation L} {o : SysOp β} {c : Choice β} :
    StartWorks I o c ↔ (I.needs o = true → c.error = none) := by
  cases o <;> simp [StartWorks, Invocation.needs]

/-- Whether an answer is one of this environment is decided by the operation. -/
instance decidableStartWorks {β : Type} {L : Layout} (I : Invocation L) (o : SysOp β)
    (c : Choice β) : Decidable (StartWorks I o c) :=
  decidable_of_iff _ startWorks_iff.symm

/-- The binary 2 on trial, with a configuration file. -/
def sampleOnTrial (config : Json) : World Nat :=
  .ofFiles (fun p =>
    if p = Layout.system.path .install then some (.image 2)
    else if p = Layout.system.path .prev then some (.image 1)
    else if p = Layout.system.path .state then some
      (.json (sampleStartMarker.withAttempts 0).toJson)
    else if p = SYSTEM_CONFIG_PATH then some (.json config)
    else none)
    { pid := 1, exe := some (Layout.system.path .install) }

/-- A configuration that loads: a host, and a device with its identifier, its user and its token. -/
def sampleStartConfig : Json :=
  .obj [("host", .str "host"), ("device", .obj [("id", .str "id"), ("user", .str "user"),
    ("token", .str "3b")])]

/-- The credentials that `load` takes from the sample configuration. -/
def sampleCredentials : DeviceCredentials where
  host := "host"
  deviceId := "id"
  deviceUser := "user"
  deviceToken := [97]
  version := "1.0.0"

/-- The super user starts the agent without arguments. -/
def sampleInvocation : Invocation .system where
  user := { euid := 0, home := none, pwDir := none }
  certs := "certs"
  sysname := some "Darwin"
  res := {}
  defaultPath := SYSTEM_CONFIG_PATH
  path := SYSTEM_CONFIG_PATH
  hdefault := by decide +kernel
  hpath := by decide +kernel
  hdir := by decide +kernel
  apart := by decide +kernel

/-- The outcome of a start of the binary 2 after a crash in `w`, against the answers `cs`. -/
def sampleStartUp (cs : List (Choice Nat)) (w : World Nat) : SysM Nat Nat × World Nat :=
  (hostMachine sampleHost).after cs
    (sampleInvocation.prog { version := "2", binarySuffix := "linux" } (.ret 0), sampleNext w)

/-- The answers of a start whose client cannot be set up. -/
def sampleNoClient : List (Choice Nat) :=
  .text "certs" :: List.replicate 12 .ok ++ [.text "certs", .fail (.other 1) none]

/-- Three starts without a client, and the fourth. -/
def sampleFailedStarts : List (World Nat × World Nat) :=
  let first := (sampleStartUp sampleNoClient (sampleOnTrial sampleStartConfig)).2
  let second := (sampleStartUp sampleNoClient first).2
  let third := (sampleStartUp sampleNoClient second).2
  let fourth := (sampleStartUp (List.replicate 60 .ok) third).2
  [(sampleNext (sampleOnTrial sampleStartConfig), first), (sampleNext first, second),
    (sampleNext second, third), (sampleNext third, fourth)]

/-- A sample run that ends with the exit code 1 is a failed start in the sense of the theorem. That
its answers are admitted is decided by evaluation, as is its end. -/
private theorem sampleStartUp_failed {cs : List (Choice Nat)} {w : World Nat}
    (hcs : (hostMachine sampleHost).Admits (StartWorks sampleInvocation) cs
      (sampleInvocation.prog { version := "2", binarySuffix := "linux" } (.ret 0), sampleNext w))
    (hend : (sampleStartUp cs w).1.result = some (.ok 1)) :
    FailedStart sampleHost sampleInvocation { version := "2", binarySuffix := "linux" } (.ret 0)
      (StartWorks sampleInvocation) (sampleNext w) (sampleStartUp cs w).2 :=
  ⟨cs, hcs, Prod.ext (Prog.result_eq_ok.mp hend) rfl⟩

/-- The sample device can be started while its configuration is there. -/
private theorem sample_startable {w : World Nat} {c : DeviceCredentials}
    (h : (w.files SYSTEM_CONFIG_PATH).map (Content.credentials · SYSTEM_CONFIG_PATH) =
      some (.ok c)) : Startable sampleInvocation w := by
  refine ⟨.inl rfl, ?_⟩
  cases hfile : w.files SYSTEM_CONFIG_PATH with
  | none => simp [hfile] at h
  | some content =>
    rw [hfile] at h
    exact ⟨content, c, hfile, Option.some.inj h⟩

/-- Four failed starts of the binary on trial: three that are counted, and the one that restores the
backup. -/
theorem failedStarts_counted_sample :
    Counted .system 2 1 sampleStartMarker 0 sampleFailedStarts :=
  failedStarts_counted sampleHost .system sampleInvocation
    { version := "2", binarySuffix := "linux" } (.ret 0) 2 1 sampleStartMarker 0 (by decide) rfl rfl
    rfl (sampleOnTrial sampleStartConfig)
    ⟨by simp [sampleOnTrial], by simp [sampleOnTrial], by
      simp [World.Durable, sampleOnTrial, World.disk_ofFiles]⟩ sampleFailedStarts
    ⟨.crash 1 rfl, sampleStartUp_failed (by decide +kernel) (by decide +kernel),
      .crash 1 rfl, sampleStartUp_failed (by decide +kernel) (by decide +kernel),
      .crash 1 rfl, sampleStartUp_failed (by decide +kernel) (by decide +kernel),
      .crash 1 rfl, sampleStartUp_failed (by decide +kernel) (by decide +kernel), trivial⟩
    (by
      intro s hs
      simp only [sampleFailedStarts, List.mem_cons, List.not_mem_nil, or_false] at hs
      rcases hs with rfl | rfl | rfl | rfl <;> exact sample_startable (c := sampleCredentials)
        (by decide +kernel))

/-- A start with a configuration file without a device ends with the exit code 1, and so do the
next ones. The binary on trial stays installed, with no attempt counted. -/
theorem not_counted_sample :
    let config : Json := .obj [("host", .str "host")]
    let first := sampleStartUp (List.replicate 40 .ok) (sampleOnTrial config)
    let second := sampleStartUp (List.replicate 40 .ok) first.2
    let third := sampleStartUp (List.replicate 40 .ok) second.2
    let fourth := sampleStartUp (List.replicate 40 .ok) third.2
    (∀ s ∈ [first, second, third, fourth], s.1.result = some (.ok 1) ∧
        s.2.image (Layout.system.path .install) = some 2 ∧
        s.2.marker Layout.system.stateDir = some (sampleStartMarker.withAttempts 0)) := by
  decide +kernel

end ThinrAgent
