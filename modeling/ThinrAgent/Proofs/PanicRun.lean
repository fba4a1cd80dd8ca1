import ThinrAgent.Effects.CrashLogic
import ThinrAgent.Proofs.Panic
import ThinrAgent.Scripts.Channel

/-!
# `ThinrAgent.Proofs.PanicRun`: `panic.sh` on a bucket of its own

`panicRun` takes the script as a program that other runs may interleave with and that a failing
transfer ends. `panic` takes it as a function of the files it finds. `panicRun_alone` says that they
are one script: when no other run writes to the bucket and every transfer succeeds, the program
leaves the files that the function says, and exits with an error when the function aborts.

The binaries of the run are transferred in an order of its own. They have different keys, so the
order leaves no trace (`Registry.bindAll_perm`).
-/

set_option autoImplicit false

namespace ThinrAgent

open Effects Shell

section
variable {β : Type} {tools : CdnTools β} {jq : Jq} {host : Host β} {cdn : CdnFiles β}
  {version : String}

/-- Every read is answered, and every upload is stored and reported. -/
def Carried : (bucket β).Op → BucketChoice → Prop := fun _ c => c.stored = true ∧ c.reported = true

/-- The exit of a run that ends so: an error when the function aborts. -/
def PanicResult.outcome : PanicResult β → Except Unit Unit
  | .aborted => .error ()
  | .noOp => .ok ()
  | .published _ _ => .ok ()

/-- A read of an object, with the rest of the run. -/
theorem cwp_fetched {α : Type} {key : String} {k : Option (Content β) → BucketM β α}
    {Q : Except Unit α → CdnFiles β → Prop}
    (h : cwp bucketMachine Carried (fun _ => True) (k (cdn key)) Q cdn) :
    cwp bucketMachine Carried (fun _ => True) (askBucket (.fetch key) >>= k) Q cdn := by
  refine ⟨trivial, ?_⟩
  rintro c ⟨-, hreported⟩
  show cwp bucketMachine Carried _ (k (if c.reported then cdn key else none)) Q cdn
  rw [if_pos hreported]
  exact h

/-- The staged binaries of one more architecture. A binary that was staged for the same name is the
same binary, so both lists keep one of them. -/
theorem files_add {arch : String} {arches : List String} {content : Content β} {staged : Staged β}
    (hfound : archivedBinary tools cdn version arch = some content)
    (hstaged : staged.files = stagedBinaries tools cdn version arches) :
    (staged.add arch content).files = stagedBinaries tools cdn version (arch :: arches) := by
  have hmem : arch ∈ staged.files.map Prod.fst ↔ arch ∈ arches := by
    rw [hstaged, List.mem_map]
    constructor
    · rintro ⟨⟨arch, content⟩, hbinary, rfl⟩
      exact (mem_stagedBinaries.mp hbinary).1
    · intro harch
      exact ⟨(arch, content), mem_stagedBinaries.mpr ⟨harch, hfound⟩, rfl⟩
  unfold Staged.add stagedBinaries
  by_cases harch : arch ∈ arches
  · rw [dif_pos (hmem.mpr harch), List.dedup_cons_of_mem harch]
    exact hstaged
  · rw [dif_neg (mt hmem.mp harch), List.dedup_cons_of_notMem harch,
      List.filterMap_cons_some (by rw [hfound]; rfl)]
    exact congrArg _ hstaged

/-- The loop reads what the function reads, and has a result when no binary is missing. -/
theorem cwp_fetchArchived (arches : List String) :
    cwp bucketMachine Carried (fun _ => True) (fetchArchived tools version arches)
      (fun r v => v = cdn ∧ ∃ result, r = .ok result ∧ result.map Staged.files =
        if arches.any fun arch => (archivedBinary tools cdn version arch).isNone then none
        else some (stagedBinaries tools cdn version arches)) cdn := by
  -- The loop stops at the first binary that is missing, and the function looks at all of them.
  induction arches with
  | nil => exact ⟨trivial, rfl, some ⟨[], List.nodup_nil⟩, rfl, rfl⟩
  | cons arch arches ih =>
    refine cwp_fetched (cwp_bind (cwp_mono ih (fun _ hv => hv) ?_))
    rintro r v - ⟨rfl, others, rfl, hothers⟩
    have hread : (v (archiveKey version arch)).filter tools.hasSize =
        archivedBinary tools v version arch := rfl
    rw [List.any_cons]
    cases hfound : archivedBinary tools v version arch with
    | none =>
      simp only [hread, hfound]
      exact ⟨trivial, rfl, none, rfl, rfl⟩
    | some content =>
      cases others with
      | none =>
        simp only [hread, hfound]
        refine ⟨trivial, rfl, none, rfl, ?_⟩
        split at hothers
        · next hmissing =>
          rw [if_pos (by simpa using hmissing)]
          rfl
        · cases hothers
      | some staged =>
        simp only [hread, hfound]
        refine ⟨trivial, rfl, some (staged.add arch content), rfl, ?_⟩
        split at hothers
        · cases hothers
        · next hmissing =>
          rw [if_neg (by simpa using hmissing)]
          exact congrArg some (files_add hfound (Option.some.inj hothers))

/-- The transfers bind their files, one after the other. -/
theorem cwp_syncAll (files : List (String × Content β)) :
    cwp bucketMachine Carried (fun _ => True) (syncAll files)
      (fun r v => r = .ok true ∧ v = cdn.bindAll files) cdn := by
  induction files generalizing cdn with
  | nil => exact ⟨trivial, rfl, rfl⟩
  | cons file rest ih =>
    refine ⟨trivial, ?_⟩
    rintro ⟨stored, reported, now⟩ ⟨hstored, hreported⟩
    cases hstored
    cases hreported
    show cwp bucketMachine Carried _ (syncAll rest >>= fun others => .ret (true && others)) _
      (cdn.bind file.1 file.2)
    refine cwp_bind (cwp_mono ih (fun _ hv => hv) ?_)
    rintro r v - ⟨rfl, rfl⟩
    exact ⟨trivial, rfl, rfl⟩

/-- The order of the transfers leaves no trace. -/
theorem cwp_syncDir (transfers : Transfers β) {files : List (String × Content β)}
    (hnodup : (files.map Prod.fst).Nodup) :
    cwp bucketMachine Carried (fun _ => True) (syncDir transfers files)
      (fun r v => r = .ok () ∧ v = cdn.bindAll files) cdn := by
  refine cwp_bind (cwp_mono (cwp_syncAll _) (fun _ hv => hv) ?_)
  rintro r v - ⟨rfl, rfl⟩
  exact ⟨trivial, rfl, (Registry.bindAll_perm cdn (transfers.perm files).symm hnodup).symm⟩

/-- Where every upload works, one upload stores its object and changes nothing else. -/
theorem cwp_uploadFile (key : String) (content : Content β) :
    cwp bucketMachine Carried (fun _ => True) (uploadFile key content)
      (fun r v => r = .ok () ∧ v = cdn.bind key content) cdn := by
  refine ⟨trivial, ?_⟩
  rintro ⟨stored, reported, now⟩ ⟨hstored, hreported⟩
  cases hstored
  cases hreported
  exact ⟨trivial, rfl, rfl⟩

/-- Where every operation works, the run that repoints the channel ends as `repoint` says, with the
bucket that it says. -/
theorem cwp_repointRun (transfers : Transfers β) (arches : String) :
    cwp bucketMachine Carried (fun _ => True)
      (repointRun tools jq host transfers version arches)
      (fun r v => r = (repoint tools jq host cdn version arches).outcome ∧
        v = (repoint tools jq host cdn version arches).after cdn) cdn := by
  unfold repointRun repoint
  by_cases harches : arches = ""
  · rw [if_pos harches, if_pos harches]
    exact ⟨trivial, rfl, rfl⟩
  · rw [if_neg harches, if_neg harches]
    refine cwp_bind (cwp_mono (cwp_fetchArchived (fields arches)) (fun _ hv => hv) ?_)
    rintro r v - ⟨rfl, result, rfl, hresult⟩
    -- A missing binary ends both before anything is written.
    by_cases hmissing : ((fields arches).any fun arch =>
        (archivedBinary tools v version arch).isNone) = true
    · rw [if_pos hmissing] at hresult ⊢
      cases result with
      | none => exact ⟨trivial, rfl, rfl⟩
      | some staged => cases hresult
    · rw [if_neg hmissing] at hresult ⊢
      cases result with
      | none => cases hresult
      | some staged =>
        have hfiles : staged.files = stagedBinaries tools v version (fields arches) :=
          Option.some.inj hresult
        rw [← hfiles]
        by_cases hempty : staged.files.isEmpty = true
        · rw [if_pos hempty]
          simp only [hempty]
          exact ⟨trivial, rfl, rfl⟩
        · rw [if_neg hempty]
          simp only [hempty]
          -- What is staged is what the function stages, so the digests and the uploads are the
          -- same. The order of the transfers does not matter, as the keys are different.
          have hdigests : staged.digests host =
              stagedDigests tools host v version (fields arches) := by
            unfold Staged.digests stagedDigests
            simp only [hfiles]
          have hkeys := latestKeys_nodup staged.nodup
          refine cwp_bind (cwp_mono (cwp_syncDir transfers hkeys) (fun _ hv => hv) ?_)
          rintro r v - ⟨rfl, rfl⟩
          refine cwp_mono (cwp_uploadFile _ _) (fun _ hv => hv) ?_
          rintro r v - ⟨rfl, rfl⟩
          refine ⟨rfl, ?_⟩
          rw [hdigests]
          show _ = Registry.bindAll v (uploads staged.files _)
          rw [uploads, Registry.bindAll_append]
          rfl

/-- `panic.sh` alone on the bucket, with uploads that all work, has the outcome and the files of
`panic`. -/
theorem cwp_panicRun (transfers : Transfers β) :
    cwp bucketMachine Carried (fun _ => True) (panicRun tools jq host transfers version)
      (fun r v => r = (panic tools jq host cdn version).outcome ∧
        v = (panic tools jq host cdn version).after cdn) cdn := by
  unfold panicRun panic
  cases hstable : isStableTag version with
  | false => exact ⟨trivial, rfl, rfl⟩
  | true =>
    -- One read, and then every test of the script in its order.
    refine cwp_fetched ?_
    simp only [Bool.not_true, Bool.false_eq_true, if_neg, not_false_eq_true]
    cases hdocs : (cdn "latest.json").bind tools.inputs with
    | none => exact ⟨trivial, rfl, rfl⟩
    | some docs =>
      cases hversions : docs.mapM tools.versionText with
      | none =>
        simp only [hversions]
        exact ⟨trivial, rfl, rfl⟩
      | some versions =>
        simp only [hversions]
        by_cases hsame : substitute (printLines versions) = version
        · rw [if_pos hsame, if_pos hsame]
          exact ⟨trivial, rfl, rfl⟩
        · rw [if_neg hsame, if_neg hsame]
          cases hnames : docs.mapM archNames with
          | none => exact ⟨trivial, rfl, rfl⟩
          | some names => exact cwp_repointRun transfers _

/-- A run with the bucket to itself, all of whose transfers succeed, leaves what the function says
and exits as it says. Such a run is not stopped, and `exists_done` gives it an end. -/
theorem panicRun_alone (transfers : Transfers β) :
    Ensures bucketMachine Carried (panicRun tools jq host transfers version)
      (fun r after => r = (panic tools jq host cdn version).outcome ∧
        after = (panic tools jq host cdn version).after cdn) cdn :=
  ensures_of_cwp (cwp_panicRun transfers)

end

end ThinrAgent
