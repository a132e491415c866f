import Scap.Backup.Canonical
import Scap.Backup.Sanitise
import Scap.Backup.Storage

/-!
# Backup and restore

The two commands on a file system. `backupDatabase` publishes the archive of a run
(`backupDatabase_publishes`), and `restoreDatabase` publishes a sanitised database, or nothing.

* `archive_canonical` — a file that is not the archive of a run under the passphrase is refused with
  the file system untouched;
* `restore_sanitises` — a restore that does not publish a sanitised database puts no file at the
  output path, and one that does found the path empty.

When the second validation or `fsync` fails, the temporary file is not followed any further.
-/

namespace Scap.Backup

open Scap.Py Scap.Lib

variable {ρ : Type} (gcm : Gcm) (argon2 : Bytes → Bytes → Bytes) (sqlite : Sqlite ρ) (w : World)
  (m : Moment)

/-! ## The commands -/

/-- `backup_database`, with what its run draws and reads. -/
def backupDatabase (fs : Files Bytes) (database output : Path) (run : Run) :
    Files Bytes × Except Failure Int :=
  match passphraseBytes run.passphrase, checkedPath fs database true,
      checkedPath fs output false with
  | .error e, _, _ => (fs, .error e)
  | _, .error e, _ => (fs, .error e)
  | _, _, .error e => (fs, .error e)
  | .ok _, .ok _, .ok _ =>
    withTemporary w fs output.dropLast "scap-backup-" fun fs directory =>
      match backupArchive gcm argon2 run with
      | .error e => (fs, .error e)
      | .ok archive =>
        match writeNew w fs (directory ++ ["archive.scapbak"]) archive with
        | (fs, .error e) => (fs, .error e)
        | (fs, .ok ()) =>
          match publishNew w fs (directory ++ ["archive.scapbak"]) output with
          | (fs, .error e) => (fs, .error e)
          | (fs, .ok ()) => (fs, .ok run.created)

structure Report where
  created : Int
  counts : Counts
  deriving DecidableEq, Repr

/-- What a restore does in its temporary directory. -/
def restoreIn (payload : Bytes) (created : Int) (reviewedUsers : List String) (output : Path)
    (fs : Files Bytes) (directory : Path) : Files Bytes × Except Failure Report :=
  match writeNew w fs (directory ++ ["restored.db"]) payload with
  | (fs, .error e) => (fs, .error e)
  | (fs, .ok ()) =>
    if w.fails .connect then (fs, .error .database)
    else
      match sqlite.read payload with
      | none => (fs, .error .database)
      | some db =>
        match revokeRestoredCredentials sqlite m reviewedUsers db with
        | .error e => (fs, .error e)
        | .ok (db, counts) =>
          let fs := fs.put (directory ++ ["restored.db"]) (.file (sqlite.write db))
          if w.fails .fsync then (fs, .error .os)
          else
            match publishNew w fs (directory ++ ["restored.db"]) output with
            | (fs, .error e) => (fs, .error e)
            | (fs, .ok ()) => (fs, .ok ⟨created, counts⟩)

/-- `restore_database`. -/
def restoreDatabase (fs : Files Bytes) (archive output : Path) (passphrase : String)
    (reviewedUsers : List String) : Files Bytes × Except Failure Report :=
  match checkedPath fs archive true, checkedPath fs output false with
  | .error e, _ => (fs, .error e)
  | _, .error e => (fs, .error e)
  | .ok (), .ok () =>
    match openInput w fs archive with
    | .error e => (fs, .error e)
    | .ok content =>
      match decryptArchive gcm argon2 passphrase content.length content with
      | .error e => (fs, .error e)
      | .ok (payload, created) =>
        withTemporary w fs output.dropLast "scap-restore-"
          (restoreIn sqlite w m payload created reviewedUsers output)

/-! ## Publication -/

variable {w : World} {fs fs' : Files Bytes} {output temporary : Path}

theorem checkedPath_new (h : checkedPath fs output false = .ok ()) :
    fs output = none ∧ fs output.dropLast = some .directory := by
  unfold checkedPath at h
  split at h
  · cases h
  · simp only [Bool.false_eq_true, if_false] at h
    split at h
    · cases h
    · next hnew =>
      split at h
      · cases h
      · next hparent => exact ⟨by simpa using hnew, not_not.mp hparent⟩

/-- **Publication never replaces an entry**: it succeeds where nothing stands and nothing appears,
and otherwise changes nothing itself. -/
theorem publishNew_cases (w : World) (fs : Files Bytes) (temporary output : Path) :
    (∃ e, fs output = none ∧ w.appears = none ∧ fs temporary = some e ∧
      publishNew w fs temporary output = (fs.put output e, .ok ())) ∨
    ∃ f, (publishNew w fs temporary output = (fs, .error f) ∨ ∃ e, fs output = none ∧
      w.appears = some e ∧ publishNew w fs temporary output = (fs.put output e, .error f)) := by
  unfold publishNew
  cases hchecked : checkedPath fs output false with
  | error f => exact .inr ⟨f, .inl rfl⟩
  | ok _ =>
      obtain ⟨hnew, -⟩ := checkedPath_new hchecked
      cases happears : w.appears with
      | none =>
          dsimp only
          split
          · exact .inr ⟨_, .inl rfl⟩
          · rw [hnew]
            cases htemporary : fs temporary with
            | none => exact .inr ⟨_, .inl rfl⟩
            | some e => exact .inl ⟨e, rfl, rfl, rfl, rfl⟩
      | some e =>
          dsimp only
          split
          · exact .inr ⟨_, .inr ⟨e, hnew, rfl, rfl⟩⟩
          · rw [Files.put_self]
            exact .inr ⟨_, .inr ⟨e, hnew, rfl, rfl⟩⟩

theorem publishNew_ok (h : publishNew w fs temporary output = (fs', .ok ())) :
    fs output = none ∧ w.appears = none ∧ fs' output = fs temporary := by
  rcases publishNew_cases w fs temporary output with
    ⟨e, hnew, happears, htemporary, h'⟩ | ⟨f, h' | ⟨e, -, -, h'⟩⟩
  · rw [h'] at h
    cases h
    exact ⟨hnew, happears, Files.put_self.trans htemporary.symm⟩
  · rw [h'] at h
    cases h
  · rw [h'] at h
    cases h

/-! ## Restoring -/

variable {gcm : Gcm} {argon2 : Bytes → Bytes → Bytes} {sqlite : Sqlite ρ} {m : Moment}

/-- No file at the output path but one that stood there or that another process put there. -/
def NoOutput (w : World) (output : Path) (fs fs' : Files Bytes) : Prop :=
  ∀ content, fs' output = some (.file content) →
    fs output = some (.file content) ∨ w.appears = some (.file content)

theorem NoOutput.refl (w : World) (output : Path) (fs : Files Bytes) : NoOutput w output fs fs :=
  fun _ h => .inl h

theorem NoOutput.trans {fs'' : Files Bytes} (h : NoOutput w output fs fs')
    (h' : NoOutput w output fs' fs'') : NoOutput w output fs fs'' := by
  intro content hcontent
  rcases h' content hcontent with hold | happears
  · exact h content hold
  · exact .inr happears

theorem noOutput_put {p : Path} {e : Entry Bytes} (h : p ≠ output) :
    NoOutput w output fs (fs.put p e) := by
  intro content hcontent
  rw [Files.put_of_ne h.symm] at hcontent
  exact .inl hcontent

/-- A directory is no file. -/
theorem noOutput_put_directory {p : Path} : NoOutput w output fs (fs.put p .directory) := by
  by_cases h : p = output
  · subst h
    intro content hcontent
    rw [Files.put_self] at hcontent
    cases hcontent
  · exact noOutput_put h

theorem noOutput_publishNew {f : Failure} (h : publishNew w fs temporary output = (fs', .error f)) :
    NoOutput w output fs fs' := by
  rcases publishNew_cases w fs temporary output with
    ⟨e, -, -, -, h'⟩ | ⟨f', h' | ⟨e, -, happears, h'⟩⟩
  · rw [h'] at h
    cases h
  · rw [h'] at h
    cases h
    exact .refl w output fs
  · rw [h'] at h
    cases h
    intro content hcontent
    rw [Files.put_self] at hcontent
    exact .inr (happears.trans hcontent)

/-- The database that a restore has made of the payload. -/
structure Restored (sqlite : Sqlite ρ) (m : Moment) (reviewedUsers : List String) (payload : Bytes)
    (db db' : Database ρ) (counts : Counts) : Prop where
  read : sqlite.read payload = some db
  revoked : revokeRestoredCredentials sqlite m reviewedUsers db = .ok (db', counts)

/-- In its directory, a restore publishes the sanitised database, or puts nothing at the output. -/
theorem restoreIn_cases (sqlite : Sqlite ρ) (w : World) (m : Moment) (payload : Bytes)
    (created : Int) (reviewedUsers : List String) (fs : Files Bytes) {directory : Path}
    (hdirectory : directory ++ ["restored.db"] ≠ output) :
    (∃ db db' counts, Restored sqlite m reviewedUsers payload db db' counts ∧ fs output = none ∧
      w.appears = none ∧
      (restoreIn sqlite w m payload created reviewedUsers output fs directory).1 output =
        some (.file (sqlite.write db')) ∧
      (restoreIn sqlite w m payload created reviewedUsers output fs directory).2 =
        .ok ⟨created, counts⟩) ∨
    (∃ e, (restoreIn sqlite w m payload created reviewedUsers output fs directory).2 = .error e) ∧
      NoOutput w output fs
        (restoreIn sqlite w m payload created reviewedUsers output fs directory).1 := by
  have hput : ∀ (fs : Files Bytes) e,
      NoOutput w output fs (fs.put (directory ++ ["restored.db"]) e) :=
    fun fs e => noOutput_put hdirectory
  unfold restoreIn writeNew
  split
  · next h =>
    split at h
    · cases h
      exact .inr ⟨⟨_, rfl⟩, .refl w output fs⟩
    · cases h
  · next fs₁ h =>
    split at h
    · cases h
    · cases h
      split
      · exact .inr ⟨⟨_, rfl⟩, hput fs _⟩
      · split
        · exact .inr ⟨⟨_, rfl⟩, hput fs _⟩
        · next db hread =>
          split
          · exact .inr ⟨⟨_, rfl⟩, hput fs _⟩
          · next db' counts hrevoked =>
            dsimp only
            have hwritten := (hput fs (.file payload)).trans
              (hput (fs.put (directory ++ ["restored.db"]) (.file payload))
                (.file (sqlite.write db')))
            split
            · exact .inr ⟨⟨_, rfl⟩, hwritten⟩
            · split
              · next hpublish =>
                exact .inr ⟨⟨_, rfl⟩, hwritten.trans (noOutput_publishNew hpublish)⟩
              · next fs₂ hpublish =>
                left
                obtain ⟨hnew, happears, hpublished⟩ := publishNew_ok hpublish
                rw [Files.put_of_ne hdirectory.symm, Files.put_of_ne hdirectory.symm] at hnew
                rw [Files.put_self] at hpublished
                exact ⟨db, db', counts, ⟨hread, hrevoked⟩, hnew, happears, hpublished, rfl⟩

/-! ## The temporary directory -/

/-- The directory stands beside the output. -/
theorem reserve_ok {parent directory : Path} {start : String}
    (h : reserve w fs parent start = .ok directory) :
    fs directory = none ∧ directory.length = parent.length + 1 := by
  unfold reserve at h
  split at h
  · cases h
  · split at h
    · cases h
    · split at h
      · next k hfind =>
        cases h
        exact ⟨by simpa using List.find?_some hfind, by simp⟩
      · cases h

/-- A directory beside the output holds no file at the output, and is a prefix of it only if it is
the output. -/
theorem beside_output {directory : Path} {name : String}
    (hchecked : checkedPath fs output false = .ok ())
    (hlength : directory.length = output.dropLast.length + 1) :
    directory ++ [name] ≠ output ∧ (directory <+: output → directory = output) := by
  obtain ⟨hnew, hparent⟩ := checkedPath_new hchecked
  have hnonempty : output ≠ [] := by
    rintro rfl
    exact absurd (hnew.symm.trans hparent) (by simp)
  have hsame : directory.length = output.length := by
    rw [hlength, List.length_dropLast]
    have hpos := List.length_pos_of_ne_nil hnonempty
    omega
  constructor
  · intro heq
    have hlong := congrArg List.length heq
    rw [List.length_append, List.length_singleton] at hlong
    omega
  · exact fun hpre => hpre.eq_of_length hsame

/-- A result comes from the body, and the directory is gone. -/
theorem withTemporary_ok {σ : Type} {parent : Path} {start : String} {x : σ}
    {body : Files Bytes → Path → Files Bytes × Except Failure σ}
    (h : withTemporary w fs parent start body = (fs', .ok x)) :
    ∃ directory fs₁, reserve w fs parent start = .ok directory ∧
      body (fs.put directory .directory) directory = (fs₁, .ok x) ∧
      fs' = fs₁.removeTree directory := by
  unfold withTemporary at h
  split at h
  · cases h
  · next directory hreserve =>
    rcases hbody : body (fs.put directory .directory) directory with ⟨fs₁, r⟩
    rw [hbody] at h
    dsimp only at h
    split at h
    · cases h
    · cases h
      exact ⟨directory, fs₁, hreserve, hbody, rfl⟩

theorem writeNew_ok {path : Path} {payload : Bytes}
    (h : writeNew w fs path payload = (fs', .ok ())) : fs' = fs.put path (.file payload) := by
  unfold writeNew at h
  split at h
  · cases h
  · cases h
    rfl

/-- The removal of the temporary directory leaves the output alone, unless it was the directory. -/
theorem noOutput_removeTree {directory : Path} : NoOutput w output fs (fs.removeTree directory) :=
  fun _ h => .inl (Files.of_removeTree h)

theorem openInput_ok {path : Path} {content : Bytes} (h : openInput w fs path = .ok content) :
    fs path = some (.file content) := by
  unfold openInput at h
  split at h
  · cases h
  · split at h
    · next hfile =>
      cases h
      exact hfile
    · cases h

/-- What `restoreIn` did survives the removal of its directory. -/
theorem withTemporary_restoreIn {payload : Bytes} {created : Int} {reviewedUsers : List String}
    (hchecked : checkedPath fs output false = .ok ()) {r : Files Bytes × Except Failure Report}
    (h : withTemporary w fs output.dropLast "scap-restore-"
      (restoreIn sqlite w m payload created reviewedUsers output) = r) :
    (∃ db db' counts, Restored sqlite m reviewedUsers payload db db' counts ∧ w.appears = none ∧
      r.1 output = some (.file (sqlite.write db')) ∧
      (w.fails .rmtree = false → r.2 = .ok ⟨created, counts⟩)) ∨
    (∃ e, r.2 = .error e) ∧ NoOutput w output fs r.1 := by
  unfold withTemporary at h
  split at h
  · cases h
    exact .inr ⟨⟨_, rfl⟩, .refl w output fs⟩
  · next directory hreserve =>
    obtain ⟨hdirectory, hpre⟩ := beside_output hchecked (reserve_ok hreserve).2
    have hcases := restoreIn_cases sqlite w m payload created reviewedUsers
      (fs.put directory .directory) hdirectory
    rcases hbody : restoreIn sqlite w m payload created reviewedUsers output
      (fs.put directory .directory) directory with ⟨fs₁, result⟩
    rw [hbody] at hcases h
    rcases hcases with ⟨db, db', counts, hrestored, hempty, happears, hfile, hok⟩ | ⟨⟨e, he⟩, hnone⟩
    · left
      -- the output is empty beside the directory, so that it is not the directory
      have hne : ¬ directory <+: output := by
        intro hin
        obtain rfl := hpre hin
        rw [Files.put_self] at hempty
        cases hempty
      refine ⟨db, db', counts, hrestored, happears, ?_⟩
      dsimp only at h hok
      split at h
      · next hfails =>
        subst h
        exact ⟨hfile, fun hclean => absurd hfails (by simp [hclean])⟩
      · subst h
        exact ⟨(Files.removeTree_of_not_prefix hne).trans hfile, fun _ => hok⟩
    · right
      have hbefore : NoOutput w output fs fs₁ := noOutput_put_directory.trans hnone
      dsimp only at h he
      split at h
      · subst h
        exact ⟨⟨_, rfl⟩, hbefore⟩
      · subst h
        exact ⟨⟨e, he⟩, hbefore.trans noOutput_removeTree⟩

/-- **A restore publishes a sanitised database where nothing stood, or puts no file at the
output.** -/
theorem restoreDatabase_cases (fs : Files Bytes) (archive output : Path) (passphrase : String)
    (reviewedUsers : List String) :
    (∃ content payload created db db' counts, fs archive = some (.file content) ∧
      decryptArchive gcm argon2 passphrase content.length content = .ok (payload, created) ∧
      Restored sqlite m reviewedUsers payload db db' counts ∧ fs output = none ∧ w.appears = none ∧
      (restoreDatabase gcm argon2 sqlite w m fs archive output passphrase reviewedUsers).1 output =
        some (.file (sqlite.write db')) ∧
      (w.fails .rmtree = false →
        (restoreDatabase gcm argon2 sqlite w m fs archive output passphrase reviewedUsers).2 =
          .ok ⟨created, counts⟩)) ∨
    (∃ e, (restoreDatabase gcm argon2 sqlite w m fs archive output passphrase reviewedUsers).2 =
      .error e) ∧ NoOutput w output fs
        (restoreDatabase gcm argon2 sqlite w m fs archive output passphrase reviewedUsers).1 := by
  have hrefl := NoOutput.refl w output fs
  unfold restoreDatabase
  cases checkedPath fs archive true with
  | error e => exact .inr ⟨⟨e, rfl⟩, hrefl⟩
  | ok _ =>
      cases hchecked : checkedPath fs output false with
      | error e => exact .inr ⟨⟨e, rfl⟩, hrefl⟩
      | ok _ =>
          dsimp only
          cases hopen : openInput w fs archive with
          | error e => exact .inr ⟨⟨e, rfl⟩, hrefl⟩
          | ok content =>
              dsimp only
              cases hdecrypt : decryptArchive gcm argon2 passphrase content.length content with
              | error e => exact .inr ⟨⟨e, rfl⟩, hrefl⟩
              | ok opened =>
                  obtain ⟨payload, created⟩ := opened
                  rcases withTemporary_restoreIn hchecked rfl with
                    ⟨db, db', counts, hrestored, happears, hfile, hok⟩ | hnone
                  · exact .inl ⟨content, payload, created, db, db', counts, openInput_ok hopen,
                      hdecrypt, hrestored, (checkedPath_new hchecked).1, happears, hfile, hok⟩
                  · exact .inr hnone

/-- Where something stands, nothing is restored. -/
theorem restoreDatabase_of_some {archive : Path} {passphrase : String} {reviewedUsers : List String}
    {e : Entry Bytes} (h : fs output = some e) :
    ∃ f, restoreDatabase gcm argon2 sqlite w m fs archive output passphrase reviewedUsers =
      (fs, .error f) := by
  unfold restoreDatabase
  cases checkedPath fs archive true with
  | error f => exact ⟨f, rfl⟩
  | ok _ =>
      cases hchecked : checkedPath fs output false with
      | error f => exact ⟨f, rfl⟩
      | ok _ =>
          rw [(checkedPath_new hchecked).1] at h
          cases h

/-- A file that is rejected is rejected before anything is created. -/
theorem restoreDatabase_of_rejected {archive : Path} {passphrase : String}
    {reviewedUsers : List String} {content : Bytes} (hfile : fs archive = some (.file content))
    (h : ∀ size, ∃ e, decryptArchive gcm argon2 passphrase size content = .error e) :
    ∃ e, restoreDatabase gcm argon2 sqlite w m fs archive output passphrase reviewedUsers =
      (fs, .error e) := by
  unfold restoreDatabase
  cases checkedPath fs archive true with
  | error f => exact ⟨f, rfl⟩
  | ok _ =>
      cases checkedPath fs output false with
      | error f => exact ⟨f, rfl⟩
      | ok _ =>
          dsimp only
          cases hopen : openInput w fs archive with
          | error f => exact ⟨f, rfl⟩
          | ok content' =>
              obtain rfl : content' = content := by
                rw [openInput_ok hopen] at hfile
                cases hfile
                rfl
              obtain ⟨e, he⟩ := h content'.length
              dsimp only
              rw [he]
              exact ⟨e, rfl⟩

/-- What the other command publishes is the archive of its run. -/
theorem backupDatabase_publishes {database : Path} {run : Run} {created : Int}
    (h : backupDatabase gcm argon2 w fs database output run = (fs', .ok created)) :
    created = run.created ∧ ∃ archive, backupArchive gcm argon2 run = .ok archive ∧
      fs output = none ∧ fs' output = some (.file archive) := by
  unfold backupDatabase at h
  cases hpassphrase : passphraseBytes run.passphrase with
  | error e =>
      rw [hpassphrase] at h
      cases h
  | ok bs =>
      cases hdatabase : checkedPath fs database true with
      | error e =>
          rw [hpassphrase, hdatabase] at h
          cases h
      | ok _ =>
          cases hchecked : checkedPath fs output false with
          | error e =>
              rw [hpassphrase, hdatabase, hchecked] at h
              cases h
          | ok _ =>
              rw [hpassphrase, hdatabase, hchecked] at h
              obtain ⟨directory, fs₁, hreserve, hbody, rfl⟩ := withTemporary_ok h
              obtain ⟨hdirectory, hpre⟩ := beside_output hchecked (reserve_ok hreserve).2
              split at hbody
              · cases hbody
              · next archive harchive =>
                split at hbody
                · cases hbody
                · next fs₂ hwrite =>
                  split at hbody
                  · cases hbody
                  · next fs₃ hpublish =>
                    cases hbody
                    obtain ⟨hempty, -, hfile⟩ := publishNew_ok hpublish
                    obtain rfl := writeNew_ok hwrite
                    rw [Files.put_of_ne hdirectory.symm] at hempty
                    rw [Files.put_self] at hfile
                    refine ⟨rfl, archive, harchive, (checkedPath_new hchecked).1, ?_⟩
                    rw [Files.removeTree_of_not_prefix, hfile]
                    intro hin
                    obtain rfl := hpre hin
                    rw [Files.put_self] at hempty
                    cases hempty

/-- **A restored database is sanitised, and a restore that fails leaves none.** What stands at the
output path stays there, and what another process puts there makes the restore fail. -/
theorem restore_sanitises (gcm : Gcm) (argon2 : Bytes → Bytes → Bytes) (sqlite : Sqlite ρ)
    (w : World) (m : Moment) (fs : Files Bytes) (archive output : Path) (passphrase : String)
    (reviewedUsers : List String) :
    let r := restoreDatabase gcm argon2 sqlite w m fs archive output passphrase reviewedUsers
    ((∃ content payload created db db', fs archive = some (.file content) ∧
        decryptArchive gcm argon2 passphrase content.length content = .ok (payload, created) ∧
        sqlite.read payload = some db ∧ Sanitised reviewedUsers m.time db db' ∧
        fs output = none ∧ w.appears = none ∧ r.1 output = some (.file (sqlite.write db'))) ∨
      (∃ e, r.2 = .error e) ∧ NoOutput w output fs r.1) ∧
    (∀ e, fs output = some e → r.1 output = some e ∧ ∃ f, r.2 = .error f) ∧
    ∀ e, w.appears = some e → ∃ f, r.2 = .error f := by
  intro r
  refine ⟨?_, ?_, ?_⟩
  · rcases restoreDatabase_cases fs archive output passphrase reviewedUsers with
      ⟨content, payload, created, db, db', counts, hfile, hdecrypt, ⟨hread, hrevoked⟩, hnew,
        happears, hpublished, -⟩ | hnone
    · exact .inl ⟨content, payload, created, db, db', hfile, hdecrypt, hread,
        sanitised_of_revoke sqlite hrevoked, hnew, happears, hpublished⟩
    · exact .inr hnone
  · intro e he
    obtain ⟨f, hf⟩ : ∃ f, r = (fs, .error f) := restoreDatabase_of_some he
    rw [hf]
    exact ⟨he, f, rfl⟩
  · intro e he
    rcases restoreDatabase_cases fs archive output passphrase reviewedUsers with
      ⟨-, -, -, -, -, -, -, -, -, -, happears, -⟩ | ⟨hfailed, -⟩
    · rw [he] at happears
      cases happears
    · exact hfailed

/-- **The archive is canonical**: what the writer produced opens to its payload and its time, if
there is such a time, and nothing else gets as far as to touch the file system. -/
theorem archive_canonical {runs : Set Run} {passphrases : Set String}
    (hideal : gcm.IdealOn (sealedBy argon2 runs)) (hargon : CollisionFree argon2 passphrases)
    (huse : ∀ run ∈ runs, run.passphrase ∈ passphrases) :
    (∀ run ∈ runs, ∀ archive, backupArchive gcm argon2 run = .ok archive →
      1 ≤ run.created → run.created ≤ maxCreated →
      decryptArchive gcm argon2 run.passphrase archive.length archive =
        .ok (run.source.image.bytes, run.created)) ∧
    ∀ passphrase ∈ passphrases, ∀ content,
      (¬ ∃ run ∈ runs, run.passphrase = passphrase ∧ backupArchive gcm argon2 run = .ok content) →
      (∀ size, ∃ e, decryptArchive gcm argon2 passphrase size content = .error e) ∧
      ∀ (sqlite : Sqlite ρ) (w : World) (m : Moment) (fs : Files Bytes) (archive output : Path)
        (reviewedUsers : List String), fs archive = some (.file content) →
        ∃ e, restoreDatabase gcm argon2 sqlite w m fs archive output passphrase reviewedUsers =
          (fs, .error e) := by
  constructor
  · intro run hrun archive h hlow hhigh
    exact (decryptArchive_of_backupArchive hideal hrun h).mpr ⟨hlow, hhigh⟩
  · intro passphrase hpassphrase content hforeign
    have hrejected : ∀ size, ∃ e, decryptArchive gcm argon2 passphrase size content = .error e := by
      intro size
      cases h : decryptArchive gcm argon2 passphrase size content with
      | error e => exact ⟨e, rfl⟩
      | ok opened =>
          obtain ⟨run, hrun, hsame, harchive, -⟩ :=
            backupArchive_of_decryptArchive hideal hargon huse hpassphrase h
          exact absurd ⟨run, hrun, hsame, harchive⟩ hforeign
    refine ⟨hrejected, ?_⟩
    intro sqlite w m fs archive output reviewedUsers hfile
    exact restoreDatabase_of_rejected hfile hrejected

/-! ## A run -/

/-- A run at a time, of the smallest image. -/
def sampleRun (created : Int) : Run where
  passphrase := "a passphrase for backups"
  source := { size := 16, image := ⟨sqliteMagic, List.prefix_refl _⟩, failure := none }
  created := created
  draw := ⟨List.replicate 16 0, List.replicate 12 0, List.length_replicate, List.length_replicate⟩

def sampleArgon2 (passphrase salt : Bytes) : Bytes := passphrase ++ salt

/-- The scheme that knows what the run encrypts and nothing else. -/
def sampleGcm (run : Run) : Gcm where
  toCipher := Cipher.ofLog (fun _ _ _ p => p ++ List.replicate tagBytes 0)
    (run.sealed sampleArgon2).toList
  tag k n a p := by
    show (p ++ List.replicate tagBytes 0).length = p.length + tagBytes
    rw [List.length_append, List.length_replicate]

theorem idealOn_sampleGcm (run : Run) :
    (sampleGcm run).IdealOn (sealedBy sampleArgon2 {run}) := by
  have hlog : sealedBy sampleArgon2 {run} = {q | q ∈ (run.sealed sampleArgon2).toList} := by
    ext q
    rw [Set.mem_ofPred_eq, Option.mem_toList]
    constructor
    · rintro ⟨_, rfl, hq⟩
      exact hq
    · exact fun hq => ⟨run, rfl, hq⟩
  rw [hlog]
  exact Cipher.idealOn_ofLog _ fun _ _ _ _ _ h => List.append_cancel_right h

theorem collisionFree_sampleArgon2 (passphrases : Set String) :
    CollisionFree sampleArgon2 passphrases :=
  fun _ _ _ _ _ h => utf8_injective (List.append_cancel_right h)

/-- A run that encrypts something writes an archive. -/
theorem written_sampleRun (created : Int)
    (h : ((sampleRun created).sealed sampleArgon2).isSome) :
    ∃ archive, backupArchive (sampleGcm (sampleRun created)) sampleArgon2 (sampleRun created) =
      .ok archive := by
  obtain ⟨q, hq⟩ := Option.isSome_iff_exists.mp h
  exact ⟨_, backupArchive_eq_ok.mpr ⟨q, hq, rfl⟩⟩

/-- An archive that is written in the first second of the epoch is never restored. -/
theorem archive_of_epoch : (sampleGcm (sampleRun 0)).IdealOn (sealedBy sampleArgon2 {sampleRun 0}) ∧
    ∃ archive, backupArchive (sampleGcm (sampleRun 0)) sampleArgon2 (sampleRun 0) = .ok archive ∧
      decryptArchive (sampleGcm (sampleRun 0)) sampleArgon2 (sampleRun 0).passphrase archive.length
        archive ≠ .ok ((sampleRun 0).source.image.bytes, 0) := by
  have hideal := idealOn_sampleGcm (sampleRun 0)
  obtain ⟨archive, harchive⟩ := written_sampleRun 0 (by decide +kernel)
  refine ⟨hideal, archive, harchive, ?_⟩
  intro hopen
  have htime := (decryptArchive_of_backupArchive hideal rfl harchive).mp hopen
  exact absurd htime.1 (by decide)

theorem archive_canonical_sample :
    ∃ archive, backupArchive (sampleGcm (sampleRun 1767225600)) sampleArgon2
      (sampleRun 1767225600) = .ok archive ∧
    decryptArchive (sampleGcm (sampleRun 1767225600)) sampleArgon2 "a passphrase for backups"
      archive.length archive = .ok (sqliteMagic, 1767225600) ∧
    ∃ e, decryptArchive (sampleGcm (sampleRun 1767225600)) sampleArgon2 "a passphrase for backups"
      (archive ++ [0]).length (archive ++ [0]) = .error e := by
  obtain ⟨archive, harchive⟩ := written_sampleRun 1767225600 (by decide +kernel)
  obtain ⟨hround, hrejected⟩ := archive_canonical (ρ := Unit)
    (idealOn_sampleGcm (sampleRun 1767225600))
    (collisionFree_sampleArgon2 {(sampleRun 1767225600).passphrase}) (by rintro _ rfl; rfl)
  refine ⟨archive, harchive, hround _ rfl archive harchive (by decide) (by decide), ?_⟩
  refine (hrejected _ rfl (archive ++ [0]) ?_).1 _
  rintro ⟨_, rfl, -, hlonger⟩
  rw [harchive] at hlonger
  simpa using Except.ok.inj hlonger

/-- Two accounts, of which one is reviewed, and a challenge. -/
def sampleDatabase : Database Unit where
  objects := schema.map fun t => ("table", t.1)
  columns table := ((schema.find? fun t => t.1 = table).map Prod.snd).getD []
  users := ⟨[("a", ⟨"alice", .int 7, true, 0, ()⟩), ("b", ⟨"bob", .int 9, false, 3, ()⟩)], by decide⟩
  authSessions := []
  mfaRecoveryCodes := []
  accountRecoveryCodes := []
  preKeys := []
  webauthnChallenges := [()]
  deviceChallenges := []
  others := []

def sampleSqlite : Sqlite Unit where
  read := fun _ => some sampleDatabase
  write := fun _ => sqliteMagic
  integrityCheck := fun _ _ => ["ok"]
  foreignKeyCheck := fun _ _ => false
  interrupted := fun _ => false

/-- Nothing fails, and nobody else is at work. -/
def calmWorld : World := ⟨false, fun _ => "0", fun _ => false, none⟩

/-- A private directory with the archive of the run. -/
def sampleFiles : Files Bytes := fun path =>
  if path = ["private"] then some .directory
  else if path = ["private", "archive"] then
    match backupArchive (sampleGcm (sampleRun 1767225600)) sampleArgon2 (sampleRun 1767225600) with
    | .ok archive => some (.file archive)
    | .error _ => none
  else none

-- a restore that publishes, of which the reviewed account alone is active
example : (restoreDatabase (sampleGcm (sampleRun 1767225600)) sampleArgon2 sampleSqlite calmWorld
    ⟨"2026-01-01 00:00:00.000000", 1767225600, fun _ => 5⟩ sampleFiles ["private", "archive"]
    ["private", "restored"] "a passphrase for backups" ["alice"]).2 =
    .ok ⟨1767225600, ⟨2, 1, 1, 0, 0, 0, 0, 1⟩⟩ := by decide +kernel

end Scap.Backup
