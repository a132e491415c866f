import Scap.Backup.Restore
import Scap.Lib.Run

/-!
# Restoring again

What a restore has published is backed up and restored again. A restore accepts the token versions
that leave room for `2 ^ 32` revocations, but it draws the new ones from all that are larger, the
last `2 ^ 32` of the column among them.

* `repeatable_iff` — what the next restore asks of a database;
* `restore_repeatable_iff` — in every run of restores, each leaves a database for the next one just
  when it draws no version that takes the room.
-/

namespace Scap.Backup

open Scap.Py Scap.Lib

variable {ρ : Type}

/-! ## Revocations -/

/-- `token_version += 1`. -/
def Stored.succ : Stored → Stored
  | .int n => .int (n + 1)
  | .other text => .other text

/-- A call of `revoke_all_auth_sessions`. -/
structure Revocation (ρ : Type) where
  userId : String
  now : String
  /-- The sessions of the account. -/
  owned : AuthSession ρ → Bool

/-- `revoke_all_auth_sessions`. -/
def revokeAllAuthSessions (db : Database ρ) (a : Revocation ρ) : Database ρ :=
  { db with
    authSessions := db.authSessions.map fun x =>
      if a.owned x && x.revokedAt.isNone then { x with revokedAt := some a.now } else x
    users := db.users.mapValues fun r =>
      if r.1 = a.userId then { r.2 with tokenVersion := r.2.tokenVersion.succ } else r.2 }

variable {db db' : Database ρ} {as : List (Revocation ρ)} {r r' : String × User ρ} {v : Int}

/-- An account counts its revocations. -/
theorem version_of_revocations (h : r' ∈ (as.foldl revokeAllAuthSessions db).users.rows) :
    ∃ r ∈ db.users.rows, r'.1 = r.1 ∧ ∀ v, r.2.tokenVersion = .int v →
      r'.2.tokenVersion = .int (v + (as.map Revocation.userId).count r.1) := by
  induction as generalizing db with
  | nil => exact ⟨r', h, rfl, fun v hv => by simpa using hv⟩
  | cons a as ih =>
      obtain ⟨r₁, hr₁, hid, hversion⟩ := ih h
      obtain ⟨r, hr, rfl⟩ := List.mem_map.mp hr₁
      refine ⟨r, hr, hid, fun v hv => ?_⟩
      by_cases hsame : r.1 = a.userId
      · have hnext := hversion (v + 1) (by simp [hsame, hv, Stored.succ])
        rw [hnext, List.map_cons, hsame, List.count_cons_self]
        push_cast
        congr 1
        omega
      · have hnext := hversion v (by simp [hsame, hv])
        rw [hnext, List.map_cons, List.count_cons_of_ne (Ne.symm hsame)]

/-! ## The next restore -/

/-- The range that a restore accepts. -/
def Stored.InRange (x : Stored) : Prop :=
  ∃ v, x = .int v ∧ 0 ≤ v ∧ v ≤ maxSqliteInteger - 2 ^ 32

/-- A restore goes through the versions just when all are in range. -/
theorem exists_bumpVersions {draw : String → Nat} {entries : List (String × Stored)}
    {users : OrderedDict String (User ρ)} :
    (∃ users', bumpVersions draw entries users = .ok users') ↔ ∀ x ∈ entries, x.2.InRange := by
  induction entries generalizing users with
  | nil => simp [bumpVersions]
  | cons entry entries ih =>
      obtain ⟨userId, stored⟩ := entry
      rw [List.forall_mem_cons]
      cases stored with
      | other text => simp [bumpVersions, Stored.InRange]
      | int version =>
          unfold bumpVersions
          split
          · next hrange =>
            rw [ih]
            exact (and_iff_right ⟨version, rfl, hrange⟩).symm
          · next hrange =>
            constructor
            · rintro ⟨users', ⟨⟩⟩
            · rintro ⟨⟨v, hv, hrange'⟩, -⟩
              cases hv
              exact absurd hrange' hrange

/-- A database that can be restored again, and whose versions a column of 64 bits can still
count. -/
structure Repeatable (db : Database ρ) : Prop where
  accepted : ∀ draw, ∃ users, bumpVersions draw
    (db.users.rows.map fun r => (r.1, r.2.tokenVersion)) db.users = .ok users
  counts : ∀ as : List (Revocation ρ), (∀ id, (as.map Revocation.userId).count id ≤ 2 ^ 32) →
    ∀ r ∈ (as.foldl revokeAllAuthSessions db).users.rows,
      ∃ v, r.2.tokenVersion = .int v ∧ v ≤ maxSqliteInteger

/-- The room that is asked for is what the revocations need. -/
theorem repeatable_iff : Repeatable db ↔ ∀ r ∈ db.users.rows, r.2.tokenVersion.InRange := by
  have haccepted : ∀ draw, (∃ users, bumpVersions draw
      (db.users.rows.map fun r => (r.1, r.2.tokenVersion)) db.users = .ok users) ↔
        ∀ r ∈ db.users.rows, r.2.tokenVersion.InRange := by
    intro draw
    rw [exists_bumpVersions, List.forall_mem_map]
  constructor
  · intro h
    exact (haccepted fun _ => 0).mp (h.accepted _)
  · intro h
    refine ⟨fun draw => (haccepted draw).mpr h, fun as hcount r' hr' => ?_⟩
    obtain ⟨r, hr, -, hversion⟩ := version_of_revocations hr'
    obtain ⟨v, hv, -, hle⟩ := h r hr
    have hfew : ((as.map Revocation.userId).count r.1 : Int) ≤ 2 ^ 32 := by
      exact_mod_cast hcount r.1
    exact ⟨_, hversion v hv, by omega⟩

/-! ## Runs -/

/-- The arguments of a restore, and SQLite as it finds it. -/
structure RestoreCall (ρ : Type) where
  sqlite : Sqlite ρ
  moment : Moment
  reviewedUsers : List String

/-- Restores, each of what the last has left. -/
def restoreSystem : System (Database ρ) (RestoreCall ρ) where
  init _ := True
  step db a db' := ∃ counts,
    revokeRestoredCredentials a.sqlite a.moment a.reviewedUsers db = .ok (db', counts)

/-- No number that is drawn for an account takes the room of `2 ^ 32` versions. -/
def LowDraws (db : Database ρ) (a : RestoreCall ρ) : Prop :=
  ∀ r ∈ db.users.rows, ∀ v, r.2.tokenVersion = .int v →
    a.moment.draw r.1 % (maxSqliteInteger - v) < maxSqliteInteger - 2 ^ 32 - v

/-- The accounts are the same, and their versions have grown. -/
def Growing (db db' : Database ρ) : Prop :=
  List.Forall₂ (fun r r' => r'.1 = r.1 ∧
    ∃ v v', r.2.tokenVersion = .int v ∧ r'.2.tokenVersion = .int v' ∧ v < v')
    db.users.rows db'.users.rows

variable {a : RestoreCall ρ} {restores : List (RestoreCall ρ)} {counts : Counts} {m : Moment}
  {sqlite : Sqlite ρ} {reviewedUsers : List String}

/-- What has become of the versions. -/
theorem versions_of_revoke
    (h : revokeRestoredCredentials sqlite m reviewedUsers db = .ok (db', counts)) :
    List.Forall₂ (fun r r' => r'.1 = r.1 ∧ ∃ v, r.2.tokenVersion = .int v ∧ 0 ≤ v ∧
      v ≤ maxSqliteInteger - 2 ^ 32 ∧ r'.2.tokenVersion = .int (newVersion v (m.draw r.1)))
      db.users.rows db'.users.rows := by
  obtain ⟨-, -, h⟩ := bind_eq_ok.mp h
  dsimp only at h
  split at h
  · cases h
  · obtain ⟨ids, -, h⟩ := bind_eq_ok.mp h
    obtain ⟨users', hbump, h⟩ := bind_eq_ok.mp h
    obtain ⟨-, -, h⟩ := bind_eq_ok.mp h
    obtain ⟨rfl, -⟩ := Prod.mk.inj (Except.ok.inj h)
    have hrange := exists_bumpVersions.mp ⟨users', hbump⟩
    apply (restored_rows ids hbump).imp
    rintro r r' ⟨hr, v, hv, -, rfl⟩
    obtain ⟨v', hv', hpos, hle⟩ := hrange _ (List.mem_map_of_mem hr)
    obtain rfl : v = v' := Stored.int.inj (hv.symm.trans hv')
    exact ⟨rfl, v, hv, hpos, hle, rfl⟩

theorem growing_of_step (h : restoreSystem.step db a db') : Growing db db' := by
  obtain ⟨counts, h⟩ := h
  apply (versions_of_revoke h).imp
  rintro r r' ⟨hid, v, hv, -, hle, hv'⟩
  exact ⟨hid, v, _, hv, hv', newVersion_gt hle _⟩

/-- A new version is in range just when its number is low. -/
theorem inRange_newVersion {v : Int} {k : Nat} (hpos : 0 ≤ v)
    (hle : v ≤ maxSqliteInteger - 2 ^ 32) : (Stored.int (newVersion v k)).InRange ↔
      k % (maxSqliteInteger - v) < maxSqliteInteger - 2 ^ 32 - v := by
  have hgt := newVersion_gt hle k
  have hnew : newVersion v k = v + 1 + k % (maxSqliteInteger - v) := rfl
  constructor
  · rintro ⟨v', hv', -, hle'⟩
    obtain rfl := Stored.int.inj hv'
    omega
  · intro hlow
    exact ⟨_, rfl, by omega, by omega⟩

/-- **One restore** leaves a database for the next one just when it draws low. -/
theorem repeatable_of_step (h : restoreSystem.step db a db') : Repeatable db' ↔ LowDraws db a := by
  obtain ⟨counts, h⟩ := h
  have hversions := versions_of_revoke h
  rw [repeatable_iff]
  constructor
  · intro hrange r hr v hv
    obtain ⟨r', hr', -, v', hv', hpos, hle, hnew⟩ := exists_of_forall₂ hversions hr
    obtain rfl : v = v' := Stored.int.inj (hv.symm.trans hv')
    apply (inRange_newVersion hpos hle).mp
    rw [← hnew]
    exact hrange r' hr'
  · intro hlow r' hr'
    obtain ⟨r, hr, -, v, hv, hpos, hle, hnew⟩ := exists_of_forall₂ hversions.flip hr'
    rw [hnew]
    exact (inRange_newVersion hpos hle).mpr (hlow r hr v hv)

theorem restoreSystem_deterministic (s : Database ρ) (a : RestoreCall ρ) (t u : Database ρ)
    (h : restoreSystem.step s a t) (h' : restoreSystem.step s a u) : t = u := by
  obtain ⟨counts, h⟩ := h
  obtain ⟨counts', h'⟩ := h'
  exact (Prod.mk.inj (Except.ok.inj (h.symm.trans h'))).1

/-- **Restore after restore.** In every run the versions of all accounts grow with each restore.
Each restore leaves a database that the next one accepts, with room for `2 ^ 32` revocations of each
account, just when each draws none of the last `2 ^ 32` versions. -/
theorem restore_repeatable_iff (hrun : restoreSystem.Run db restores db') :
    (∀ before a s t, before ++ [a] <+: restores → restoreSystem.Run db before s →
      restoreSystem.step s a t → Growing s t ∧ Repeatable t) ↔
    (restoreSystem.restrict LowDraws).Run db restores db' := by
  induction hrun with
  | nil =>
      refine iff_of_true (fun before a s t hpre => ?_) System.Run.nil
      exact absurd (List.prefix_nil.mp hpre) (by simp)
  | @snoc restores a t u hrun hlast ih =>
      rw [hrun.restrict_snoc restoreSystem_deterministic hlast, ← ih,
        ← repeatable_of_step hlast]
      constructor
      · intro hall
        refine ⟨fun before b s t hpre => hall before b s t (hpre.trans ?_), ?_⟩
        · exact List.prefix_append _ _
        · exact (hall restores a t u (List.prefix_refl _) hrun hlast).2
      · rintro ⟨hall, hu⟩ before b s t' hpre hbefore hstep
        rcases List.prefix_concat_iff.mp hpre with hsame | hpre
        · -- the last restore
          obtain ⟨rfl, hlabel⟩ := List.append_inj' hsame rfl
          obtain rfl := List.singleton_inj.mp hlabel
          obtain rfl := hbefore.deterministic restoreSystem_deterministic hrun
          obtain rfl := restoreSystem_deterministic _ _ _ _ hstep hlast
          exact ⟨growing_of_step hlast, hu⟩
        · exact hall before b s t' hpre hbefore hstep

/-! ### Two restores -/

/-- A restore that draws one number for each account. -/
def sampleRestore (draw : String → Nat) : RestoreCall Unit where
  sqlite := sampleSqlite
  moment := ⟨"2026-01-01 00:00:00.000000", 1767225600, draw⟩
  reviewedUsers := []

theorem exists_sampleRestore (draw : String → Nat)
    (h : (revokeRestoredCredentials sampleSqlite (sampleRestore draw).moment []
      sampleDatabase).isOk) :
    ∃ db, restoreSystem.step sampleDatabase (sampleRestore draw) db := by
  cases hrevoke : revokeRestoredCredentials sampleSqlite (sampleRestore draw).moment []
      sampleDatabase with
  | error e =>
      rw [hrevoke] at h
      cases h
  | ok result => exact ⟨result.1, result.2, hrevoke⟩

theorem restore_repeatable_sample :
    ∃ db, restoreSystem.step sampleDatabase (sampleRestore fun _ => 5) db ∧ Repeatable db := by
  obtain ⟨db, hstep⟩ := exists_sampleRestore (fun _ => 5) (by decide +kernel)
  have hlow : LowDraws sampleDatabase (sampleRestore fun _ => 5) := by
    intro r hr v hv
    rcases List.mem_cons.mp hr with rfl | hr
    · obtain rfl := Stored.int.inj hv
      decide
    · obtain rfl := List.mem_singleton.mp hr
      obtain rfl := Stored.int.inj hv
      decide
  have hrun : (restoreSystem.restrict LowDraws).Run sampleDatabase [sampleRestore fun _ => 5] db :=
    .single ⟨hstep, hlow⟩
  have hall := (restore_repeatable_iff (.single hstep)).mpr hrun
  exact ⟨db, hstep, (hall [] _ _ _ (List.prefix_refl _) System.Run.nil hstep).2⟩

/-- The largest number is drawn for both accounts of the sample. -/
def highDraw (id : String) : Nat := if id = "a" then 2 ^ 63 - 9 else 2 ^ 63 - 11

/-- A restored database that no restore accepts, and whose versions cannot be incremented. -/
theorem restored_only_once :
    ∃ db, restoreSystem.step sampleDatabase (sampleRestore highDraw) db ∧
      (∀ a db', ¬ restoreSystem.step db a db') ∧
      ∀ r ∈ db.users.rows, r.2.tokenVersion = .int maxSqliteInteger := by
  obtain ⟨db, counts, h⟩ := exists_sampleRestore highDraw (by decide +kernel)
  have hversions : ∀ r ∈ db.users.rows, r.2.tokenVersion = .int maxSqliteInteger := by
    intro r' hr'
    obtain ⟨r, hr, -, v, hv, -, -, hnew⟩ := exists_of_forall₂ (versions_of_revoke h).flip hr'
    rw [hnew]
    rcases List.mem_cons.mp hr with rfl | hr
    · obtain rfl := Stored.int.inj hv
      decide
    · obtain rfl := List.mem_singleton.mp hr
      obtain rfl := Stored.int.inj hv
      decide
  refine ⟨db, ⟨counts, h⟩, ?_, hversions⟩
  rintro a db' ⟨counts', h'⟩
  obtain ⟨r, hr, -⟩ := exists_of_forall₂ (versions_of_revoke h)
    (x := ("a", ⟨"alice", .int 7, true, 0, ()⟩)) List.mem_cons_self
  obtain ⟨-, -, -, v, hv, -, hle, -⟩ := exists_of_forall₂ (versions_of_revoke h') hr
  obtain rfl := Stored.int.inj ((hversions r hr).symm.trans hv)
  exact absurd hle (by decide)

end Scap.Backup
