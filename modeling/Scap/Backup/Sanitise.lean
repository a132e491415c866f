import Mathlib.Algebra.Group.Int.Defs
import Scap.Backup.Archive
import Scap.Lib.Except
import Scap.Py.OrderedDict

/-!
# The credentials of a restored database

`_revoke_restored_credentials` on the tables of the schema. A row keeps the columns that the
statements name, and `ρ` is the rest of it; the tables that no statement names, the audit log among
them, are `others`. SQLite itself, which reads and writes the file and checks its integrity, is a
parameter.

The transaction rolls back when it raises, so that an error leaves the database as it was.
-/

namespace Scap.Backup

open Scap.Py Scap.Lib

/-! ## Tables -/

/-- What SQLite stores in a column of integer affinity. -/
inductive Stored where
  | int (n : Int)
  | other (text : String)
  deriving DecidableEq, Repr

structure User (ρ : Type) where
  username : String
  tokenVersion : Stored
  isActive : Bool
  mfaLastCounter : Int
  rest : ρ

structure AuthSession (ρ : Type) where
  revokedAt : Option String
  lastStepUpAt : Option String
  rest : ρ

/-- A recovery code or a prekey: `used_at`, or `consumed_at`. -/
structure OneTime (ρ : Type) where
  usedAt : Option String
  rest : ρ

structure Database (ρ : Type) where
  /-- The types and names of `sqlite_schema`. -/
  objects : List (String × String)
  columns : String → List String
  users : OrderedDict String (User ρ)
  authSessions : List (AuthSession ρ)
  mfaRecoveryCodes : List (OneTime ρ)
  accountRecoveryCodes : List (OneTime ρ)
  preKeys : List (OneTime ρ)
  webauthnChallenges : List ρ
  deviceChallenges : List ρ
  others : List (String × List ρ)

/-- SQLite: a file as a database, and the checks, of which each restore makes two. -/
structure Sqlite (ρ : Type) where
  read : Bytes → Option (Database ρ)
  write : Database ρ → Bytes
  integrityCheck : Nat → Database ρ → List String
  foreignKeyCheck : Nat → Database ρ → Bool
  /-- The progress handler stops a check after its deadline. -/
  interrupted : Nat → Bool

/-! ## Validation -/

/-- `_SCHEMA`. -/
def schema : List (String × List String) := [
  ("users", ["id", "username", "token_version", "is_active", "mfa_last_counter"]),
  ("auth_sessions", ["jti", "revoked_at", "last_step_up_at"]),
  ("mfa_recovery_codes", ["used_at"]),
  ("account_recovery_codes", ["consumed_at"]),
  ("webauthn_challenges", ["id"]),
  ("e2ee_device_challenges", ["id"]),
  ("e2ee_prekeys", ["consumed_at"]),
  ("audit_events", ["entry_hash", "prev_hash"]),
  ("chat_sessions", ["wrapped_dek", "kek_version"]),
  ("session_key_epochs", ["wrapped_dek", "kek_version"])]

variable {ρ : Type} (sqlite : Sqlite ρ)

/-- `_validate_sqlite`, the `k`-th time. -/
def validateSqlite (k : Nat) (db : Database ρ) : Except Failure Unit :=
  if sqlite.interrupted k then .error .database
  else if sqlite.integrityCheck k db ≠ ["ok"] then
    .error (.backup "SQLite integrity validation failed.")
  else if sqlite.foreignKeyCheck k db then
    .error (.backup "SQLite foreign-key validation failed.")
  else if db.objects.any fun o => o.1 ∈ ["trigger", "view"] then
    .error (.backup "Database contains unsupported triggers or views.")
  else if schema.all fun (table, required) =>
      ("table", table) ∈ db.objects && required.all (· ∈ db.columns table) then .ok ()
  else .error (.backup "Database does not match the supported SCAP schema.")

/-! ## Statements -/

def maxSqliteInteger : Int := 2 ^ 63 - 1

/-- `version + 1 + secrets.randbelow(_MAX_SQLITE_INTEGER - version)`, of a random number `r`. -/
def newVersion (version : Int) (r : Nat) : Int := version + 1 + r % (maxSqliteInteger - version)

/-- `UPDATE users SET token_version=? WHERE id=?` for each account, as long as the version that was
read is in range. -/
def bumpVersions (draw : String → Nat) : List (String × Stored) → OrderedDict String (User ρ) →
    Except Failure (OrderedDict String (User ρ))
  | [], users => .ok users
  | (userId, .int version) :: rest, users =>
    if 0 ≤ version ∧ version ≤ maxSqliteInteger - 2 ^ 32 then
      bumpVersions draw rest (users.mapValues fun r =>
        if r.1 = userId then { r.2 with tokenVersion := .int (newVersion version (draw userId)) }
        else r.2)
    else .error (.backup "Account token version is outside the supported restore range.")
  | (_, .other _) :: _, _ =>
    .error (.backup "Account token version is outside the supported restore range.")

/-- The ids of the reviewed accounts. -/
def reviewedIds (users : OrderedDict String (User ρ)) : List String → Except Failure (List String)
  | [] => .ok []
  | name :: names =>
    match users.rows.find? fun r => r.2.username = name with
    | none => .error (.backup "A reviewed account does not exist in this snapshot.")
    | some r =>
      match reviewedIds users names with
      | .error e => .error e
      | .ok ids => .ok (r.1 :: ids)

def OneTime.consume (now : String) (code : OneTime ρ) : OneTime ρ :=
  { code with usedAt := some (code.usedAt.getD now) }

def AuthSession.revoke (now : String) (session : AuthSession ρ) : AuthSession ρ :=
  { session with
    revokedAt := some (session.revokedAt.getD now)
    lastStepUpAt := none }

/-- `UPDATE users SET is_active=0`, and `SET is_active=1` for the reviewed accounts. -/
def activateReviewed (ids : List String) (users : OrderedDict String (User ρ)) :
    OrderedDict String (User ρ) :=
  users.mapValues fun r => { r.2 with isActive := r.1 ∈ ids }

/-- `SET mfa_last_counter=MAX(mfa_last_counter, ?)`. -/
def retireCounters (time : Int) (users : OrderedDict String (User ρ)) :
    OrderedDict String (User ρ) :=
  users.mapValues fun r => { r.2 with mfaLastCounter := max r.2.mfaLastCounter (time / 30 + 1) }

/-- What a restore reads besides its input: the time as text and in seconds, and the random number
for each account. -/
structure Moment where
  now : String
  time : Int
  draw : String → Nat

/-- The counts that are reported. -/
structure Counts where
  usersInvalidated : Nat
  usersQuarantined : Nat
  reviewedUsersActivated : Nat
  sessionsRevoked : Nat
  mfaRecoveryCodesConsumed : Nat
  accountRecoveryCodesConsumed : Nat
  preKeysRetired : Nat
  challengesRemoved : Nat
  deriving DecidableEq, Repr

/-- `_revoke_restored_credentials`. -/
def revokeRestoredCredentials (m : Moment) (reviewedUsers : List String) (db : Database ρ) :
    Except Failure (Database ρ × Counts) := do
  validateSqlite sqlite 0 db
  let versions := db.users.rows.map fun r => (r.1, r.2.tokenVersion)
  if ¬ reviewedUsers.Nodup ∨ reviewedUsers.any fun name => name.length = 0 || 64 < name.length then
    .error (.backup "Reviewed account names must be unique and contain 1-64 characters.")
  else
    let ids ← reviewedIds db.users reviewedUsers
    let users ← bumpVersions m.draw versions db.users
    let restored := { db with
      users := retireCounters m.time (activateReviewed ids users)
      authSessions := db.authSessions.map (·.revoke m.now)
      mfaRecoveryCodes := db.mfaRecoveryCodes.map (·.consume m.now)
      accountRecoveryCodes := db.accountRecoveryCodes.map (·.consume m.now)
      preKeys := db.preKeys.map (·.consume m.now)
      webauthnChallenges := []
      deviceChallenges := [] }
    validateSqlite sqlite 1 restored
    .ok (restored,
      { usersInvalidated := versions.length
        usersQuarantined := versions.length - ids.length
        reviewedUsersActivated := ids.length
        sessionsRevoked := db.authSessions.length
        mfaRecoveryCodesConsumed := db.mfaRecoveryCodes.length
        accountRecoveryCodesConsumed := db.accountRecoveryCodes.length
        preKeysRetired := db.preKeys.length
        challengesRemoved := db.webauthnChallenges.length + db.deviceChallenges.length })

/-! ## What it leaves -/

/-- The time steps whose codes are accepted at a time, `valid_window` being 1. -/
def Acceptable (time counter : Int) : Prop :=
  0 ≤ counter ∧ time / 30 - 1 ≤ counter ∧ counter ≤ time / 30 + 1

/-- An account before and after. -/
structure UserSanitised (reviewedUsers : List String) (time : Int) (r r' : String × User ρ) :
    Prop where
  id : r'.1 = r.1
  username : r'.2.username = r.2.username
  rest : r'.2.rest = r.2.rest
  active : r'.2.isActive = true → r.2.username ∈ reviewedUsers
  version : ∃ v v', r.2.tokenVersion = .int v ∧ r'.2.tokenVersion = .int v' ∧ v < v'
  counter : r.2.mfaLastCounter ≤ r'.2.mfaLastCounter ∧
    ∀ t ≤ time, ∀ c, Acceptable t c → c ≤ r'.2.mfaLastCounter

structure SessionSanitised (x x' : AuthSession ρ) : Prop where
  revoked : x'.revokedAt.isSome
  kept : x.revokedAt.isSome → x'.revokedAt = x.revokedAt
  stepUp : x'.lastStepUpAt = none
  rest : x'.rest = x.rest

structure CodeSanitised (x x' : OneTime ρ) : Prop where
  used : x'.usedAt.isSome
  kept : x.usedAt.isSome → x'.usedAt = x.usedAt
  rest : x'.rest = x.rest

/-- A database before and after. -/
structure Sanitised (reviewedUsers : List String) (time : Int) (db db' : Database ρ) : Prop where
  users : List.Forall₂ (UserSanitised reviewedUsers time) db.users.rows db'.users.rows
  reviewed : ∀ name ∈ reviewedUsers, ∃ r ∈ db'.users.rows, r.2.username = name ∧
    r.2.isActive = true
  authSessions : List.Forall₂ SessionSanitised db.authSessions db'.authSessions
  mfaRecoveryCodes : List.Forall₂ CodeSanitised db.mfaRecoveryCodes db'.mfaRecoveryCodes
  accountRecoveryCodes : List.Forall₂ CodeSanitised db.accountRecoveryCodes db'.accountRecoveryCodes
  preKeys : List.Forall₂ CodeSanitised db.preKeys db'.preKeys
  challenges : db'.webauthnChallenges = [] ∧ db'.deviceChallenges = []
  others : db'.others = db.others ∧ db'.objects = db.objects ∧ db'.columns = db.columns

/-! ## Accounts -/

variable {users users' : OrderedDict String (User ρ)} {draw : String → Nat}

theorem newVersion_gt {version : Int} (h : version ≤ maxSqliteInteger - 2 ^ 32) (r : Nat) :
    version < newVersion version r := by
  have hnonneg : 0 ≤ (r : Int) % (maxSqliteInteger - version) := by
    apply Int.emod_nonneg
    omega
  unfold newVersion
  omega

/-- An account after the statements for some entries. -/
def bumped (draw : String → Nat) (entries : List (String × Stored)) (r : String × User ρ) :
    User ρ :=
  match entries.find? fun x => x.1 = r.1 with
  | some (_, .int version) => { r.2 with tokenVersion := .int (newVersion version (draw r.1)) }
  | _ => r.2

/-- The first statement is about the account of its entry only. -/
theorem bumped_cons {userId : String} {version : Int} {entries : List (String × Stored)}
    (hnew : userId ∉ entries.map Prod.fst) (r : String × User ρ) :
    bumped draw ((userId, .int version) :: entries) r = bumped draw entries (r.1,
      if r.1 = userId then { r.2 with tokenVersion := .int (newVersion version (draw userId)) }
      else r.2) := by
  unfold bumped
  by_cases hr : r.1 = userId
  · have hnone : entries.find? (fun x => x.1 = userId) = none := by
      apply List.find?_eq_none.mpr
      intro x hx hkey
      exact hnew (List.mem_map.mpr ⟨x, hx, of_decide_eq_true hkey⟩)
    simp [hr, hnone]
  · rw [if_neg hr, List.find?_cons_of_neg (by simpa using Ne.symm hr)]

/-- Each account gets its own new version, if the versions read are all in range. -/
theorem bumpVersions_ok {entries : List (String × Stored)} (hnodup : (entries.map Prod.fst).Nodup)
    (h : bumpVersions draw entries users = .ok users') :
    users'.rows = users.rows.map (fun r => (r.1, bumped draw entries r)) ∧
      ∀ x ∈ entries, ∃ version, x.2 = .int version ∧ version ≤ maxSqliteInteger - 2 ^ 32 := by
  induction entries generalizing users with
  | nil =>
      obtain rfl := Except.ok.inj h
      exact ⟨(List.map_id _).symm, fun x hx => absurd hx List.not_mem_nil⟩
  | cons entry entries ih =>
      obtain ⟨userId, stored⟩ := entry
      obtain ⟨hnew, hrest⟩ := List.nodup_cons.mp hnodup
      cases stored with
      | other text => cases h
      | int version =>
          unfold bumpVersions at h
          split at h
          · next hrange =>
            obtain ⟨hrows, hentries⟩ := ih hrest h
            constructor
            · rw [hrows]
              show (users.rows.map _).map _ = _
              rw [List.map_map]
              apply List.map_congr_left
              intro r _
              exact congrArg (Prod.mk r.1) (bumped_cons hnew r).symm
            · intro x hx
              rcases List.mem_cons.mp hx with rfl | hx
              · exact ⟨version, rfl, hrange.2⟩
              · exact hentries x hx
          · cases h

/-- With the versions of the table itself, the entry of an account is its own. -/
theorem bumped_self {r : String × User ρ} {version : Int} (hr : r ∈ users.rows)
    (hversion : r.2.tokenVersion = .int version) :
    bumped draw (users.rows.map fun r => (r.1, r.2.tokenVersion)) r =
      { r.2 with tokenVersion := .int (newVersion version (draw r.1)) } := by
  unfold bumped
  cases hfind : (users.rows.map fun r => (r.1, r.2.tokenVersion)).find? fun x => x.1 = r.1 with
  | none =>
      have hmiss := List.find?_eq_none.mp hfind _ (List.mem_map_of_mem hr)
      simp at hmiss
  | some x =>
      obtain ⟨y, hy, rfl⟩ := List.mem_map.mp (List.mem_of_find?_eq_some hfind)
      have hkey : y.1 = r.1 := by simpa using List.find?_some hfind
      obtain rfl := OrderedDict.row_eq hy hr hkey
      rw [hversion]

/-- The reviewed accounts are those with the reviewed names, of which each is there. -/
theorem reviewedIds_ok {names ids : List String} (h : reviewedIds users names = .ok ids) :
    (∀ id ∈ ids, ∃ r ∈ users.rows, r.1 = id ∧ r.2.username ∈ names) ∧
      ∀ name ∈ names, ∃ r ∈ users.rows, r.1 ∈ ids ∧ r.2.username = name := by
  induction names generalizing ids with
  | nil =>
      obtain rfl := Except.ok.inj h
      simp
  | cons name names ih =>
      unfold reviewedIds at h
      split at h
      · cases h
      · next r hfind =>
        have hmem := List.mem_of_find?_eq_some hfind
        have hname : r.2.username = name := by simpa using List.find?_some hfind
        split at h
        · cases h
        · next rest hrest =>
          obtain rfl := Except.ok.inj h
          obtain ⟨hids, hnames⟩ := ih hrest
          constructor
          · intro id hid
            rcases List.mem_cons.mp hid with rfl | hid
            · exact ⟨r, hmem, rfl, hname ▸ List.mem_cons_self⟩
            · obtain ⟨x, hx, hkey, hin⟩ := hids id hid
              exact ⟨x, hx, hkey, List.mem_cons_of_mem _ hin⟩
          · intro n hn
            rcases List.mem_cons.mp hn with rfl | hn
            · exact ⟨r, hmem, List.mem_cons_self, hname⟩
            · obtain ⟨x, hx, hkey, hsame⟩ := hnames n hn
              exact ⟨x, hx, List.mem_cons_of_mem _ hkey, hsame⟩

/-! ## The statements together -/

/-- What the first list has, the second has. -/
theorem exists_of_forall₂ {α β : Type*} {R : α → β → Prop} {l : List α} {l' : List β} {x : α}
    (h : List.Forall₂ R l l') (hx : x ∈ l) : ∃ y ∈ l', R x y := by
  induction h with
  | nil => exact absurd hx List.not_mem_nil
  | cons hrel _ ih =>
      rcases List.mem_cons.mp hx with rfl | hx
      · exact ⟨_, List.mem_cons_self, hrel⟩
      · obtain ⟨y, hy, hxy⟩ := ih hx
        exact ⟨y, List.mem_cons_of_mem _ hy, hxy⟩

variable {m : Moment} {reviewedUsers : List String} {db restored : Database ρ} {counts : Counts}

theorem codeSanitised_consume (now : String) (codes : List (OneTime ρ)) :
    List.Forall₂ CodeSanitised codes (codes.map (·.consume now)) := by
  apply List.forall₂_map_right_iff.mpr
  apply List.forall₂_same.mpr
  intro code _
  refine ⟨rfl, ?_, rfl⟩
  intro hused
  obtain ⟨at', hat⟩ := Option.isSome_iff_exists.mp hused
  simp [OneTime.consume, hat]

theorem sessionSanitised_revoke (now : String) (sessions : List (AuthSession ρ)) :
    List.Forall₂ SessionSanitised sessions (sessions.map (·.revoke now)) := by
  apply List.forall₂_map_right_iff.mpr
  apply List.forall₂_same.mpr
  intro session _
  refine ⟨rfl, ?_, rfl, rfl⟩
  intro hrevoked
  obtain ⟨at', hat⟩ := Option.isSome_iff_exists.mp hrevoked
  simp [AuthSession.revoke, hat]

/-- A counter is retired past every time step that could be accepted so far. -/
theorem counter_retired {time t c : Int} (old : Int) (ht : t ≤ time) (hc : Acceptable t c) :
    c ≤ max old (time / 30 + 1) := by
  obtain ⟨-, -, hc⟩ := hc
  apply le_trans hc
  apply le_trans _ (le_max_right _ _)
  omega

/-- The row of an account after all statements. -/
def restoredUser (m : Moment) (ids : List String) (r : String × User ρ) (version : Int) :
    User ρ where
  username := r.2.username
  tokenVersion := .int (newVersion version (m.draw r.1))
  isActive := r.1 ∈ ids
  mfaLastCounter := max r.2.mfaLastCounter (m.time / 30 + 1)
  rest := r.2.rest

/-- Each account becomes such a row. -/
theorem restored_rows (ids : List String)
    (hbump : bumpVersions m.draw (db.users.rows.map fun r => (r.1, r.2.tokenVersion)) db.users =
      .ok users') :
    List.Forall₂ (fun r r' => r ∈ db.users.rows ∧ ∃ version, r.2.tokenVersion = .int version ∧
      version ≤ maxSqliteInteger - 2 ^ 32 ∧ r' = (r.1, restoredUser m ids r version))
      db.users.rows (retireCounters m.time (activateReviewed ids users')).rows := by
  have hnodup : ((db.users.rows.map fun r => (r.1, r.2.tokenVersion)).map Prod.fst).Nodup := by
    rw [List.map_map]
    exact db.users.nodup
  obtain ⟨hrows, hentries⟩ := bumpVersions_ok hnodup hbump
  show List.Forall₂ _ _ ((users'.rows.map _).map _)
  rw [hrows, List.map_map, List.map_map]
  apply List.forall₂_map_right_iff.mpr
  apply List.forall₂_same.mpr
  intro r hr
  obtain ⟨version, hversion, hrange⟩ := hentries _ (List.mem_map_of_mem hr)
  replace hversion : r.2.tokenVersion = .int version := hversion
  refine ⟨hr, version, hversion, hrange, ?_⟩
  simp only [Function.comp_apply, bumped_self hr hversion]
  rfl

theorem userSanitised_restored {ids : List String} {r : String × User ρ} {version : Int}
    (hids : reviewedIds db.users reviewedUsers = .ok ids) (hr : r ∈ db.users.rows)
    (hversion : r.2.tokenVersion = .int version) (hrange : version ≤ maxSqliteInteger - 2 ^ 32) :
    UserSanitised reviewedUsers m.time r (r.1, restoredUser m ids r version) where
  id := rfl
  username := rfl
  rest := rfl
  active := by
    intro hactive
    obtain ⟨x, hx, hkey, hname⟩ := (reviewedIds_ok hids).1 r.1 (of_decide_eq_true hactive)
    exact OrderedDict.row_eq hx hr hkey ▸ hname
  version := ⟨version, _, hversion, rfl, newVersion_gt hrange _⟩
  counter := ⟨le_max_left _ _, fun t ht c hc => counter_retired _ ht hc⟩

/-- **The credentials of a restored database.** -/
theorem sanitised_of_revoke
    (h : revokeRestoredCredentials sqlite m reviewedUsers db = .ok (restored, counts)) :
    Sanitised reviewedUsers m.time db restored := by
  obtain ⟨-, -, h⟩ := bind_eq_ok.mp h
  dsimp only at h
  split at h
  · cases h
  · obtain ⟨ids, hids, h⟩ := bind_eq_ok.mp h
    obtain ⟨users', hbump, h⟩ := bind_eq_ok.mp h
    obtain ⟨-, -, h⟩ := bind_eq_ok.mp h
    obtain ⟨rfl, -⟩ := Prod.mk.inj (Except.ok.inj h)
    have hrows := restored_rows ids hbump
    exact {
      users := by
        apply hrows.imp
        rintro r r' ⟨hr, version, hversion, hrange, rfl⟩
        exact userSanitised_restored hids hr hversion hrange
      reviewed := by
        intro name hname
        obtain ⟨r, hr, hid, rfl⟩ := (reviewedIds_ok hids).2 name hname
        obtain ⟨r', hr', -, version, -, -, rfl⟩ := exists_of_forall₂ hrows hr
        exact ⟨_, hr', rfl, decide_eq_true hid⟩
      authSessions := sessionSanitised_revoke m.now db.authSessions
      mfaRecoveryCodes := codeSanitised_consume m.now db.mfaRecoveryCodes
      accountRecoveryCodes := codeSanitised_consume m.now db.accountRecoveryCodes
      preKeys := codeSanitised_consume m.now db.preKeys
      challenges := ⟨rfl, rfl⟩
      others := ⟨rfl, rfl, rfl⟩ }

end Scap.Backup
