import Scap.Backup.Archive
import Scap.Lib.Except

/-!
# The archive is canonical

What a run of the writer packs into the header is what the reader unpacks (`unpack_packHeader`), and
the whole header is associated data. So an archive opens to the payload and the time of its run
(`decryptArchive_of_backupArchive`), if the clock stood where the reader accepts it, and a file that
opens is the archive of a run, byte for byte (`backupArchive_of_decryptArchive`).
-/

namespace Scap.Backup

open Scap.Py Scap.Lib

variable {gcm : Gcm} {argon2 : Bytes → Bytes → Bytes} {run : Run}

/-! ## The header -/

theorem length_packHeader {created : Int} {length : Nat} {draw : Draw} {bs : Bytes}
    (h : packHeader created length draw = some bs) : bs.length = headerSize :=
  Struct.length_pack h

theorem unpack_packHeader {created : Int} {length : Nat} {draw : Draw} {bs : Bytes}
    (h : packHeader created length draw = some bs) :
    Struct.unpack header bs = some [.str magic, .uint version, .uint kdfTime, .uint kdfMemoryKib,
      .uint kdfParallelism, .uint created, .uint length, .str draw.salt, .str draw.nonce] := by
  apply Struct.unpack_pack ?_ h
  have hmagic : magic.length = 8 := by decide +kernel
  exact .cons hmagic (.cons trivial (.cons trivial (.cons trivial (.cons trivial (.cons trivial
    (.cons trivial (.cons draw.salt_length (.cons draw.nonce_length .nil))))))))

/-! ## Writing -/

theorem passphraseBytes_ok {passphrase : String} {bs : Bytes}
    (h : passphraseBytes passphrase = .ok bs) : bs = utf8 passphrase := by
  unfold passphraseBytes at h
  split at h
  · exact (Except.ok.inj h).symm
  · cases h

theorem snapshot_ok {source : Source} {image : Image} (h : snapshot source = .ok image) :
    image = source.image ∧ image.bytes.length ≤ maxDatabaseBytes := by
  unfold snapshot at h
  split at h
  · cases h
  · split at h
    · cases h
    · split at h
      · cases h
      · next hsize =>
        obtain rfl := Except.ok.inj h
        exact ⟨rfl, Nat.le_of_not_lt hsize⟩

/-- What a run encrypts. -/
def Run.sealed (argon2 : Bytes → Bytes → Bytes) (run : Run) :
    Option (Sealed Bytes Bytes Bytes Bytes) :=
  match passphraseBytes run.passphrase, snapshot run.source with
  | .ok passphrase, .ok image =>
    (packHeader run.created image.bytes.length run.draw).map fun header =>
      ⟨argon2 passphrase run.draw.salt, run.draw.nonce, header, image.bytes⟩
  | _, _ => none

/-- The archive of a run is what it encrypts, behind its header. -/
theorem backupArchive_eq_ok {archive : Bytes} : backupArchive gcm argon2 run = .ok archive ↔
    ∃ q, run.sealed argon2 = some q ∧ q.aad ++ gcm.ciphertext q = archive := by
  unfold backupArchive Run.sealed
  cases passphraseBytes run.passphrase with
  | error e => simp [bind, Except.bind]
  | ok passphrase =>
      cases snapshot run.source with
      | error e => simp [bind, Except.bind]
      | ok image =>
          dsimp only [bind, Except.bind]
          cases packHeader run.created image.bytes.length run.draw with
          | none => simp
          | some header => simp [Cipher.ciphertext]

/-- What a run encrypts, in terms of its arguments. -/
theorem sealed_eq_some {q : Sealed Bytes Bytes Bytes Bytes} (h : run.sealed argon2 = some q) :
    passphraseBytes run.passphrase = .ok (utf8 run.passphrase) ∧
      run.source.image.bytes.length ≤ maxDatabaseBytes ∧
      packHeader run.created run.source.image.bytes.length run.draw = some q.aad ∧
      q = ⟨argon2 (utf8 run.passphrase) run.draw.salt, run.draw.nonce, q.aad,
        run.source.image.bytes⟩ := by
  unfold Run.sealed at h
  split at h
  · next passphrase image hpassphrase hsnapshot =>
    obtain rfl := passphraseBytes_ok hpassphrase
    obtain ⟨rfl, hlength⟩ := snapshot_ok hsnapshot
    obtain ⟨header, hheader, rfl⟩ := Option.map_eq_some_iff.mp h
    exact ⟨hpassphrase, hlength, hheader, rfl⟩
  · cases h

/-! ## Reading -/

/-- What the reader has checked when it returns: the header, and that nothing comes after the
ciphertext. -/
theorem decryptArchive_ok {passphrase : String} {size : Nat} {content payload : Bytes}
    {created : Int} (h : decryptArchive gcm argon2 passphrase size content = .ok (payload, created)) :
    ∃ length salt nonce, (content.take headerSize).length = headerSize ∧
      Struct.unpack header (content.take headerSize) = some [.str magic, .uint version,
        .uint kdfTime, .uint kdfMemoryKib, .uint kdfParallelism, .uint created, .uint length,
        .str salt, .str nonce] ∧ (1 ≤ created ∧ created ≤ maxCreated) ∧
      gcm.decrypt (argon2 (utf8 passphrase) salt) nonce (content.take headerSize)
        (content.drop headerSize) = some payload := by
  obtain ⟨bs, hpassphrase, h⟩ := bind_eq_ok.mp h
  obtain rfl := passphraseBytes_ok hpassphrase
  split at h
  · cases h
  · split at h
    · cases h
    · next hheader =>
      split at h
      · next magic' version' time memory parallelism created' length salt nonce hunpack =>
        split at h
        · cases h
        · next hsupported =>
          obtain ⟨hfixed, -, hcreated⟩ := not_or.mp hsupported |>.imp id not_or.mp
          split at h
          · cases h
          · dsimp only at h
            split at h
            · cases h
            · next hlength =>
              split at h
              · cases h
              · next payload' hopen =>
                split at h
                · obtain ⟨rfl, rfl⟩ := Prod.mk.inj (Except.ok.inj h)
                  obtain ⟨rfl, rfl, rfl, rfl, rfl⟩ := by
                    simpa only [ne_eq, not_not, Prod.mk.injEq] using hfixed
                  -- the reader asks for one byte more than it wants and does not get it
                  have hall : (content.drop headerSize).take (length.toNat + tagBytes + 1) =
                      content.drop headerSize := by
                    apply List.take_of_length_le
                    rw [not_not, List.length_take] at hlength
                    omega
                  rw [hall] at hopen
                  exact ⟨length, salt, nonce, not_not.mp hheader, hunpack, not_not.mp hcreated,
                    hopen⟩
                · cases h
      · cases h

/-! ## The two directions -/

/-- What the runs of a log encrypt. -/
def sealedBy (argon2 : Bytes → Bytes → Bytes) (runs : Set Run) :
    Set (Sealed Bytes Bytes Bytes Bytes) :=
  {q | ∃ run ∈ runs, run.sealed argon2 = some q}

variable {runs : Set Run}

/-- **An archive opens to the payload and the time of its run** just when the reader takes the time
for one. -/
theorem decryptArchive_of_backupArchive (hideal : gcm.IdealOn (sealedBy argon2 runs))
    (hrun : run ∈ runs) {archive : Bytes} (h : backupArchive gcm argon2 run = .ok archive) :
    decryptArchive gcm argon2 run.passphrase archive.length archive =
      .ok (run.source.image.bytes, run.created) ↔ 1 ≤ run.created ∧ run.created ≤ maxCreated := by
  constructor
  · intro hopen
    obtain ⟨-, -, -, -, -, hcreated, -⟩ := decryptArchive_ok hopen
    exact hcreated
  · intro hcreated
    obtain ⟨q, hq, rfl⟩ := backupArchive_eq_ok.mp h
    obtain ⟨hpassphrase, hlength, hheader, hparts⟩ := sealed_eq_some hq
    have hopen := hideal.opens q ⟨run, hrun, hq⟩
    have hsize : q.aad.length = headerSize := length_packHeader hheader
    have htag : (gcm.ciphertext q).length = run.source.image.bytes.length + tagBytes := by
      rw [hparts]
      exact gcm.tag _ _ _ _
    have hsqlite := run.source.image.isSqlite
    have hmin : sqliteMagic.length ≤ run.source.image.bytes.length := hsqlite.length_le
    have hmagic : sqliteMagic.length = 16 := by decide +kernel
    unfold decryptArchive
    rw [hpassphrase]
    dsimp only [bind, Except.bind]
    rw [List.take_left' hsize, List.drop_left' hsize, unpack_packHeader hheader,
      if_neg (by rw [List.length_append, hsize, htag, not_not]; omega), if_neg (not_not.mpr hsize)]
    dsimp only
    rw [if_neg (by simp only [ne_eq, not_true_eq_false, false_or, not_or, not_not]; omega),
      if_neg (by rw [List.length_append, hsize, htag, Int.toNat_natCast]; omega)]
    have hall : (gcm.ciphertext q).take
        ((run.source.image.bytes.length : Int).toNat + tagBytes + 1) = gcm.ciphertext q := by
      apply List.take_of_length_le
      rw [htag, Int.toNat_natCast]
      omega
    have hkey : argon2 (utf8 run.passphrase) run.draw.salt = q.key := by rw [hparts]
    have hnonce : run.draw.nonce = q.nonce := by rw [hparts]
    have hpayload : q.plaintext = run.source.image.bytes := by rw [hparts]
    rw [hall, if_neg (by rw [htag, Int.toNat_natCast, not_not]), hkey, hnonce, hopen, hpayload]
    exact if_pos hsqlite

/-- No two passphrases in use are stretched to one key under one salt. -/
def CollisionFree (argon2 : Bytes → Bytes → Bytes) (passphrases : Set String) : Prop :=
  ∀ p ∈ passphrases, ∀ p' ∈ passphrases, ∀ salt,
    argon2 (utf8 p) salt = argon2 (utf8 p') salt → p = p'

/-- **What opens is the archive of a run under that passphrase**, byte for byte, and opens to the
payload and the time of this run. -/
theorem backupArchive_of_decryptArchive {passphrases : Set String}
    (hideal : gcm.IdealOn (sealedBy argon2 runs)) (hargon : CollisionFree argon2 passphrases)
    (huse : ∀ run ∈ runs, run.passphrase ∈ passphrases) {passphrase : String}
    (hpassphrase : passphrase ∈ passphrases) {size : Nat} {content payload : Bytes} {created : Int}
    (h : decryptArchive gcm argon2 passphrase size content = .ok (payload, created)) :
    ∃ run ∈ runs, run.passphrase = passphrase ∧ backupArchive gcm argon2 run = .ok content ∧
      payload = run.source.image.bytes ∧ created = run.created := by
  obtain ⟨length, salt, nonce, -, hunpack, -, hopen⟩ := decryptArchive_ok h
  obtain ⟨⟨run, hrun, hsealed⟩, hencrypt⟩ := hideal.unforged _ _ _ _ _ hopen
  obtain ⟨-, -, hheader, hparts⟩ := sealed_eq_some hsealed
  -- the header is the one that the run packed
  rw [unpack_packHeader hheader] at hunpack
  obtain ⟨rfl, hlength, rfl, rfl⟩ : run.created = created ∧
      (run.source.image.bytes.length : Int) = length ∧ run.draw.salt = salt ∧
      run.draw.nonce = nonce := by simpa using hunpack
  have hkey := congrArg Sealed.key hparts
  have hsame := hargon _ hpassphrase _ (huse run hrun) _ hkey
  refine ⟨run, hrun, hsame.symm, ?_, congrArg Sealed.plaintext hparts, rfl⟩
  rw [backupArchive_eq_ok]
  refine ⟨_, hsealed, ?_⟩
  show content.take headerSize ++ gcm.encrypt _ _ _ _ = content
  rw [hencrypt, List.take_append_drop]

end Scap.Backup
