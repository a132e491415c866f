import Mathlib
import Scap.Audit.Checkpoint
import Scap.Lib.HashChain
import Scap.Lib.Run

/-!
# Tamper evidence

`tamperSystem` interleaves the application (appending under its key, signing and delivering
checkpoints) with an attacker who replaces both tables at will but has no key: a row or checkpoint
of a replacement that verifies was computed by the application before (`Unforged`). The state also
remembers what the application sealed and signed, and on which table.

* `linked_of_intact` — a strictly intact table is a hash chain from genesis;
* `inv_of_reachable` — whatever verifies in a reachable state was computed by the application;
* `tamper_evident` — hence a strictly intact table is the application's, link by link, and an
  intact checkpoint pins everything up to its event.
-/

namespace Scap.Audit

open Scap.Py Scap.Lib

/-! ## The system -/

/-- The constants of a deployment. -/
structure Deployment where
  hmac : HmacSha256
  auditKey : ByteArray
  service : AuditCheckpointService
  uuid5 : String → String
  dialect : Dialect

/-- `seal_event` has sealed this content under `prev`, finding the table as given. -/
structure Sealing where
  table : AuditTable
  prev : String
  content : Content

/-- `_anchor` has signed this checkpoint, finding the table as given. -/
structure Signing where
  table : AuditTable
  checkpoint : AuditCheckpoint

structure Store where
  events : AuditTable
  checkpoints : CheckpointTable
  sealings : List Sealing
  signings : List Signing

inductive Action where
  /-- `seal_event` and `INSERT` of a new event. -/
  | append (e : AuditEvent) (now : Int) (gap : Nat)
  /-- `_anchor` up to the signature. -/
  | sign (now : Int)
  /-- The rest of `_anchor`, with what the sink answered. -/
  | commit (c : AuditCheckpoint) (receipt : Option String) (deliveredAt : Option DateTime)
  /-- The attacker replaces both tables. -/
  | rewrite (events : AuditTable) (checkpoints : CheckpointTable)

/-- The messages handed to HMAC under the audit key. -/
def Store.sealedTexts (s : Store) : Set ByteArray :=
  {m | ∃ x ∈ s.sealings, m = (signedText x.prev x.content).toUTF8}

/-- The messages handed to HMAC under the checkpoint key. -/
def Store.signedTexts (s : Store) : Set ByteArray :=
  {m | ∃ g ∈ s.signings, ∃ text, g.checkpoint.payload = some text ∧ m = text.toUTF8}

section System

variable (d : Deployment)

/-- HMAC under the audit key. -/
def Deployment.mac (m : ByteArray) : String := hexdigest (d.hmac d.auditKey m)

/-- If the row's hash verifies, its message is one of those asked. -/
def Unforged (asked : Set ByteArray) (r : AuditRow) : Prop :=
  ∀ prev, r.event.prevHash = some prev →
    r.event.entryHash = some (linkHash d.hmac d.auditKey prev r.event.content) →
    (signedText prev r.event.content).toUTF8 ∈ asked

/-- If the checkpoint's signature verifies, its message is one of those asked. -/
def UnforgedCheckpoint (asked : Set ByteArray) (c : AuditCheckpoint) : Prop :=
  ∀ text, c.payload = some text → signCheckpoint d.hmac d.service.key text = c.signature →
    text.toUTF8 ∈ asked

/-- The timestamp is one the column can return. -/
def Storable (r : AuditRow) : Prop :=
  ∀ t, r.event.createdAt = some t → d.dialect.stored t = t

/-- One step of the application or of the attacker. -/
def tamperStep (s : Store) : Action → Store → Prop
  | .append e now gap, t =>
      let sealed := sealEvent d.hmac d.auditKey s.events now e
      e.StampedUtc ∧ t = { s with
        events := append d.dialect now s.events gap sealed
        sealings := s.sealings ++ [⟨s.events, lastHash s.events none, sealed.content⟩] }
  | .sign now, t =>
      ∃ c, planAnchor d.hmac d.service d.uuid5 now s.events s.checkpoints = .ok (.fresh c) ∧
        t = { s with signings := s.signings ++ [⟨s.events, c⟩] }
  | .commit c receipt deliveredAt, t =>
      (∃ g ∈ s.signings, g.checkpoint = c) ∧ t = { s with
        checkpoints := (commitAnchor d.service d.dialect s.checkpoints
          { c with externalReceipt := receipt, deliveredAt := deliveredAt }).1 }
  | .rewrite events checkpoints, t =>
      (∀ r ∈ events.rows, Storable d r ∧ Unforged d s.sealedTexts r) ∧
      (∀ c ∈ checkpoints.rows, UnforgedCheckpoint d s.signedTexts c) ∧
      t = { s with events := events, checkpoints := checkpoints }

/-- Application and attacker, from empty tables. -/
def tamperSystem : System Store Action where
  init s := s = ⟨.empty, .empty, [], []⟩
  step := tamperStep d

/-- The attacker does nothing. -/
def Action.honest : Action → Prop
  | .rewrite _ _ => False
  | _ => True

end System

/-! ## Intact tables are hash chains -/

/-- A row's content between its two hashes. -/
def AuditRow.link (r : AuditRow) : Link String Content :=
  ⟨r.event.prevHash.getD "", r.event.content, r.event.entryHash.getD ""⟩

variable {hmac : HmacSha256} {key : ByteArray} {rows : List AuditRow} {g : String}

theorem linked_of_consistent (hc : Consistent hmac key g rows)
    (hs : ∀ r ∈ rows, r.isSealed = true) :
    Linked (linkHash hmac key) g (rows.map AuditRow.link) ∧
      ∀ r ∈ rows, r.event.prevHash = some r.link.prev ∧ r.event.entryHash = some r.link.tag := by
  induction rows generalizing g with
  | nil => exact ⟨trivial, by simp⟩
  | cons r rs ih =>
      obtain ⟨hash, hhash⟩ := Option.isSome_iff_exists.mp (hs r List.mem_cons_self)
      obtain ⟨hprev, hlink⟩ := hc.1 hash hhash
      have hhead : r.head = hash := by simp [AuditRow.head, hhash]
      obtain ⟨hlinked, hfields⟩ := ih (hhead ▸ hc.2) fun x hx => hs x (List.mem_cons_of_mem _ hx)
      refine ⟨⟨by simp [AuditRow.link, hprev], ?_, by simpa [AuditRow.link, hhash] using hlinked⟩, ?_⟩
      · simp [AuditRow.link, hprev, hhash, ← hlink]
      · intro x hx
        rcases List.mem_cons.mp hx with rfl | hx
        · simp [AuditRow.link, hprev, hhash]
        · exact hfields x hx

theorem linked_of_intact {t : AuditTable} (h : (verifyChain hmac key t none true).intact = true) :
    Linked (linkHash hmac key) GENESIS_HASH (t.rows.map AuditRow.link) ∧
      ∀ r ∈ t.rows, r.event.prevHash = some r.link.prev ∧ r.event.entryHash = some r.link.tag := by
  obtain ⟨hconsistent, hsealed⟩ := verifyRows_strict.mp h
  exact linked_of_consistent hconsistent hsealed

/-! ## What verifies was computed by the application -/

variable {d : Deployment} {s t : Store}

/-- What a signing remembers of the table it found. -/
structure SignedOn (d : Deployment) (asked : Set ByteArray) (g : Signing) : Prop where
  last : ∃ r, g.table.last? = some r ∧ r.id = g.checkpoint.lastEventId ∧
    r.event.entryHash = some g.checkpoint.rootHash
  kept : SameSigned (g.checkpoint.stored d.dialect) g.checkpoint
  unforged : ∀ r ∈ g.table.rows, Unforged d asked r

/-- The invariant of the system. -/
structure Inv (d : Deployment) (s : Store) : Prop where
  events : ∀ r ∈ s.events.rows, Storable d r ∧ Unforged d s.sealedTexts r
  checkpoints : ∀ c ∈ s.checkpoints.rows, UnforgedCheckpoint d s.signedTexts c
  sealings : ∀ x ∈ s.sealings, x.prev = lastHash x.table none
  signings : ∀ g ∈ s.signings, SignedOn d s.sealedTexts g

theorem Unforged.mono {asked asked' : Set ByteArray} {r : AuditRow} (h : Unforged d asked r)
    (hsub : asked ⊆ asked') : Unforged d asked' r := fun prev hp he => hsub (h prev hp he)

theorem SignedOn.mono {asked asked' : Set ByteArray} {g : Signing} (h : SignedOn d asked g)
    (hsub : asked ⊆ asked') : SignedOn d asked' g :=
  ⟨h.last, h.kept, fun r hr => (h.unforged r hr).mono hsub⟩

theorem Dialect.stored_stored (dialect : Dialect) (x : DateTime) :
    dialect.stored (dialect.stored x) = dialect.stored x := by
  cases dialect <;> simp [Dialect.stored, DateTime.utc]

/-- The row `seal_event` leaves in the table carries a message it has just asked for. -/
theorem inv_append {e : AuditEvent} {now : Int} {gap : Nat} (hs : Inv d s)
    (h : tamperStep d s (.append e now gap) t) : Inv d t := by
  obtain ⟨hutc, rfl⟩ := h
  have hsub : s.sealedTexts ⊆ Store.sealedTexts { s with
      events := append d.dialect now s.events gap (sealEvent d.hmac d.auditKey s.events now e)
      sealings := s.sealings ++ [⟨s.events, lastHash s.events none,
        (sealEvent d.hmac d.auditKey s.events now e).content⟩] } :=
    fun m ⟨x, hx, hm⟩ => ⟨x, List.mem_append_left _ hx, hm⟩
  refine ⟨?_, hs.checkpoints, ?_, fun g hg => (hs.signings g hg).mono hsub⟩
  · intro r hr
    rcases List.mem_append.mp hr with hr | hr
    · exact ⟨(hs.events r hr).1, (hs.events r hr).2.mono hsub⟩
    · rw [List.mem_singleton.mp hr]
      obtain ⟨i, hi⟩ := sealEvent_createdAt d.hmac d.auditKey s.events now hutc
      refine ⟨fun x hx => ?_, fun prev hprev _ => ?_⟩
      · obtain rfl := Option.some.inj hx
        exact Dialect.stored_stored _ _
      · obtain rfl := Option.some.inj hprev
        exact ⟨_, List.mem_append_right _ (List.mem_singleton_self _), by
          rw [AuditEvent.content_stored hi]⟩
  · intro x hx
    rcases List.mem_append.mp hx with hx | hx
    · exact hs.sealings x hx
    · rw [List.mem_singleton.mp hx]

theorem inv_sign {now : Int} (hs : Inv d s) (h : tamperStep d s (.sign now) t) : Inv d t := by
  obtain ⟨c, hplan, rfl⟩ := h
  obtain ⟨last, payload, hlast, hid, hhash, hcreated, -, -⟩ := planAnchor_fresh hplan
  refine ⟨hs.events, fun x hx text ht hsig => ?_, hs.sealings, fun g hg => ?_⟩
  · obtain ⟨g, hg, hm⟩ := hs.checkpoints x hx text ht hsig
    exact ⟨g, List.mem_append_left _ hg, hm⟩
  · rcases List.mem_append.mp hg with hg | hg
    · exact hs.signings g hg
    · rw [List.mem_singleton.mp hg]
      refine ⟨⟨last, hlast, hid, hhash⟩, ⟨rfl, rfl, rfl, ?_⟩, fun r hr => (hs.events r hr).2⟩
      show canonicalDatetime (some (d.dialect.stored c.createdAt)) = _
      rw [hcreated]
      cases hc : last.event.createdAt with
      | none => simp [canonicalDatetime, Dialect.utc_stored_ofUtc]
      | some x =>
          have hmem : last ∈ s.events.rows := List.mem_of_getLast? hlast
          rw [Option.getD_some, (hs.events last hmem).1 x hc]

theorem inv_commit {c : AuditCheckpoint} {receipt : Option String} {deliveredAt : Option DateTime}
    (hs : Inv d s) (h : tamperStep d s (.commit c receipt deliveredAt) t) : Inv d t := by
  obtain ⟨⟨g, hg, rfl⟩, rfl⟩ := h
  refine ⟨hs.events, fun x hx => ?_, hs.sealings, hs.signings⟩
  rcases mem_commitAnchor hx with rfl | hx
  · intro text htext _
    refine ⟨g, hg, text, ?_, rfl⟩
    rw [← htext]
    exact (hs.signings g hg).kept.payload_eq.symm
  · exact hs.checkpoints x hx

theorem inv_of_reachable (h : (tamperSystem d).Reachable s) : Inv d s := by
  refine System.Reachable.induct (I := Inv d) ?_ ?_ h
  · rintro s rfl
    exact ⟨by simp, by simp, by simp, by simp⟩
  · intro s a t _ hs hstep
    cases a with
    | append e now gap => exact inv_append hs hstep
    | sign now => exact inv_sign hs hstep
    | commit c receipt deliveredAt => exact inv_commit hs hstep
    | rewrite events checkpoints =>
        obtain ⟨hevents, hcheckpoints, rfl⟩ := hstep
        exact ⟨hevents, hcheckpoints, hs.sealings, hs.signings⟩

/-- The pairs the application has sealed. -/
def Store.sealedPairs (s : Store) : Set (String × Content) :=
  {p | ∃ x ∈ s.sealings, p = (x.prev, x.content)}

/-- A linked row that is not a forgery was sealed by the application. -/
theorem sealed_of_unforged {r : AuditRow} (hr : Unforged d s.sealedTexts r)
    (hprev : r.event.prevHash = some r.link.prev)
    (htag : r.event.entryHash = some (linkHash d.hmac d.auditKey r.link.prev r.event.content)) :
    ∃ x ∈ s.sealings, x.prev = r.link.prev ∧ x.content = r.event.content := by
  obtain ⟨x, hx, htext⟩ := hr _ hprev htag
  obtain ⟨hp, hc⟩ := signedText_injective (String.toByteArray_inj.mp htext)
  exact ⟨x, hx, hp.symm, hc.symm⟩

/-- An HMAC that is ideal on the sealed messages makes an ideal hash chain. -/
theorem ideal_linkHash (h : IdealOn d.mac GENESIS_HASH s.sealedTexts) :
    Ideal (linkHash d.hmac d.auditKey) GENESIS_HASH s.sealedPairs := by
  constructor
  · rintro - ⟨x, hx, rfl⟩ - ⟨y, hy, rfl⟩ heq
    have htext := h.collisionFree ⟨x, hx, rfl⟩ ⟨y, hy, rfl⟩ heq
    obtain ⟨hp, hc⟩ := signedText_injective (String.toByteArray_inj.mp htext)
    rw [hp, hc]
  · rintro - ⟨x, hx, rfl⟩
    exact h.neGenesis _ ⟨x, hx, rfl⟩

/-- Every link of an intact table whose rows are no forgeries was sealed. -/
theorem link_mem_sealedPairs {u : AuditTable} (hu : ∀ r ∈ u.rows, Unforged d s.sealedTexts r)
    (hintact : (verifyChain d.hmac d.auditKey u none true).intact = true) :
    ∀ l ∈ u.rows.map AuditRow.link, (l.prev, l.body) ∈ s.sealedPairs := by
  obtain ⟨hlinked, hfields⟩ := linked_of_intact hintact
  intro l hl
  obtain ⟨before, after, hsplit⟩ := List.append_of_mem hl
  have htag := (Linked.at (hsplit ▸ hlinked)).2
  obtain ⟨r, hr, rfl⟩ := List.mem_map.mp hl
  obtain ⟨hprev, hhash⟩ := hfields r hr
  obtain ⟨x, hx, hxp, hxc⟩ := sealed_of_unforged (hu r hr) hprev (hhash.trans (by rw [htag]; rfl))
  exact ⟨x, hx, by rw [hxp, hxc]; rfl⟩

/-! ## Tamper evidence -/

/-- `x` was sealed on top of the given predecessor: on genesis where there is none, else on the
predecessor's hash, which the application never computed for any other content. -/
def SealedOnTop (d : Deployment) (s : Store) (x : Sealing) : Option AuditRow → Prop
  | none => x.prev = GENESIS_HASH
  | some p => p.event.entryHash = some x.prev ∧
      ∀ y ∈ s.sealings, linkHash d.hmac d.auditKey y.prev y.content = x.prev →
        y.content = p.event.content

/-- A row of an intact table is one the application sealed, on top of the row before it. -/
theorem sealed_of_intact (hinv : Inv d s) (hideal : IdealOn d.mac GENESIS_HASH s.sealedTexts)
    (hintact : (verifyChain d.hmac d.auditKey s.events none true).intact = true)
    {before after : List AuditRow} {r : AuditRow} (hrows : s.events.rows = before ++ r :: after) :
    ∃ x ∈ s.sealings, x.content = r.event.content ∧ r.event.prevHash = some x.prev ∧
      r.event.entryHash = some (linkHash d.hmac d.auditKey x.prev x.content) ∧
      SealedOnTop d s x before.getLast? := by
  obtain ⟨hlinked, hfields⟩ := linked_of_intact hintact
  have hpairs := link_mem_sealedPairs (fun r hr => (hinv.events r hr).2) hintact
  rw [hrows] at hlinked hfields hpairs
  rw [List.map_append, List.map_cons] at hlinked
  obtain ⟨hprev, hhash⟩ := hfields r (by simp)
  obtain ⟨hat, htag⟩ := hlinked.at
  obtain ⟨x, hx, hpair⟩ := hpairs r.link (List.mem_map.mpr ⟨r, by simp, rfl⟩)
  obtain ⟨hxp, hxc⟩ := Prod.mk.inj hpair
  refine ⟨x, hx, hxc.symm, by rw [hprev, hxp], by rw [hhash, htag, hxp, hxc], ?_⟩
  rw [hxp] at hat
  cases before using List.reverseRecOn with
  | nil => exact hat
  | append_singleton before p _ =>
      have hxtag : x.prev = p.link.tag := by simpa [headAfter] using hat
      rw [List.getLast?_concat]
      refine ⟨by rw [(hfields p (by simp)).2, hxtag], fun y hy hyhash => ?_⟩
      have hptag : p.link.tag = linkHash d.hmac d.auditKey p.link.prev p.link.body := by
        have hl := (linked_append.mp hlinked).1
        rw [List.map_append] at hl
        exact hl.at.2
      have heq := (ideal_linkHash hideal).collisionFree ⟨y, hy, rfl⟩
        (hpairs p.link (List.mem_map.mpr ⟨p, by simp, rfl⟩))
        (hyhash.trans (hxtag.trans hptag))
      exact (Prod.mk.inj heq).2

/-- A cleared checkpoint was signed by the application. -/
theorem signed_of_cleared (hinv : Inv d s) {c : AuditCheckpoint} (hc : c ∈ s.checkpoints.rows)
    {payload : String} (hpayload : c.payload = some payload)
    (hsignature : signCheckpoint d.hmac d.service.key payload = c.signature) :
    ∃ g ∈ s.signings, SameSigned c g.checkpoint := by
  obtain ⟨g, hg, text, htext, hbytes⟩ := hinv.checkpoints c hc payload hpayload hsignature
  rw [← String.toByteArray_inj.mp hbytes] at htext
  exact ⟨g, hg, payload_injective hpayload htext⟩

/-- Two intact tables of sealed rows that end in one hash are the same chain. -/
theorem links_eq_of_head (hideal : IdealOn d.mac GENESIS_HASH s.sealedTexts)
    {t u : AuditTable} (ht : ∀ r ∈ t.rows, Unforged d s.sealedTexts r)
    (hu : ∀ r ∈ u.rows, Unforged d s.sealedTexts r)
    (htintact : (verifyChain d.hmac d.auditKey t none true).intact = true)
    (huintact : (verifyChain d.hmac d.auditKey u none true).intact = true)
    {before after upper : List AuditRow} {r q : AuditRow} (hrows : t.rows = before ++ r :: after)
    (hlast : u.rows = upper ++ [q]) (hhash : r.event.entryHash = q.event.entryHash) :
    (before ++ [r]).map AuditRow.link = u.rows.map AuditRow.link := by
  obtain ⟨htlinked, -⟩ := linked_of_intact htintact
  obtain ⟨hulinked, -⟩ := linked_of_intact huintact
  have htpairs := link_mem_sealedPairs ht htintact
  have hcut : t.rows.map AuditRow.link =
      (before ++ [r]).map AuditRow.link ++ after.map AuditRow.link := by
    rw [hrows]
    simp
  rw [hcut] at htlinked htpairs
  refine Linked.unique (ideal_linkHash hideal) (linked_append.mp htlinked).1 hulinked
    (fun l hl => htpairs l (List.mem_append_left _ hl)) (link_mem_sealedPairs hu huintact) ?_
  rw [hlast, List.map_append, List.map_append, headAfter_append, headAfter_append]
  show r.link.tag = q.link.tag
  simp [AuditRow.link, hhash]

/-- Without rewrites the table is the history of what was sealed. -/
theorem honest_history (h : ((tamperSystem d).restrict fun _ a => a.honest).Reachable s) :
    s.events.rows.map (fun r => r.event.content) = s.sealings.map Sealing.content := by
  refine System.Reachable.induct (I := fun s : Store =>
    s.events.rows.map (fun r => r.event.content) = s.sealings.map Sealing.content) ?_ ?_ h
  · rintro s rfl
    rfl
  · rintro s a t - hs ⟨hstep, hhonest⟩
    cases a with
    | append e now gap =>
        obtain ⟨hutc, rfl⟩ := hstep
        obtain ⟨i, hi⟩ := sealEvent_createdAt d.hmac d.auditKey s.events now hutc
        simp [append, hs, AuditEvent.content_stored hi]
    | sign now =>
        obtain ⟨c, -, rfl⟩ := hstep
        exact hs
    | commit c receipt deliveredAt =>
        obtain ⟨-, rfl⟩ := hstep
        exact hs
    | rewrite events checkpoints => exact hhonest.elim

/-- **Tamper evidence.** In a strictly intact table every row is one the application sealed, on top
of exactly the row before it; without rewrites the table is the application's history. If the
checkpoints are intact too, the application signed each one present, the rows up to its event end
in the hash it signed, and they are, link by link, the rows that stood there when it was signed,
provided these verified then. -/
theorem tamper_evident (d : Deployment) (s : Store) (hreach : (tamperSystem d).Reachable s)
    (hideal : IdealOn d.mac GENESIS_HASH s.sealedTexts)
    (hintact : (verifyChain d.hmac d.auditKey s.events none true).intact = true) :
    (∀ before r after, s.events.rows = before ++ r :: after →
      ∃ x ∈ s.sealings, x.content = r.event.content ∧ r.event.prevHash = some x.prev ∧
        r.event.entryHash = some (linkHash d.hmac d.auditKey x.prev x.content) ∧
        x.prev = lastHash x.table none ∧ SealedOnTop d s x before.getLast?) ∧
    (((tamperSystem d).restrict fun _ a => a.honest).Reachable s →
      s.events.rows.map (fun r => r.event.content) = s.sealings.map Sealing.content) ∧
    ((verifyLatest d.hmac d.service s.events s.checkpoints).intact = true →
      ∀ c ∈ s.checkpoints.rows,
        (∃ g ∈ s.signings, SameSigned c g.checkpoint) ∧
        ((s.events.upTo c.lastEventId).getLast?.bind fun r => r.event.entryHash) =
          some c.rootHash ∧
        ∀ g ∈ s.signings, SameSigned c g.checkpoint →
          (verifyChain d.hmac d.auditKey g.table none true).intact = true →
          (s.events.upTo c.lastEventId).map AuditRow.link = g.table.rows.map AuditRow.link) := by
  have hinv := inv_of_reachable hreach
  refine ⟨fun before r after hrows => ?_, honest_history, fun hcheck c hc => ?_⟩
  · obtain ⟨x, hx, hcontent, hprev, hhash, htop⟩ := sealed_of_intact hinv hideal hintact hrows
    exact ⟨x, hx, hcontent, hprev, hhash, hinv.sealings x hx, htop⟩
  · obtain ⟨r, payload, hfind, hroot, hpayload, hsignature⟩ :=
      reasonIn_eq_none (reasonIn_of_intact hcheck hc)
    obtain ⟨hr, hid⟩ := KeyedTable.find?_eq_some hfind
    obtain ⟨before, after, hrows, hupTo⟩ := KeyedTable.upTo_eq hr
    rw [← hid, hupTo]
    refine ⟨signed_of_cleared hinv hc hpayload hsignature, by simpa using hroot, ?_⟩
    intro g hg hsame hgintact
    obtain ⟨⟨q, hq, -, hqhash⟩, -, hunforged⟩ := hinv.signings g hg
    obtain ⟨upper, hupper⟩ := List.getLast?_eq_some_iff.mp hq
    exact links_eq_of_head hideal (fun r hr => (hinv.events r hr).2) hunforged hintact hgintact
      hrows hupper (by rw [hroot, hqhash, hsame.rootHash])

/-! ## Two runs

A login and a logout by one user, and a checkpoint on the logout. In the honest run nothing else
happens. In the other the attacker takes the login out while the checkpoint is signed and puts it
back afterwards: `_anchor` looks at the checkpoints and at the last event, not at the chain. -/

def sampleEvent (eventType : String) : AuditEvent where
  actorId := some "alice"
  eventType := eventType
  targetType := none
  targetId := none
  outcome := "success"
  ipAddress := some "127.0.0.1"
  userAgent := none
  requestId := none
  detailsJson := "{}"
  createdAt := none
  prevHash := none
  entryHash := none

def sampleContent (eventType : String) (instant : Int) : Content :=
  AuditEvent.content { sampleEvent eventType with createdAt := some (.ofUtc instant) }

def loginDigest : Digest := ⟨[
  0xb7, 0x8c, 0x01, 0xd8, 0xe7, 0x77, 0x5d, 0x9d, 0x76, 0x8d, 0x65, 0xa4, 0x91, 0x84, 0xaf, 0x88,
  0x9b, 0x7f, 0x53, 0x80, 0x41, 0x4a, 0xcb, 0x95, 0x45, 0xac, 0xce, 0x25, 0x7a, 0x66, 0x1b, 0x6d],
  rfl⟩

def logoutDigest : Digest := ⟨[
  0xcd, 0x0d, 0x54, 0x1a, 0x1f, 0x40, 0xee, 0x8d, 0xeb, 0x25, 0x25, 0xeb, 0xc5, 0xda, 0x43, 0x0b,
  0x82, 0xb0, 0xae, 0xe1, 0xc5, 0x36, 0x07, 0x3c, 0xf0, 0x98, 0x23, 0xdd, 0xb9, 0xc0, 0xc8, 0x2f],
  rfl⟩

def checkpointDigest : Digest := ⟨[
  0x24, 0x13, 0x1b, 0x26, 0xe3, 0x6d, 0x04, 0x8f, 0x6b, 0xdd, 0x98, 0x11, 0xb7, 0x07, 0xb7, 0xa5,
  0xaa, 0xab, 0x21, 0xf5, 0x12, 0xec, 0x82, 0x67, 0x58, 0xf7, 0x91, 0x4a, 0xd7, 0x05, 0xd2, 0x4f],
  rfl⟩

def loginText : String := signedText GENESIS_HASH (sampleContent "auth.login" 1767225600000000)

def logoutText : String :=
  signedText (hexdigest loginDigest) (sampleContent "auth.logout" 1767225601000000)

/-- HMAC-SHA256 on the three messages of the run, under the keys `audit-key` and
`checkpoint-key`. -/
def sampleHmac : HmacSha256 := fun _ m =>
  if m = loginText.toUTF8 then loginDigest
  else if m = logoutText.toUTF8 then logoutDigest
  else checkpointDigest

def sampleDeployment : Deployment where
  hmac := sampleHmac
  auditKey := "audit-key".toUTF8
  service := ⟨"checkpoint-key".toUTF8, 100, false⟩
  uuid5 _ := "f4638cf6-214b-5a61-be67-b9ed77e82a79"
  dialect := .sqlite

/-- What `seal_event` makes of one of the two events. -/
def sampleSealed (t : AuditTable) (eventType : String) (now : Int) : AuditEvent :=
  sealEvent sampleDeployment.hmac sampleDeployment.auditKey t now (sampleEvent eventType)

def loginTable : AuditTable :=
  append .sqlite 1767225600000000 .empty 0 (sampleSealed .empty "auth.login" 1767225600000000)

def bothTable : AuditTable :=
  append .sqlite 1767225601000000 loginTable 0
    (sampleSealed loginTable "auth.logout" 1767225601000000)

def logoutRow : AuditRow :=
  ⟨2, (sampleSealed loginTable "auth.logout" 1767225601000000).stored .sqlite 1767225601000000⟩

/-- The table the attacker leaves for a while. -/
def logoutTable : AuditTable := ⟨[logoutRow], List.pairwise_singleton _ _⟩

def sampleSealings : List Sealing := [
  ⟨.empty, lastHash .empty none, (sampleSealed .empty "auth.login" 1767225600000000).content⟩,
  ⟨loginTable, lastHash loginTable none,
    (sampleSealed loginTable "auth.logout" 1767225601000000).content⟩]

def checkpointText : String := dumps [
  ("format", .str "scap-audit-checkpoint-v1"),
  ("checkpoint_id", .str "f4638cf6-214b-5a61-be67-b9ed77e82a79"),
  ("last_event_id", .int 2),
  ("root_hash", .str (hexdigest logoutDigest)),
  ("created_at", .str (DateTime.isoformat 1767225601000000))]

def sampleCheckpoint : AuditCheckpoint where
  id := "f4638cf6-214b-5a61-be67-b9ed77e82a79"
  lastEventId := 2
  rootHash := hexdigest logoutDigest
  signature := signCheckpoint sampleHmac "checkpoint-key".toUTF8 checkpointText
  externalReceipt := none
  deliveredAt := none
  createdAt := ⟨1767225601000000, none⟩

def checkpointTable : CheckpointTable := ⟨[sampleCheckpoint], List.pairwise_singleton _ _⟩

/-- The state both runs end in, but for the table the checkpoint was signed on. -/
def sampleStore (signedOn : AuditTable) : Store :=
  ⟨bothTable, checkpointTable, sampleSealings, [⟨signedOn, sampleCheckpoint⟩]⟩

theorem hmac_sampleDeployment : sampleDeployment.hmac = sampleHmac := rfl

theorem mac_loginText : sampleDeployment.mac loginText.toUTF8 = hexdigest loginDigest := by
  have hlogin : ∀ k, sampleHmac k loginText.toUTF8 = loginDigest := fun _ => if_pos rfl
  rw [Deployment.mac, hmac_sampleDeployment, hlogin]

theorem logoutText_ne : logoutText ≠ loginText := by
  intro h
  have htype := congrArg Content.eventType (signedText_injective h).2
  revert htype
  decide

theorem mac_logoutText : sampleDeployment.mac logoutText.toUTF8 = hexdigest logoutDigest := by
  have hne : logoutText.toUTF8 ≠ loginText.toUTF8 :=
    fun h => logoutText_ne (String.toByteArray_inj.mp h)
  have hlogout : ∀ k, sampleHmac k logoutText.toUTF8 = logoutDigest :=
    fun _ => (if_neg hne).trans (if_pos rfl)
  rw [Deployment.mac, hmac_sampleDeployment, hlogout]

theorem sampleEvent_stampedUtc (eventType : String) : (sampleEvent eventType).StampedUtc :=
  fun _ h => nomatch h

theorem consistent_loginTable :
    Consistent sampleHmac sampleDeployment.auditKey GENESIS_HASH loginTable.rows :=
  ⟨continues_sealEvent (t := .empty) (sampleEvent_stampedUtc _), trivial⟩

theorem lastHash_loginTable : lastHash loginTable none = hexdigest loginDigest := by
  rw [lastHash_of_consistent consistent_loginTable, ← mac_loginText]
  rfl

theorem consistent_bothTable :
    Consistent sampleHmac sampleDeployment.auditKey GENESIS_HASH bothTable.rows := by
  refine consistent_append.mpr ⟨consistent_loginTable, ?_, trivial⟩
  rw [← lastHash_of_consistent consistent_loginTable]
  exact continues_sealEvent (sampleEvent_stampedUtc _)

theorem bothTable_intact : (verifyChain sampleDeployment.hmac sampleDeployment.auditKey bothTable
    none true).intact = true := by
  refine verifyRows_strict.mpr ⟨consistent_bothTable, ?_⟩
  intro r hr
  rcases List.mem_cons.mp hr with rfl | hr
  · rfl
  · rw [List.mem_singleton.mp hr]
    rfl

theorem logoutRow_hash : logoutRow.event.entryHash = some (hexdigest logoutDigest) := by
  rw [← mac_logoutText, logoutText, ← lastHash_loginTable]
  rfl

theorem content_sampleSealed (t : AuditTable) (eventType : String) (now : Int) :
    (sampleSealed t eventType now).content = sampleContent eventType now := rfl

theorem sampleSealings_eq : sampleSealings = [
    ⟨.empty, GENESIS_HASH, sampleContent "auth.login" 1767225600000000⟩,
    ⟨loginTable, hexdigest loginDigest, sampleContent "auth.logout" 1767225601000000⟩] := by
  rw [sampleSealings, lastHash_loginTable, content_sampleSealed, content_sampleSealed]
  rfl

theorem sealedTexts_sampleStore {t : AuditTable} {m : ByteArray}
    (h : m ∈ (sampleStore t).sealedTexts) :
    (m = loginText.toUTF8 ∧ sampleDeployment.mac m = hexdigest loginDigest) ∨
      (m = logoutText.toUTF8 ∧ sampleDeployment.mac m = hexdigest logoutDigest) := by
  obtain ⟨x, hx, rfl⟩ := h
  have hx : x ∈ sampleSealings := hx
  rw [sampleSealings_eq] at hx
  rcases List.mem_cons.mp hx with rfl | hx
  · exact .inl ⟨rfl, mac_loginText⟩
  · rw [List.mem_singleton.mp hx]
    exact .inr ⟨rfl, mac_logoutText⟩

theorem sampleStore_ideal (t : AuditTable) :
    IdealOn sampleDeployment.mac GENESIS_HASH (sampleStore t).sealedTexts := by
  have hne : hexdigest loginDigest ≠ hexdigest logoutDigest := by decide
  constructor
  · intro m hm m' hm' heq
    rcases sealedTexts_sampleStore hm with ⟨rfl, h⟩ | ⟨rfl, h⟩ <;>
      rcases sealedTexts_sampleStore hm' with ⟨rfl, h'⟩ | ⟨rfl, h'⟩
    · rfl
    · exact absurd (h.symm.trans (heq.trans h')) hne
    · exact absurd (h'.symm.trans (heq.symm.trans h)) hne
    · rfl
  · intro m hm
    rcases sealedTexts_sampleStore hm with ⟨-, h⟩ | ⟨-, h⟩
    · rw [h]
      decide
    · rw [h]
      decide

theorem payload_sampleCheckpoint : sampleCheckpoint.payload = some checkpointText := by
  have hvalid : ¬ (sampleCheckpoint.lastEventId < 1 ∨
      validSha256Digest (some (hexdigest logoutDigest)) = false) := by
    rw [validSha256Digest_hexdigest]
    decide
  have hdate : canonicalDatetime (some sampleCheckpoint.createdAt) =
      DateTime.isoformat 1767225601000000 := by
    show DateTime.isoformat (1767225601000000 - 0) = _
    rw [Int.sub_zero]
  show canonicalCheckpoint sampleCheckpoint.id sampleCheckpoint.lastEventId
    (hexdigest logoutDigest) sampleCheckpoint.createdAt = _
  rw [canonicalCheckpoint, if_neg hvalid, hdate]
  rfl

theorem logoutRow_createdAt : logoutRow.event.createdAt = some sampleCheckpoint.createdAt := by
  rfl

theorem planAnchor_sample {t : AuditTable} (hlast : t.last? = some logoutRow) :
    planAnchor sampleDeployment.hmac sampleDeployment.service sampleDeployment.uuid5
      1767225602000000 t .empty = .ok (.fresh sampleCheckpoint) := by
  have hpresent : (verifyLatest sampleDeployment.hmac sampleDeployment.service t
      .empty).present = false := rfl
  have hne : hexdigest logoutDigest ≠ "" := by decide
  have hvalid : validSha256Digest (some (hexdigest logoutDigest)) = true :=
    validSha256Digest_hexdigest _
  have hfree : (KeyedTable.empty : CheckpointTable).find? logoutRow.id = none := rfl
  have hpayload : canonicalCheckpoint (sampleDeployment.uuid5 (Int.repr logoutRow.id ++ ":" ++
      hexdigest logoutDigest)) logoutRow.id (hexdigest logoutDigest)
      sampleCheckpoint.createdAt = some checkpointText :=
    payload_sampleCheckpoint
  unfold planAnchor
  simp only [hpresent, hlast, logoutRow_hash, hne, hvalid, hfree, Bool.false_eq_true, false_and, if_false, logoutRow_createdAt, Option.getD_some, hpayload, Bool.true_eq_false]
  rfl

theorem find?_bothTable : bothTable.find? sampleCheckpoint.lastEventId = some logoutRow := rfl

theorem reasonIn_sample : reasonIn sampleDeployment.hmac sampleDeployment.service bothTable
    sampleCheckpoint = none := by
  have hroot : validSha256Digest (some sampleCheckpoint.rootHash) = true :=
    validSha256Digest_hexdigest _
  have hsigned : validSha256Digest (some sampleCheckpoint.signature) = true :=
    validSha256Digest_hexdigest _
  have hsign : signCheckpoint sampleDeployment.hmac sampleDeployment.service.key checkpointText =
      sampleCheckpoint.signature := rfl
  have hhash : logoutRow.event.entryHash = some sampleCheckpoint.rootHash := logoutRow_hash
  unfold reasonIn integrityReason
  simp only [find?_bothTable, Option.map_some, Option.bind_some, hhash, payload_sampleCheckpoint,
    hroot, hsigned, hsign]
  simp

theorem checkpoints_intact : (verifyLatest sampleDeployment.hmac sampleDeployment.service bothTable
    checkpointTable).intact = true := by
  have hlast : checkpointTable.last? = some sampleCheckpoint := rfl
  refine intact_of_reasonIn hlast fun c hc => ?_
  rw [List.mem_singleton.mp hc]
  exact reasonIn_sample

/-- Both runs begin with the two events. -/
theorem reachable_both : (tamperSystem sampleDeployment).Reachable
    ⟨bothTable, .empty, sampleSealings, []⟩ := by
  have hlogin : (tamperSystem sampleDeployment).step ⟨.empty, .empty, [], []⟩
      (.append (sampleEvent "auth.login") 1767225600000000 0)
      ⟨loginTable, .empty, sampleSealings.take 1, []⟩ := ⟨sampleEvent_stampedUtc _, rfl⟩
  have hlogout : (tamperSystem sampleDeployment).step
      ⟨loginTable, .empty, sampleSealings.take 1, []⟩
      (.append (sampleEvent "auth.logout") 1767225601000000 0)
      ⟨bothTable, .empty, sampleSealings, []⟩ := ⟨sampleEvent_stampedUtc _, rfl⟩
  exact ((System.Reachable.of_init rfl).step hlogin).step hlogout

/-- The checkpoint the application commits is the one it signed. -/
theorem commitAnchor_sample : (commitAnchor sampleDeployment.service sampleDeployment.dialect .empty
    { sampleCheckpoint with externalReceipt := none, deliveredAt := none }).1 = checkpointTable :=
  KeyedTable.ext rfl

theorem reachable_checkpoint {signedOn : AuditTable} (hlast : signedOn.last? = some logoutRow)
    (h : (tamperSystem sampleDeployment).Reachable ⟨signedOn, .empty, sampleSealings, []⟩) :
    (tamperSystem sampleDeployment).Reachable
      ⟨signedOn, checkpointTable, sampleSealings, [⟨signedOn, sampleCheckpoint⟩]⟩ := by
  have hsign : (tamperSystem sampleDeployment).step ⟨signedOn, .empty, sampleSealings, []⟩
      (.sign 1767225602000000)
      ⟨signedOn, .empty, sampleSealings, [⟨signedOn, sampleCheckpoint⟩]⟩ :=
    ⟨sampleCheckpoint, planAnchor_sample hlast, rfl⟩
  have hcommit : (tamperSystem sampleDeployment).step
      ⟨signedOn, .empty, sampleSealings, [⟨signedOn, sampleCheckpoint⟩]⟩
      (.commit sampleCheckpoint none none)
      ⟨signedOn, checkpointTable, sampleSealings, [⟨signedOn, sampleCheckpoint⟩]⟩ := by
    refine ⟨⟨_, List.mem_singleton_self _, rfl⟩, ?_⟩
    rw [commitAnchor_sample]
  exact (h.step hsign).step hcommit

/-- `tamper_evident` on the honest run. -/
theorem tamper_evident_both :
    (∃ x ∈ sampleSealings, x.content = logoutRow.event.content ∧
      SealedOnTop sampleDeployment (sampleStore bothTable) x bothTable.rows.head?) ∧
    (bothTable.upTo 2).map AuditRow.link = bothTable.rows.map AuditRow.link := by
  have hreach : (tamperSystem sampleDeployment).Reachable (sampleStore bothTable) :=
    reachable_checkpoint rfl reachable_both
  obtain ⟨hrows, -, hpinned⟩ := tamper_evident sampleDeployment (sampleStore bothTable) hreach
    (sampleStore_ideal bothTable) bothTable_intact
  obtain ⟨x, hx, hcontent, -, -, -, htop⟩ := hrows bothTable.rows.dropLast logoutRow [] rfl
  obtain ⟨-, -, hsame⟩ := hpinned checkpoints_intact sampleCheckpoint (List.mem_singleton_self _)
  exact ⟨⟨x, hx, hcontent, htop⟩,
    hsame _ (List.mem_singleton_self _) ⟨rfl, rfl, rfl, rfl⟩ bothTable_intact⟩

theorem reachable_attacked :
    (tamperSystem sampleDeployment).Reachable (sampleStore logoutTable) := by
  have hboth := inv_of_reachable reachable_both
  have htake : (tamperSystem sampleDeployment).Reachable
      ⟨logoutTable, .empty, sampleSealings, []⟩ := by
    refine reachable_both.step (a := .rewrite logoutTable .empty) ⟨fun r hr => ?_, ?_, rfl⟩
    · rw [List.mem_singleton.mp hr]
      exact hboth.events logoutRow (List.mem_cons_of_mem _ (List.mem_singleton_self _))
    · simp
  have hsigned := reachable_checkpoint rfl htake
  exact hsigned.step (a := .rewrite bothTable checkpointTable)
    ⟨hboth.events, (inv_of_reachable hsigned).checkpoints, rfl⟩

/-- A checkpoint signed while a row was missing, and everything intact after its return: the rows
up to the checkpoint's event are not those that stood there. -/
theorem rows_since_signing_differ : ∃ s g c,
    (tamperSystem sampleDeployment).Reachable s ∧
    IdealOn sampleDeployment.mac GENESIS_HASH s.sealedTexts ∧
    (verifyChain sampleDeployment.hmac sampleDeployment.auditKey s.events none true).intact =
      true ∧
    (verifyLatest sampleDeployment.hmac sampleDeployment.service s.events s.checkpoints).intact =
      true ∧
    c ∈ s.checkpoints.rows ∧ g ∈ s.signings ∧ SameSigned c g.checkpoint ∧
    (s.events.upTo c.lastEventId).map AuditRow.link ≠
      (g.table.upTo c.lastEventId).map AuditRow.link := by
  refine ⟨sampleStore logoutTable, ⟨logoutTable, sampleCheckpoint⟩, sampleCheckpoint,
    reachable_attacked, sampleStore_ideal _, bothTable_intact, checkpoints_intact,
    List.mem_singleton_self _, List.mem_singleton_self _, ⟨rfl, rfl, rfl, rfl⟩, fun h => ?_⟩
  have hlength : (2 : Nat) = 1 := congrArg List.length h
  exact absurd hlength (by decide)

end Scap.Audit
