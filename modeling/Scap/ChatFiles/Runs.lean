import Scap.ChatFiles.Store
import Scap.Lib.History
import Scap.Lib.Run

/-!
# What the chat files keep to

Runs of the store's methods, by any owners and at any times, with a log of the calls and their
answers.

* `Store.Within` — the three limits, and one pending upload an owner;
* `Inv` — a pending row is an upload that stands in the log, a staged row a staging that does;
* `chat_file_store_invariant` — what follows for the answers of every run.

That the clock does not go back is not needed.
-/

namespace Scap.ChatFiles

open Scap.Py Scap.Lib

variable {φ τ : Type*}

/-! ## Within the limits -/

namespace Store

variable {s t u : Store φ τ}

/-- No owner has two uploads pending. -/
def OnePerOwner (s : Store φ τ) : Prop :=
  ∀ r ∈ s.pending.rows, ∀ r' ∈ s.pending.rows, r.2.owner = r'.2.owner → r = r'

/-- `s.Left t`: of the rows of `t` those of `s` are left. -/
structure Left (s t : Store φ τ) : Prop where
  pending : s.pending ≤ t.pending
  staged : s.staged ≤ t.staged

theorem Left.refl (s : Store φ τ) : s.Left s := ⟨OrderedDict.le_refl _, OrderedDict.le_refl _⟩

theorem Left.trans (h : s.Left t) (h' : t.Left u) : s.Left u :=
  ⟨OrderedDict.le_trans h.pending h'.pending, OrderedDict.le_trans h.staged h'.staged⟩

theorem OnePerOwner.of_left (h : t.OnePerOwner) (hleft : s.Left t) : s.OnePerOwner := by
  intro r hr r' hr' howner
  exact h r (OrderedDict.mem_of_le hleft.pending hr) r' (OrderedDict.mem_of_le hleft.pending hr')
    howner

theorem clear_left {keys : List Str} : (s.clear keys).Left s :=
  ⟨OrderedDict.filter_le _, OrderedDict.filter_le _⟩

theorem prune_left [LinearOrder τ] {now : τ} : (s.prune now).Left s :=
  ⟨OrderedDict.filter_le _, OrderedDict.filter_le _⟩

theorem get_stageAll {staged : OrderedDict Str (Staged φ τ)} {row r : Staged φ τ} {keys : List Str}
    {key : Str} (h : (stageAll staged row keys).get key = some r) :
    (key ∈ keys ∧ r = row) ∨ (key ∉ keys ∧ staged.get key = some r) := by
  induction keys generalizing staged with
  | nil => exact .inr ⟨List.not_mem_nil, h⟩
  | cons k keys ih =>
      rcases ih h with ⟨hmem, hrow⟩ | ⟨hmem, hget⟩
      · exact .inl ⟨List.mem_cons_of_mem k hmem, hrow⟩
      · rw [OrderedDict.get_set] at hget
        split at hget
        · next hkey => exact .inl ⟨hkey ▸ List.mem_cons_self, (Option.some.inj hget).symm⟩
        · next hkey =>
          exact .inr ⟨by simp [hkey, hmem], OrderedDict.get_of_le OrderedDict.pop_le hget⟩

variable [DecidableEq φ] {blob : φ → List UInt8} {cfg : Limits τ}

/-- Files that are among others take no more bytes. -/
theorem bytes_mono {p q : List (Str × Pending φ τ)} {u v : List (Str × Staged φ τ)}
    (hpending : p.Sublist q) (hstaged : u.Sublist v) : bytes blob p u ≤ bytes blob q v := by
  have hfiles : (p.map (fun r => r.2.file) ++ u.map fun r => r.2.file).Sublist
      (q.map (fun r => r.2.file) ++ v.map fun r => r.2.file) :=
    (hpending.map _).append (hstaged.map _)
  unfold bytes
  generalize p.map (fun r => r.2.file) ++ u.map (fun r => r.2.file) = few at hfiles
  generalize q.map (fun r => r.2.file) ++ v.map (fun r => r.2.file) = many at hfiles
  have hdistinct : few.dedup.Subperm many.dedup := by
    apply List.subperm_of_subset (List.nodup_dedup few)
    intro file hfile
    exact List.mem_dedup.mpr (hfiles.subset (List.mem_dedup.mp hfile))
  obtain ⟨files, hperm, hsub⟩ := hdistinct
  rw [← (hperm.map fun file => (blob file).length).sum_eq]
  exact (hsub.map fun file => (blob file).length).sum_le_sum fun n _ => Nat.zero_le n

variable (blob cfg) in
/-- The limits. -/
structure Within (s : Store φ τ) : Prop where
  pending : s.pending.len ≤ cfg.maxPending
  staged : s.staged.len ≤ cfg.maxStaged
  bytes : bytes blob s.pending.rows s.staged.rows ≤ cfg.maxBytes

theorem Within.of_left (h : t.Within blob cfg) (hleft : s.Left t) : s.Within blob cfg where
  pending := (OrderedDict.len_le hleft.pending).trans h.pending
  staged := (OrderedDict.len_le hleft.staged).trans h.staged
  bytes := (bytes_mono hleft.pending hleft.staged).trans h.bytes

theorem enforceBudget_left : (s.enforceBudget blob cfg).Left s where
  pending := OrderedDict.le_trans (OrderedDict.discardUntil_le _) (OrderedDict.discardUntil_le _)
  staged := OrderedDict.le_trans (OrderedDict.discardUntil_le _) (OrderedDict.discardUntil_le _)

/-- The uploads make room first. The staged files have to only when no upload is left. -/
theorem bytes_discardUntil (pending : OrderedDict Str (Pending φ τ))
    (staged : OrderedDict Str (Staged φ τ)) :
    let rest := pending.discardUntil fun rows => bytes blob rows staged.rows ≤ cfg.maxBytes
    bytes blob rest.rows
      (staged.discardUntil fun rows => bytes blob rest.rows rows ≤ cfg.maxBytes).rows
        ≤ cfg.maxBytes := by
  intro rest
  rcases staged.discardUntil_cases fun rows => bytes blob rest.rows rows ≤ cfg.maxBytes
    with hfits | hnone
  · exact of_decide_eq_true hfits
  · rcases pending.discardUntil_cases fun rows => bytes blob rows staged.rows ≤ cfg.maxBytes
      with hfits | hgone
    · exact (bytes_mono (.refl _) (OrderedDict.discardUntil_le _)).trans (of_decide_eq_true hfits)
    · rw [hnone, show rest.rows = [] from hgone]
      exact Nat.zero_le _

/-- **Whatever was stored, the budget is kept to afterwards.** -/
theorem enforceBudget_within : (s.enforceBudget blob cfg).Within blob cfg where
  pending := (OrderedDict.len_le (OrderedDict.discardUntil_le _)).trans
    (OrderedDict.len_discardUntil_le _ _)
  staged := (OrderedDict.len_le (OrderedDict.discardUntil_le _)).trans
    (OrderedDict.len_discardUntil_le _ _)
  bytes := bytes_discardUntil _ _

/-! ## What a method does to the rows -/

variable [LinearOrder τ] [Add τ] {now : τ} {owner uploadId : Str} {keys : List Str} {file : φ}
  {row : Pending φ τ}

variable (blob cfg) in
/-- What a call does: it deletes rows, apart from the one row that it puts up, and the keys that it
stages a file under. -/
inductive Effect (s : Store φ τ) : Op φ τ → Store φ τ × Answer φ → Prop
  | put {t : Store φ τ} {owner : Str} {file : φ} {uploadId : Str} {now : τ}
      (hwithin : t.Within blob cfg)
      (hleft : t.Left ⟨((s.prune now).pending.filter fun r => r.2.owner ≠ owner).set uploadId
        ⟨owner, now + cfg.pendingTtl, file⟩, (s.prune now).staged⟩) :
      Effect s (.putPending owner file uploadId now) (t, .uploadId uploadId)
  | refused {t : Store φ τ} {uploadId : Object} {keys : List Str} {now : τ} {e : Failure}
      (hleft : t.Left s) : Effect s (.claim uploadId keys now) (t, .claimed (.error e))
  | claimed {t : Store φ τ} {uploadId : Str} {keys : List Str} {now : τ} {row : Pending φ τ}
      (hrow : s.pending.get uploadId = some row) (howner : row.owner ∈ keys)
      (hexpiry : now < row.expiresAt) (hwithin : t.Within blob cfg)
      (hleft : t.Left ⟨s.pending.pop uploadId,
        stageAll (s.prune now).staged ⟨now + cfg.stagedTtl, row.file⟩ keys.eraseDups⟩) :
      Effect s (.claim (.str uploadId) keys now) (t, .claimed (.ok row.file))
  | staged {t : Store φ τ} {keys : List Str} {file : φ} {now : τ} (hwithin : t.Within blob cfg)
      (hleft : t.Left ⟨(s.prune now).pending,
        stageAll (s.prune now).staged ⟨now + cfg.stagedTtl, file⟩ keys.eraseDups⟩) :
      Effect s (.stage keys file now) (t, .done)
  | missed {t : Store φ τ} {keys : List Str} {now : τ} (hleft : t.Left s) :
      Effect s (.staged keys now) (t, .found none)
  | found {t : Store φ τ} {keys : List Str} {now : τ} {key : Str} {row : Staged φ τ}
      (hkey : key ∈ keys) (hrow : s.staged.get key = some row) (hexpiry : now < row.expiresAt)
      (hleft : t.Left s) : Effect s (.staged keys now) (t, .found (some row.file))
  | cleared {keys : List Str} : Effect s (.clear keys) (s.clear keys, .done)

theorem claim_effect (uploadId : Object) :
    Effect blob cfg s (.claim uploadId keys now) (s.perform blob cfg (.claim uploadId keys now)) := by
  unfold perform claim
  dsimp only
  split
  · exact .refused (.refl s)
  · split
    · exact .refused (.refl s)
    · next id hid =>
      obtain rfl : uploadId = .str id := by
        unfold uploadId? at hid
        split at hid
        · split at hid
          · rw [Option.some.inj hid]
          · cases hid
        · cases hid
      unfold claimId
      dsimp only
      split
      · exact .refused prune_left
      · next row hrow =>
        have hpop : (⟨(s.prune now).pending.pop id, (s.prune now).staged⟩ : Store φ τ).Left s :=
          Left.trans ⟨OrderedDict.pop_le, OrderedDict.le_refl _⟩ prune_left
        split
        · exact .refused hpop
        · exact .refused hpop
        · next howner =>
          have hkept := OrderedDict.get_eq_some.mp hrow
          have hexpiry : now < row.expiresAt := by simpa using (List.mem_filter.mp hkept).2
          have hmem : row.owner ∈ keys := List.mem_eraseDups.mp (anyEqual_true howner)
          refine .claimed (OrderedDict.get_of_le prune_left.pending hrow) hmem hexpiry
            enforceBudget_within (enforceBudget_left.trans ⟨?_, OrderedDict.le_refl _⟩)
          exact OrderedDict.pop_mono prune_left.pending

theorem staged_effect :
    Effect blob cfg s (.staged keys now) (s.perform blob cfg (.staged keys now)) := by
  unfold perform findStaged
  dsimp only
  cases hfound : keys.findSome? fun key => ((s.prune now).staged.get key).map Staged.file with
  | none => exact .missed prune_left
  | some file =>
      obtain ⟨key, hkey, hget⟩ := List.exists_of_findSome?_eq_some hfound
      obtain ⟨row, hrow, rfl⟩ := Option.map_eq_some_iff.mp hget
      have hkept := OrderedDict.get_eq_some.mp hrow
      have hexpiry : now < row.expiresAt := by simpa using (List.mem_filter.mp hkept).2
      exact .found hkey (OrderedDict.get_of_le prune_left.staged hrow) hexpiry prune_left

theorem perform_effect (op : Op φ τ) : Effect blob cfg s op (s.perform blob cfg op) := by
  cases op with
  | putPending owner file uploadId now => exact .put enforceBudget_within enforceBudget_left
  | claim uploadId keys now => exact claim_effect uploadId
  | stage keys file now => exact .staged enforceBudget_within enforceBudget_left
  | staged keys now => exact staged_effect
  | clear keys => exact .cleared

end Store

/-! ## Runs -/

variable [DecidableEq φ] [LinearOrder τ] [Add τ] (blob : φ → List UInt8) (cfg : Limits τ)

/-- The store and what happened so far. -/
structure Monitor (φ τ : Type*) where
  store : Store φ τ
  log : List (Entry φ τ)

def Monitor.after (m : Monitor φ τ) (op : Op φ τ) : Monitor φ τ :=
  let (store, answer) := m.store.perform blob cfg op
  ⟨store, m.log ++ [(op, answer)]⟩

def chatFiles : System (Monitor φ τ) (Op φ τ) :=
  System.ofFun (fun m => m = ⟨.empty, []⟩) fun m op => some (m.after blob cfg op)

/-! ## What an entry says -/

namespace Entry

/-- `row` was put under `uploadId`. -/
def Puts (uploadId : Str) (row : Pending φ τ) (e : Entry φ τ) : Prop :=
  ∃ now, e = (.putPending row.owner row.file uploadId now, .uploadId uploadId) ∧
    row.expiresAt = now + cfg.pendingTtl

/-- The upload under `uploadId` was claimed with `keys`. -/
def Claims (uploadId : Object) (keys : List Str) (now : τ) (file : φ) (e : Entry φ τ) : Prop :=
  e = (.claim uploadId keys now, .claimed (.ok file))

/-- A claim or `stage` of the row's file, with `key` among the keys. -/
def Stages (key : Str) (row : Staged φ τ) (e : Entry φ τ) : Prop :=
  ∃ keys now, key ∈ keys ∧ row.expiresAt = now + cfg.stagedTtl ∧
    ((∃ uploadId, Claims uploadId keys now row.file e) ∨ e = (.stage keys row.file now, .done))

/-- `staged` found the file. -/
def Finds (keys : List Str) (now : τ) (file : φ) (e : Entry φ τ) : Prop :=
  e = (.staged keys now, .found (some file))

def Clears (key : Str) (e : Entry φ τ) : Prop := ∃ keys, e = (.clear keys, .done) ∧ key ∈ keys

/-- Another upload came under the id, or the upload was claimed. -/
def EndsUpload (uploadId : Str) (e : Entry φ τ) : Prop :=
  (∃ row, Puts cfg uploadId row e) ∨ ∃ keys now file, Claims (.str uploadId) keys now file e

/-- Another file came under the key, or the key was cleared. -/
def EndsStaging (key : Str) (e : Entry φ τ) : Prop := (∃ row, Stages cfg key row e) ∨ Clears key e

end Entry

/-! ## One call -/

section Call

variable {blob cfg} {s : Store φ τ} {op : Op φ τ} {r : Store φ τ × Answer φ} {id key : Str}
  {row : Pending φ τ} {staged : Staged φ τ}

namespace Store.Effect

theorem within (h : Effect blob cfg s op r) (hs : s.Within blob cfg) : r.1.Within blob cfg := by
  cases h with
  | put hwithin _ => exact hwithin
  | refused hleft => exact hs.of_left hleft
  | claimed _ _ _ hwithin _ => exact hwithin
  | staged hwithin _ => exact hwithin
  | missed hleft => exact hs.of_left hleft
  | found _ _ _ hleft => exact hs.of_left hleft
  | cleared => exact hs.of_left clear_left

/-- An upload takes the place of its owner's. -/
theorem onePerOwner (h : Effect blob cfg s op r) (hs : s.OnePerOwner) : r.1.OnePerOwner := by
  have hfewer : ∀ {t : Store φ τ}, t.pending ≤ s.pending → t.OnePerOwner :=
    fun {t} hle => OnePerOwner.of_left hs (t := ⟨s.pending, t.staged⟩) ⟨hle, OrderedDict.le_refl _⟩
  cases h with
  | @put t owner file uploadId now _ hleft =>
      refine OnePerOwner.of_left ?_ hleft
      intro r hr r' hr' howner
      have hothers : ∀ x ∈ ((s.prune now).pending.filter fun r => r.2.owner ≠ owner).rows,
          x ∈ s.pending.rows ∧ x.2.owner ≠ owner := by
        intro x hx
        obtain ⟨hold, hne⟩ := List.mem_filter.mp hx
        exact ⟨OrderedDict.mem_of_le prune_left.pending hold, by simpa using hne⟩
      rcases OrderedDict.mem_set.mp hr with rfl | ⟨hold, -⟩
      · rcases OrderedDict.mem_set.mp hr' with rfl | ⟨hold', -⟩
        · rfl
        · exact absurd howner.symm (hothers r' hold').2
      · rcases OrderedDict.mem_set.mp hr' with rfl | ⟨hold', -⟩
        · exact absurd howner (hothers r hold).2
        · exact hs r (hothers r hold).1 r' (hothers r' hold').1 howner
  | refused hleft => exact hfewer hleft.pending
  | claimed _ _ _ _ hleft => exact hfewer (OrderedDict.le_trans hleft.pending OrderedDict.pop_le)
  | staged _ hleft => exact hfewer (OrderedDict.le_trans hleft.pending prune_left.pending)
  | missed hleft => exact hfewer hleft.pending
  | found _ _ _ hleft => exact hfewer hleft.pending
  | cleared => exact hfewer clear_left.pending

/-- A pending row is the new one, or it was there before and is not the one claimed. -/
theorem pending (h : Effect blob cfg s op r) (hget : r.1.pending.get id = some row) :
    Entry.Puts cfg id row (op, r.2) ∨
      (s.pending.get id = some row ∧ ¬ Entry.EndsUpload cfg id (op, r.2)) := by
  cases h with
  | @put t owner file uploadId now _ hleft =>
      replace hget := OrderedDict.get_of_le hleft.pending hget
      rw [OrderedDict.get_set] at hget
      split at hget
      · next hid =>
        obtain rfl := Option.some.inj hget
        exact .inl ⟨now, by rw [hid], rfl⟩
      · next hid =>
        have hold : s.pending.get id = some row :=
          OrderedDict.get_of_le (OrderedDict.le_trans (OrderedDict.filter_le _) prune_left.pending)
            hget
        refine .inr ⟨hold, ?_⟩
        rintro (⟨_, _, hentry, _⟩ | ⟨_, _, _, hentry⟩)
        · cases hentry
          exact hid rfl
        · cases hentry
  | claimed _ _ _ _ hleft =>
      replace hget := OrderedDict.get_of_le hleft.pending hget
      refine .inr ⟨OrderedDict.get_of_le OrderedDict.pop_le hget, ?_⟩
      rintro (⟨_, _, hentry, _⟩ | ⟨_, _, _, hentry⟩)
      · cases hentry
      · cases hentry
        rw [OrderedDict.get_pop_self] at hget
        cases hget
  | refused hleft =>
      exact .inr ⟨OrderedDict.get_of_le hleft.pending hget, by
        simp [Entry.EndsUpload, Entry.Puts, Entry.Claims]⟩
  | staged _ hleft =>
      exact .inr ⟨OrderedDict.get_of_le (OrderedDict.le_trans hleft.pending prune_left.pending) hget,
        by simp [Entry.EndsUpload, Entry.Puts, Entry.Claims]⟩
  | missed hleft =>
      exact .inr ⟨OrderedDict.get_of_le hleft.pending hget, by
        simp [Entry.EndsUpload, Entry.Puts, Entry.Claims]⟩
  | found _ _ _ hleft =>
      exact .inr ⟨OrderedDict.get_of_le hleft.pending hget, by
        simp [Entry.EndsUpload, Entry.Puts, Entry.Claims]⟩
  | cleared =>
      exact .inr ⟨OrderedDict.get_of_le clear_left.pending hget, by
        simp [Entry.EndsUpload, Entry.Puts, Entry.Claims]⟩

/-- A staged row is the new one, or it was there before and its key is not among those staged or
cleared. -/
theorem staged_row (h : Effect blob cfg s op r) (hget : r.1.staged.get key = some staged) :
    Entry.Stages cfg key staged (op, r.2) ∨
      (s.staged.get key = some staged ∧ ¬ Entry.EndsStaging cfg key (op, r.2)) := by
  cases h with
  | put _ hleft =>
      exact .inr ⟨OrderedDict.get_of_le (OrderedDict.le_trans hleft.staged prune_left.staged) hget,
        by simp [Entry.EndsStaging, Entry.Stages, Entry.Claims, Entry.Clears]⟩
  | @claimed t uploadId keys now row _ _ _ _ hleft =>
      rcases get_stageAll (OrderedDict.get_of_le hleft.staged hget) with ⟨hkey, rfl⟩ | ⟨hkey, hold⟩
      · exact .inl ⟨keys, now, List.mem_eraseDups.mp hkey, rfl, .inl ⟨.str uploadId, rfl⟩⟩
      · refine .inr ⟨OrderedDict.get_of_le prune_left.staged hold, ?_⟩
        rintro (⟨_, _, _, hmem, _, ⟨_, hentry⟩ | hentry⟩ | ⟨_, hentry, _⟩)
        · simp only [Entry.Claims, Prod.mk.injEq, Op.claim.injEq] at hentry
          exact hkey (List.mem_eraseDups.mpr (hentry.1.2.1 ▸ hmem))
        · cases hentry
        · cases hentry
  | @staged t keys file now _ hleft =>
      rcases get_stageAll (OrderedDict.get_of_le hleft.staged hget) with ⟨hkey, rfl⟩ | ⟨hkey, hold⟩
      · exact .inl ⟨keys, now, List.mem_eraseDups.mp hkey, rfl, .inr rfl⟩
      · refine .inr ⟨OrderedDict.get_of_le prune_left.staged hold, ?_⟩
        rintro (⟨_, _, _, hmem, _, ⟨_, hentry⟩ | hentry⟩ | ⟨_, hentry, _⟩)
        · cases hentry
        · cases hentry
          exact hkey (List.mem_eraseDups.mpr hmem)
        · cases hentry
  | refused hleft =>
      exact .inr ⟨OrderedDict.get_of_le hleft.staged hget, by
        simp [Entry.EndsStaging, Entry.Stages, Entry.Claims, Entry.Clears]⟩
  | missed hleft =>
      exact .inr ⟨OrderedDict.get_of_le hleft.staged hget, by
        simp [Entry.EndsStaging, Entry.Stages, Entry.Claims, Entry.Clears]⟩
  | found _ _ _ hleft =>
      exact .inr ⟨OrderedDict.get_of_le hleft.staged hget, by
        simp [Entry.EndsStaging, Entry.Stages, Entry.Claims, Entry.Clears]⟩
  | @cleared keys =>
      have hkept := List.mem_filter.mp (OrderedDict.get_eq_some.mp hget)
      refine .inr ⟨OrderedDict.get_eq_some.mpr hkept.1, ?_⟩
      rintro (⟨_, _, _, _, _, ⟨_, hentry⟩ | hentry⟩ | ⟨_, hentry, hmem⟩)
      · cases hentry
      · cases hentry
      · cases hentry
        simp [hmem] at hkept

end Store.Effect

end Call

/-! ## Every run -/

section Runs

variable {blob cfg} {m : Monitor φ τ}

/-- An answer that hands a file out is justified by what stands in the log: a claim by an upload of
one of its keys that has not expired, a lookup by a staging under one of its keys that has not. -/
def AnswerJustified (cfg : Limits τ) (log : List (Entry φ τ)) (j : Nat) (e : Entry φ τ) : Prop :=
  (∀ uploadId keys now file, Entry.Claims uploadId keys now file e → ∃ i id row,
    uploadId = .str id ∧ Stands (Entry.Puts cfg id row) (Entry.EndsUpload cfg id) log i j ∧
      row.owner ∈ keys ∧ now < row.expiresAt ∧ row.file = file) ∧
  ∀ keys now file, Entry.Finds keys now file e → ∃ i key row, key ∈ keys ∧
    Stands (Entry.Stages cfg key row) (Entry.EndsStaging cfg key) log i j ∧
      now < row.expiresAt ∧ row.file = file

/-- What holds of the store and its log. -/
structure Inv (blob : φ → List UInt8) (cfg : Limits τ) (m : Monitor φ τ) : Prop where
  within : m.store.Within blob cfg
  onePerOwner : m.store.OnePerOwner
  pending : ∀ id row, m.store.pending.get id = some row →
    ∃ i, Stands (Entry.Puts cfg id row) (Entry.EndsUpload cfg id) m.log i m.log.length
  staged : ∀ key row, m.store.staged.get key = some row →
    ∃ i, Stands (Entry.Stages cfg key row) (Entry.EndsStaging cfg key) m.log i m.log.length
  justified : Justified (AnswerJustified cfg) m.log

omit [DecidableEq φ] in
theorem answerJustified_append {log : List (Entry φ τ)} {j : Nat} {e : Entry φ τ}
    (hj : j < log.length) (x : Entry φ τ) (h : AnswerJustified cfg log j x) :
    AnswerJustified cfg (log ++ [e]) j x := by
  constructor
  · intro uploadId keys now file hclaim
    obtain ⟨i, id, row, hid, hstands, hrest⟩ := h.1 uploadId keys now file hclaim
    exact ⟨i, id, row, hid, hstands.append hj.le [e], hrest⟩
  · intro keys now file hfound
    obtain ⟨i, key, row, hkey, hstands, hrest⟩ := h.2 keys now file hfound
    exact ⟨i, key, row, hkey, hstands.append hj.le [e], hrest⟩

theorem inv_init : Inv blob cfg (⟨.empty, []⟩ : Monitor φ τ) where
  within := ⟨Nat.zero_le _, Nat.zero_le _, Nat.zero_le _⟩
  onePerOwner r hr := absurd hr List.not_mem_nil
  pending id row h := by cases h
  staged key row h := by cases h
  justified := .nil

theorem inv_after (h : Inv blob cfg m) (op : Op φ τ) : Inv blob cfg (m.after blob cfg op) := by
  have heffect : Store.Effect blob cfg m.store op (m.store.perform blob cfg op) :=
    Store.perform_effect op
  show Inv blob cfg ⟨(m.store.perform blob cfg op).1,
    m.log ++ [(op, (m.store.perform blob cfg op).2)]⟩
  generalize m.store.perform blob cfg op = r at heffect
  refine ⟨heffect.within h.within, heffect.onePerOwner h.onePerOwner, ?_, ?_, ?_⟩
  · intro id row hget
    rcases heffect.pending hget with hnew | ⟨hold, hends⟩
    · exact ⟨_, .last hnew⟩
    · exact (h.pending id row hold).imp fun i hstands => hstands.later hends
  · intro key row hget
    rcases heffect.staged_row hget with hnew | ⟨hold, hends⟩
    · exact ⟨_, .last hnew⟩
    · exact (h.staged key row hold).imp fun i hstands => hstands.later hends
  · refine h.justified.snoc (fun j x hj hx => answerJustified_append hj x hx) ⟨?_, ?_⟩
    · intro uploadId keys now file hclaim
      cases heffect with
      | claimed hrow howner hexpiry _ _ =>
          cases hclaim
          obtain ⟨i, hstands⟩ := h.pending _ _ hrow
          exact ⟨i, _, _, rfl, hstands.append (Nat.le_refl _) _, howner, hexpiry, rfl⟩
      | _ => cases hclaim
    · intro keys now file hfound
      cases heffect with
      | found hkey hrow hexpiry _ =>
          cases hfound
          obtain ⟨i, hstands⟩ := h.staged _ _ hrow
          exact ⟨i, _, _, hkey, hstands.append (Nat.le_refl _) _, hexpiry, rfl⟩
      | _ => cases hfound

theorem inv_of_reachable (h : (chatFiles blob cfg).Reachable m) : Inv blob cfg m := by
  apply System.Reachable.induct (I := Inv blob cfg) ?_ ?_ h
  · intro s hs
    rw [hs]
    exact inv_init
  · intro s op t _ hinv hstep
    obtain rfl := Option.some.inj hstep
    exact inv_after hinv op

/-- The claim at `j` claims the upload put at `i`: no other came under its id in between. -/
def ClaimsUpload (cfg : Limits τ) (log : List (Entry φ τ)) (i j : Nat) (row : Pending φ τ)
    (keys : List Str) (now : τ) : Prop :=
  ∃ id, Stands (Entry.Puts cfg id row) (fun e => ∃ row, Entry.Puts cfg id row e) log i j ∧
    ∃ e, log[j]? = some e ∧ Entry.Claims (.str id) keys now row.file e

variable (blob cfg) in
/-- What the store promises. -/
structure Sound (m : Monitor φ τ) : Prop where
  within : m.store.Within blob cfg
  onePerOwner : m.store.OnePerOwner
  /-- A successful claim is that of an upload of one of its keys, before it expires. -/
  claims : ∀ j uploadId keys now file,
    m.log[j]? = some (.claim uploadId keys now, .claimed (.ok file)) → ∃ i row,
      ClaimsUpload cfg m.log i j row keys now ∧ row.file = file ∧ row.owner ∈ keys ∧
        now < row.expiresAt
  /-- An upload is claimed at most once. -/
  once : ∀ i j j' row row' keys keys' now now', ClaimsUpload cfg m.log i j row keys now →
    ClaimsUpload cfg m.log i j' row' keys' now' → j = j'
  /-- Under a key stands the file that was last claimed or staged with it. -/
  stagings : ∀ key row, m.store.staged.get key = some row →
    ∃ i, Stands (Entry.Stages cfg key row) (Entry.EndsStaging cfg key) m.log i m.log.length
  /-- A lookup finds the file last claimed or staged with one of its keys, before it expires. -/
  returns : ∀ j keys now file, m.log[j]? = some (.staged keys now, .found (some file)) →
    ∃ i key row, key ∈ keys ∧ row.file = file ∧ now < row.expiresAt ∧
      Stands (Entry.Stages cfg key row) (Entry.EndsStaging cfg key) m.log i j

/-- Of two claims the later one finds its upload among what was put after the earlier one. -/
theorem Inv.once {i j j' : Nat} {row row' : Pending φ τ} {keys keys' : List Str} {now now' : τ}
    (h : Inv blob cfg m) (hj : ClaimsUpload cfg m.log i j row keys now)
    (hj' : ClaimsUpload cfg m.log i j' row' keys' now') : ¬ j < j' := by
  intro hlt
  obtain ⟨id, hstands, e, he, hclaim⟩ := hj
  obtain ⟨id', hstands', e', he', hclaim'⟩ := hj'
  obtain ⟨x, hx, now₁, hput, -⟩ := hstands.here
  obtain ⟨x', hx', now₂, hput', -⟩ := hstands'.here
  obtain rfl : id' = id := by
    have hsame : x' = x := Option.some.inj (hx'.symm.trans hx)
    rw [hput, hput'] at hsame
    simp only [Prod.mk.injEq, Answer.uploadId.injEq] at hsame
    exact hsame.2
  obtain ⟨n, id'', row'', hid, hjust, -⟩ := (h.justified j' e' he').1 _ _ _ _ hclaim'
  obtain rfl := Object.str.inj hid
  have hputs := hjust.mono (fun _ h => h) (fun _ (h : ∃ row, Entry.Puts cfg id' row _) => .inl h)
  obtain rfl := hputs.unique hstands' (fun _ h => ⟨_, h⟩) (fun _ h => ⟨_, h⟩)
  exact hjust.quiet j e hstands.lt hlt he (.inr ⟨_, _, _, hclaim⟩)

/-- **Whatever is called, the store stays within its limits, hands an upload out once, to its owner
and in time, and a staged file to who staged it.** -/
theorem chat_file_store_invariant (h : (chatFiles blob cfg).Reachable m) : Sound blob cfg m := by
  have hinv := inv_of_reachable h
  refine ⟨hinv.within, hinv.onePerOwner, ?_, ?_, hinv.staged, ?_⟩
  · intro j uploadId keys now file he
    obtain ⟨i, id, row, rfl, hstands, howner, hexpiry, rfl⟩ :=
      (hinv.justified j _ he).1 uploadId keys now file rfl
    refine ⟨i, row, ⟨id, ?_, _, he, rfl⟩, rfl, howner, hexpiry⟩
    exact hstands.mono (fun _ h => h) fun _ h => .inl h
  · intro i j j' row row' keys keys' now now' hj hj'
    exact Nat.le_antisymm (Nat.not_lt.mp (hinv.once hj' hj)) (Nat.not_lt.mp (hinv.once hj hj'))
  · intro j keys now file he
    obtain ⟨i, key, row, hkey, hstands, hexpiry, hfile⟩ :=
      (hinv.justified j _ he).2 keys now file rfl
    exact ⟨i, key, row, hkey, hfile, hexpiry, hstands⟩

end Runs

/-! ## A run -/

/-- A small store: two uploads, two keys, 10 bytes. -/
def sampleLimits : Limits Nat := ⟨10, 2, 2, 600, 3600⟩

def sampleBlob (file : Nat) : List UInt8 := List.replicate file 0

def alice : Str := [0x61]

def bob : Str := [0x62]

/-- An upload id, and another. -/
def firstId : Str := List.replicate 32 0x41

def secondId : Str := List.replicate 32 0x42

/-- Alice and Bob upload, Bob tries to claim Alice's upload, and then claims his own. -/
def sampleCalls : List (Op Nat Nat) :=
  [.putPending alice 4 firstId 0, .putPending bob 5 secondId 1, .claim (.str firstId) [bob] 2,
    .claim (.str secondId) [alice, bob] 3, .claim (.str secondId) [bob] 4, .staged [alice] 5,
    .staged [bob] 4000]

def sampleMonitor : Monitor Nat Nat :=
  sampleCalls.foldl (Monitor.after sampleBlob sampleLimits) ⟨.empty, []⟩

theorem sample_reachable : (chatFiles sampleBlob sampleLimits).Reachable sampleMonitor :=
  ⟨⟨.empty, []⟩, sampleCalls, rfl, System.run_of_exec rfl⟩

theorem chat_file_store_sample :
    sampleMonitor.log.map Prod.snd = [.uploadId firstId, .uploadId secondId,
      .claimed (.error .expired), .claimed (.ok 5), .claimed (.error .expired), .found (some 5),
      .found none] ∧ Sound sampleBlob sampleLimits sampleMonitor :=
  ⟨by decide +kernel, chat_file_store_invariant sample_reachable⟩

end Scap.ChatFiles
