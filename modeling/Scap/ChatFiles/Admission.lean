import Mathlib.Data.Rat.Floor
import Scap.Lib.Run
import Scap.Lib.SlidingWindow
import Scap.Py.Object
import Scap.Py.OrderedDict

/-!
# Admission of uploads

`ChatFileStore.admit`: for every owner the times of the admitted uploads, in a table that loses its
oldest row when it has grown too large. The row that goes may be one whose times still count, and
the owner then starts anew.

* `admit_bounded` — as long as only rows go whose times are over, no owner is admitted more often
  than allowed in any window;
* `evicted_owner_again` — a run in which an owner is.

Clock readings are rational numbers, and a call runs under the lock of the store.
-/

namespace Scap.ChatFiles

open Scap.Py Scap.Lib SlidingWindow

/-- `_recent`. -/
abbrev Recent := OrderedDict Str (List ℚ)

/-- How many owners `_recent` may hold. -/
def maxOwners : Nat := 4096

section Admit

variable (uploadsPerWindow : Nat) (window : ℚ)

/-- `admit`. -/
def admitOwner (recent : Recent) (owner : Str) (now : ℚ) : Recent × Bool :=
  let times := ((recent.get owner).getD []).dropWhile fun t => t ≤ now - window
  let recent := recent.set owner times
  if uploadsPerWindow ≤ times.length then (recent, false)
  else
    let recent := recent.set owner (times ++ [now])
    let recent := recent.filter fun r => !r.2.isEmpty
    (if maxOwners < recent.len then recent.popOldest else recent, true)

/-! ## Runs -/

/-- The table, the last reading of the clock, and who was admitted when. -/
structure Uploads where
  recent : Recent
  clock : ℚ
  admitted : List (Str × ℚ)

/-- A call, at a time that is not before the last one. -/
def Uploads.call (s : Uploads) (a : Str × ℚ) : Option Uploads :=
  if s.clock ≤ a.2 then
    let answer := admitOwner uploadsPerWindow window s.recent a.1 a.2
    some ⟨answer.1, a.2, if answer.2 then s.admitted ++ [a] else s.admitted⟩
  else none

/-- The store before its first call. -/
def Uploads.new (clock : ℚ) : Uploads := ⟨.empty, clock, []⟩

/-- The calls of `admit`. -/
def uploadSystem : System Uploads (Str × ℚ) :=
  .ofFun (fun s => ∃ clock, s = .new clock) (Uploads.call uploadsPerWindow window)

end Admit

/-- When an owner was admitted. -/
def times (admitted : List (Str × ℚ)) (owner : Str) : List ℚ :=
  (admitted.filter fun a => a.1 = owner).map Prod.snd

/-- A call finds no row that still counts at the place of the row that has to go. -/
def Spares (window : ℚ) (s : Uploads) (a : Str × ℚ) : Prop :=
  s.recent.get a.1 = none → maxOwners ≤ s.recent.len →
    ∀ oldest ∈ s.recent.rows.head?, ∀ t ∈ oldest.2, t ≤ a.2 - window

/-! ## What the table knows -/

/-- The times in the row of an owner. -/
def Recent.history (recent : Recent) (owner : Str) : List ℚ := (recent.get owner).getD []

namespace Recent

variable {recent : Recent} {owner o : Str} {ts : List ℚ}

theorem history_set :
    history (recent.set owner ts) o = if o = owner then ts else history recent o := by
  rw [history, OrderedDict.get_set]
  split <;> rfl

/-- Rows without a time say nothing. -/
theorem history_filter : history (recent.filter fun r => !r.2.isEmpty) o = history recent o := by
  rw [history, history]
  cases hget : recent.get o with
  | none =>
      have hnone : (recent.filter fun r => !r.2.isEmpty).get o = none := by
        rw [Option.eq_none_iff_forall_ne_some]
        intro ts hts
        rw [OrderedDict.get_of_le (OrderedDict.filter_le _) hts] at hget
        cases hget
      rw [hnone]
  | some ts =>
      cases hfilter : (recent.filter fun r => !r.2.isEmpty).get o with
      | some ts' =>
          rw [OrderedDict.get_of_le (OrderedDict.filter_le _) hfilter] at hget
          rw [← hget]
      | none =>
          cases ts with
          | nil => rfl
          | cons t ts =>
              have hmem : (o, t :: ts) ∈ (recent.filter fun r => !r.2.isEmpty).rows :=
                List.mem_filter.mpr ⟨OrderedDict.get_eq_some.mp hget, rfl⟩
              rw [OrderedDict.get_eq_some.mpr hmem] at hfilter
              cases hfilter

theorem history_popOldest {r : Str × List ℚ} {rest : List (Str × List ℚ)}
    (h : recent.rows = r :: rest) :
    history recent.popOldest o = if r.1 = o then [] else history recent o := by
  rw [history, OrderedDict.get_popOldest h]
  split <;> rfl

end Recent

/-- What counts of the table counts of the admissions, which are nowhere too dense. The table holds
no row without a time, and not more rows than it may, unless nobody is ever admitted. -/
structure Counting (uploadsPerWindow : Nat) (window : ℚ) (s : Uploads) : Prop where
  agree : ∀ o, Agree window s.clock (s.recent.history o) (times s.admitted o)
  sorted : ∀ o, (s.recent.history o).Pairwise (· ≤ ·)
  le : ∀ o, ∀ t ∈ s.recent.history o, t ≤ s.clock
  sparse : ∀ o, Sparse window uploadsPerWindow (times s.admitted o)
  nonempty : 0 < uploadsPerWindow → ∀ r ∈ s.recent.rows, r.2 ≠ []
  len_le : 0 < uploadsPerWindow → s.recent.len ≤ maxOwners

section Step

variable {uploadsPerWindow : Nat} {window : ℚ} {s t : Uploads} {a : Str × ℚ}

theorem times_append {admitted : List (Str × ℚ)} {o : Str} :
    times (admitted ++ [a]) o = times admitted o ++ if a.1 = o then [a.2] else [] := by
  unfold times
  rw [List.filter_append, List.map_append]
  by_cases h : a.1 = o <;> simp [h]

theorem counting_new (clock : ℚ) : Counting uploadsPerWindow window (.new clock) where
  agree _ := Agree.refl _
  sorted _ := List.Pairwise.nil
  le _ _ h := absurd h List.not_mem_nil
  sparse _ := sparse_nil
  nonempty _ _ h := absurd h List.not_mem_nil
  len_le _ := Nat.zero_le _

/-- What the call counts for its owner. -/
theorem Counting.dropWhile_eq (h : Counting uploadsPerWindow window s) (o : Str) (now : ℚ) :
    (((s.recent.get o).getD []).dropWhile fun t => t ≤ now - window) =
      live window now (s.recent.history o) :=
  dropWhile_eq_live (h.sorted o)

/-- A call that is refused only forgets times that are over. -/
theorem Counting.refused (h : Counting uploadsPerWindow window s) (hle : s.clock ≤ a.2)
    (hfull : uploadsPerWindow ≤ (live window a.2 (s.recent.history a.1)).length) :
    Counting uploadsPerWindow window
      ⟨s.recent.set a.1 (live window a.2 (s.recent.history a.1)), a.2, s.admitted⟩ where
  agree o := by
    have hagree := (h.agree o).mono hle
    show Agree window a.2 (Recent.history _ o) _
    rw [Recent.history_set]
    split
    · next heq =>
      subst heq
      exact agree_live.trans hagree
    · exact hagree
  sorted o := by
    show (Recent.history _ o).Pairwise _
    rw [Recent.history_set]
    split
    · exact (h.sorted a.1).sublist live_sublist
    · exact h.sorted o
  le o := by
    show ∀ t ∈ Recent.history _ o, t ≤ a.2
    rw [Recent.history_set]
    intro t ht
    split at ht
    · exact (h.le _ t (mem_live.mp ht).1).trans hle
    · exact (h.le o t ht).trans hle
  sparse := h.sparse
  nonempty hpos r hr := by
    rcases OrderedDict.mem_set.mp hr with rfl | ⟨hr, -⟩
    · exact List.ne_nil_of_length_pos (hpos.trans_le hfull)
    · exact h.nonempty hpos r hr
  len_le hpos := by
    cases hget : s.recent.get a.1 with
    | some ts =>
        have hlen := OrderedDict.len_set_of_get (v := live window a.2 (s.recent.history a.1)) hget
        exact hlen.le.trans (h.len_le hpos)
    | none =>
        -- an owner without a row has room
        rw [Recent.history, hget] at hfull
        exact absurd hfull (Nat.not_le.mpr hpos)

/-- The table in which the call stands, and what it knows of each owner. -/
def entered (window : ℚ) (s : Uploads) (a : Str × ℚ) : Recent :=
  (s.recent.set a.1 (live window a.2 (s.recent.history a.1) ++ [a.2])).filter fun r => !r.2.isEmpty

theorem history_entered (o : Str) : (entered window s a).history o =
    if o = a.1 then live window a.2 (s.recent.history a.1) ++ [a.2] else s.recent.history o := by
  rw [entered, Recent.history_filter, Recent.history_set]

/-- The call that is admitted is entered in the table and in the log. -/
theorem Counting.entered (h : Counting uploadsPerWindow window s) (hle : s.clock ≤ a.2)
    (hroom : (live window a.2 (s.recent.history a.1)).length < uploadsPerWindow) (o : Str) :
    Agree window a.2 ((ChatFiles.entered window s a).history o) (times (s.admitted ++ [a]) o) ∧
      ((ChatFiles.entered window s a).history o).Pairwise (· ≤ ·) ∧
      (∀ t ∈ (ChatFiles.entered window s a).history o, t ≤ a.2) ∧
      Sparse window uploadsPerWindow (times (s.admitted ++ [a]) o) := by
  have hagree := (h.agree o).mono hle
  rw [history_entered, times_append]
  by_cases heq : o = a.1
  · subst heq
    have hbefore : ∀ t ∈ live window a.2 (s.recent.history a.1), t ≤ a.2 :=
      fun t ht => (h.le _ t (mem_live.mp ht).1).trans hle
    rw [if_pos rfl, if_pos rfl]
    refine ⟨Agree.append (agree_live.trans hagree) _, ?_, ?_, ?_⟩
    · rw [List.pairwise_append]
      refine ⟨(h.sorted a.1).sublist live_sublist, List.pairwise_singleton _ _, ?_⟩
      intro t ht u hu
      rw [List.mem_singleton.mp hu]
      exact hbefore t ht
    · intro t ht
      rcases List.mem_append.mp ht with ht | ht
      · exact hbefore t ht
      · exact (List.mem_singleton.mp ht).le
    · exact (h.sparse a.1).append (hagree ▸ hroom)
  · rw [if_neg heq, if_neg (Ne.symm heq), List.append_nil]
    exact ⟨hagree, h.sorted o, fun t ht => (h.le o t ht).trans hle, h.sparse o⟩

/-- No row of the table is lost when the call is entered. -/
theorem Counting.rows_entered (h : Counting uploadsPerWindow window s)
    (hpos : 0 < uploadsPerWindow) : (ChatFiles.entered window s a).rows =
      (s.recent.set a.1 (live window a.2 (s.recent.history a.1) ++ [a.2])).rows := by
  apply List.filter_eq_self.mpr
  intro r hr
  rcases OrderedDict.mem_set.mp hr with rfl | ⟨hr, -⟩
  · simp
  · simpa using h.nonempty hpos r hr

/-- The row that goes is the oldest one of the table before the call. -/
theorem Counting.oldest (h : Counting uploadsPerWindow window s) (hpos : 0 < uploadsPerWindow)
    (hmany : maxOwners < (ChatFiles.entered window s a).len) :
    s.recent.get a.1 = none ∧ maxOwners ≤ s.recent.len ∧ ∃ r rest, s.recent.rows = r :: rest ∧
      (ChatFiles.entered window s a).rows =
        r :: (rest ++ [(a.1, live window a.2 (s.recent.history a.1) ++ [a.2])]) := by
  rw [OrderedDict.len, h.rows_entered hpos] at hmany
  cases hget : s.recent.get a.1 with
  | some ts =>
      have hlen : _ = s.recent.len :=
        OrderedDict.len_set_of_get (v := live window a.2 (s.recent.history a.1) ++ [a.2]) hget
      have hle := h.len_le hpos
      rw [← hlen] at hle
      exact absurd hmany (Nat.not_lt.mpr hle)
  | none =>
      rw [h.rows_entered hpos, OrderedDict.rows_set_of_new hget]
      rw [OrderedDict.rows_set_of_new hget, List.length_append, List.length_singleton] at hmany
      refine ⟨rfl, Nat.lt_succ_iff.mp hmany, ?_⟩
      cases hrows : s.recent.rows with
      | nil =>
          rw [hrows] at hmany
          exact absurd hmany (by decide)
      | cons r rest => exact ⟨r, rest, rfl, rfl⟩

/-- The call that is admitted, when the row that goes does not count any more. -/
theorem Counting.admitted (h : Counting uploadsPerWindow window s) (hle : s.clock ≤ a.2)
    (hroom : (live window a.2 (s.recent.history a.1)).length < uploadsPerWindow)
    (hspares : Spares window s a) :
    Counting uploadsPerWindow window
      ⟨if maxOwners < (ChatFiles.entered window s a).len then
        (ChatFiles.entered window s a).popOldest else ChatFiles.entered window s a,
        a.2, s.admitted ++ [a]⟩ := by
  have hpos : 0 < uploadsPerWindow := Nat.zero_lt_of_lt hroom
  have hentered := h.entered hle hroom
  have hnonempty : ∀ r ∈ (ChatFiles.entered window s a).rows, r.2 ≠ [] :=
    fun r hr => by simpa using (List.mem_filter.mp hr).2
  by_cases hmany : maxOwners < (ChatFiles.entered window s a).len
  · obtain ⟨hnew, hfull, r, rest, hrows, hentered_rows⟩ := h.oldest hpos hmany
    have hover : ∀ t ∈ r.2, t ≤ a.2 - window :=
      hspares hnew hfull r (by rw [hrows]; rfl)
    have hkey : (ChatFiles.entered window s a).history r.1 = r.2 := by
      have hmem : (r.1, r.2) ∈ (ChatFiles.entered window s a).rows := by
        rw [hentered_rows]
        exact List.mem_cons_self
      rw [Recent.history, OrderedDict.get_eq_some.mpr hmem]
      rfl
    rw [if_pos hmany]
    refine ⟨fun o => ?_, fun o => ?_, fun o => ?_, fun o => (hentered o).2.2.2, fun _ => ?_,
      fun _ => ?_⟩
    · show Agree window a.2 (Recent.history _ o) _
      rw [Recent.history_popOldest hentered_rows]
      split
      · next heq =>
        -- nothing is forgotten that counts
        have hlog := (hentered o).1
        rw [← heq, hkey] at hlog
        rw [← heq]
        exact (live_eq_nil hover).symm.trans hlog
      · exact (hentered o).1
    · show (Recent.history _ o).Pairwise _
      rw [Recent.history_popOldest hentered_rows]
      split
      · exact List.Pairwise.nil
      · exact (hentered o).2.1
    · show ∀ t ∈ Recent.history _ o, t ≤ a.2
      rw [Recent.history_popOldest hentered_rows]
      split
      · exact fun t ht => absurd ht List.not_mem_nil
      · exact (hentered o).2.2.1
    · exact fun r hr => hnonempty r (OrderedDict.mem_of_le OrderedDict.popOldest_le hr)
    · have hlen := h.len_le hpos
      show (ChatFiles.entered window s a).rows.tail.length ≤ _
      rw [OrderedDict.len, hrows] at hlen
      rw [hentered_rows]
      simpa using hlen
  · rw [if_neg hmany]
    exact ⟨fun o => (hentered o).1, fun o => (hentered o).2.1, fun o => (hentered o).2.2.1,
      fun o => (hentered o).2.2.2, fun _ => hnonempty, fun _ => Nat.not_lt.mp hmany⟩

/-- **One call.** -/
theorem Counting.call (h : Counting uploadsPerWindow window s)
    (hcall : s.call uploadsPerWindow window a = some t) (hspares : Spares window s a) :
    Counting uploadsPerWindow window t := by
  unfold Uploads.call at hcall
  obtain ⟨hle, rfl⟩ := of_allowed hcall
  unfold admitOwner
  simp only [h.dropWhile_eq, OrderedDict.set_set]
  split
  · next hfull => exact h.refused hle hfull
  · next hroom => exact h.admitted hle (Nat.not_le.mp hroom) hspares

end Step

/-- **Upload admission.** In a run in which only rows are deleted whose times are over, no owner is
admitted more often than allowed in any window. -/
theorem admit_bounded {uploadsPerWindow : Nat} {window : ℚ} {s t : Uploads}
    {calls : List (Str × ℚ)} (hinit : (uploadSystem uploadsPerWindow window).init s)
    (hrun : ((uploadSystem uploadsPerWindow window).restrict (Spares window)).Run s calls t)
    (owner : Str) : Sparse window uploadsPerWindow (times t.admitted owner) := by
  obtain ⟨clock, rfl⟩ := hinit
  have hcounting : Counting uploadsPerWindow window t := by
    refine System.Run.preserves ?_ hrun (counting_new clock)
    intro s a t hs ⟨hstep, hspares⟩
    exact hs.call hstep hspares
  exact hcounting.sparse owner

instance (window : ℚ) (s : Uploads) (a : Str × ℚ) : Decidable (Spares window s a) :=
  inferInstanceAs (Decidable (_ → _ → ∀ _ ∈ _, _))

/-- An owner who is admitted, refused, and admitted again when the window is over. -/
def sampleUploads : List (Str × ℚ) :=
  [(Str.ofString "a", 0), (Str.ofString "a", 10), (Str.ofString "a", 300)]

theorem admit_bounded_sample : ∃ t : Uploads,
    t.admitted = [(Str.ofString "a", 0), (Str.ofString "a", 300)] ∧
      Sparse 300 1 (times t.admitted (Str.ofString "a")) := by
  have hrun : ((System.exec (System.checked (fun s a => decide (Spares 300 s a))
      (Uploads.call 1 300)) (.new 0) sampleUploads).map Uploads.admitted) =
      some [(Str.ofString "a", 0), (Str.ofString "a", 300)] := by decide +kernel
  obtain ⟨t, ht, hadmitted⟩ := Option.map_eq_some_iff.mp hrun
  exact ⟨t, hadmitted, admit_bounded ⟨0, rfl⟩
    (System.run_of_exec_checked (fun _ _ h => of_decide_eq_true h) ht) _⟩

/-! ## An owner whose row goes -/

section Evicted

variable {uploadsPerWindow : Nat} (window : ℚ) {now : ℚ} {s : Uploads}

/-- A new owner is admitted, and is entered behind the others, of whom the oldest goes when the
table is full. -/
theorem call_new (owner : Str) (hpos : 0 < uploadsPerWindow) (hclock : s.clock ≤ now)
    (hnonempty : ∀ r ∈ s.recent.rows, r.2 ≠ []) (hnew : s.recent.get owner = none) :
    ∃ t, s.call uploadsPerWindow window (owner, now) = some t ∧ t.clock = now ∧
      t.admitted = s.admitted ++ [(owner, now)] ∧
      t.recent.rows = (if s.recent.len < maxOwners then s.recent.rows else s.recent.rows.tail) ++
        [(owner, [now])] := by
  have hrows : ((s.recent.set owner [now]).filter fun r => !r.2.isEmpty).rows =
      s.recent.rows ++ [(owner, [now])] := by
    show (s.recent.set owner [now]).rows.filter _ = _
    rw [OrderedDict.rows_set_of_new hnew]
    apply List.filter_eq_self.mpr
    intro r hr
    rcases List.mem_append.mp hr with hr | hr
    · simpa using hnonempty r hr
    · rw [List.mem_singleton.mp hr]
      rfl
  unfold Uploads.call admitOwner
  simp only [hclock, if_true, hnew, Option.getD_none, List.dropWhile_nil, List.length_nil,
    OrderedDict.set_set, List.nil_append, Nat.not_le.mpr hpos, if_false, Option.some.injEq,
    exists_eq_left', true_and]
  rw [OrderedDict.len, hrows, List.length_append, List.length_singleton]
  by_cases hfull : s.recent.len < maxOwners
  · have hroom : ¬ maxOwners < s.recent.rows.length + 1 := Nat.not_lt.mpr hfull
    rw [if_neg hroom, if_pos hfull, hrows]
  · have hmany : maxOwners < s.recent.rows.length + 1 := Nat.lt_succ_of_le (Nat.not_lt.mp hfull)
    have hne : s.recent.rows ≠ [] := by
      intro hnil
      rw [OrderedDict.len, hnil] at hfull
      exact hfull (by decide)
    rw [if_pos hmany, if_neg hfull]
    show ((s.recent.set owner [now]).filter fun r => !r.2.isEmpty).rows.tail = _
    rw [hrows, List.tail_append_of_ne_nil hne]

/-- One new owner after the other, as long as the table has room. -/
theorem run_new (hpos : 0 < uploadsPerWindow) {owners : List Str} (hnodup : owners.Nodup)
    (hclock : s.clock ≤ now) (hnonempty : ∀ r ∈ s.recent.rows, r.2 ≠ [])
    (hnew : ∀ o ∈ owners, s.recent.get o = none)
    (hlen : s.recent.len + owners.length ≤ maxOwners) :
    ∃ t, (uploadSystem uploadsPerWindow window).Run s (owners.map fun o => (o, now)) t ∧
      t.clock ≤ now ∧ t.admitted = s.admitted ++ owners.map (fun o => (o, now)) ∧
      t.recent.rows = s.recent.rows ++ owners.map fun o => (o, [now]) := by
  induction owners generalizing s with
  | nil => exact ⟨s, .nil, hclock, by simp, by simp⟩
  | cons owner owners ih =>
      obtain ⟨hfirst, hnodup⟩ := List.nodup_cons.mp hnodup
      rw [List.length_cons] at hlen
      obtain ⟨m, hcall, hm, hadmitted, hrows⟩ := call_new window owner hpos hclock hnonempty
        (hnew owner List.mem_cons_self)
      have hroom : s.recent.len < maxOwners := by omega
      rw [if_pos hroom] at hrows
      have hmnonempty : ∀ r ∈ m.recent.rows, r.2 ≠ [] := by
        intro r hr
        rw [hrows] at hr
        rcases List.mem_append.mp hr with hr | hr
        · exact hnonempty r hr
        · rw [List.mem_singleton.mp hr]
          exact List.cons_ne_nil _ _
      have hmnew : ∀ o ∈ owners, m.recent.get o = none := by
        intro o ho
        rw [Option.eq_none_iff_forall_ne_some]
        intro ts hts
        rw [OrderedDict.get_eq_some, hrows] at hts
        rcases List.mem_append.mp hts with hts | hts
        · have hbefore := hnew o (List.mem_cons_of_mem _ ho)
          rw [OrderedDict.get_eq_some.mpr hts] at hbefore
          cases hbefore
        · obtain ⟨rfl, -⟩ := Prod.mk.inj (List.mem_singleton.mp hts)
          exact hfirst ho
      have hmlen : m.recent.len + owners.length ≤ maxOwners := by
        rw [OrderedDict.len, hrows, List.length_append, List.length_singleton, ← OrderedDict.len]
        omega
      obtain ⟨t, hrun, ht, htadmitted, htrows⟩ := ih hnodup hm.le hmnonempty hmnew hmlen
      refine ⟨t, System.Run.cons (S := uploadSystem uploadsPerWindow window) hcall hrun, ht, ?_, ?_⟩
      · rw [htadmitted, hadmitted]
        simp
      · rw [htrows, hrows]
        simp

end Evicted

/-- Owners with a name of one character. -/
def crowd (n : Nat) : List Str := (List.range n).map fun i => [Fin.ofNat _ i]

theorem nodup_crowd {n : Nat} (h : n ≤ 0x110000) : (crowd n).Nodup := by
  apply List.Nodup.map_on _ List.nodup_range
  intro i hi j hj heq
  have hval := congrArg Fin.val (List.singleton_inj.mp heq)
  rwa [Fin.val_ofNat, Fin.val_ofNat, Nat.mod_eq_of_lt ((List.mem_range.mp hi).trans_le h),
    Nat.mod_eq_of_lt ((List.mem_range.mp hj).trans_le h)] at hval

/-- The owner who uploads more often than allowed. -/
def uploader : Str := Str.ofString "uploader"

theorem get_eq_none_of_length {recent : Recent} {o : Str}
    (h : ∀ r ∈ recent.rows, r.1.length ≠ o.length) : recent.get o = none := by
  rw [Option.eq_none_iff_forall_ne_some]
  intro ts hts
  exact h _ (OrderedDict.get_eq_some.mp hts) rfl

/-- Twenty uploads, a table that fills up with other owners, and the uploads start anew: all of it
at one moment. -/
theorem evicted_owner_again : ¬ ∀ (s t : Uploads) (calls : List (Str × ℚ)) (owner : Str),
    (uploadSystem 20 300).init s → (uploadSystem 20 300).Run s calls t →
      Sparse 300 20 (times t.admitted owner) := by
  intro h
  have htwenty : ((System.exec (Uploads.call 20 300) (.new 0)
      (List.replicate 20 (uploader, 0))).map fun s => (s.recent.rows, s.clock, s.admitted)) =
        some ([(uploader, List.replicate 20 0)], 0, List.replicate 20 (uploader, 0)) := by
    decide +kernel
  obtain ⟨s, hs, hview⟩ := Option.map_eq_some_iff.mp htwenty
  obtain ⟨hrows, hview⟩ := Prod.mk.inj hview
  obtain ⟨hclock, hadmitted⟩ := Prod.mk.inj hview
  have hlen : s.recent.len = 1 := by rw [OrderedDict.len, hrows]; rfl
  have hcrowd : (crowd 4095).length = 4095 := by simp [crowd]
  have hone : ∀ o ∈ crowd 4095, o.length = 1 := by
    intro o ho
    obtain ⟨i, -, rfl⟩ := List.mem_map.mp ho
    rfl
  -- the table is full
  obtain ⟨m, hrunm, hclockm, hadmittedm, hrowsm⟩ := run_new 300 (show 0 < 20 by decide)
    (nodup_crowd (n := 4095) (by decide)) hclock.le (by simp [hrows])
    (by
      intro o ho
      apply get_eq_none_of_length
      rw [hrows]
      intro r hr
      rw [List.mem_singleton.mp hr, hone o ho]
      decide)
    (by rw [hlen, hcrowd]; decide)
  rw [hrows] at hrowsm
  -- one owner more
  obtain ⟨u, hcallu, hclocku, hadmittedu, hrowsu⟩ := call_new 300 [0, 0]
    (show 0 < 20 by decide) hclockm (by simp [hrowsm])
    (by
      apply get_eq_none_of_length
      rw [hrowsm]
      intro r hr
      rcases List.mem_append.mp hr with hr | hr
      · rw [List.mem_singleton.mp hr]
        decide
      · obtain ⟨o, ho, rfl⟩ := List.mem_map.mp hr
        rw [hone o ho]
        decide)
  have hfull : ¬ m.recent.len < maxOwners := by
    rw [OrderedDict.len, hrowsm, List.length_append, List.length_map, hcrowd]
    decide
  rw [if_neg hfull, hrowsm, List.singleton_append, List.tail_cons] at hrowsu
  -- the owner again
  obtain ⟨t, hcallt, -, hadmittedt, -⟩ := call_new 300 uploader
    (show 0 < 20 by decide) hclocku.le
    (by
      rw [hrowsu]
      intro r hr
      rcases List.mem_append.mp hr with hr | hr
      · obtain ⟨o, -, rfl⟩ := List.mem_map.mp hr
        exact List.cons_ne_nil _ _
      · rw [List.mem_singleton.mp hr]
        exact List.cons_ne_nil _ _)
    (by
      apply get_eq_none_of_length
      rw [hrowsu]
      intro r hr
      rcases List.mem_append.mp hr with hr | hr
      · obtain ⟨o, ho, rfl⟩ := List.mem_map.mp hr
        rw [hone o ho]
        decide
      · rw [List.mem_singleton.mp hr]
        decide)
  have hrun : (uploadSystem 20 300).Run (.new 0) _ t :=
    ((((System.run_of_exec hs).append hrunm).snoc hcallu).snoc hcallt)
  have hsub : (List.replicate 20 (uploader, (0 : ℚ)) ++ [(uploader, 0)]).Sublist t.admitted := by
    rw [hadmittedt, hadmittedu, hadmittedm, hadmitted]
    exact ((List.sublist_append_left _ _).trans (List.sublist_append_left _ _)).append
      (List.Sublist.refl _)
  have hsparse := (h _ t _ uploader ⟨0, rfl⟩ hrun).sublist ((hsub.filter _).map Prod.snd)
  have hcount := hsparse (fun t => t = 0) fun t u ht hu => by
    rw [of_decide_eq_true ht, of_decide_eq_true hu]
    norm_num
  exact absurd hcount (by decide +kernel)

end Scap.ChatFiles
