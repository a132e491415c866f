import Mathlib.Data.List.Nodup

/-!
# A queue that coalesces

First in, first out, but a message with the key of one that waits takes its place instead of the
last one. Nothing else is ever lost.

* `keys_deliver`, `keys_put` — the keys of all messages, delivered or waiting, stay in the order in
  which they were first put;
* `select_put` — of the messages with a key, the one that was put last is there once, and before it
  only those that were delivered by then.
-/

namespace Scap.Lib

variable {α κ : Type*} [DecidableEq κ]

/-- `a` in the place of the first message with its key. -/
def overwrite (key : α → κ) (a : α) : List α → Option (List α)
  | [] => none
  | b :: bs => if key b = key a then some (a :: bs) else (overwrite key a bs).map (b :: ·)

/-- What was delivered, and what waits. -/
structure Fifo (α : Type*) where
  delivered : List α
  waiting : List α

namespace Fifo

variable {key : α → κ} {k : κ} {a : α} {bs cs : List α} {q : Fifo α}

/-- A message is put. -/
def put (key : α → κ) (q : Fifo α) (a : α) : Fifo α :=
  { q with waiting := (overwrite key a q.waiting).getD (q.waiting ++ [a]) }

/-- The message that waits longest is delivered. -/
def deliver (q : Fifo α) : Fifo α :=
  match q.waiting with
  | [] => q
  | a :: rest => ⟨q.delivered ++ [a], rest⟩

/-- All messages that are not lost. -/
def messages (q : Fifo α) : List α := q.delivered ++ q.waiting

/-- The messages with a key. -/
def select (key : α → κ) (k : κ) (as : List α) : List α := as.filter fun a => key a = k

theorem select_append {as : List α} :
    select key k (as ++ bs) = select key k as ++ select key k bs := List.filter_append ..

theorem select_eq_nil : select key k bs = [] ↔ k ∉ bs.map key := by
  simp [select]

/-! ## Overwriting -/

theorem overwrite_eq_none : overwrite key a bs = none ↔ key a ∉ bs.map key := by
  induction bs with
  | nil => simp [overwrite]
  | cons b bs ih =>
      unfold overwrite
      by_cases h : key b = key a
      · simp [h]
      · rw [if_neg h, Option.map_eq_none_iff, ih, List.map_cons, List.mem_cons, not_or]
        exact (and_iff_right (Ne.symm h)).symm

/-- Nothing else comes into the queue. -/
theorem mem_overwrite {b : α} (h : overwrite key a bs = some cs) (hb : b ∈ cs) :
    b ∈ bs ∨ b = a := by
  induction bs generalizing cs with
  | nil => cases h
  | cons c bs ih =>
      unfold overwrite at h
      split at h
      · obtain rfl := Option.some.inj h
        rcases List.mem_cons.mp hb with rfl | hb
        · exact .inr rfl
        · exact .inl (List.mem_cons_of_mem _ hb)
      · obtain ⟨rest, hrest, rfl⟩ := Option.map_eq_some_iff.mp h
        rcases List.mem_cons.mp hb with rfl | hb
        · exact .inl List.mem_cons_self
        · exact (ih hrest hb).imp_left (List.mem_cons_of_mem _)

theorem map_key_overwrite (h : overwrite key a bs = some cs) : cs.map key = bs.map key := by
  induction bs generalizing cs with
  | nil => cases h
  | cons b bs ih =>
      unfold overwrite at h
      split at h
      · next hkey =>
        obtain rfl := Option.some.inj h
        rw [List.map_cons, List.map_cons, hkey]
      · obtain ⟨rest, hrest, rfl⟩ := Option.map_eq_some_iff.mp h
        rw [List.map_cons, List.map_cons, ih hrest]

theorem select_overwrite_of_ne (h : overwrite key a bs = some cs) (hk : key a ≠ k) :
    select key k cs = select key k bs := by
  induction bs generalizing cs with
  | nil => cases h
  | cons b bs ih =>
      unfold overwrite at h
      split at h
      · next hkey =>
        obtain rfl := Option.some.inj h
        simp [select, hkey, hk]
      · obtain ⟨rest, hrest, rfl⟩ := Option.map_eq_some_iff.mp h
        have hsame := ih hrest
        unfold select at hsame ⊢
        rw [List.filter_cons, List.filter_cons, hsame]

/-- If no key waits twice, the message is the one with its key. -/
theorem select_overwrite (h : overwrite key a bs = some cs) (hnodup : (bs.map key).Nodup) :
    select key (key a) cs = [a] := by
  induction bs generalizing cs with
  | nil => cases h
  | cons b bs ih =>
      rw [List.map_cons, List.nodup_cons] at hnodup
      unfold overwrite at h
      split at h
      · next hkey =>
        obtain rfl := Option.some.inj h
        rw [hkey] at hnodup
        have hrest : select key (key a) bs = [] := select_eq_nil.mpr hnodup.1
        unfold select at hrest ⊢
        rw [List.filter_cons_of_pos (by simp), hrest]
      · next hkey =>
        obtain ⟨rest, hrest, rfl⟩ := Option.map_eq_some_iff.mp h
        have hsame := ih hrest hnodup.2
        unfold select at hsame ⊢
        rw [List.filter_cons_of_neg (by simpa using hkey), hsame]

/-- A part of the queue that the keys determine, and that the message does not belong to. -/
theorem filter_overwrite {p : α → Bool} (hp : ∀ b, key b = key a → p b = p a)
    (h : overwrite key a bs = some cs) (ha : p a = false) : cs.filter p = bs.filter p := by
  induction bs generalizing cs with
  | nil => cases h
  | cons b bs ih =>
      unfold overwrite at h
      split at h
      · next hkey =>
        obtain rfl := Option.some.inj h
        have hb : p b = false := (hp b hkey).trans ha
        rw [List.filter_cons_of_neg (by simp [ha]), List.filter_cons_of_neg (by simp [hb])]
      · obtain ⟨rest, hrest, rfl⟩ := Option.map_eq_some_iff.mp h
        rw [List.filter_cons, List.filter_cons, ih hrest]

/-- A part of the queue that the keys determine, and that the message belongs to. -/
theorem overwrite_filter {p : α → Bool} (hp : ∀ b, key b = key a → p b = p a)
    (h : overwrite key a bs = some cs) (ha : p a = true) :
    overwrite key a (bs.filter p) = some (cs.filter p) := by
  induction bs generalizing cs with
  | nil => cases h
  | cons b bs ih =>
      unfold overwrite at h
      split at h
      · next hkey =>
        obtain rfl := Option.some.inj h
        have hb : p b = true := (hp b hkey).trans ha
        rw [List.filter_cons_of_pos ha, List.filter_cons_of_pos hb, overwrite, if_pos hkey]
      · next hkey =>
        obtain ⟨rest, hrest, rfl⟩ := Option.map_eq_some_iff.mp h
        have hsame := ih hrest
        cases hb : p b with
        | false =>
            rw [List.filter_cons_of_neg (by simp [hb]), List.filter_cons_of_neg (by simp [hb]),
              hsame]
        | true =>
            rw [List.filter_cons_of_pos hb, List.filter_cons_of_pos hb, overwrite, if_neg hkey,
              hsame]
            rfl

/-! ## One step -/

theorem messages_deliver : q.deliver.messages = q.messages := by
  obtain ⟨delivered, waiting⟩ := q
  cases waiting with
  | nil => rfl
  | cons a rest => simp [deliver, messages]

theorem waiting_put : (q.put key a).waiting.map key =
    if key a ∈ q.waiting.map key then q.waiting.map key else q.waiting.map key ++ [key a] := by
  unfold put
  cases h : overwrite key a q.waiting with
  | none =>
      rw [if_neg (overwrite_eq_none.mp h)]
      simp
  | some cs =>
      have hwaits : key a ∈ q.waiting.map key := by
        by_contra hnot
        rw [overwrite_eq_none.mpr hnot] at h
        cases h
      rw [if_pos hwaits]
      exact map_key_overwrite h

/-- **The order** is that of the first insertion. -/
theorem keys_put : (q.put key a).messages.map key =
    if key a ∈ q.waiting.map key then q.messages.map key else q.messages.map key ++ [key a] := by
  have hdelivered : (q.put key a).delivered = q.delivered := rfl
  unfold messages
  rw [List.map_append, waiting_put, hdelivered]
  split
  · rw [List.map_append]
  · rw [List.map_append, List.append_assoc]

theorem nodup_put (h : (q.waiting.map key).Nodup) : ((q.put key a).waiting.map key).Nodup := by
  rw [waiting_put]
  split
  · exact h
  · next hnew => exact List.Nodup.append h (List.nodup_singleton _) (by simpa using hnew)

omit [DecidableEq κ] in
theorem nodup_deliver (h : (q.waiting.map key).Nodup) : (q.deliver.waiting.map key).Nodup := by
  obtain ⟨delivered, waiting⟩ := q
  cases waiting with
  | nil => exact h
  | cons a rest => exact (List.nodup_cons.mp h).2

/-- **The message that was put last** is there once. -/
theorem select_put (h : (q.waiting.map key).Nodup) :
    select key (key a) (q.put key a).messages = select key (key a) q.delivered ++ [a] := by
  have hwaiting : select key (key a) (q.put key a).waiting = [a] := by
    unfold put
    cases hoverwrite : overwrite key a q.waiting with
    | none =>
        have hnone : select key (key a) q.waiting = [] :=
          select_eq_nil.mpr (overwrite_eq_none.mp hoverwrite)
        show select key (key a) (q.waiting ++ [a]) = [a]
        rw [select_append, hnone]
        simp [select]
    | some cs => exact select_overwrite hoverwrite h
  -- and what was delivered is left alone
  unfold messages
  rw [select_append, hwaiting]
  rfl

/-- Messages with other keys are left alone. -/
theorem select_put_of_ne (h : key a ≠ k) :
    select key k (q.put key a).messages = select key k q.messages := by
  have hwaiting : select key k (q.put key a).waiting = select key k q.waiting := by
    unfold put
    cases hoverwrite : overwrite key a q.waiting with
    | none =>
        show select key k (q.waiting ++ [a]) = _
        rw [select_append]
        simp [select, h]
    | some cs => exact select_overwrite_of_ne hoverwrite h
  unfold messages
  rw [select_append, select_append, hwaiting]
  rfl

end Fifo

end Scap.Lib
