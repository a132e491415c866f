import Scap.Browser.Handoffs
import Scap.Browser.Rotations

/-!
# What becomes of a device token

`Linked` is the invariant of careful runs: rows stand for the newest tokens of their logins, and
every device token that was remembered waits, was delivered or was dropped. `handoffs_kept` is what
follows for every run without the calls that `Careful` rules out, and `device_lost` is a run with
one of them.
-/

namespace Scap.Browser

open Scap.Py Scap.Lib

section Linked

variable {L : Type*} [DecidableEq L] (cfg : Settings) (login : String → L)

/-- The rows stand for the newest tokens of their logins, and no device token is missing. -/
structure Linked (s : State L) : Prop where
  tickets : ∀ r ∈ s.store.tickets.rows,
    s.newest (loginOf cfg login r.2.session.token) = some r.2.session.token
  sessions : ∀ r ∈ s.store.sessions.rows,
    s.newest (loginOf cfg login r.2.token) = some r.2.token ∧
      (r.1, loginOf cfg login r.2.token) ∈ s.opened
  pending : ∀ r ∈ s.store.pendingDevices.rows,
    ∃ t, s.newest (login r.1) = some t ∧ tokenKey cfg t = r.1
  opened : (s.opened.map Prod.fst).Nodup
  drawn : ∀ o ∈ s.opened, o.1 ∈ s.drawn
  devices : ∀ e, s.remembered.count e =
    (waiting cfg login s.store).count e + s.delivered.count e + s.dropped.count e

variable {cfg login} {s t : State L} {now expiresAt : ℚ} {token : Str}

theorem linked_new : Linked cfg login (.new : State L) where
  tickets _ h := absurd h List.not_mem_nil
  sessions _ h := absurd h List.not_mem_nil
  pending _ h := absurd h List.not_mem_nil
  opened := List.nodup_nil
  drawn _ h := absurd h List.not_mem_nil
  devices _ := rfl

theorem Linked.pruned (h : Linked cfg login s) (now : ℚ) :
    Linked cfg login (s.pruned cfg login now) where
  tickets r hr := h.tickets r (List.mem_filter.mp hr).1
  sessions r hr := h.sessions r (List.mem_filter.mp hr).1
  pending r hr := h.pending r (List.mem_filter.mp hr).1
  opened := h.opened
  drawn := h.drawn
  devices e := by
    have hprune := count_waiting_prune cfg login s.store now e
    have hbefore := h.devices e
    show s.remembered.count e = (waiting cfg login (s.store.prune now)).count e +
      s.delivered.count e + (s.dropped ++ waiting cfg login (s.store.expired now)).count e
    rw [List.count_append]
    omega

/-! ## The newest token of a login -/

/-- The record of a token that a call names. -/
def State.noted (s : State L) (cfg : Settings) (login : String → L) (token : Str) : State L :=
  { s with
    newest := note s.newest (loginOf cfg login token) token }

theorem note_self (h : s.Newest cfg login token) :
    note s.newest (loginOf cfg login token) token (loginOf cfg login token) = some token := by
  unfold note
  rcases h with h | h
  · rw [if_pos h, Function.update_self]
  · rw [h]
    exact h

/-- What is known of a login stays known. -/
theorem note_of_some {newest : L → Option Str} {l k : L} {x : Str} (h : newest k = some x) :
    note newest l token k = some x := by
  unfold note
  split
  · next hnone =>
    rw [Function.update_of_ne _ _ _]
    · exact h
    · rintro rfl
      rw [h] at hnone
      cases hnone
  · exact h

theorem Linked.noted (h : Linked cfg login s) (token : Str) :
    Linked cfg login (s.noted cfg login token) where
  tickets r hr := note_of_some (h.tickets r hr)
  sessions r hr := ⟨note_of_some (h.sessions r hr).1, (h.sessions r hr).2⟩
  pending r hr := by
    obtain ⟨x, hx, hkey⟩ := h.pending r hr
    exact ⟨x, note_of_some hx, hkey⟩
  opened := h.opened
  drawn := h.drawn
  devices := h.devices

/-! ## The calls -/

/-- More handles have been drawn. -/
theorem Linked.draw (h : Linked cfg login s) (k : String) :
    Linked cfg login { s with drawn := k :: s.drawn } where
  tickets := h.tickets
  sessions := h.sessions
  pending := h.pending
  opened := h.opened
  drawn o ho := List.mem_cons_of_mem _ (h.drawn o ho)
  devices := h.devices

/-- A ticket takes the device token that waits for its login. -/
theorem Linked.handOut (h : Linked cfg login s) {ticket : Handle}
    (hnewest : s.newest (loginOf cfg login token) = some token)
    (hfree : s.store.tickets.get (handleKey cfg ticket) = none) :
    Linked cfg login { s with store := s.store.handOut cfg now token expiresAt ticket } where
  tickets r hr := by
    rcases OrderedDict.mem_set.mp hr with rfl | ⟨hr, -⟩
    · exact hnewest
    · exact h.tickets r hr
  sessions := h.sessions
  pending r hr := h.pending r (OrderedDict.mem_pop.mp hr).1
  opened := h.opened
  drawn := h.drawn
  devices e := by
    have hbefore := h.devices e
    rw [count_waiting] at hbefore
    show s.remembered.count e =
      (waiting cfg login (s.store.handOut cfg now token expiresAt ticket)).count e + _ + _
    rw [count_waiting]
    simp only [Store.handOut, OrderedDict.count_entries_set, OrderedDict.pop_of_get hfree]
    cases hget : s.store.pendingDevices.get (tokenKey cfg token) with
    | none =>
        rw [OrderedDict.pop_of_get hget]
        simpa [ticketEntry] using hbefore
    | some row =>
        rw [OrderedDict.count_entries_pop hget] at hbefore
        have hmoved : ticketEntry cfg login (handleKey cfg ticket,
            (⟨⟨token, expiresAt, (some row).map Session.token⟩,
              min (now + cfg.ticketTtl) expiresAt⟩ : Ticket)) =
            pendingEntry login (tokenKey cfg token, row) := rfl
        rw [hmoved]
        omega

/-- A device token waits for its login, in the place of the one before. -/
theorem Linked.remember (h : Linked cfg login s) {device : Session}
    (hnewest : s.newest (loginOf cfg login token) = some token) :
    Linked cfg login { s with
      store := s.store.setPending (tokenKey cfg token) device
      remembered := s.remembered ++ [(loginOf cfg login token, device.token)]
      dropped := s.dropped ++ ((s.store.pendingDevices.get (tokenKey cfg token)).map fun row =>
        (loginOf cfg login token, row.token)).toList } where
  tickets := h.tickets
  sessions := h.sessions
  pending r hr := by
    rcases OrderedDict.mem_set.mp hr with rfl | ⟨hr, -⟩
    · exact ⟨token, hnewest, rfl⟩
    · exact h.pending r hr
  opened := h.opened
  drawn := h.drawn
  devices e := by
    have hbefore := h.devices e
    rw [count_waiting] at hbefore
    show (s.remembered ++ _).count e =
      (waiting cfg login (s.store.setPending (tokenKey cfg token) device)).count e + _ +
        (s.dropped ++ _).count e
    rw [count_waiting, List.count_append, List.count_append]
    simp only [Store.setPending, OrderedDict.count_entries_set]
    have hentry : (pendingEntry login (tokenKey cfg token, device)).toList =
        [(loginOf cfg login token, device.token)] := rfl
    rw [hentry]
    cases hget : s.store.pendingDevices.get (tokenKey cfg token) with
    | none =>
        rw [OrderedDict.pop_of_get hget]
        simp only [Option.map_none, Option.toList_none, List.count_nil]
        omega
    | some row =>
        rw [OrderedDict.count_entries_pop hget] at hbefore
        have hover : (pendingEntry login (tokenKey cfg token, row)).toList =
            [(loginOf cfg login token, row.token)] := rfl
        rw [hover] at hbefore
        simp only [Option.map_some, Option.toList_some]
        omega

/-- The device token of a ticket goes to the session, and that of the session before is dropped. -/
theorem Linked.openSession (h : Linked cfg login s) {k : String} {row : Ticket}
    {previousCookie : Option Str} {handle : Handle} (hrow : s.store.tickets.get k = some row)
    (hfresh : handleKey cfg handle ∉ s.drawn) :
    Linked cfg login { s with
      store := s.store.openSession cfg k row (s.store.sessionRow cfg previousCookie) handle
      drawn := handleKey cfg handle :: s.drawn
      opened := s.opened ++ [(handleKey cfg handle, loginOf cfg login row.session.token)]
      redeemed := s.redeemed ++ [k]
      dropped := s.dropped ++
        ((s.store.sessionRow cfg previousCookie).bind (sessionEntry cfg login)).toList } := by
  have hnew : ∀ l, (handleKey cfg handle, l) ∉ s.opened := fun l hmem => hfresh (h.drawn _ hmem)
  -- the sessions that stay
  obtain ⟨sessions, hsessions, hle, hcount⟩ : ∃ sessions : OrderedDict String Session,
      s.store.openSession cfg k row (s.store.sessionRow cfg previousCookie) handle =
        { s.store with
          tickets := s.store.tickets.pop k
          sessions := sessions.set (handleKey cfg handle) row.session } ∧
      sessions ≤ s.store.sessions ∧
      ∀ e, (s.store.sessions.entries (sessionEntry cfg login)).count e =
        ((s.store.sessionRow cfg previousCookie).bind (sessionEntry cfg login)).toList.count e +
          (sessions.entries (sessionEntry cfg login)).count e := by
    cases hprevious : s.store.sessionRow cfg previousCookie with
    | none => exact ⟨_, rfl, OrderedDict.le_refl _, fun e => by simp⟩
    | some p =>
        exact ⟨_, rfl, OrderedDict.pop_le, fun e =>
          OrderedDict.count_entries_pop (sessionRow_eq_some hprevious).1 _ e⟩
  have hfree : sessions.get (handleKey cfg handle) = none := by
    rw [Option.eq_none_iff_forall_ne_some]
    intro r hr
    have hmem := OrderedDict.mem_of_le hle (OrderedDict.get_eq_some.mp hr)
    exact hnew _ (h.sessions _ hmem).2
  refine ⟨fun r hr => ?_, fun r hr => ?_, fun r hr => ?_, ?_, fun o ho => ?_, fun e => ?_⟩
  · rw [hsessions] at hr
    exact h.tickets r (OrderedDict.mem_pop.mp hr).1
  · rw [hsessions] at hr
    rcases OrderedDict.mem_set.mp hr with rfl | ⟨hr, -⟩
    · exact ⟨h.tickets _ (OrderedDict.get_eq_some.mp hrow), List.mem_append_right _ (by simp)⟩
    · have hold := h.sessions r (OrderedDict.mem_of_le hle hr)
      exact ⟨hold.1, List.mem_append_left _ hold.2⟩
  · rw [hsessions] at hr
    exact h.pending r hr
  · rw [List.map_append, List.nodup_append]
    refine ⟨h.opened, List.nodup_singleton _, ?_⟩
    rintro j hj _ hk rfl
    obtain ⟨o, ho, rfl⟩ := List.mem_map.mp hj
    have hkey : o.1 = handleKey cfg handle := List.mem_singleton.mp hk
    exact hfresh (hkey ▸ h.drawn o ho)
  · rcases List.mem_append.mp ho with ho | ho
    · exact List.mem_cons_of_mem _ (h.drawn o ho)
    · rw [List.mem_singleton.mp ho]
      exact List.mem_cons_self
  · have hbefore := h.devices e
    rw [count_waiting, hcount e, OrderedDict.count_entries_pop hrow] at hbefore
    rw [hsessions]
    show s.remembered.count e = (waiting cfg login _).count e + _ + (s.dropped ++ _).count e
    rw [count_waiting, List.count_append]
    simp only [OrderedDict.count_entries_set, OrderedDict.pop_of_get hfree]
    have hmoved : sessionEntry cfg login (handleKey cfg handle, row.session) =
        ticketEntry cfg login (k, row) := rfl
    rw [hmoved]
    omega

/-- A handle has one login. -/
theorem Linked.find?_opened (h : Linked cfg login s) {k : String} {l : L}
    (hmem : (k, l) ∈ s.opened) : (s.opened.find? fun o => o.1 = k) = some (k, l) := by
  cases hfind : s.opened.find? fun o => o.1 = k with
  | none => simpa using List.find?_eq_none.mp hfind _ hmem
  | some o =>
      have hkey : o.1 = k := by simpa using List.find?_some hfind
      have hsame := List.inj_on_of_nodup_map h.opened (List.mem_of_find?_eq_some hfind) hmem hkey
      rw [hsame]

/-- The device token of a session is delivered to the login of the session. -/
theorem Linked.take (h : Linked cfg login s) {k : String} {row : Session} {device : Str}
    (hrow : s.store.sessions.get k = some row) (hdevice : row.deviceToken = some device) :
    Linked cfg login { s with
      store := { s.store with
        sessions := s.store.sessions.set k ⟨row.token, row.expiresAt, none⟩ }
      delivered := s.delivered ++ [(loginOf cfg login row.token, device)] } where
  tickets := h.tickets
  sessions r hr := by
    rcases OrderedDict.mem_set.mp hr with rfl | ⟨hr, -⟩
    · exact h.sessions (k, row) (OrderedDict.get_eq_some.mp hrow)
    · exact h.sessions r hr
  pending := h.pending
  opened := h.opened
  drawn := h.drawn
  devices e := by
    have hbefore := h.devices e
    rw [count_waiting, OrderedDict.count_entries_pop hrow] at hbefore
    have hheld : sessionEntry cfg login (k, row) = some (loginOf cfg login row.token, device) := by
      show row.deviceToken.map _ = _
      rw [hdevice]
      rfl
    have htaken : sessionEntry cfg login (k, ⟨row.token, row.expiresAt, none⟩) = none := rfl
    show s.remembered.count e =
      (waiting cfg login _).count e + (s.delivered ++ _).count e + s.dropped.count e
    rw [count_waiting, List.count_append]
    simp only [OrderedDict.count_entries_set, htaken, Option.toList_none, List.count_nil]
    rw [hheld, Option.toList_some] at hbefore
    omega

/-- The device token of a session that is revoked is dropped. -/
theorem Linked.revoke (h : Linked cfg login s) {k : String} {row : Session}
    (hrow : s.store.sessions.get k = some row) :
    Linked cfg login { s with
      store := { s.store with sessions := s.store.sessions.pop k }
      dropped := s.dropped ++ (sessionEntry cfg login (k, row)).toList } where
  tickets := h.tickets
  sessions r hr := h.sessions r (OrderedDict.mem_pop.mp hr).1
  pending := h.pending
  opened := h.opened
  drawn := h.drawn
  devices e := by
    have hbefore := h.devices e
    rw [count_waiting, OrderedDict.count_entries_pop hrow] at hbefore
    show s.remembered.count e = (waiting cfg login _).count e + _ + (s.dropped ++ _).count e
    rw [count_waiting, List.count_append]
    simp only
    omega

/-- A rotation while no device token of the login is waiting. -/
theorem Linked.rotate (h : Linked cfg login s) {previous : Str}
    {successors : OrderedDict String Session} (hnewest : s.Newest cfg login previous)
    (hquiet : ∀ e ∈ waiting cfg login s.store, e.1 ≠ loginOf cfg login previous)
    (hlogin : loginOf cfg login token = loginOf cfg login previous) :
    Linked cfg login { s with
      store := { s.store with
        successors
        sessions := s.store.sessions.mapValues fun r =>
          if r.2.token = previous then ⟨token, expiresAt, none⟩ else r.2
        tickets := s.store.tickets.mapValues fun r =>
          if r.2.session.token = previous then
            ⟨⟨token, expiresAt, none⟩, min r.2.expiresAt expiresAt⟩ else r.2 }
      newest := Function.update s.newest (loginOf cfg login previous) (some token) } := by
  -- a row of the login has the token that is rotated
  have hother : ∀ x, s.newest (loginOf cfg login x) = some x → x ≠ previous →
      Function.update s.newest (loginOf cfg login previous) (some token)
        (loginOf cfg login x) = some x := by
    intro x hx hne
    rw [Function.update_of_ne _ _ _]
    · exact hx
    · intro heq
      rw [heq] at hx
      rcases hnewest with hnone | hsome
      · rw [hnone] at hx
        cases hx
      · rw [hsome] at hx
        exact hne (Option.some.inj hx).symm
  have hrotated : Function.update s.newest (loginOf cfg login previous) (some token)
      (loginOf cfg login token) = some token := by
    rw [hlogin, Function.update_self]
  have hnodevice : ∀ r ∈ s.store.sessions.rows, r.2.token = previous →
      sessionEntry cfg login r = none := by
    intro r hr heq
    cases hentry : sessionEntry cfg login r with
    | none => rfl
    | some e =>
        obtain ⟨device, -, rfl⟩ := Option.map_eq_some_iff.mp hentry
        refine absurd ?_ (hquiet _ (List.mem_append_right _
          (OrderedDict.mem_entries.mpr ⟨r, hr, hentry⟩)))
        show loginOf cfg login r.2.token = _
        rw [heq]
  have hnoticket : ∀ r ∈ s.store.tickets.rows, r.2.session.token = previous →
      ticketEntry cfg login r = none := by
    intro r hr heq
    cases hentry : ticketEntry cfg login r with
    | none => rfl
    | some e =>
        obtain ⟨device, -, rfl⟩ := Option.map_eq_some_iff.mp hentry
        refine absurd ?_ (hquiet _ (List.mem_append_left _ (List.mem_append_right _
          (OrderedDict.mem_entries.mpr ⟨r, hr, hentry⟩))))
        show loginOf cfg login r.2.session.token = _
        rw [heq]
  refine ⟨fun q hq => ?_, fun q hq => ?_, fun r hr => ?_, h.opened, h.drawn, fun e => ?_⟩
  · obtain ⟨r, hr, rfl⟩ := List.mem_map.mp hq
    by_cases heq : r.2.session.token = previous
    · simp only [if_pos heq]
      exact hrotated
    · simp only [if_neg heq]
      exact hother _ (h.tickets r hr) heq
  · obtain ⟨r, hr, rfl⟩ := List.mem_map.mp hq
    obtain ⟨hnew, hopened⟩ := h.sessions r hr
    by_cases heq : r.2.token = previous
    · simp only [if_pos heq]
      refine ⟨hrotated, ?_⟩
      rw [hlogin, ← heq]
      exact hopened
    · simp only [if_neg heq]
      exact ⟨hother _ hnew heq, hopened⟩
  · obtain ⟨x, hx, hkey⟩ := h.pending r hr
    refine ⟨x, ?_, hkey⟩
    have hwaits := hquiet _ (List.mem_append_left _ (List.mem_append_left _
      (OrderedDict.mem_entries.mpr ⟨r, hr, rfl⟩)))
    show Function.update s.newest _ _ (login r.1) = _
    rw [Function.update_of_ne hwaits]
    exact hx
  · have hbefore := h.devices e
    rw [count_waiting] at hbefore
    show s.remembered.count e = (waiting cfg login _).count e + _ + _
    rw [count_waiting]
    simp only
    rw [OrderedDict.entries_mapValues, OrderedDict.entries_mapValues]
    · exact hbefore
    · intro r hr
      by_cases heq : r.2.token = previous
      · rw [if_pos heq, hnodevice r hr heq]
        rfl
      · rw [if_neg heq]
    · intro r hr
      by_cases heq : r.2.session.token = previous
      · rw [if_pos heq, hnoticket r hr heq]
        rfl
      · rw [if_neg heq]

/-! ## Every careful run -/

/-- Every careful operation keeps the devices linked to their logins. -/
theorem Linked.next (h : Linked cfg login s) (hbounded : Bounded cfg s) (now : ℚ) {op : Op}
    (hadmits : s.admits cfg login op) (hcareful : Careful cfg login s (now, op)) :
    Linked cfg login (s.next cfg login now op) := by
  have hp := h.pruned now
  cases op with
  | issue token expiresAt ticket =>
      have hnoted := (hp.noted token).draw (handleKey cfg ticket)
      rcases issue_cases cfg s.store now token expiresAt ticket with
        hstore | ⟨-, hstore⟩
      · simp only [State.next, hstore]
        exact hnoted
      -- a drawn ticket is fresh, so no earlier handoff is overwritten
      · have hfree : (s.store.prune now).tickets.get (handleKey cfg ticket) = none := by
          rw [Option.eq_none_iff_forall_ne_some]
          intro row hrow
          have hmem := OrderedDict.mem_of_le (OrderedDict.filter_le _)
            (OrderedDict.get_eq_some.mp hrow)
          exact hadmits (hbounded.drawn _ hmem)
        simp only [State.next, hstore]
        exact hnoted.handOut (note_self hcareful) hfree
  | rememberDevice accessToken deviceToken =>
      have hnoted := hp.noted accessToken
      rcases rememberDevice_cases cfg s.store now accessToken deviceToken with
        ⟨hfull, hstore⟩ | ⟨hroom, hstore⟩
      · simp only [State.next, hstore, if_neg hfull, List.append_nil]
        exact hnoted
      · simp only [State.next, hstore, if_pos hroom]
        exact hnoted.remember (note_self hcareful)
  | currentToken token => exact hp
  | attach ticket previousCookie handle =>
      rcases attach_cases cfg s.store now ticket previousCookie handle with
        ⟨failure, hstore⟩ | ⟨k, row, hrow, hroom, hstore⟩
      · simp only [State.next, hstore]
        exact hp
      · simp only [State.next, hstore, hrow]
        exact hp.openSession (ticketRow_eq_some hrow) hadmits
  -- the one method that does not prune first
  | takeDeviceToken cookie =>
      rcases takeDeviceToken_cases cfg s.store cookie with
        hstore | ⟨k, row, device, hrow, hdevice, hstore⟩
      · have hnone : ∀ o : Option (String × L), (o.bind fun o =>
            (none : Option Str).map fun device => (o.2, device)) = none := by
          intro o
          cases o <;> rfl
        simp only [State.next, hstore, hnone, Option.toList_none, List.append_nil]
        exact h
      · obtain ⟨hget, hkey⟩ := sessionRow_eq_some hrow
        have hopened := (h.sessions _ (OrderedDict.get_eq_some.mp hget)).2
        simp only [State.next, hstore, hkey, Option.bind_some, h.find?_opened hopened,
          Option.map_some, Option.toList_some]
        exact h.take hget hdevice
  | restore cookie => exact hp
  | revoke cookie =>
      rcases revoke_cases cfg s.store now cookie with
        ⟨hrow, hstore⟩ | ⟨k, row, hrow, hstore⟩
      · simp only [State.next, hstore, hrow, Option.bind_none, Option.toList_none, List.append_nil]
        exact hp
      · simp only [State.next, hstore, hrow, Option.bind_some]
        exact hp.revoke (sessionRow_eq_some hrow).1
  | rotateToken previous token expiresAt =>
      exact hp.rotate hcareful.1 hcareful.2 hadmits

/-- What the store owes its callers. A ticket is redeemed once and the capacities hold; a handle
restores the newest token of the login it was created for; and a device token that was remembered is
delivered once, to its login, unless it was dropped, and until then it waits with the newest token
of the login. -/
structure Kept (cfg : Settings) (login : String → L) (s : State L) : Prop where
  bounded : Bounded cfg s
  restores : ∀ now cookie token expiresAt,
    (s.store.restore cfg now cookie).2 = some (token, expiresAt) →
      ∃ k l, key cfg cookie = some k ∧ (k, l) ∈ s.opened ∧ s.newest l = some token ∧
        ∀ l', (k, l') ∈ s.opened → l' = l
  waits : ∀ r ∈ s.store.pendingDevices.rows,
    ∃ t, s.newest (login r.1) = some t ∧ tokenKey cfg t = r.1
  devices : ∀ e, s.remembered.count e =
    (waiting cfg login s.store).count e + s.delivered.count e + s.dropped.count e

theorem Linked.kept (h : Linked cfg login s) (hbounded : Bounded cfg s) : Kept cfg login s where
  bounded := hbounded
  restores now cookie token expiresAt hrestore := by
    obtain ⟨r, hrow, heq⟩ := Option.map_eq_some_iff.mp hrestore
    obtain ⟨rfl, rfl⟩ := Prod.mk.inj heq
    obtain ⟨hget, hkey⟩ := sessionRow_eq_some hrow
    have hmem := OrderedDict.mem_of_le (OrderedDict.filter_le _) (OrderedDict.get_eq_some.mp hget)
    obtain ⟨hnewest, hopened⟩ := h.sessions _ hmem
    refine ⟨r.1, _, hkey, hopened, hnewest, fun l' hl' => ?_⟩
    have hsame := (h.find?_opened hl').symm.trans (h.find?_opened hopened)
    exact (Prod.mk.inj (Option.some.inj hsame)).2
  waits := h.pending
  devices := h.devices

/-- Capacities and tickets need no care. -/
theorem handoffs_bounded (h : (handoffSystem cfg login).Reachable s) : Bounded cfg s := by
  refine System.Reachable.induct ?_ ?_ h
  · rintro _ rfl
    exact ⟨Nat.zero_le _, Nat.zero_le _, Nat.zero_le _, Nat.zero_le _,
      fun _ h => absurd h List.not_mem_nil, fun _ h => absurd h List.not_mem_nil,
      List.nodup_nil, fun _ h => absurd h List.not_mem_nil⟩
  · intro s a t _ hbounded hstep
    change s.step cfg login a = some t at hstep
    unfold State.step at hstep
    obtain ⟨hadmits, rfl⟩ := of_allowed hstep
    exact hbounded.next a.1 hadmits

/-- **Browser sessions.** In a run whose calls name the newest tokens of their logins, and in which
no token is rotated while a device token of its login is waiting, the store keeps what it owes. -/
theorem handoffs_kept
    (h : ((handoffSystem cfg login).restrict (Careful cfg login)).Reachable s) :
    Kept cfg login s := by
  refine Linked.kept ?_ (handoffs_bounded h.of_restrict)
  refine System.Reachable.induct ?_ ?_ h
  · rintro _ rfl
    exact linked_new
  · rintro s a t hreachable hlinked ⟨hstep, hcareful⟩
    change s.step cfg login a = some t at hstep
    unfold State.step at hstep
    obtain ⟨hadmits, rfl⟩ := of_allowed hstep
    exact hlinked.next (handoffs_bounded hreachable.of_restrict) a.1 hadmits hcareful

end Linked

/-! ## Two runs -/

instance {L : Type*} [DecidableEq L] (cfg : Settings) (login : String → L) (s : State L)
    (token : Str) : Decidable (s.Newest cfg login token) :=
  inferInstanceAs (Decidable (_ ∨ _))

instance {L : Type*} [DecidableEq L] (cfg : Settings) (login : String → L) (s : State L) :
    ∀ a, Decidable (Careful cfg login s a)
  | (_, .issue token _ _) => inferInstanceAs (Decidable (s.Newest cfg login token))
  | (_, .rememberDevice accessToken _) =>
    inferInstanceAs (Decidable (s.Newest cfg login accessToken))
  | (now, .rotateToken previous _ _) =>
    inferInstanceAs (Decidable (s.Newest cfg login previous ∧
      ∀ e ∈ waiting cfg login (s.store.prune now), e.1 ≠ loginOf cfg login previous))
  | (_, .attach _ _ _) | (_, .currentToken _) | (_, .takeDeviceToken _) | (_, .restore _)
  | (_, .revoke _) => inferInstanceAs (Decidable True)

def sampleTicket : Handle := ⟨List.replicate 43 0x41, by decide⟩

def sampleHandle : Handle := ⟨List.replicate 43 0x42, by decide⟩

/-- All tokens belong to one login. -/
def oneLogin : String → Unit := fun _ => ()

/-- A login, its handover with a device token, and a rotation after that. -/
def sampleCalls : List (ℚ × Op) :=
  [(0, .rememberDevice (letter 0) (letter 5)), (1, .issue (letter 0) 100 sampleTicket),
    (2, .attach sampleTicket.val none sampleHandle), (3, .takeDeviceToken (some sampleHandle.val)),
    (4, .rotateToken (letter 0) (letter 1) 200), (5, .restore (some sampleHandle.val))]

theorem handoffs_kept_sample : ∃ s : State Unit, s.delivered = [((), letter 5)] ∧
    s.newest () = some (letter 1) ∧ Kept sampleSettings oneLogin s := by
  have hrun : ((System.exec (System.checked
      (fun s a => decide (Careful sampleSettings oneLogin s a))
      (State.step sampleSettings oneLogin)) .new sampleCalls).map
        fun s => (s.delivered, s.newest ())) = some ([((), letter 5)], some (letter 1)) := by
    decide +kernel
  obtain ⟨s, hs, hview⟩ := Option.map_eq_some_iff.mp hrun
  obtain ⟨hdelivered, hnewest⟩ := Prod.mk.inj hview
  exact ⟨s, hdelivered, hnewest, handoffs_kept ⟨.new, sampleCalls, rfl,
    System.run_of_exec_checked (fun _ _ h => of_decide_eq_true h) hs⟩⟩

/-- The same login, whose token is rotated before the browser has redeemed its ticket. -/
def rotatedCalls : List (ℚ × Op) :=
  [(0, .rememberDevice (letter 0) (letter 5)), (1, .issue (letter 0) 100 sampleTicket),
    (2, .rotateToken (letter 0) (letter 1) 200),
    (3, .attach sampleTicket.val none sampleHandle), (4, .takeDeviceToken (some sampleHandle.val))]

/-- The device token is neither delivered nor dropped, and it does not wait any more. -/
theorem device_lost : ¬ ∀ (cfg : Settings) (login : String → Unit) (s : State Unit),
    (handoffSystem cfg login).Reachable s → Kept cfg login s := by
  intro h
  have hrun : ((System.exec (State.step sampleSettings oneLogin) .new rotatedCalls).map fun s =>
      [s.remembered.count ((), letter 5),
        (waiting sampleSettings oneLogin s.store).count ((), letter 5),
        s.delivered.count ((), letter 5), s.dropped.count ((), letter 5)]) =
      some [1, 0, 0, 0] := by decide +kernel
  obtain ⟨s, hs, hview⟩ := Option.map_eq_some_iff.mp hrun
  simp only [List.cons.injEq, and_true] at hview
  obtain ⟨hremembered, hwaiting, hdelivered, hdropped⟩ := hview
  have hkept := h sampleSettings oneLogin s
    ⟨.new, rotatedCalls, rfl, System.run_of_exec hs⟩
  have hcount := hkept.devices ((), letter 5)
  rw [hremembered, hwaiting, hdelivered, hdropped] at hcount
  exact absurd hcount (by decide)

end Scap.Browser
