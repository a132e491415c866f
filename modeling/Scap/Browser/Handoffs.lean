import Scap.Browser.Store
import Scap.Lib.Run

/-!
# Handing a login over to a browser

Runs of the methods of the store, with a record of the newest token of every login, of the handles
that were opened, and of what became of the device tokens. A login is what an access token belongs
to; `login` tells it from the key of the token, and a rotation gives a token of the same login. What
`token_urlsafe` yields is new.

A device token is dropped when its row expires, its session is revoked or replaced, or another one
is remembered in its place. It must not get lost in any other way: `Kept`. A rotation loses it
(`device_lost`), and a call with a token that is not the newest one of its login leaves an outdated
token behind. In a run without such calls all is kept (`handoffs_kept`).
-/

namespace Scap.Browser

open Scap.Py Scap.Lib

/-! ## Device tokens that wait -/

section Waiting

variable {L : Type*} (cfg : Settings) (login : String → L)

/-- The login of an access token. -/
def loginOf (token : Str) : L := login (tokenKey cfg token)

/-- What a row of `_pending_devices` holds. -/
def pendingEntry (r : String × Session) : Option (L × Str) := some (login r.1, r.2.token)

/-- What a ticket holds. -/
def ticketEntry (r : String × Ticket) : Option (L × Str) :=
  r.2.session.deviceToken.map fun device => (loginOf cfg login r.2.session.token, device)

/-- What a session holds. -/
def sessionEntry (r : String × Session) : Option (L × Str) :=
  r.2.deviceToken.map fun device => (loginOf cfg login r.2.token, device)

/-- The device tokens in the store, with their logins. -/
def waiting (s : Store) : List (L × Str) :=
  s.pendingDevices.entries (pendingEntry login) ++ s.tickets.entries (ticketEntry cfg login) ++
    s.sessions.entries (sessionEntry cfg login)

/-- The rows that `_prune` deletes. -/
def Store.expired (s : Store) (now : ℚ) : Store where
  tickets := s.tickets.filter fun r => !decide (now < r.2.expiresAt)
  sessions := s.sessions.filter fun r => !decide (now < r.2.expiresAt)
  successors := s.successors.filter fun r => !decide (now < r.2.expiresAt)
  pendingDevices := s.pendingDevices.filter fun r => !decide (now < r.2.expiresAt)

variable {cfg login} [DecidableEq L]

theorem count_waiting (s : Store) (e : L × Str) : (waiting cfg login s).count e =
    (s.pendingDevices.entries (pendingEntry login)).count e +
      (s.tickets.entries (ticketEntry cfg login)).count e +
      (s.sessions.entries (sessionEntry cfg login)).count e := by
  rw [waiting, List.count_append, List.count_append]

theorem count_waiting_prune (cfg : Settings) (login : String → L) (s : Store) (now : ℚ)
    (e : L × Str) : (waiting cfg login s).count e =
    (waiting cfg login (s.prune now)).count e + (waiting cfg login (s.expired now)).count e := by
  have hpending : _ = ((s.prune now).pendingDevices.entries (pendingEntry login)).count e +
      ((s.expired now).pendingDevices.entries (pendingEntry login)).count e :=
    s.pendingDevices.count_entries_filter _ _ e
  have htickets : _ = ((s.prune now).tickets.entries (ticketEntry cfg login)).count e +
      ((s.expired now).tickets.entries (ticketEntry cfg login)).count e :=
    s.tickets.count_entries_filter _ _ e
  have hsessions : _ = ((s.prune now).sessions.entries (sessionEntry cfg login)).count e +
      ((s.expired now).sessions.entries (sessionEntry cfg login)).count e :=
    s.sessions.count_entries_filter _ _ e
  rw [count_waiting, count_waiting, count_waiting]
  omega

end Waiting

/-! ## Runs -/

inductive Op where
  | issue (token : Str) (expiresAt : ℚ) (ticket : Handle)
  | rememberDevice (accessToken deviceToken : Str)
  | currentToken (token : Str)
  | attach (ticket : Str) (previousCookie : Option Str) (handle : Handle)
  | takeDeviceToken (cookie : Option Str)
  | restore (cookie : Option Str)
  | revoke (cookie : Option Str)
  | rotateToken (previous token : Str) (expiresAt : ℚ)

/-- The store, and what is said about its runs. -/
structure State (L : Type*) where
  store : Store
  /-- The keys of what `token_urlsafe` has yielded. -/
  drawn : List String
  /-- The newest token of a login that has been seen. -/
  newest : L → Option Str
  /-- The key of a handle and the login it was created for. -/
  opened : List (String × L)
  /-- The keys of the tickets that have been redeemed. -/
  redeemed : List String
  /-- The device tokens that were remembered, delivered and dropped, each with a login. -/
  remembered : List (L × Str)
  delivered : List (L × Str)
  dropped : List (L × Str)

section Runs

variable {L : Type*} [DecidableEq L] (cfg : Settings) (login : String → L)

def State.new : State L := ⟨.empty, [], fun _ => none, [], [], [], [], []⟩

/-- The first token of a login that is seen. -/
def note (newest : L → Option Str) (l : L) (token : Str) : L → Option Str :=
  if newest l = none then Function.update newest l (some token) else newest

/-- What a call does at a time. -/
def State.next (s : State L) (now : ℚ) : Op → State L
  | .issue token expiresAt ticket =>
    { s with
      store := (s.store.issue cfg now token expiresAt ticket).1
      drawn := handleKey cfg ticket :: s.drawn
      newest := note s.newest (loginOf cfg login token) token
      dropped := s.dropped ++ waiting cfg login (s.store.expired now) }
  | .rememberDevice accessToken deviceToken =>
    let pending := (s.store.prune now).pendingDevices
    let overwritten := (pending.get (tokenKey cfg accessToken)).map fun row =>
      (loginOf cfg login accessToken, row.token)
    let room := pending.len < cfg.maxTickets
    { s with
      store := s.store.rememberDevice cfg now accessToken deviceToken
      newest := note s.newest (loginOf cfg login accessToken) accessToken
      remembered := s.remembered ++
        if room then [(loginOf cfg login accessToken, deviceToken)] else []
      dropped := s.dropped ++ waiting cfg login (s.store.expired now) ++
        if room then overwritten.toList else [] }
  | .currentToken token =>
    { s with
      store := (s.store.currentToken cfg now token).1
      dropped := s.dropped ++ waiting cfg login (s.store.expired now) }
  | .attach ticket previousCookie handle =>
    let replaced := ((s.store.prune now).sessionRow cfg previousCookie).bind
      (sessionEntry cfg login)
    match s.store.attach cfg now ticket previousCookie handle,
      (s.store.prune now).ticketRow cfg ticket with
    | (store, .ok _), some (k, row) =>
      { s with
        store
        drawn := handleKey cfg handle :: s.drawn
        opened := s.opened ++ [(handleKey cfg handle, loginOf cfg login row.session.token)]
        redeemed := s.redeemed ++ [k]
        dropped := s.dropped ++ waiting cfg login (s.store.expired now) ++ replaced.toList }
    | (store, _), _ =>
      { s with store, dropped := s.dropped ++ waiting cfg login (s.store.expired now) }
  | .takeDeviceToken cookie =>
    let answer := s.store.takeDeviceToken cfg cookie
    let browser := (key cfg cookie).bind fun k => s.opened.find? fun o => o.1 = k
    { s with
      store := answer.1
      delivered := s.delivered ++
        (browser.bind fun o => answer.2.map fun device => (o.2, device)).toList }
  | .restore cookie =>
    { s with
      store := (s.store.restore cfg now cookie).1
      dropped := s.dropped ++ waiting cfg login (s.store.expired now) }
  | .revoke cookie =>
    let revoked := ((s.store.prune now).sessionRow cfg cookie).bind (sessionEntry cfg login)
    { s with
      store := s.store.revoke cfg now cookie
      dropped := s.dropped ++ waiting cfg login (s.store.expired now) ++ revoked.toList }
  | .rotateToken previous token expiresAt =>
    { s with
      store := s.store.rotateToken cfg now previous token expiresAt
      newest := Function.update s.newest (loginOf cfg login previous) (some token)
      dropped := s.dropped ++ waiting cfg login (s.store.expired now) }

/-- What `token_urlsafe` yields is new, and a rotation stays within the login. -/
def State.admits (s : State L) : Op → Prop
  | .issue _ _ ticket => handleKey cfg ticket ∉ s.drawn
  | .attach _ _ handle => handleKey cfg handle ∉ s.drawn
  | .rotateToken previous token _ => loginOf cfg login token = loginOf cfg login previous
  | _ => True

instance (s : State L) : ∀ op, Decidable (s.admits cfg login op)
  | .issue _ _ ticket => inferInstanceAs (Decidable (handleKey cfg ticket ∉ s.drawn))
  | .attach _ _ handle => inferInstanceAs (Decidable (handleKey cfg handle ∉ s.drawn))
  | .rotateToken previous token _ =>
    inferInstanceAs (Decidable (loginOf cfg login token = loginOf cfg login previous))
  | .rememberDevice _ _ | .currentToken _ | .takeDeviceToken _ | .restore _ | .revoke _ =>
    inferInstanceAs (Decidable True)

def State.step (s : State L) (a : ℚ × Op) : Option (State L) :=
  if s.admits cfg login a.2 then some (s.next cfg login a.1 a.2) else none

def handoffSystem : System (State L) (ℚ × Op) :=
  .ofFun (fun s => s = .new) (State.step cfg login)

/-- The call names the newest token of its login, as far as one has been seen. -/
def State.Newest (s : State L) (token : Str) : Prop :=
  s.newest (loginOf cfg login token) = none ∨ s.newest (loginOf cfg login token) = some token

/-- Tickets and devices come with the newest token of a login, and a rotation starts from it while
no device token of the login is waiting. -/
def Careful (s : State L) (a : ℚ × Op) : Prop :=
  match a.2 with
  | .issue token _ _ => s.Newest cfg login token
  | .rememberDevice accessToken _ => s.Newest cfg login accessToken
  | .rotateToken previous _ _ => s.Newest cfg login previous ∧
      ∀ e ∈ waiting cfg login (s.store.prune a.1), e.1 ≠ loginOf cfg login previous
  | _ => True

/-- Pruning alone. -/
def State.pruned (s : State L) (now : ℚ) : State L :=
  { s with
    store := s.store.prune now
    dropped := s.dropped ++ waiting cfg login (s.store.expired now) }

end Runs

/-! ## Capacities, and tickets that are redeemed -/

/-- The capacities hold, and a ticket that has been redeemed is not in the store. -/
structure Bounded {L : Type*} (cfg : Settings) (s : State L) : Prop where
  tickets : s.store.tickets.len ≤ cfg.maxTickets
  sessions : s.store.sessions.len ≤ cfg.maxSessions
  successors : s.store.successors.len ≤ cfg.maxSessions * 4
  pending : s.store.pendingDevices.len ≤ cfg.maxTickets
  drawn : ∀ r ∈ s.store.tickets.rows, r.1 ∈ s.drawn
  redeemed : ∀ k ∈ s.redeemed, k ∈ s.drawn
  once : s.redeemed.Nodup
  gone : ∀ r ∈ s.store.tickets.rows, r.1 ∉ s.redeemed

section Bounded

variable {L : Type*} {cfg : Settings} {login : String → L} {s t : State L}

/-- Where no ticket comes and nothing is redeemed, all stays as it was. -/
theorem Bounded.of_keys (h : Bounded cfg s)
    (htickets : (t.store.tickets.rows.map Prod.fst).Sublist (s.store.tickets.rows.map Prod.fst))
    (hsessions : t.store.sessions.len ≤ cfg.maxSessions)
    (hsuccessors : t.store.successors.len ≤ cfg.maxSessions * 4)
    (hpending : t.store.pendingDevices.len ≤ cfg.maxTickets) (hdrawn : s.drawn ⊆ t.drawn)
    (hredeemed : t.redeemed = s.redeemed) : Bounded cfg t := by
  have hrow : ∀ r ∈ t.store.tickets.rows, ∃ r' ∈ s.store.tickets.rows, r'.1 = r.1 := by
    intro r hr
    exact List.mem_map.mp (htickets.subset (List.mem_map.mpr ⟨r, hr, rfl⟩))
  refine ⟨?_, hsessions, hsuccessors, hpending, fun r hr => ?_, fun k hk => ?_,
    hredeemed ▸ h.once, fun r hr => ?_⟩
  · have hlen := htickets.length_le
    rw [List.length_map, List.length_map] at hlen
    exact hlen.trans h.tickets
  · obtain ⟨r', hr', hkey⟩ := hrow r hr
    exact hkey ▸ hdrawn (h.drawn r' hr')
  · exact hdrawn (h.redeemed k (hredeemed ▸ hk))
  · obtain ⟨r', hr', hkey⟩ := hrow r hr
    rw [hredeemed, ← hkey]
    exact h.gone r' hr'

theorem Bounded.pruned (h : Bounded cfg s) (login : String → L) (now : ℚ) :
    Bounded cfg (s.pruned cfg login now) :=
  h.of_keys (List.filter_sublist.map _)
    ((OrderedDict.len_le (OrderedDict.filter_le _)).trans h.sessions)
    ((OrderedDict.len_le (OrderedDict.filter_le _)).trans h.successors)
    ((OrderedDict.len_le (OrderedDict.filter_le _)).trans h.pending) (List.Subset.refl _) rfl

theorem Bounded.of_store_eq (h : Bounded cfg s) (hstore : t.store = s.store)
    (hdrawn : s.drawn ⊆ t.drawn) (hredeemed : t.redeemed = s.redeemed) : Bounded cfg t := by
  refine h.of_keys ?_ ?_ ?_ ?_ hdrawn hredeemed <;> rw [hstore]
  · exact h.sessions
  · exact h.successors
  · exact h.pending

/-- A ticket whose key is new. -/
theorem Bounded.handOut (h : Bounded cfg s) {now expiresAt : ℚ} {token : Str} {ticket : Handle}
    (hk : handleKey cfg ticket ∉ s.drawn) (hroom : s.store.tickets.len < cfg.maxTickets)
    (hstore : t.store = s.store.handOut cfg now token expiresAt ticket)
    (hdrawn : t.drawn = handleKey cfg ticket :: s.drawn) (hredeemed : t.redeemed = s.redeemed) :
    Bounded cfg t where
  tickets := by
    rw [hstore]
    exact OrderedDict.len_set_le.trans hroom
  sessions := by
    rw [hstore]
    exact h.sessions
  successors := by
    rw [hstore]
    exact h.successors
  pending := by
    rw [hstore]
    exact (OrderedDict.len_le OrderedDict.pop_le).trans h.pending
  drawn r hr := by
    rw [hstore] at hr
    rw [hdrawn]
    rcases OrderedDict.mem_set.mp hr with rfl | ⟨hr, -⟩
    · exact List.mem_cons_self
    · exact List.mem_cons_of_mem _ (h.drawn r hr)
  redeemed j hj := by
    rw [hdrawn]
    exact List.mem_cons_of_mem _ (h.redeemed j (hredeemed ▸ hj))
  once := hredeemed ▸ h.once
  gone r hr := by
    rw [hredeemed]
    rw [hstore] at hr
    rcases OrderedDict.mem_set.mp hr with rfl | ⟨hr, -⟩
    · exact fun hmem => hk (h.redeemed _ hmem)
    · exact h.gone r hr

theorem issue_cases (cfg : Settings) (s : Store) (now : ℚ) (token : Str) (expiresAt : ℚ)
    (ticket : Handle) :
    (s.issue cfg now token expiresAt ticket).1 = s.prune now ∨
      (s.prune now).tickets.len < cfg.maxTickets ∧ (s.issue cfg now token expiresAt ticket).1 =
        (s.prune now).handOut cfg now token expiresAt ticket := by
  unfold Store.issue
  simp only
  split_ifs with hvalid hfull
  · exact .inl rfl
  · exact .inl rfl
  · exact .inr ⟨Nat.not_le.mp hfull, rfl⟩

theorem attach_cases (cfg : Settings) (s : Store) (now : ℚ) (ticket : Str)
    (previousCookie : Option Str) (handle : Handle) :
    (∃ failure, s.attach cfg now ticket previousCookie handle = (s.prune now, .error failure)) ∨
      ∃ k row, (s.prune now).ticketRow cfg ticket = some (k, row) ∧
        ((s.prune now).sessions.len < cfg.maxSessions ∨
          ((s.prune now).sessionRow cfg previousCookie).isSome) ∧
        s.attach cfg now ticket previousCookie handle =
          ((s.prune now).openSession cfg k row ((s.prune now).sessionRow cfg previousCookie) handle,
            .ok handle) := by
  unfold Store.attach
  simp only
  split
  · exact .inl ⟨_, rfl⟩
  · next k row hrow =>
    split_ifs with hfull
    · exact .inl ⟨_, rfl⟩
    · refine .inr ⟨k, row, hrow, ?_, rfl⟩
      rw [not_and_or, Nat.not_le] at hfull
      exact hfull.imp_right Option.isSome_iff_ne_none.mpr

theorem ticketRow_eq_some {s : Store} {ticket : Str} {k : String} {row : Ticket}
    (h : s.ticketRow cfg ticket = some (k, row)) : s.tickets.get k = some row := by
  obtain ⟨j, -, hj⟩ := Option.bind_eq_some_iff.mp h
  obtain ⟨r, hr, heq⟩ := Option.map_eq_some_iff.mp hj
  obtain ⟨rfl, rfl⟩ := Prod.mk.inj heq
  exact hr

theorem sessionRow_eq_some {s : Store} {cookie : Option Str} {r : String × Session}
    (h : s.sessionRow cfg cookie = some r) : s.sessions.get r.1 = some r.2 ∧
      key cfg cookie = some r.1 := by
  obtain ⟨j, hkey, hj⟩ := Option.bind_eq_some_iff.mp h
  obtain ⟨row, hrow, rfl⟩ := Option.map_eq_some_iff.mp hj
  exact ⟨hrow, hkey⟩

/-- The session that is replaced makes room. -/
theorem len_openSession_le {s : Store} {k : String} {row : Ticket} {previousCookie : Option Str}
    {handle : Handle} (hle : s.sessions.len ≤ cfg.maxSessions)
    (hroom : s.sessions.len < cfg.maxSessions ∨ (s.sessionRow cfg previousCookie).isSome) :
    (s.openSession cfg k row (s.sessionRow cfg previousCookie) handle).sessions.len ≤
      cfg.maxSessions := by
  cases hprevious : s.sessionRow cfg previousCookie with
  | none =>
      rw [hprevious] at hroom
      have hlt := hroom.resolve_right (by simp)
      exact OrderedDict.len_set_le.trans hlt
  | some p =>
      have hpop := OrderedDict.len_pop (sessionRow_eq_some hprevious).1
      have hset : ((s.sessions.pop p.1).set (handleKey cfg handle) row.session).len ≤ _ :=
        OrderedDict.len_set_le
      rw [hpop] at hset
      exact hset.trans hle

/-- A ticket that is redeemed goes. -/
theorem Bounded.openSession (h : Bounded cfg s) {k : String} {row : Ticket}
    {previousCookie : Option Str} {handle : Handle} (hrow : s.store.tickets.get k = some row)
    (hroom : s.store.sessions.len < cfg.maxSessions ∨
      (s.store.sessionRow cfg previousCookie).isSome)
    (hstore : t.store =
      s.store.openSession cfg k row (s.store.sessionRow cfg previousCookie) handle)
    (hdrawn : s.drawn ⊆ t.drawn) (hredeemed : t.redeemed = s.redeemed ++ [k]) : Bounded cfg t where
  tickets := by
    rw [hstore]
    exact (OrderedDict.len_le OrderedDict.pop_le).trans h.tickets
  sessions := by
    rw [hstore]
    exact len_openSession_le h.sessions hroom
  successors := by
    rw [hstore]
    exact h.successors
  pending := by
    rw [hstore]
    exact h.pending
  drawn r hr := by
    rw [hstore] at hr
    exact hdrawn (h.drawn r (OrderedDict.mem_of_le OrderedDict.pop_le hr))
  redeemed j hj := by
    rw [hredeemed] at hj
    rcases List.mem_append.mp hj with hj | hj
    · exact hdrawn (h.redeemed j hj)
    · rw [List.mem_singleton.mp hj]
      exact hdrawn (h.drawn _ (OrderedDict.get_eq_some.mp hrow))
  once := by
    rw [hredeemed, List.nodup_append]
    refine ⟨h.once, List.nodup_singleton k, ?_⟩
    rintro j hj _ hk rfl
    rw [List.mem_singleton.mp hk] at hj
    exact h.gone _ (OrderedDict.get_eq_some.mp hrow) hj
  gone r hr := by
    rw [hstore] at hr
    obtain ⟨hr, hne⟩ := OrderedDict.mem_pop.mp hr
    rw [hredeemed, List.mem_append, List.mem_singleton, not_or]
    exact ⟨h.gone r hr, hne⟩

/-- The session that a device token is taken from stays where it is. -/
theorem takeDeviceToken_cases (cfg : Settings) (s : Store) (cookie : Option Str) :
    s.takeDeviceToken cfg cookie = (s, none) ∨ ∃ k row device,
      s.sessionRow cfg cookie = some (k, row) ∧ row.deviceToken = some device ∧
      s.takeDeviceToken cfg cookie =
        ({ s with sessions := s.sessions.set k ⟨row.token, row.expiresAt, none⟩ },
          some device) := by
  unfold Store.takeDeviceToken
  split
  · exact .inl rfl
  · next k row hrow =>
    split
    · exact .inl rfl
    · next device hdevice => exact .inr ⟨k, row, device, hrow, hdevice, rfl⟩

/-- A device token is put before the login of a key. -/
def Store.setPending (s : Store) (k : String) (row : Session) : Store :=
  { s with pendingDevices := s.pendingDevices.set k row }

theorem rememberDevice_cases (cfg : Settings) (s : Store) (now : ℚ)
    (accessToken deviceToken : Str) :
    (¬ (s.prune now).pendingDevices.len < cfg.maxTickets ∧
        s.rememberDevice cfg now accessToken deviceToken = s.prune now) ∨
      ((s.prune now).pendingDevices.len < cfg.maxTickets ∧
        s.rememberDevice cfg now accessToken deviceToken =
          (s.prune now).setPending (tokenKey cfg accessToken)
            ⟨deviceToken, now + cfg.ticketTtl, none⟩) := by
  unfold Store.rememberDevice
  simp only
  split_ifs with hfull
  · exact .inl ⟨Nat.not_lt.mpr hfull, rfl⟩
  · exact .inr ⟨Nat.not_le.mp hfull, rfl⟩

theorem revoke_cases (cfg : Settings) (s : Store) (now : ℚ) (cookie : Option Str) :
    ((s.prune now).sessionRow cfg cookie = none ∧ s.revoke cfg now cookie = s.prune now) ∨
      ∃ k row, (s.prune now).sessionRow cfg cookie = some (k, row) ∧
        s.revoke cfg now cookie =
          { s.prune now with sessions := (s.prune now).sessions.pop k } := by
  unfold Store.revoke Store.sessionRow
  cases hkey : key cfg cookie with
  | none => exact .inl ⟨rfl, rfl⟩
  | some k =>
      cases hget : (s.prune now).sessions.get k with
      | none =>
          refine .inl ⟨?_, ?_⟩
          · rw [Option.bind_some, hget, Option.map_none]
          · simp only [OrderedDict.pop_of_get hget]
      | some row =>
          refine .inr ⟨k, row, ?_, rfl⟩
          rw [Option.bind_some, hget, Option.map_some]

variable [DecidableEq L]

/-- Every operation keeps the capacities of the four tables. -/
theorem Bounded.next (h : Bounded cfg s) (now : ℚ) {op : Op} (hadmits : s.admits cfg login op) :
    Bounded cfg (s.next cfg login now op) := by
  have hp := h.pruned login now
  cases op with
  | issue token expiresAt ticket =>
      rcases issue_cases cfg s.store now token expiresAt ticket with hstore | ⟨hroom, hstore⟩
      · exact hp.of_store_eq hstore (List.subset_cons_self _ _) rfl
      · exact hp.handOut hadmits hroom hstore rfl rfl
  | rememberDevice accessToken deviceToken =>
      rcases rememberDevice_cases cfg s.store now accessToken deviceToken with
        ⟨-, hstore⟩ | ⟨hroom, hstore⟩
      · exact hp.of_store_eq hstore (List.Subset.refl _) rfl
      · refine hp.of_keys ?_ ?_ ?_ ?_ (List.Subset.refl _) rfl <;> simp only [State.next, hstore]
        · exact List.Sublist.refl _
        · exact hp.sessions
        · exact hp.successors
        · exact OrderedDict.len_set_le.trans hroom
  | currentToken token => exact hp
  | attach ticket previousCookie handle =>
      rcases attach_cases cfg s.store now ticket previousCookie handle with
        ⟨failure, hstore⟩ | ⟨k, row, hrow, hroom, hstore⟩
      · simp only [State.next, hstore]
        exact hp
      · simp only [State.next, hstore, hrow]
        exact hp.openSession (ticketRow_eq_some hrow) hroom rfl (List.subset_cons_self _ _) rfl
  | takeDeviceToken cookie =>
      -- the one method that does not prune first
      rcases takeDeviceToken_cases cfg s.store cookie with
        hstore | ⟨k, row, device, hrow, -, hstore⟩
      · exact h.of_store_eq (congrArg Prod.fst hstore) (List.Subset.refl _) rfl
      · have hlen := OrderedDict.len_set_of_get (v := ⟨row.token, row.expiresAt, none⟩)
          (sessionRow_eq_some hrow).1
        refine h.of_keys ?_ ?_ ?_ ?_ (List.Subset.refl _) rfl <;> simp only [State.next, hstore]
        · exact List.Sublist.refl _
        · exact hlen.le.trans h.sessions
        · exact h.successors
        · exact h.pending
  | restore cookie => exact hp
  | revoke cookie =>
      rcases revoke_cases cfg s.store now cookie with ⟨-, hstore⟩ | ⟨k, row, -, hstore⟩
      · exact hp.of_store_eq hstore (List.Subset.refl _) rfl
      · refine hp.of_keys ?_ ?_ ?_ ?_ (List.Subset.refl _) rfl <;> simp only [State.next, hstore]
        · exact List.Sublist.refl _
        · exact (OrderedDict.len_le OrderedDict.pop_le).trans hp.sessions
        · exact hp.successors
        · exact hp.pending
  | rotateToken previous token expiresAt =>
      refine hp.of_keys ?_ ?_ ?_ ?_ (List.Subset.refl _) rfl <;>
        simp only [State.next, Store.rotateToken]
      · rw [OrderedDict.keys_mapValues]
        exact List.Sublist.refl _
      · rw [OrderedDict.len_mapValues]
        exact hp.sessions
      · split_ifs with hroom
        · exact OrderedDict.len_set_le.trans hroom
        · exact hp.successors
      · exact hp.pending

end Bounded

end Scap.Browser
