import Scap.Dlp.Scanner
import Scap.Lib.History
import Scap.Lib.Run
import Scap.SignIn.Devices

/-!
# Known sources of sign-ins

A sign-in is assessed before its factors are checked, against the rows of completed sign-ins of the
account and by the token it shows, and finished later by `finish_sign_in`, which records it and
issues a token. Requests interleave in any way, and the clock may be set. Times are microseconds.

* `sign_in_recognition` — a source is familiar just if it shows a token that was issued to the
  account, or comes from an address of its recent sign-ins;
* `new_device_alerts` — which sources are new devices, and that each of their sign-ins is recorded
  as one.
-/

namespace Scap.SignIn

open Scap.Lib Scap.Py Scap.Dlp

/-! ## Rows -/

/-- A value of the details of an event. -/
inductive Detail where
  | text (value : String)
  | number (value : Int)
  | flag (value : Bool)
  deriving DecidableEq

structure AuditEvent where
  actorId : Option String
  eventType : String
  targetType : Option String
  targetId : Option String
  outcome : String
  ipAddress : Option String
  userAgent : Option Str
  details : List (String × Detail)
  createdAt : Nat
  deriving DecidableEq

/-- `SIGN_IN_EVENT_TYPES`. -/
def signInEventTypes : List String := ["auth.login", "auth.mfa.verify", "auth.passkey.login"]

/-- `NEW_DEVICE_EVENT`. -/
def newDeviceEvent : String := "auth.login.new_device"

/-- `TRAVEL_EVENT`. -/
def travelEvent : String := "auth.login.impossible_travel"

/-- `_HISTORY_ROWS`. -/
def historyRowLimit : Nat := 500

/-- A row of a completed sign-in. -/
def AuditEvent.completed (e : AuditEvent) : Bool :=
  signInEventTypes.contains e.eventType && e.outcome = "success"

def AuditEvent.hasDeviceRef (e : AuditEvent) : Bool := e.details.any fun d => d.1 = "device_ref"

/-! ## The assessment -/

inductive Classification where
  | firstSignIn
  | newDevice
  | newLocation
  | familiar
  deriving DecidableEq

def Classification.value : Classification → String
  | firstSignIn => "first_sign_in"
  | newDevice => "new_device"
  | newLocation => "new_location"
  | familiar => "familiar"

structure SignInSource where
  hasHistory : Bool
  knownIp : Bool
  knownDevice : Bool
  trustedDevice : Bool
  deriving DecidableEq

def SignInSource.familiar (s : SignInSource) : Bool := s.knownIp || s.trustedDevice

def SignInSource.classification (s : SignInSource) : Classification :=
  if !s.hasHistory then .firstSignIn
  else if !s.knownDevice then .newDevice
  else if !s.knownIp then .newLocation
  else .familiar

/-- What the assessment depends on: `safe_user_agent`, HMAC and SHA-256, and the settings. -/
structure Env where
  characters : Characters
  safeUserAgent : Str → Option Str
  tokens : DeviceTokenService
  historyDays : Nat

section Model

variable (env : Env)

/-- The query of `assess_sign_in_source`. -/
def historyRows (events : List AuditEvent) (userId : Option String) (now : Nat) :
    List AuditEvent :=
  (events.filter fun e => e.actorId = some (userId.getD "") && e.completed &&
    now ≤ e.createdAt + env.historyDays * 86400000000).reverse.take historyRowLimit

/-- `assess_sign_in_source`. -/
def assessSignInSource (events : List AuditEvent) (userId : Option String) (ip : String)
    (userAgent : Option Str) (now : Nat) (deviceId : Option (List Char)) : SignInSource :=
  let rows := historyRows env events userId now
  let knownDevice :=
    if deviceId.isSome then true
    else if rows.any AuditEvent.hasDeviceRef then false
    else
      let family := deviceFamily env.characters userAgent
      rows.any fun row => deviceFamily env.characters row.userAgent = family
  { hasHistory := !rows.isEmpty
    knownIp := rows.any fun row => row.ipAddress = some ip
    knownDevice := knownDevice
    trustedDevice := deviceId.isSome }

/-! ## Requests -/

/-- What a request shows of its source: `client_ip`, `client_user_agent` and the header
`X-SCAP-Device`. -/
structure Request where
  ip : String
  userAgent : Str
  deviceToken : Option (List Char)
  deriving DecidableEq

/-- `presented_device_id`. -/
def presentedDeviceId (user : Option String) (r : Request) (now : Nat) : Option (List Char) :=
  match user with
  | none => none
  | some user => env.tokens.verify r.deviceToken user now

/-- A request that was assessed. -/
structure Assessment where
  user : Option String
  request : Request
  time : Nat
  deviceId : Option (List Char)
  source : SignInSource
  deriving DecidableEq

/-- Where a request is: its factors are checked, or it was recorded and has no answer yet. -/
inductive Phase where
  | assessed (a : Assessment)
  | recorded (user : String) (device : List Char)
  deriving DecidableEq

/-- What the rows tell of a completed sign-in. -/
structure Visit where
  user : String
  ip : Option String
  userAgent : Option Str
  tokened : Bool
  time : Nat
  deriving DecidableEq

/-- What has happened: a sign-in, with its assessment and its device if it was not made before the
tokens were, an assessment, or a token. -/
inductive Entry where
  | visit (v : Visit) (made : Option (Assessment × List Char))
  | assessed (a : Assessment)
  | issued (user : String) (device : List Char) (time : Nat)
  deriving DecidableEq

structure State where
  now : Nat
  events : List AuditEvent
  requests : Nat → Option Phase
  log : List Entry

inductive Action where
  | clock (now : Nat)
  | assess (id : Nat) (user : Option String) (r : Request)
  | finish (id : Nat) (eventType : String) (details : List (String × Detail)) (random : Bytes)
      (travel : Option (List (String × Detail)))
  | respond (id : Nat)
  | drop (id : Nat)
  | record (e : AuditEvent)

/-- A row that is about the account itself. -/
def Assessment.row (a : Assessment) (user eventType : String) (details : List (String × Detail))
    (now : Nat) : AuditEvent where
  actorId := some user
  eventType := eventType
  targetType := some "user"
  targetId := some user
  outcome := "success"
  ipAddress := some a.request.ip
  userAgent := env.safeUserAgent a.request.userAgent
  details := details
  createdAt := now

/-- The rows of `finish_sign_in`, which are committed together. -/
def Assessment.rows (a : Assessment) (user eventType : String) (device : List Char)
    (details : List (String × Detail)) (travel : Option (List (String × Detail))) (now : Nat) :
    List AuditEvent :=
  let signIn := a.row env user eventType (details ++ [
    ("sign_in_source", .text a.source.classification.value),
    ("device_ref", .text (deviceRef env.characters.sha256 device))]) now
  let alert :=
    if a.source.classification = .newDevice then
      [a.row env user newDeviceEvent [
        ("device", .text
          ((describeUserAgent env.characters (some a.request.userAgent)).getD "unknown")),
        ("known_network", .flag a.source.knownIp)] now]
    else []
  let far := (travel.map fun details => a.row env user travelEvent details now).toList
  signIn :: (alert ++ far)

/-- The latest time of a `datetime`. -/
def maxTime : Nat := 253402300800 * 1000000

/-- The assessment of a request. -/
def State.assessment (s : State) (user : Option String) (r : Request) : Assessment :=
  let deviceId := presentedDeviceId env user r s.now
  { user := user
    request := r
    time := s.now
    deviceId := deviceId
    source := assessSignInSource env s.events user r.ip (env.safeUserAgent r.userAgent) s.now
      deviceId }

def State.put (s : State) (id : Nat) (phase : Option Phase) : State :=
  { s with requests := Function.update s.requests id phase }

def State.write (s : State) (e : Entry) : State := { s with log := s.log ++ [e] }

/-- The sign-in that `finish_sign_in` records. -/
def Assessment.visit (a : Assessment) (user : String) (now : Nat) : Visit where
  user := user
  ip := some a.request.ip
  userAgent := env.safeUserAgent a.request.userAgent
  tokened := true
  time := now

def step (s : State) : Action → Option State
  | .clock now => if now < maxTime then some { s with now := now } else none
  | .assess id user r =>
    -- the ids of accounts are not empty
    if s.requests id = none ∧ user ≠ some "" then
      let a := s.assessment env user r
      some ((s.put id (some (.assessed a))).write (.assessed a))
    else none
  | .finish id eventType details random travel =>
    match s.requests id with
    | some (.assessed a) =>
      match a.user with
      | some user =>
        if signInEventTypes.contains eventType ∧ random.length = 16 then
          let device := a.deviceId.getD (newDeviceId random)
          let rows := a.rows env user eventType device details travel s.now
          let recorded := { s with events := s.events ++ rows }
          some ((recorded.put id (some (.recorded user device))).write
            (.visit (a.visit env user s.now) (some (a, device))))
        else none
      | none => none
    | _ => none
  | .respond id =>
    match s.requests id with
    | some (.recorded user device) => some ((s.put id none).write (.issued user device s.now))
    | _ => none
  | .drop id => some (s.put id none)
  | .record e =>
    -- no other route records these
    if e.completed = false ∧ e.eventType ≠ newDeviceEvent then
      some { s with events := s.events ++ [e] }
    else none

/-- Sign-ins that were recorded before there were tokens. -/
def AuditEvent.legacy (e : AuditEvent) : Prop :=
  e.completed = true ∧ e.actorId.isSome ∧ e.actorId ≠ some ""

def AuditEvent.visit (e : AuditEvent) : Visit where
  user := e.actorId.getD ""
  ip := e.ipAddress
  userAgent := e.userAgent
  tokened := e.hasDeviceRef
  time := e.createdAt

def signInSystem : System State Action :=
  System.ofFun (fun s => s.now < maxTime ∧ (∀ e ∈ s.events, e.legacy) ∧
    s.requests = (fun _ => none) ∧ s.log = s.events.map fun e => .visit e.visit none) (step env)

end Model

/-! ## What happened -/

def Entry.visit? : Entry → Option Visit
  | .visit v _ => some v
  | _ => none

/-- The claim of a token. -/
def Entry.claim? : Entry → Option Claim
  | .issued user device time => some (DeviceTokenService.issuedClaim user device time)
  | _ => none

/-- A sign-in from a new device: its account, address and time. -/
def Entry.alert? : Entry → Option (Option String × Option String × Nat)
  | .visit v (some (a, _)) =>
    if a.source.classification = .newDevice then some (some v.user, v.ip, v.time) else none
  | _ => none

/-- The latest sign-ins of an account, as far back as its history goes. -/
def recentVisits (env : Env) (log : List Entry) (user : Option String) (now : Nat) : List Visit :=
  ((log.filterMap Entry.visit?).filter fun v => v.user = user.getD "" &&
    now ≤ v.time + env.historyDays * 86400000000).reverse.take historyRowLimit

/-- What the latest sign-ins tell of a source. -/
def sourceOf (env : Env) (visits : List Visit) (r : Request) (deviceId : Option (List Char)) :
    SignInSource where
  hasHistory := !visits.isEmpty
  knownIp := visits.any fun v => v.ip = some r.ip
  knownDevice :=
    if deviceId.isSome then true
    else if visits.any Visit.tokened then false
    else visits.any fun v => deviceFamily env.characters v.userAgent =
      deviceFamily env.characters (env.safeUserAgent r.userAgent)
  trustedDevice := deviceId.isSome

/-- A device as the tokens have it. -/
structure DeviceId (device : List Char) : Prop where
  length_eq : device.length = 22
  urlsafe : ∀ c ∈ device, isUrlsafe c = true

/-- What an entry says of those before it. -/
def Right (env : Env) (before : List Entry) : Entry → Prop
  | .assessed a => a.deviceId = presentedDeviceId env a.user a.request a.time ∧
      a.source = sourceOf env (recentVisits env before a.user a.time) a.request a.deviceId ∧
      a.user ≠ some ""
  | .visit _ none => True
  | .visit v (some (a, device)) => .assessed a ∈ before ∧ a.user = some v.user ∧
      v = a.visit env v.user v.time ∧ (∀ d, a.deviceId = some d → d = device) ∧ DeviceId device
  | .issued user device time => time < maxTime ∧ DeviceId device ∧
      ∃ v a, .visit v (some (a, device)) ∈ before ∧ v.user = user

/-- Rows, requests and tokens are as the log tells. -/
structure Inv (env : Env) (s : State) : Prop where
  clock : s.now < maxTime
  actors : ∀ e ∈ s.events, e.completed = true → e.actorId.isSome ∧ e.actorId ≠ some ""
  visits : (s.events.filter AuditEvent.completed).map AuditEvent.visit =
    s.log.filterMap Entry.visit?
  alerts : ((s.events.filter fun e => e.eventType = newDeviceEvent).map fun e =>
    (e.actorId, e.ipAddress, e.createdAt)) = s.log.filterMap Entry.alert?
  assessed : ∀ id a, s.requests id = some (.assessed a) → .assessed a ∈ s.log
  recorded : ∀ id user device, s.requests id = some (.recorded user device) →
    DeviceId device ∧ ∃ v a, .visit v (some (a, device)) ∈ s.log ∧ v.user = user
  backed : Backed (Right env) s.log

section Proofs

variable {env : Env} {s t : State} {a : Assessment} {user eventType : String} {id : Nat}
  {device : List Char} {details : List (String × Detail)} {now : Nat}
  {travel : Option (List (String × Detail))} {events : List AuditEvent}

/-! ### The query -/

/-- The rows that the query finds are the latest visits of the log. -/
theorem map_visit_historyRows (hactors : ∀ e ∈ events, e.completed = true → e.actorId.isSome)
    {log : List Entry}
    (hvisits : (events.filter AuditEvent.completed).map AuditEvent.visit =
      log.filterMap Entry.visit?) (userId : Option String) (now : Nat) :
    (historyRows env events userId now).map AuditEvent.visit = recentVisits env log userId now := by
  unfold historyRows recentVisits
  rw [← hvisits, List.map_take, List.map_reverse, List.filter_map, List.filter_filter]
  congr 3
  apply List.filter_congr
  intro e he
  by_cases hcompleted : e.completed = true
  · obtain ⟨actor, hactor⟩ := Option.isSome_iff_exists.mp (hactors e he hcompleted)
    simp [AuditEvent.visit, hactor, hcompleted]
  · simp [hcompleted]

/-- So a source is assessed by the visits. -/
theorem assessSignInSource_eq {log : List Entry} {userId : Option String} {r : Request}
    {deviceId : Option (List Char)}
    (hrows : (historyRows env events userId now).map AuditEvent.visit =
      recentVisits env log userId now) :
    assessSignInSource env events userId r.ip (env.safeUserAgent r.userAgent) now deviceId =
      sourceOf env (recentVisits env log userId now) r deviceId := by
  unfold assessSignInSource sourceOf
  rw [← hrows]
  simp only [List.any_map, List.isEmpty_map, Function.comp_def]
  rfl

/-! ### Recorded sign-ins -/

theorem completed_row : (a.row env user eventType details now).completed =
    signInEventTypes.contains eventType := by
  simp [AuditEvent.completed, Assessment.row]

/-- Of the rows of a sign-in, one is that of a completed one. -/
theorem filter_completed_rows (htype : signInEventTypes.contains eventType = true) :
    ((a.rows env user eventType device details travel now).filter
      AuditEvent.completed).map AuditEvent.visit = [a.visit env user now] := by
  unfold Assessment.rows
  have halert : signInEventTypes.contains newDeviceEvent = false := by decide
  have hfar : signInEventTypes.contains travelEvent = false := by decide
  have hvisit : ∀ details', (a.row env user eventType
      (details' ++ [("sign_in_source", .text a.source.classification.value),
        ("device_ref", .text (deviceRef env.characters.sha256 device))]) now).visit =
      a.visit env user now := by
    intro details'
    simp [AuditEvent.visit, Assessment.visit, Assessment.row, AuditEvent.hasDeviceRef]
  rw [List.filter_cons_of_pos (completed_row.trans htype), List.map_cons, hvisit,
    List.filter_eq_nil_iff.mpr, List.map_nil]
  intro e he
  rcases List.mem_append.mp he with he | he
  · split at he
    · obtain rfl := List.mem_singleton.mp he
      rw [completed_row, halert]
      decide
    · cases he
  · cases travel with
    | none => cases he
    | some details =>
        obtain rfl := List.mem_singleton.mp he
        rw [completed_row, hfar]
        decide

/-- One of them tells of a new device if the assessment does. -/
theorem filter_newDevice_rows (htype : signInEventTypes.contains eventType = true) :
    (((a.rows env user eventType device details travel now).filter fun e =>
      e.eventType = newDeviceEvent).map fun e => (e.actorId, e.ipAddress, e.createdAt)) =
      (Entry.alert? (.visit (a.visit env user now) (some (a, device)))).toList := by
  have hsignIn : eventType ≠ newDeviceEvent := by
    rintro rfl
    exact absurd htype (by decide)
  have hfar : ((travel.map fun details => a.row env user travelEvent details now).toList.filter
      fun e => e.eventType = newDeviceEvent) = [] := by
    cases travel with
    | none => rfl
    | some details =>
        apply List.filter_cons_of_neg
        have hne : travelEvent ≠ newDeviceEvent := by decide
        simp [Assessment.row, hne]
  unfold Assessment.rows
  rw [List.filter_cons_of_neg (by simp [Assessment.row, hsignIn]), List.filter_append, hfar,
    List.append_nil]
  unfold Entry.alert?
  dsimp only
  split
  · rw [List.filter_cons_of_pos (by simp [Assessment.row])]
    rfl
  · rfl

theorem mem_rows {e : AuditEvent}
    (he : e ∈ a.rows env user eventType device details travel now) : e.actorId = some user := by
  unfold Assessment.rows at he
  simp only [List.mem_cons, List.mem_append] at he
  rcases he with rfl | he | he
  · rfl
  · split at he
    · obtain rfl := List.mem_singleton.mp he
      rfl
    · cases he
  · cases travel with
    | none => cases he
    | some details =>
        obtain rfl := List.mem_singleton.mp he
        rfl

/-! ### Steps -/

/-- An entry that tells of no sign-in. -/
theorem Inv.write (h : Inv env s) {e : Entry} (hvisit : e.visit? = none) (halert : e.alert? = none)
    (hright : Right env s.log e) : Inv env (s.write e) where
  clock := h.clock
  actors := h.actors
  visits := by
    show _ = (s.log ++ [e]).filterMap Entry.visit?
    rw [List.filterMap_append, List.filterMap_cons_none hvisit, List.filterMap_nil,
      List.append_nil]
    exact h.visits
  alerts := by
    show _ = (s.log ++ [e]).filterMap Entry.alert?
    rw [List.filterMap_append, List.filterMap_cons_none halert, List.filterMap_nil,
      List.append_nil]
    exact h.alerts
  assessed id a hid := List.mem_append_left _ (h.assessed id a hid)
  recorded id user device hid := by
    obtain ⟨hdevice, v, a, hv, huser⟩ := h.recorded id user device hid
    exact ⟨hdevice, v, a, List.mem_append_left _ hv, huser⟩
  backed := h.backed.snoc hright

/-- A request is where the log says that it is. -/
theorem Inv.put (h : Inv env s) (id : Nat) {phase : Option Phase}
    (hassessed : ∀ a, phase = some (.assessed a) → .assessed a ∈ s.log)
    (hrecorded : ∀ user device, phase = some (.recorded user device) →
      DeviceId device ∧ ∃ v a, .visit v (some (a, device)) ∈ s.log ∧ v.user = user) :
    Inv env (s.put id phase) where
  clock := h.clock
  actors := h.actors
  visits := h.visits
  alerts := h.alerts
  assessed id' a hid := by
    by_cases heq : id' = id
    · subst heq
      exact hassessed a (by simpa [State.put] using hid)
    · exact h.assessed id' a (by simpa [State.put, heq] using hid)
  recorded id' user device hid := by
    by_cases heq : id' = id
    · subst heq
      exact hrecorded user device (by simpa [State.put] using hid)
    · exact h.recorded id' user device (by simpa [State.put, heq] using hid)
  backed := h.backed

/-- The rows and the log tell the same of the history of an account. -/
theorem Inv.history (h : Inv env s) (userId : Option String) :
    (historyRows env s.events userId s.now).map AuditEvent.visit =
      recentVisits env s.log userId s.now :=
  map_visit_historyRows (fun e he hcompleted => (h.actors e he hcompleted).1) h.visits userId s.now

theorem right_assessment (h : Inv env s) (user : Option String) (r : Request)
    (huser : user ≠ some "") : Right env s.log (.assessed (s.assessment env user r)) :=
  ⟨rfl, assessSignInSource_eq (h.history user), huser⟩

/-- A device that is presented is one of a token. -/
theorem deviceId_of_presented {user : Option String} {r : Request}
    (h : presentedDeviceId env user r now = some device) : DeviceId device := by
  unfold presentedDeviceId at h
  split at h
  · cases h
  · next user =>
    unfold DeviceTokenService.verify at h
    split at h
    · cases h
    · next device' issued mac hparts =>
      split at h
      · cases h
      · split at h
        · cases h
        · obtain rfl := Option.some.inj h
          obtain ⟨-, hwell⟩ := token_of_tokenParts user hparts
          exact ⟨hwell.device_length, hwell.device_urlsafe⟩

theorem deviceId_new {random : Bytes} (h : random.length = 16) : DeviceId (newDeviceId random) := by
  obtain ⟨hlength, hurlsafe⟩ := unpadded_spec random
  rw [h] at hlength
  exact ⟨hlength, hurlsafe⟩

/-- The rows of a sign-in and its entry, which are written together. -/
theorem inv_finish (h : Inv env s) (hid : s.requests id = some (.assessed a))
    (huser : a.user = some user) (htype : signInEventTypes.contains eventType = true)
    (hdevice : DeviceId device) (hsame : ∀ d, a.deviceId = some d → d = device) :
    Inv env ((({ s with events := s.events ++ a.rows env user eventType device details travel s.now
      } : State).put id (some (.recorded user device))).write
      (.visit (a.visit env user s.now) (some (a, device)))) := by
  have hassessed := h.assessed id a hid
  have hright : Right env s.log (.visit (a.visit env user s.now) (some (a, device))) :=
    ⟨hassessed, huser, rfl, hsame, hdevice⟩
  -- nothing is assessed for the empty identifier, by which the query looks for nobody
  have hnonempty : user ≠ "" := by
    obtain ⟨before, after, hsplit⟩ := List.append_of_mem hassessed
    obtain ⟨-, -, hne⟩ := h.backed _ _ _ hsplit
    rintro rfl
    exact hne huser
  have hkept : ∀ {e : Entry}, e ∈ s.log →
      e ∈ s.log ++ [.visit (a.visit env user s.now) (some (a, device))] :=
    fun he => List.mem_append_left _ he
  refine ⟨h.clock, ?_, ?_, ?_, ?_, ?_, h.backed.snoc hright⟩
  · intro e he hcompleted
    rcases List.mem_append.mp he with he | he
    · exact h.actors e he hcompleted
    · rw [mem_rows he]
      exact ⟨rfl, fun hempty => hnonempty (Option.some.inj hempty)⟩
  · show ((s.events ++ _).filter _).map _ = (s.log ++ [_]).filterMap _
    rw [List.filter_append, List.map_append, filter_completed_rows htype, h.visits,
      List.filterMap_append]
    rfl
  · show ((s.events ++ _).filter _).map _ = (s.log ++ [_]).filterMap _
    rw [List.filter_append, List.map_append, filter_newDevice_rows htype, h.alerts,
      List.filterMap_append]
    cases halert : Entry.alert? (.visit (a.visit env user s.now) (some (a, device))) <;>
      simp [halert]
  · intro id' a' hid'
    by_cases heq : id' = id
    · simp [State.put, State.write, heq] at hid'
    · exact hkept (h.assessed id' a' (by simpa [State.put, State.write, heq] using hid'))
  · intro id' user' device' hid'
    by_cases heq : id' = id
    · simp only [State.put, State.write, heq, Function.update_self, Option.some.injEq,
        Phase.recorded.injEq] at hid'
      obtain ⟨rfl, rfl⟩ := hid'
      exact ⟨hdevice, _, a, List.mem_append_right _ (List.mem_singleton_self _), rfl⟩
    · obtain ⟨hdevice', v, a', hv, huser'⟩ := h.recorded id' user' device'
        (by simpa [State.put, State.write, heq] using hid')
      exact ⟨hdevice', v, a', hkept hv, huser'⟩

/-- A row that is neither a sign-in nor an alert. -/
theorem inv_record (h : Inv env s) {e : AuditEvent} (hcompleted : e.completed = false)
    (htype : e.eventType ≠ newDeviceEvent) : Inv env { s with events := s.events ++ [e] } where
  clock := h.clock
  actors x hx hdone := by
    rcases List.mem_append.mp hx with hx | hx
    · exact h.actors x hx hdone
    · obtain rfl := List.mem_singleton.mp hx
      rw [hcompleted] at hdone
      cases hdone
  visits := by
    show ((s.events ++ [e]).filter _).map _ = _
    rw [List.filter_append, List.filter_cons_of_neg (by simp [hcompleted]), List.filter_nil,
      List.append_nil]
    exact h.visits
  alerts := by
    show ((s.events ++ [e]).filter _).map _ = _
    rw [List.filter_append, List.filter_cons_of_neg (by simpa using htype), List.filter_nil,
      List.append_nil]
    exact h.alerts
  assessed := h.assessed
  recorded := h.recorded
  backed := h.backed

theorem inv_step {act : Action} (h : Inv env s) (hstep : step env s act = some t) : Inv env t := by
  cases act with
  | clock now =>
      obtain ⟨hnow, rfl⟩ := of_allowed hstep
      exact ⟨hnow, h.actors, h.visits, h.alerts, h.assessed, h.recorded, h.backed⟩
  | assess id user r =>
      obtain ⟨hguard, rfl⟩ := of_allowed hstep
      have hwritten : Inv env (s.write (.assessed (s.assessment env user r))) :=
        h.write rfl rfl (right_assessment h user r hguard.2)
      apply hwritten.put id
      · intro a ha
        obtain rfl := Phase.assessed.inj (Option.some.inj ha)
        exact List.mem_append_right _ (List.mem_singleton_self _)
      · intro user' device hphase
        cases hphase
  | finish id eventType details random travel =>
      unfold step at hstep
      dsimp only at hstep
      split at hstep
      · next a hid =>
        split at hstep
        · next user huser =>
          obtain ⟨hguard, rfl⟩ := of_allowed hstep
          have hassessed := h.assessed id a hid
          obtain ⟨before, after, hsplit⟩ := List.append_of_mem hassessed
          obtain ⟨hpresented, -, -⟩ := h.backed _ _ _ hsplit
          apply inv_finish h hid huser hguard.1
          -- a new device, or the one of the token that was shown
          · cases hdevice : a.deviceId with
            | none => exact deviceId_new hguard.2
            | some device => exact deviceId_of_presented (hpresented.symm.trans hdevice)
          · intro d hd
            rw [hd, Option.getD_some]
        · cases hstep
      · cases hstep
  | respond id =>
      unfold step at hstep
      dsimp only at hstep
      split at hstep
      · next user device hid =>
        obtain rfl := Option.some.inj hstep
        obtain ⟨hdevice, v, a, hv, huser⟩ := h.recorded id user device hid
        have hput : Inv env (s.put id none) :=
          h.put id (by simp) (by simp)
        exact hput.write rfl rfl ⟨h.clock, hdevice, v, a, hv, huser⟩
      · cases hstep
  | drop id =>
      obtain rfl := Option.some.inj hstep
      exact h.put id (by simp) (by simp)
  | record e =>
      obtain ⟨hguard, rfl⟩ := of_allowed hstep
      exact inv_record h hguard.1 hguard.2

theorem inv_of_reachable (h : (signInSystem env).Reachable s) : Inv env s := by
  apply h.induct
  · rintro s ⟨hclock, hlegacy, hrequests, hlog⟩
    refine ⟨hclock, fun e he _ => (hlegacy e he).2, ?_, ?_, ?_, ?_, ?_⟩
    · rw [hlog, List.filterMap_map, List.filter_eq_self.mpr fun e he => (hlegacy e he).1]
      show _ = s.events.filterMap fun e => some e.visit
      rw [List.filterMap_eq_map']
    · rw [hlog, List.filterMap_map, List.filter_eq_nil_iff.mpr]
      · exact (List.filterMap_eq_nil_iff.mpr fun e _ => rfl).symm
      · -- the first rows are sign-ins, so none of them is an alert
        intro e he htype
        have hcompleted := (hlegacy e he).1
        unfold AuditEvent.completed at hcompleted
        rw [of_decide_eq_true htype] at hcompleted
        exact absurd (Bool.and_eq_true_iff.mp hcompleted).1 (by decide)
    · intro id a hid
      rw [hrequests] at hid
      cases hid
    · intro id user device hid
      rw [hrequests] at hid
      cases hid
    · apply backed_of_forall
      intro before e he
      rw [hlog] at he
      obtain ⟨row, -, rfl⟩ := List.mem_map.mp he
      trivial
  · intro s act t _ hs hstep
    exact inv_step hs hstep

/-- What an entry of a beginning of the log says of those before it. -/
theorem Inv.right_of_mem (h : Inv env s) {before rest : List Entry} (hlog : s.log = before ++ rest)
    {e : Entry} (he : e ∈ before) : ∃ earlier, earlier ⊆ before ∧ Right env earlier e := by
  obtain ⟨earlier, later, rfl⟩ := List.append_of_mem he
  refine ⟨earlier, List.subset_append_left _ _, h.backed earlier e (later ++ rest) ?_⟩
  rw [hlog, List.append_assoc, List.cons_append]

theorem mem_claims {log : List Entry} {c : Claim} (hc : c ∈ log.filterMap Entry.claim?) :
    ∃ user device time, .issued user device time ∈ log ∧
      c = DeviceTokenService.issuedClaim user device time := by
  obtain ⟨e, he, hclaim⟩ := List.mem_filterMap.mp hc
  cases e with
  | issued user device time => exact ⟨user, device, time, he, (Option.some.inj hclaim).symm⟩
  | visit v made => cases hclaim
  | assessed a => cases hclaim

theorem second_lt (h : now < maxTime) : now / 1000000 < 10 ^ 12 := by
  unfold maxTime at h
  omega

/-- Every token that was issued can be told apart from the others. -/
theorem wellFormed_of_claims (h : Inv env s) {before rest : List Entry}
    (hlog : s.log = before ++ rest) {c : Claim} (hc : c ∈ before.filterMap Entry.claim?) :
    c.WellFormed := by
  obtain ⟨user, device, time, hmem, rfl⟩ := mem_claims hc
  obtain ⟨-, -, hclock, hdevice, -⟩ := h.right_of_mem hlog hmem
  exact wellFormed_toDigits hdevice.length_eq hdevice.urlsafe (second_lt hclock)

/-- Nobody's sign-in is known for an unknown account. -/
theorem recentVisits_none (h : Inv env s) {before rest : List Entry}
    (hlog : s.log = before ++ rest) (now : Nat) : recentVisits env before none now = [] := by
  have hnone : ((before.filterMap Entry.visit?).filter fun v =>
      v.user = (none : Option String).getD "" &&
        now ≤ v.time + env.historyDays * 86400000000) = [] := by
    rw [List.filter_eq_nil_iff]
    intro v hv huser
    have hmem : v ∈ s.log.filterMap Entry.visit? := by
      rw [hlog, List.filterMap_append]
      exact List.mem_append_left _ hv
    rw [← h.visits] at hmem
    obtain ⟨e, he, rfl⟩ := List.mem_map.mp hmem
    obtain ⟨he, hcompleted⟩ := List.mem_filter.mp he
    obtain ⟨hsome, hne⟩ := h.actors e he hcompleted
    obtain ⟨actor, hactor⟩ := Option.isSome_iff_exists.mp hsome
    apply hne
    simp only [AuditEvent.visit, hactor, Option.getD_some, Option.getD_none, Bool.and_eq_true,
      decide_eq_true_eq] at huser
    rw [hactor, huser.1]
  unfold recentVisits
  rw [hnone]
  rfl

/-- A new device comes without a token of the account: if a recent sign-in has one it is
new, and else if no recent sign-in comes from its family of browsers. -/
theorem classification_sourceOf {visits : List Visit} {r : Request}
    {deviceId : Option (List Char)} :
    (sourceOf env visits r deviceId).classification = .newDevice ↔ visits ≠ [] ∧ deviceId = none ∧
      ((∃ v ∈ visits, v.tokened = true) ∨ ∀ v ∈ visits,
        deviceFamily env.characters v.userAgent ≠
          deviceFamily env.characters (env.safeUserAgent r.userAgent)) := by
  have hnew : ∀ src : SignInSource, src.classification = .newDevice ↔
      src.hasHistory = true ∧ src.knownDevice = false := by
    rintro ⟨hasHistory, knownIp, knownDevice, trustedDevice⟩
    cases hasHistory <;> cases knownDevice <;> cases knownIp <;>
      simp [SignInSource.classification]
  rw [hnew]
  unfold sourceOf
  dsimp only
  cases deviceId with
  | some device => simp
  | none =>
      by_cases htokened : visits.any Visit.tokened = true
      · have hexists := List.any_eq_true.mp htokened
        simp [htokened, hexists]
      · have hnone : ¬ ∃ v ∈ visits, v.tokened = true := fun hv => htokened (List.any_eq_true.mpr hv)
        simp [htokened, hnone]

end Proofs

/-! ## Main results -/

/-- No MAC that a request shows is a forgery: it was made for a token that was issued. -/
def Unforged (env : Env) (before : List Entry) (a : Assessment) : Prop :=
  ∀ user, a.user = some user → ∀ device issued mac,
    tokenParts (a.request.deviceToken.getD []) = some (device, issued, mac) →
    env.tokens.sealing.Unforged (before.filterMap Entry.claim?) ⟨user, device, issued⟩ mac

/-! ### A run

`alice` signed in with Firefox before there were tokens and signs in again, which gives her a token.
Then she shows it at another address, and somebody else copies her browser without it. The digests
are those of SHA-256 and HMAC-SHA256 at these arguments. -/

def firefoxDevice : List Char := List.replicate 22 'A'

def tokenSecond : Nat := 1700000000

def tokenKeyDigest : Digest := ⟨[
  144, 148, 224, 159, 85, 230, 157, 164, 209, 214, 111, 151, 237, 128, 29, 45,
  192, 142, 210, 4, 158, 20, 178, 188, 160, 81, 236, 208, 237, 248, 66, 234], rfl⟩

def deviceDigest : Digest := ⟨[
  138, 91, 219, 76, 193, 81, 100, 18, 108, 110, 242, 102, 141, 233, 221, 36,
  13, 41, 156, 230, 57, 122, 66, 201, 90, 148, 17, 185, 61, 8, 14, 216], rfl⟩

def otherDeviceDigest : Digest := ⟨[
  162, 41, 235, 169, 4, 191, 4, 211, 80, 237, 176, 222, 61, 120, 223, 19,
  221, 198, 27, 77, 101, 183, 116, 243, 251, 130, 224, 63, 233, 40, 64, 90], rfl⟩

def tokenMac : Digest := ⟨[
  147, 145, 199, 42, 64, 129, 225, 167, 154, 169, 91, 82, 29, 140, 85, 233,
  158, 7, 240, 251, 4, 48, 188, 158, 16, 200, 4, 63, 164, 59, 62, 195], rfl⟩

def tokenSha256 (data : Bytes) : Digest :=
  if data = utf8 "secure-chat:device-token:v1:test-secret" then tokenKeyDigest
  else if data = utf8 (String.ofList firefoxDevice) then deviceDigest
  else otherDeviceDigest

def tokenHmac : HmacSha256 := fun _ message =>
  if message.data.toList = utf8 "v1|alice|AAAAAAAAAAAAAAAAAAAAAA|1700000000" then tokenMac
  else otherDeviceDigest

def sampleEnv : Env where
  characters := { sampleCharacters with sha256 := tokenSha256 }
  safeUserAgent value := some value
  tokens := DeviceTokenService.new tokenHmac tokenSha256 "test-secret" 365
  historyDays := 90

def firefox : Str := Str.ofString "Firefox/130.0 (X11; Linux x86_64)"

def sampleStart : State where
  now := tokenSecond * 1000000
  events := [⟨some "alice", "auth.login", some "user", some "alice", "success", some "203.0.113.7",
    some firefox, [], (tokenSecond - 86400) * 1000000⟩]
  requests := fun _ => none
  log := [.visit ⟨"alice", some "203.0.113.7", some firefox, false,
    (tokenSecond - 86400) * 1000000⟩ none]

def sampleToken : List Char := sampleEnv.tokens.issue "alice" firefoxDevice (tokenSecond * 1000000)

def sampleActions : List Action := [
  .assess 0 (some "alice") ⟨"203.0.113.7", firefox, none⟩,
  .finish 0 "auth.login" [] (List.replicate 16 0) none,
  .respond 0,
  .clock ((tokenSecond + 60) * 1000000),
  .assess 1 (some "alice") ⟨"198.51.100.9", firefox, some sampleToken⟩,
  .assess 2 (some "alice") ⟨"198.51.100.66", firefox, none⟩,
  .finish 2 "auth.mfa.verify" [("method", .text "totp")] (List.replicate 16 1) none]

def sampleState : State := (System.exec (step sampleEnv) sampleStart sampleActions).getD sampleStart

theorem exec_sampleActions :
    System.exec (step sampleEnv) sampleStart sampleActions = some sampleState := by
  have hsome : (System.exec (step sampleEnv) sampleStart sampleActions).isSome = true := by
    decide +kernel
  obtain ⟨t, ht⟩ := Option.isSome_iff_exists.mp hsome
  unfold sampleState
  rw [ht, Option.getD_some]

theorem sampleState_reachable : (signInSystem sampleEnv).Reachable sampleState := by
  have hstart : (signInSystem sampleEnv).init sampleStart := by
    refine ⟨by decide, ?_, rfl, rfl⟩
    intro e he
    obtain rfl := List.mem_singleton.mp he
    exact ⟨by decide, rfl, by decide⟩
  exact ⟨sampleStart, sampleActions, hstart, System.run_of_exec exec_sampleActions⟩

variable {s : State} {before after : List Entry} {a : Assessment}

/-- **Recognition.** In every run a device is recognised just if the request shows a token that was
issued for it to the same account and is fresh, and every token was issued at a completed sign-in of
its account with this device. A source is familiar, and spared the lock of the account, just if its
device is recognised or a recent sign-in of the account came from its address. For an unknown
account nothing is known. -/
theorem sign_in_recognition (env : Env) (h : (signInSystem env).Reachable s)
    (hlog : s.log = before ++ .assessed a :: after) (hreal : Unforged env before a) :
    (∀ device, a.deviceId = some device ↔ ∃ user time, a.user = some user ∧
      .issued user device time ∈ before ∧
      a.request.deviceToken = some (env.tokens.issue user device time) ∧
      env.tokens.fresh (time / 1000000) a.time = true) ∧
    (∀ user device time, .issued user device time ∈ before →
      ∃ v a', .visit v (some (a', device)) ∈ before ∧ v.user = user) ∧
    (a.source.familiar = true ↔ (∃ device, a.deviceId = some device) ∨
      ∃ v ∈ recentVisits env before a.user a.time, v.ip = some a.request.ip) ∧
    (a.user = none → a.source = ⟨false, false, false, false⟩) := by
  have hinv := inv_of_reachable h
  obtain ⟨hdevice, hsource, -⟩ := hinv.backed _ _ _ hlog
  refine ⟨?_, ?_, ?_, ?_⟩
  · intro device
    rw [hdevice]
    constructor
    · intro hpresented
      unfold presentedDeviceId at hpresented
      split at hpresented
      · cases hpresented
      · next user huser =>
        obtain ⟨issued, hmade, hheader, hfresh⟩ := DeviceTokenService.verify_sound
          (fun c hc => wellFormed_of_claims hinv hlog hc) (hreal user huser) hpresented
        obtain ⟨user', device', time, hmem, hclaim⟩ := mem_claims hmade
        obtain ⟨rfl, rfl, rfl⟩ := Claim.mk.inj hclaim
        rw [Nat.ofDigitChars_ten_toDigits] at hfresh
        exact ⟨user, time, huser, hmem, hheader, hfresh⟩
    · rintro ⟨user, time, huser, hmem, htoken, hfresh⟩
      obtain ⟨-, -, hclock, hid, -⟩ := hinv.right_of_mem hlog hmem
      rw [huser]
      unfold presentedDeviceId
      rw [htoken]
      exact DeviceTokenService.verify_issue hid.length_eq hid.urlsafe (second_lt hclock) hfresh
  · intro user device time hmem
    obtain ⟨earlier, hsub, -, -, v, a', hv, huser⟩ := hinv.right_of_mem hlog hmem
    exact ⟨v, a', hsub hv, huser⟩
  · rw [hsource]
    unfold SignInSource.familiar sourceOf
    simp only [Bool.or_eq_true, List.any_eq_true, decide_eq_true_eq, Option.isSome_iff_exists]
    exact Or.comm
  · intro hnone
    have hunknown : a.deviceId = none := by
      rw [hdevice, hnone]
      rfl
    rw [hsource, hnone, recentVisits_none hinv hlog, hunknown]
    rfl

/-- The assessment of the request with the token. -/
def sampleSeen : Assessment where
  user := some "alice"
  request := ⟨"198.51.100.9", firefox, some sampleToken⟩
  time := (tokenSecond + 60) * 1000000
  deviceId := some firefoxDevice
  source := ⟨true, false, true, true⟩

theorem sign_in_recognition_sample : sampleSeen.source.familiar = true ∧
    ∃ time, sampleSeen.request.deviceToken =
      some (sampleEnv.tokens.issue "alice" firefoxDevice time) := by
  have hlog : sampleState.log =
      sampleState.log.take 4 ++ .assessed sampleSeen :: sampleState.log.drop 5 := by
    decide +kernel
  have hreal : Unforged sampleEnv (sampleState.log.take 4) sampleSeen := by
    intro user huser device issued mac hparts
    have hread : tokenParts sampleToken = some (firefoxDevice, "1700000000".toList,
        unpadded tokenMac.val) := by
      decide +kernel
    obtain ⟨rfl, rfl, rfl⟩ : firefoxDevice = device ∧ "1700000000".toList = issued ∧
        unpadded tokenMac.val = mac := by
      simpa using hread.symm.trans hparts
    obtain rfl := Option.some.inj huser
    apply Sealing.unforged_of_mem
    decide +kernel
  obtain ⟨hdevice, -, hfamiliar, -⟩ :=
    sign_in_recognition sampleEnv sampleState_reachable hlog hreal
  obtain ⟨user, time, huser, -, htoken, -⟩ := (hdevice firefoxDevice).mp rfl
  obtain rfl := Option.some.inj huser
  exact ⟨hfamiliar.mpr (Or.inl ⟨firefoxDevice, rfl⟩), time, htoken⟩

/-- **New devices.** In every run a source is a new device just if the account has recent sign-ins,
no device is recognised, and one of these sign-ins had a device or none of them was made with the
same browser and system. The sign-ins with such an assessment, and no others, are recorded as those
of a new device, and every sign-in since there are tokens has a device. -/
theorem new_device_alerts (env : Env) (h : (signInSystem env).Reachable s) :
    (∀ before a after, s.log = before ++ .assessed a :: after →
      (a.source.classification = .newDevice ↔
        recentVisits env before a.user a.time ≠ [] ∧ a.deviceId = none ∧
        ((∃ v ∈ recentVisits env before a.user a.time, v.tokened = true) ∨
          ∀ v ∈ recentVisits env before a.user a.time,
            deviceFamily env.characters v.userAgent ≠
              deviceFamily env.characters (env.safeUserAgent a.request.userAgent)))) ∧
    (((s.events.filter fun e => e.eventType = newDeviceEvent).map fun e =>
      (e.actorId, e.ipAddress, e.createdAt)) = s.log.filterMap Entry.alert?) ∧
    (∀ v a device, .visit v (some (a, device)) ∈ s.log → v.tokened = true ∧
      a.user = some v.user ∧ v.ip = some a.request.ip ∧ .assessed a ∈ s.log) := by
  have hinv := inv_of_reachable h
  refine ⟨?_, hinv.alerts, ?_⟩
  · intro before a after hlog
    obtain ⟨-, hsource, -⟩ := hinv.backed _ _ _ hlog
    rw [hsource]
    exact classification_sourceOf
  · intro v a device hmem
    obtain ⟨earlier, hsub, hassessed, huser, hvisit, -⟩ :=
      hinv.right_of_mem (List.append_nil _).symm hmem
    rw [hvisit]
    exact ⟨rfl, huser, rfl, hsub hassessed⟩

/-- The assessment of the copied browser. -/
def sampleCopied : Assessment where
  user := some "alice"
  request := ⟨"198.51.100.66", firefox, none⟩
  time := (tokenSecond + 60) * 1000000
  deviceId := none
  source := ⟨true, false, false, false⟩

theorem new_device_alerts_sample :
    (∃ v ∈ recentVisits sampleEnv (sampleState.log.take 5) (some "alice")
      ((tokenSecond + 60) * 1000000), v.userAgent = some firefox ∧ v.tokened = true) ∧
    sampleCopied.source.classification = .newDevice ∧
    ((sampleState.events.filter fun e => e.eventType = newDeviceEvent).map fun e =>
      (e.actorId, e.ipAddress, e.createdAt)) =
      [(some "alice", some "198.51.100.66", (tokenSecond + 60) * 1000000)] := by
  obtain ⟨hnew, halerts, -⟩ := new_device_alerts sampleEnv sampleState_reachable
  have hlog : sampleState.log =
      sampleState.log.take 5 ++ .assessed sampleCopied :: sampleState.log.drop 6 := by
    decide +kernel
  have hvisit : ∃ v ∈ recentVisits sampleEnv (sampleState.log.take 5) (some "alice")
      ((tokenSecond + 60) * 1000000), v.userAgent = some firefox ∧ v.tokened = true := by
    decide +kernel
  obtain ⟨v, hv, hbrowser, htokened⟩ := hvisit
  have hcopied := (hnew _ _ _ hlog).mpr ⟨List.ne_nil_of_mem hv, rfl, Or.inl ⟨v, hv, htokened⟩⟩
  refine ⟨⟨v, hv, hbrowser, htokened⟩, hcopied, ?_⟩
  rw [halerts]
  decide +kernel

end Scap.SignIn
