import Mathlib.Data.List.Infix
import Scap.Lib.Paging
import Scap.Sessions.Store

/-!
# Searching all conversations

`global_search_page` visits the conversations that the user may read, one after the other, and
`search_message_page` the messages of each in pages of a hundred. Both carry counters along. The
answer is the window of one flat list (`globalSearchPage_eq`), and the pages that follow each other
make up that list (`search_pages`).

The throttle in front of the route and the audit event behind it are left out.
-/

namespace Scap.Transcripts

open Scap.Lib Scap.Py
open Scap.E2ee (SecurityMode)
open Scap.Sessions (DataClass Role)

/-! ## Rows -/

structure ChatSession where
  id : String
  ownerId : String
  title : Str
  securityMode : SecurityMode
  dataClassification : DataClass
  retentionExpiresAt : Option Int
  updatedAt : Int
  deriving DecidableEq

/-- `updated_at` and then `id`, as the search orders by. -/
def ChatSession.recency (row : ChatSession) : Int ×ₗ String := toLex (row.updatedAt, row.id)

/-- A message with what is stored of its content. -/
structure SecureMessage (β : Type) where
  id : Nat
  sessionId : String
  role : Role
  stored : β
  createdAt : Int

structure Database (β : Type) where
  sessions : KeyedTable ChatSession.id
  messages : KeyedTable (SecureMessage.id (β := β))

structure User where
  id : String
  mfaEnabled : Bool

/-- What `list_messages` returns of a message. -/
structure Message where
  id : Nat
  sessionId : String
  role : Role
  content : Str
  createdAt : Int
  deriving DecidableEq

/-- An item of the answer. -/
structure Match where
  sessionId : String
  sessionTitle : Str
  messageId : Nat
  role : Role
  content : Str
  createdAt : Int
  deriving DecidableEq

/-- `PageResponse`. -/
structure PageResponse (α : Type) where
  items : List α
  total : Nat
  offset : Nat
  limit : Nat
  hasMore : Bool
  nextOffset : Option Nat

/-- `page_result`. -/
def pageResult {α : Type} (items : List α) (total offset limit : Nat) : PageResponse α :=
  let hasMore : Bool := offset + items.length < total
  ⟨items, total, offset, limit, hasMore, if hasMore then some (offset + items.length) else none⟩

/-- `PermissionError`, or what decrypting a message raises. -/
inductive Failure (ε : Type) where
  | permission
  | decryption (e : ε)
  deriving DecidableEq

/-! ## The functions -/

section Functions

variable {β ε : Type} (casefold : Str → Str)
  (decryptMessage : ChatSession → SecureMessage β → Except ε Str) (db : Database β)

/-- `SELECT … WHERE session_id = … ORDER BY id`. -/
def messagesOf (row : ChatSession) : List (SecureMessage β) :=
  db.messages.rows.filter fun m => m.sessionId = row.id

/-- A row with its content. -/
def openMessage (row : ChatSession) (m : SecureMessage β) : Except (Failure ε) Message :=
  match decryptMessage row m with
  | .error e => .error (.decryption e)
  | .ok content => .ok ⟨m.id, m.sessionId, m.role, content, m.createdAt⟩

/-- `query.casefold() in message["content"].casefold()`. -/
def contains (query : Str) (message : Message) : Bool :=
  casefold query <:+: casefold message.content

/-- `list_messages`. -/
def listMessages (row : ChatSession) (query : Option Str) (limit : Option Nat) (offset : Nat) :
    Except (Failure ε) (List Message) :=
  if row.securityMode = .privateE2ee then .error .permission
  else do
    let rows := (messagesOf db row).drop offset
    let rows := match limit with
      | none => rows
      | some limit => rows.take limit
    let messages ← rows.mapM (openMessage decryptMessage row)
    return match query with
      | none => messages
      | some query => messages.filter (contains casefold query)

/-- The inner loop of `search_message_page`. -/
def countMessage (query : Str) (offset limit : Nat) (acc : List Message × Nat)
    (message : Message) : List Message × Nat :=
  if contains casefold query message then
    (if offset ≤ acc.2 ∧ acc.2 < offset + limit then acc.1 ++ [message] else acc.1, acc.2 + 1)
  else acc

/-- A page has as many messages as there are rows for it. -/
theorem length_listMessages {row : ChatSession} {limit offset : Nat} {page : List Message}
    (h : listMessages casefold decryptMessage db row none (some limit) offset = .ok page) :
    page.length = min limit ((messagesOf db row).length - offset) := by
  unfold listMessages at h
  split at h
  · cases h
  · obtain ⟨messages, hmessages, h⟩ := seq_eq_ok.mp h
    obtain rfl := Except.ok.inj h
    rw [length_mapM hmessages, List.length_take, List.length_drop]

/-- The outer loop of `search_message_page`. -/
def searchPages (row : ChatSession) (query : Str) (offset limit pageOffset : Nat)
    (acc : List Message × Nat) : Except (Failure ε) (List Message × Nat) :=
  match _h : listMessages casefold decryptMessage db row none (some 100) pageOffset with
  | .error e => .error e
  | .ok page =>
      let acc := page.foldl (countMessage casefold query offset limit) acc
      if page.length < 100 then .ok acc
      else searchPages row query offset limit (pageOffset + page.length) acc
termination_by (messagesOf db row).length - pageOffset
decreasing_by
  have hlength := length_listMessages casefold decryptMessage db _h
  omega

/-- `search_message_page`. -/
def searchMessagePage (row : ChatSession) (query : Str) (offset limit : Nat) :
    Except (Failure ε) (List Message × Nat) :=
  searchPages casefold decryptMessage db row query offset limit 0 ([], 0)

/-- `retained_session_clause`. -/
def retained (row : ChatSession) (now : Int) : Bool :=
  match row.retentionExpiresAt with
  | none => false
  | some expiresAt => now < expiresAt

/-- `sensitive_session_clause`. -/
def sensitive (row : ChatSession) : Bool :=
  row.securityMode ∈ [.confidential, .privateE2ee] ||
    row.dataClassification ∈ [.confidential, .highlyConfidential, .e2eePrivate]

/-- The conversations that the statement of `global_search_page` selects. -/
def readableSessions (high : Bool) (user : User) (now : Int) : List ChatSession :=
  (db.sessions.rows.filter fun row =>
    row.ownerId = user.id && retained row now && row.securityMode ≠ .privateE2ee &&
      (!(high && !user.mfaEnabled) || !sensitive row)).insertionSort
    fun a b => b.recency ≤ a.recency

/-- The item of a message. -/
def matchOf (row : ChatSession) (message : Message) : Match :=
  ⟨row.id, row.title, message.id, message.role, message.content, message.createdAt⟩

/-- The loop body of `global_search_page`. -/
def visitSession (query : Str) (offset limit : Nat) (acc : List Match × Nat) (row : ChatSession) :
    Except (Failure ε) (List Match × Nat) := do
  let (found, count) ← searchMessagePage casefold decryptMessage db row query (offset - acc.2)
    (limit - acc.1.length)
  return (acc.1 ++ found.map (matchOf row), acc.2 + count)

/-- `global_search_page`. `high` says whether `security_profile` is `"high"`. -/
def globalSearchPage (high : Bool) (user : User) (now : Int) (query : Str) (offset limit : Nat) :
    Except (Failure ε) (PageResponse Match) := do
  let (results, total) ← (readableSessions db high user now).foldlM
    (visitSession casefold decryptMessage db query offset limit) ([], 0)
  return pageResult results total offset limit

/-! ## The flat list -/

/-- The matches of a conversation. -/
def sessionMatches (query : Str) (row : ChatSession) : Except (Failure ε) (List Match) :=
  ((messagesOf db row).mapM (openMessage decryptMessage row)).map fun messages =>
    (messages.filter (contains casefold query)).map (matchOf row)

/-- All matches, conversation by conversation. -/
def allMatches (high : Bool) (user : User) (now : Int) (query : Str) :
    Except (Failure ε) (List Match) :=
  ((readableSessions db high user now).mapM (sessionMatches casefold decryptMessage db query)).map
    List.flatten

variable {casefold decryptMessage db} {row : ChatSession} {query : Str} {offset limit : Nat}
  {high : Bool} {user : User} {now : Int}

theorem listMessages_page (h : row.securityMode ≠ .privateE2ee) (pageOffset n : Nat) :
    listMessages casefold decryptMessage db row none (some n) pageOffset =
      (((messagesOf db row).drop pageOffset).take n).mapM (openMessage decryptMessage row) := by
  rw [listMessages, if_neg h]
  exact bind_pure _

/-- Counting keeps the window of the matches and their number. -/
theorem foldl_countMessage (messages before : List Message) :
    messages.foldl (countMessage casefold query offset limit)
        (window offset limit before, before.length) =
      (window offset limit (before ++ messages.filter (contains casefold query)),
        (before ++ messages.filter (contains casefold query)).length) := by
  induction messages generalizing before with
  | nil => simp
  | cons message messages ih =>
      rw [List.foldl_cons, countMessage]
      split
      · next hmatch =>
        rw [List.filter_cons_of_pos hmatch, ← window_concat]
        have hnext := ih (before ++ [message])
        rw [List.length_append, List.length_singleton, List.append_assoc] at hnext
        exact hnext
      · next hmatch =>
        rw [List.filter_cons_of_neg hmatch]
        exact ih before

/-- The pages together are all messages. -/
theorem searchPages_eq (h : row.securityMode ≠ .privateE2ee) (pageOffset : Nat)
    (acc : List Message × Nat) :
    searchPages casefold decryptMessage db row query offset limit pageOffset acc =
      (((messagesOf db row).drop pageOffset).mapM (openMessage decryptMessage row)).map fun messages =>
        messages.foldl (countMessage casefold query offset limit) acc := by
  induction hn : (messagesOf db row).length - pageOffset using Nat.strongRecOn
    generalizing pageOffset acc with
  | ind n ih =>
      have hsplit : (messagesOf db row).drop pageOffset =
          ((messagesOf db row).drop pageOffset).take 100 ++
            (messagesOf db row).drop (pageOffset + 100) := by
        rw [← List.drop_drop, List.take_append_drop]
      have hpages : listMessages casefold decryptMessage db row none (some 100) pageOffset =
          (((messagesOf db row).drop pageOffset).take 100).mapM (openMessage decryptMessage row) :=
        listMessages_page h pageOffset 100
      rw [hsplit, List.mapM_append, ← hpages]
      rw [searchPages]
      split
      · next e he =>
        rw [he]
        rfl
      · next page hpage =>
        have hlength := length_listMessages casefold decryptMessage db hpage
        rw [hpage]
        simp only
        split
        · next hlast =>
          -- a page that is not full is the last one
          have hrest : (messagesOf db row).drop (pageOffset + 100) = [] := by
            apply List.drop_of_length_le
            omega
          rw [hrest]
          simp [Except.map, bind, Except.bind, pure, Except.pure]
        · next hfull =>
          have hhundred : page.length = 100 := by omega
          rw [hhundred, ih _ (by omega) (pageOffset + 100) _ rfl]
          cases ((messagesOf db row).drop (pageOffset + 100)).mapM
            (openMessage decryptMessage row) with
          | error e => rfl
          | ok rest => simp [Except.map, bind, Except.bind, pure, Except.pure]

/-- **A page of one conversation** is the window of its matches, with their number. -/
theorem searchMessagePage_eq (h : row.securityMode ≠ .privateE2ee) :
    searchMessagePage casefold decryptMessage db row query offset limit =
      ((messagesOf db row).mapM (openMessage decryptMessage row)).map fun messages =>
        (window offset limit (messages.filter (contains casefold query)),
          (messages.filter (contains casefold query)).length) := by
  have hfold (messages : List Message) :
      messages.foldl (countMessage casefold query offset limit) ([], 0) =
        (window offset limit (messages.filter (contains casefold query)),
          (messages.filter (contains casefold query)).length) := by
    have hall := @foldl_countMessage casefold query offset limit messages []
    rwa [window_nil, List.nil_append] at hall
  rw [searchMessagePage, searchPages_eq h, List.drop_zero]
  simp only [hfold]

theorem window_map {f : Message → Match} {l : List Message} :
    (window offset limit l).map f = window offset limit (l.map f) := by
  rw [window, window, List.map_take, List.map_drop]

/-- One conversation more. -/
theorem visitSession_eq (h : row.securityMode ≠ .privateE2ee) (before : List Match) :
    visitSession casefold decryptMessage db query offset limit
        (window offset limit before, before.length) row =
      (sessionMatches casefold decryptMessage db query row).map fun found =>
        (window offset limit (before ++ found), (before ++ found).length) := by
  rw [visitSession, searchMessagePage_eq h, sessionMatches]
  cases (messagesOf db row).mapM (openMessage decryptMessage row) with
  | error e => rfl
  | ok messages =>
      simp only [Except.map, bind, Except.bind, pure, Except.pure, window_map, window_append,
        List.length_append, List.length_map]

/-- All of them, one after the other. -/
theorem foldlM_visitSession {rows : List ChatSession}
    (h : ∀ row ∈ rows, row.securityMode ≠ .privateE2ee) (before : List Match) :
    rows.foldlM (visitSession casefold decryptMessage db query offset limit)
        (window offset limit before, before.length) =
      (rows.mapM (sessionMatches casefold decryptMessage db query)).map fun parts =>
        (window offset limit (before ++ parts.flatten), (before ++ parts.flatten).length) := by
  induction rows generalizing before with
  | nil => simp [Except.map, pure, Except.pure]
  | cons row rows ih =>
      rw [List.foldlM_cons, List.mapM_cons, visitSession_eq (h row List.mem_cons_self)]
      cases sessionMatches casefold decryptMessage db query row with
      | error e => rfl
      | ok found =>
          have hrest := ih (fun r hr => h r (List.mem_cons_of_mem row hr)) (before ++ found)
          show rows.foldlM _ (window offset limit (before ++ found), (before ++ found).length) = _
          rw [hrest]
          cases rows.mapM (sessionMatches casefold decryptMessage db query) with
          | error e => rfl
          | ok parts => simp [Except.map, bind, Except.bind, pure, Except.pure]

theorem mode_of_readable (h : row ∈ readableSessions db high user now) :
    row.securityMode ≠ .privateE2ee := by
  rw [readableSessions, List.mem_insertionSort] at h
  have hcondition := (List.mem_filter.mp h).2
  simp only [Bool.and_eq_true, decide_eq_true_eq] at hcondition
  exact hcondition.1.2

/-- **The page is a window of the flat list.** -/
theorem globalSearchPage_eq : globalSearchPage casefold decryptMessage db high user now query offset
      limit =
    (allMatches casefold decryptMessage db high user now query).map fun found =>
      pageResult (window offset limit found) found.length offset limit := by
  have hfold : (readableSessions db high user now).foldlM
        (visitSession casefold decryptMessage db query offset limit)
        (window offset limit [], ([] : List Match).length) =
      ((readableSessions db high user now).mapM
        (sessionMatches casefold decryptMessage db query)).map fun parts =>
          (window offset limit ([] ++ parts.flatten), ([] ++ parts.flatten).length) :=
    foldlM_visitSession (fun row hrow => mode_of_readable hrow) []
  rw [window_nil, List.length_nil] at hfold
  rw [globalSearchPage, hfold, allMatches]
  cases (readableSessions db high user now).mapM
    (sessionMatches casefold decryptMessage db query) with
  | error e => rfl
  | ok parts => rfl

variable (casefold decryptMessage db high user query limit) in
/-- The answers to requests that are made at the given times. -/
def answerAt (clock : Nat → Int) (k offset : Nat) : Option (List Match × Option Nat) :=
  match globalSearchPage casefold decryptMessage db high user (clock k) query offset limit with
  | .error _ => none
  | .ok page => some (page.items, page.nextOffset)

theorem answerAt_eq {clock : Nat → Int} {found : List Match} {k : Nat}
    (h : allMatches casefold decryptMessage db high user (clock k) query = .ok found) :
    answerAt casefold decryptMessage db query limit high user clock k offset =
      some (windowAnswer found limit offset) := by
  rw [answerAt, globalSearchPage_eq, h]
  simp [Except.map, pageResult, windowAnswer]

end Functions

/-- **Pagination of the search.** A page is the window `[offset, offset + limit)` of the matches in
all conversations that the user may read, with their number; and who follows the next offsets, while
the same conversations can be read, receives each of these matches once and comes to an end. -/
theorem search_pages {β ε : Type} (casefold : Str → Str)
    (decryptMessage : ChatSession → SecureMessage β → Except ε Str) (db : Database β) (high : Bool)
    (user : User) (query : Str) :
    (∀ now offset limit, globalSearchPage casefold decryptMessage db high user now query offset
        limit =
      (allMatches casefold decryptMessage db high user now query).map fun found =>
        pageResult ((found.drop offset).take limit) found.length offset limit) ∧
      ∀ (clock : Nat → Int) (limit : Nat) (found : List Match), 0 < limit →
        (∀ k, readableSessions db high user (clock k) = readableSessions db high user (clock 0)) →
        allMatches casefold decryptMessage db high user (clock 0) query = .ok found →
        ∀ items, Follows (answerAt casefold decryptMessage db query limit high user clock) 0 0
          items ↔ items = found := by
  constructor
  · intro now offset limit
    exact globalSearchPage_eq
  · intro clock limit found hlimit hsame hfound items
    refine (follows_iff hlimit fun k offset => answerAt_eq ?_).trans (by rw [List.drop_zero])
    rw [allMatches, hsame k]
    exact hfound

/-! ### Two messages of one conversation -/

/-- A conversation whose messages contain one letter each. -/
def lettersDatabase : Database CodePoint where
  sessions := KeyedTable.empty.insertNew ⟨"s1", "u1", [], .secure, .internal, some 100, 0⟩
  messages := (KeyedTable.empty.insertNew ⟨1, "s1", .user, 97, 0⟩).insertNew
    ⟨2, "s1", .assistant, 97, 0⟩

/-- Pages of one item are followed from the first message to the second. -/
theorem search_pages_sample : ∃ found : List Match, found.length = 2 ∧
    Follows (answerAt (fun text => text) (fun _ m => (.ok [m.stored] : Except Unit Str))
      lettersDatabase [97] 1 false ⟨"u1", false⟩ fun _ => 0) 0 0 found := by
  let decrypt : ChatSession → SecureMessage CodePoint → Except Unit Str :=
    fun _ m => .ok [m.stored]
  obtain ⟨-, hfollows⟩ :=
    search_pages (fun text => text) decrypt lettersDatabase false ⟨"u1", false⟩ [97]
  have hlength : (allMatches (fun text => text) decrypt lettersDatabase false ⟨"u1", false⟩ 0
      [97]).map List.length = .ok 2 := by decide +kernel
  obtain ⟨found, hfound, htwo⟩ := map_eq_ok.mp hlength
  exact ⟨found, htwo,
    (hfollows (fun _ => 0) 1 found Nat.one_pos (fun _ => rfl) hfound found).mpr rfl⟩

end Scap.Transcripts
