import Scap.Js.Text
import Scap.Lib.Stream
import Scap.Py.JsonText
import Scap.Retention.Routes
import Scap.Sessions.Store

/-!
# Streaming a conversation

`stream_session_export` writes one JSON document in chunks, and reads the rows in pages while others
are inserted. `streamed_export`: the chunks are the text of the document, its array has each row
that was there at the start, once and in order, and no row twice.

Whether a message can be decrypted is a question of its row and its conversation: the rows of another
conversation never can. So the export only relies on the rows that it reads (`exportRows_ok`).
-/

namespace Scap.Transcripts

open Scap.Lib Scap.Py
open Scap.E2ee (SecurityMode)
open Scap.Sessions (DataClass Role)

/-! ## Rows -/

/-- What the export reads of a conversation. -/
structure ExportedSession where
  id : String
  title : String
  ownerId : String
  securityMode : SecurityMode
  dataClassification : DataClass
  createdAt : Int

/-- A message with what is stored of its content. Keys are given out from 1 on. -/
structure StoredMessage (β : Type) where
  id : Nat
  id_pos : 0 < id
  sessionId : String
  role : Role
  stored : β
  createdAt : Int

structure Envelope where
  id : String
  sessionId : String
  senderDeviceId : String
  recipientDeviceId : Option String
  protocol : String
  messageKind : String
  clientMessageId : String
  groupEpoch : Option Int
  headerB64 : String
  ciphertextB64 : String
  createdAt : Int

/-- `created_at` and then `id`, as the export orders by. -/
def Envelope.key (e : Envelope) : Int ×ₗ String := toLex (e.createdAt, e.id)

/-- The two tables while the export reads them: what stands in them when it begins, and at its
queries. -/
structure Tables (β : Type) where
  messages : Growth (StoredMessage.id (β := β))
  envelopes : Growth Envelope.key

/-! ## The items -/

def roleValue : Role → String
  | .user => "user"
  | .assistant => "assistant"

def optional {α : Type} (f : α → Value) : Option α → Value
  | none => .null
  | some a => f a

variable {β ε : Type} (isoformat : Int → String)

/-- `metadata`. -/
def metadata (row : ExportedSession) : List (String × Value) :=
  [("format", .str "scap-session-export-v2"), ("session_id", .str row.id),
    ("title", .str row.title), ("owner_id", .str row.ownerId),
    ("security_mode", .str (Retention.modeValue row.securityMode)),
    ("data_classification", .str row.dataClassification.value),
    ("created_at", .str (isoformat row.createdAt))]

/-- The item of an envelope. -/
def envelopeItem (e : Envelope) : Value :=
  .obj [("opaque_e2ee", .bool true), ("id", .str e.id),
    ("sender_device_id", .str e.senderDeviceId),
    ("recipient_device_id", optional .str e.recipientDeviceId), ("protocol", .str e.protocol),
    ("message_kind", .str e.messageKind), ("client_message_id", .str e.clientMessageId),
    ("epoch", optional .int e.groupEpoch), ("header", .str e.headerB64),
    ("ciphertext", .str e.ciphertextB64), ("created_at", .str (isoformat e.createdAt))]

/-- The item of a message with its content. -/
def messageItem (m : StoredMessage β) (content : String) : Value :=
  .obj [("role", .str (roleValue m.role)), ("content", .str content),
    ("created_at", .str (isoformat m.createdAt))]

/-! ## The generator -/

/-- `text.encode("utf-8")`. -/
def encode (text : List Char) : Bytes := utf8 (String.ofList text)

section Loop

variable {ρ κ : Type} [LinearOrder κ] {key : ρ → κ} (item : ρ → Except ε Value)

/-- The chunks of a page. -/
def chunksOf : Bool → List ρ → Except ε (List Bytes)
  | _, [] => .ok []
  | first, r :: rows => do
      let chunk ← item r
      let later ← chunksOf false rows
      return encode ((if first then [] else [',']) ++ chunk.text .utf8) :: later

/-- The `while` loop, from the `k`-th query on; it ends if it needs no more than `fuel` queries. -/
def exportRows (g : Growth key) : Nat → Nat → Option κ → Bool → Option (Except ε (List Bytes))
  | 0, _, _, _ => none
  | fuel + 1, k, cursor, first =>
      match (g.page 100 k cursor).getLast? with
      | none => some (.ok [])
      | some last =>
          match chunksOf item first (g.page 100 k cursor) with
          | .error e => some (.error e)
          | .ok chunks =>
              (exportRows g fuel (k + 1) (some (key last)) false).map fun later =>
                later.map fun rest => chunks ++ rest

end Loop

variable (decryptMessage : ExportedSession → StoredMessage β → Except ε String)
  (tables : Tables β) (row : ExportedSession)

def envelopesOf : Growth Envelope.key := tables.envelopes.filter fun e => e.sessionId = row.id

def messagesIn : Growth (StoredMessage.id (β := β)) :=
  tables.messages.filter fun m => m.sessionId = row.id

/-- A message as an item. -/
def openItem (m : StoredMessage β) : Except ε Value :=
  (decryptMessage row m).map (messageItem isoformat m)

/-- `stream_session_export`. -/
def streamSessionExport (fuel : Nat) : Option (Except ε (List Bytes)) :=
  let opening := (Value.text .utf8 (.obj (metadata isoformat row))).dropLast
  let rows := match row.securityMode with
    | .privateE2ee =>
        exportRows (fun e => .ok (envelopeItem isoformat e)) (envelopesOf tables row) fuel 1 none true
    | _ =>
        exportRows (openItem isoformat decryptMessage row) (messagesIn tables row) fuel 1 (some 0)
          true
  rows.map fun result => result.map fun chunks =>
    encode (opening ++ ",\"messages\":[".toList) :: chunks ++ [encode "]\x7d".toList]

/-! ## Chunks -/

theorem encode_append (s t : List Char) : encode (s ++ t) = encode s ++ encode t := by
  rw [encode, encode, encode, Js.utf8_ofList, Js.utf8_ofList, Js.utf8_ofList, List.flatMap_append]

section Chunks

variable {ρ κ : Type} [LinearOrder κ] {key : ρ → κ} {item : ρ → Except ε Value} {g : Growth key}
  {first : Bool} {rows : List ρ} {chunks : List Bytes}

/-- Items behind others, or at the beginning. -/
def joined (first : Bool) (items : List Value) : List Char :=
  if first then Json.separated (items.map (Value.text .utf8))
  else items.flatMap fun v => ',' :: v.text .utf8

theorem joined_cons (v : Value) (items : List Value) :
    joined first (v :: items) =
      ((if first then [] else [',']) ++ v.text .utf8) ++ joined false items := by
  cases first with
  | true => simp [joined, Json.separated_cons, List.flatMap_map]
  | false => simp [joined]

/-- The chunks of some rows are the text of their items. -/
theorem chunksOf_eq_ok : chunksOf item first rows = .ok chunks →
    ∃ items, rows.mapM item = .ok items ∧ chunks.flatten = encode (joined first items) := by
  induction rows generalizing first chunks with
  | nil =>
      intro h
      obtain rfl := Except.ok.inj h
      refine ⟨[], rfl, ?_⟩
      cases first <;> rfl
  | cons r rows ih =>
      intro h
      obtain ⟨v, hv, h⟩ := seq_eq_ok.mp h
      obtain ⟨later, hlater, h⟩ := seq_eq_ok.mp h
      obtain rfl := Except.ok.inj h
      obtain ⟨items, hitems, htext⟩ := ih hlater
      refine ⟨v :: items, ?_, ?_⟩
      · rw [List.mapM_cons, hv, hitems]
        rfl
      · rw [List.flatten_cons, htext, joined_cons, ← encode_append]

theorem chunksOf_append {later : List ρ} {more : List Bytes} (hne : rows ≠ [])
    (h : chunksOf item first rows = .ok chunks) (hlater : chunksOf item false later = .ok more) :
    chunksOf item first (rows ++ later) = .ok (chunks ++ more) := by
  induction rows generalizing first chunks with
  | nil => exact absurd rfl hne
  | cons r rows ih =>
      obtain ⟨v, hv, h⟩ := seq_eq_ok.mp h
      obtain ⟨rest, hrest, h⟩ := seq_eq_ok.mp h
      obtain rfl := Except.ok.inj h
      have htail : chunksOf item false (rows ++ later) = .ok (rest ++ more) := by
        by_cases hrows : rows = []
        · subst hrows
          obtain rfl := Except.ok.inj hrest
          exact hlater
        · exact ih hrows hrest
      rw [List.cons_append, chunksOf, hv]
      simp only [bind, Except.bind, htail]
      rfl

/-- The loop writes the rows of a stream. -/
theorem exportRows_eq_ok {fuel k : Nat} {cursor : Option κ}
    (h : exportRows item g fuel k cursor first = some (.ok chunks)) :
    ∃ rows, g.stream 100 fuel k cursor = some rows ∧ chunksOf item first rows = .ok chunks := by
  induction fuel generalizing k cursor first chunks with
  | zero => cases h
  | succ fuel ih =>
      rw [exportRows] at h
      rw [Growth.stream]
      split at h
      · next hlast =>
        obtain rfl := Except.ok.inj (Option.some.inj h)
        rw [hlast]
        exact ⟨[], rfl, by cases first <;> rfl⟩
      · next last hlast =>
        split at h
        · cases Option.some.inj h
        · next now hnow =>
          obtain ⟨result, hresult, hmap⟩ := Option.map_eq_some_iff.mp h
          obtain ⟨rest, rfl, rfl⟩ := map_eq_ok.mp hmap
          obtain ⟨later, hlater, hrest⟩ := ih hresult
          have hne : g.page 100 k cursor ≠ [] := by
            intro hnil
            rw [hnil] at hlast
            cases hlast
          rw [hlast]
          simp only [hlater]
          exact ⟨_, rfl, chunksOf_append hne hnow hrest⟩

/-- If each of the rows has an item, they have chunks. -/
theorem exists_chunksOf {rows : List ρ} (h : ∀ r ∈ rows, ∃ v, item r = .ok v) (first : Bool) :
    ∃ chunks, chunksOf item first rows = .ok chunks := by
  induction rows generalizing first with
  | nil => exact ⟨[], by cases first <;> rfl⟩
  | cons r rows ih =>
      obtain ⟨v, hv⟩ := h r List.mem_cons_self
      obtain ⟨later, hlater⟩ := ih (fun r hr => h r (List.mem_cons_of_mem _ hr)) false
      exact ⟨_, by rw [chunksOf, hv]; simp only [bind, Except.bind, hlater]; rfl⟩

/-- A page is read from the table as it is at that query. -/
theorem exists_chunksOf_page (hitem : ∀ k, ∀ r ∈ (g.table k).rows, ∃ v, item r = .ok v)
    (first : Bool) (k : Nat) (cursor : Option κ) :
    ∃ chunks, chunksOf item first (g.page 100 k cursor) = .ok chunks :=
  exists_chunksOf (fun r hr => hitem k r (KeyedTable.mem_beyond.mp (Growth.mem_page hr)).1) first

/-- If every row of the table has an item, the loop does not fail. -/
theorem exportRows_ok (hitem : ∀ k, ∀ r ∈ (g.table k).rows, ∃ v, item r = .ok v) {fuel k : Nat}
    {cursor : Option κ} {result : Except ε (List Bytes)}
    (h : exportRows item g fuel k cursor first = some result) : ∃ chunks, result = .ok chunks := by
  induction fuel generalizing k cursor first result with
  | zero => cases h
  | succ fuel ih =>
      rw [exportRows] at h
      split at h
      · exact ⟨[], (Option.some.inj h).symm⟩
      · next last hlast =>
        obtain ⟨now, hnow⟩ := exists_chunksOf_page hitem first k cursor
        rw [hnow] at h
        obtain ⟨later, hlater, rfl⟩ := Option.map_eq_some_iff.mp h
        obtain ⟨rest, rfl⟩ := ih hlater
        exact ⟨now ++ rest, rfl⟩

/-- And it writes every stream that ends. -/
theorem exists_exportRows (hitem : ∀ k, ∀ r ∈ (g.table k).rows, ∃ v, item r = .ok v) {fuel k : Nat}
    {cursor : Option κ} (h : g.stream 100 fuel k cursor = some rows) :
    ∃ chunks, exportRows item g fuel k cursor first = some (.ok chunks) := by
  induction fuel generalizing k cursor first rows with
  | zero => cases h
  | succ fuel ih =>
      rw [Growth.stream] at h
      rw [exportRows]
      split at h
      · next hlast =>
        rw [hlast]
        exact ⟨[], rfl⟩
      · next last hlast =>
        obtain ⟨later, hlater, -⟩ := Option.map_eq_some_iff.mp h
        obtain ⟨rest, hrest⟩ : ∃ rest, exportRows item g fuel (k + 1) (some (key last)) false =
            some (.ok rest) := ih hlater
        obtain ⟨now, hnow⟩ := exists_chunksOf_page hitem first k cursor
        rw [hlast]
        simp only [hnow, hrest]
        exact ⟨_, rfl⟩

end Chunks

/-! ## The document -/

theorem separated_concat (texts : List (List Char)) (hne : texts ≠ []) (t : List Char) :
    Json.separated (texts ++ [t]) = Json.separated texts ++ ',' :: t := by
  cases texts with
  | nil => exact absurd rfl hne
  | cons u texts =>
      rw [List.cons_append, Json.separated_cons, Json.separated_cons, List.flatMap_append]
      simp

/-- An object with one more member, an array. -/
theorem text_concat_arr (fs : List (String × Value)) (hne : fs ≠ []) (items : List Value) :
    (Value.text .utf8 (.obj fs)).dropLast ++ ",\"messages\":[".toList ++ joined true items ++
      "]\x7d".toList = Value.text .utf8 (.obj (fs ++ [("messages", .arr items)])) := by
  have hmember : Json.memberText ("messages", .arr items) =
      "\"messages\":[".toList ++ joined true items ++ [']'] := by
    have hkey : Escaping.utf8.quote "messages" ++ [':', '['] = "\"messages\":[".toList := by decide
    rw [Json.memberText, Json.text_arr, ← hkey]
    simp [joined]
  have hcomma : ",\"messages\":[".toList = ',' :: "\"messages\":[".toList := by decide
  have hclose : "]\x7d".toList = [']'] ++ ['\x7d'] := by decide
  rw [Json.text_obj, Json.text_obj, List.map_append, List.map_singleton,
    separated_concat _ (by simpa using hne), hmember, List.dropLast_concat, hcomma, hclose]
  simp

/-- What a complete export shows of a table: rows of the table in order and none twice, among them
all that were there when it began. -/
structure Shows {ρ κ : Type} [LinearOrder κ] {key : ρ → κ} (g : Growth key) (rows : List ρ) :
    Prop where
  ordered : rows.Pairwise fun a b => key a < key b
  exist : ∀ r ∈ rows, ∃ k, r ∈ (g.table k).rows
  complete : (g.table 0).rows.Sublist rows

theorem shows_of_stream {ρ κ : Type} [LinearOrder κ] {key : ρ → κ} {g : Growth key} {fuel : Nat}
    {cursor : Option κ} {rows : List ρ} (h : g.stream 100 fuel 1 cursor = some rows)
    (hcursor : ∀ r ∈ (g.table 0).rows, ∀ c, cursor = some c → c < key r) : Shows g rows := by
  obtain ⟨hordered, hfrom, hall⟩ := Growth.stream_spec (by decide) h
  refine ⟨hordered, fun r hr => (hfrom r hr).2, ?_⟩
  have hsubset : (g.table 0).rows ⊆ rows := fun r hr =>
    hall (KeyedTable.mem_beyond.mpr ⟨g.grows 0 hr, hcursor r hr⟩)
  exact KeyedTable.sublist_of_subset hordered hsubset

section Document

variable {isoformat : Int → String}
  {decryptMessage : ExportedSession → StoredMessage β → Except ε String} {tables : Tables β}
  {row : ExportedSession} {fuel : Nat} {chunks : List Bytes}

/-- What the generator puts around its items. -/
theorem flatten_document {items : List Value} (h : chunks.flatten = encode (joined true items)) :
    (encode ((Value.text .utf8 (.obj (metadata isoformat row))).dropLast ++
        ",\"messages\":[".toList) :: chunks ++ [encode "]\x7d".toList]).flatten =
      encode (Value.text .utf8 (.obj (metadata isoformat row ++ [("messages", .arr items)]))) := by
  rw [← text_concat_arr (metadata isoformat row) (List.cons_ne_nil _ _), List.cons_append,
    List.flatten_cons, List.flatten_append, h, List.flatten_singleton, ← encode_append,
    ← encode_append]
  simp only [List.append_assoc]

/-- The loop over the rows of the conversation, whichever they are. -/
def exportedChunks (isoformat : Int → String)
    (decryptMessage : ExportedSession → StoredMessage β → Except ε String) (tables : Tables β)
    (row : ExportedSession) (fuel : Nat) : Option (Except ε (List Bytes)) :=
  if row.securityMode = .privateE2ee then
    exportRows (fun e => .ok (envelopeItem isoformat e)) (envelopesOf tables row) fuel 1 none true
  else
    exportRows (openItem isoformat decryptMessage row) (messagesIn tables row) fuel 1 (some 0) true

theorem streamSessionExport_eq : streamSessionExport isoformat decryptMessage tables row fuel =
    (exportedChunks isoformat decryptMessage tables row fuel).map fun result => result.map
      fun chunks => encode ((Value.text .utf8 (.obj (metadata isoformat row))).dropLast ++
        ",\"messages\":[".toList) :: chunks ++ [encode "]\x7d".toList] := by
  unfold streamSessionExport exportedChunks
  cases row.securityMode <;> rfl

theorem mapM_ok {ρ : Type} {f : ρ → Value} {rows : List ρ} :
    rows.mapM (fun r => (.ok (f r) : Except ε Value)) = .ok (rows.map f) := by
  induction rows with
  | nil => rfl
  | cons r rows ih =>
      rw [List.mapM_cons, ih]
      rfl

theorem forall₂_of_mapM {ρ : Type} {f : ρ → Except ε Value} {rows : List ρ} {items : List Value}
    (h : rows.mapM f = .ok items) : List.Forall₂ (fun r v => f r = .ok v) rows items := by
  induction rows generalizing items with
  | nil =>
      obtain rfl := Except.ok.inj h
      exact .nil
  | cons r rows ih =>
      rw [List.mapM_cons] at h
      obtain ⟨v, hv, h⟩ := seq_eq_ok.mp h
      obtain ⟨rest, hrest, h⟩ := seq_eq_ok.mp h
      obtain rfl := Except.ok.inj h
      exact .cons hv (ih hrest)

variable (isoformat decryptMessage tables row) in
/-- The array of a complete export: the items of rows that the export shows. -/
def IsExported (items : List Value) : Prop :=
  if row.securityMode = .privateE2ee then
    ∃ rows, Shows (envelopesOf tables row) rows ∧ items = rows.map (envelopeItem isoformat)
  else
    ∃ rows, Shows (messagesIn tables row) rows ∧
      List.Forall₂ (fun m item => ∃ content, decryptMessage row m = .ok content ∧
        item = messageItem isoformat m content) rows items

theorem exported_of_chunks
    (h : exportedChunks isoformat decryptMessage tables row fuel = some (.ok chunks)) :
    ∃ items, chunks.flatten = encode (joined true items) ∧
      IsExported isoformat decryptMessage tables row items := by
  unfold exportedChunks at h
  unfold IsExported
  split at h
  · next hmode =>
    obtain ⟨rows, hstream, hchunks⟩ := exportRows_eq_ok h
    obtain ⟨items, hitems, htext⟩ := chunksOf_eq_ok hchunks
    rw [mapM_ok] at hitems
    refine ⟨items, htext, ?_⟩
    rw [if_pos hmode]
    exact ⟨rows, shows_of_stream hstream (fun _ _ _ hc => by cases hc),
      (Except.ok.inj hitems).symm⟩
  · next hmode =>
    obtain ⟨rows, hstream, hchunks⟩ := exportRows_eq_ok h
    obtain ⟨items, hitems, htext⟩ := chunksOf_eq_ok hchunks
    refine ⟨items, htext, ?_⟩
    rw [if_neg hmode]
    refine ⟨rows, shows_of_stream hstream ?_, ?_⟩
    · rintro m - c hc
      rw [← Option.some.inj hc]
      exact m.id_pos
    · refine (forall₂_of_mapM hitems).imp fun m v hv => ?_
      obtain ⟨content, hcontent, rfl⟩ := map_eq_ok.mp hv
      exact ⟨content, hcontent, rfl⟩

variable (decryptMessage tables row) in
/-- Every message of the conversation can be decrypted. -/
def Decryptable : Prop :=
  ∀ k, ∀ m ∈ ((messagesIn tables row).table k).rows, ∃ content, decryptMessage row m = .ok content

/-- A message that can be decrypted has an item. -/
theorem exists_openItem (h : Decryptable decryptMessage tables row) (k : Nat) :
    ∀ m ∈ ((messagesIn tables row).table k).rows,
      ∃ v, openItem isoformat decryptMessage row m = .ok v := by
  intro m hm
  obtain ⟨content, hcontent⟩ := h k m hm
  exact ⟨messageItem isoformat m content, by rw [openItem, hcontent]; rfl⟩

/-- The loop does not fail; the envelopes of a private conversation are not decrypted at all. -/
theorem exportedChunks_ok
    (hdecrypt : row.securityMode ≠ .privateE2ee → Decryptable decryptMessage tables row)
    {result : Except ε (List Bytes)}
    (h : exportedChunks isoformat decryptMessage tables row fuel = some result) :
    ∃ chunks, result = .ok chunks := by
  unfold exportedChunks at h
  split at h
  · exact exportRows_ok (fun _ e _ => ⟨_, rfl⟩) h
  · next hmode => exact exportRows_ok (exists_openItem (hdecrypt hmode)) h

/-- And it ends once nothing is inserted any more. -/
theorem exists_chunks
    (hdecrypt : row.securityMode ≠ .privateE2ee → Decryptable decryptMessage tables row) {K : Nat}
    (hstable : ∀ k, K ≤ k → tables.messages.table k = tables.messages.table K ∧
      tables.envelopes.table k = tables.envelopes.table K) :
    ∃ fuel chunks, exportedChunks isoformat decryptMessage tables row fuel = some (.ok chunks) := by
  unfold exportedChunks
  split
  · have henvelopes : ∀ k, K ≤ k →
        (envelopesOf tables row).table k = (envelopesOf tables row).table K := fun k hk =>
      congrArg (fun t => KeyedTable.filter t _) (hstable k hk).2
    obtain ⟨fuel, rows, hrows⟩ : ∃ fuel rows,
        (envelopesOf tables row).stream 100 fuel 1 none = some rows := Growth.exists_stream henvelopes
    exact ⟨fuel, exists_exportRows (fun _ e _ => ⟨_, rfl⟩) hrows⟩
  · next hmode =>
    have hmessages : ∀ k, K ≤ k →
        (messagesIn tables row).table k = (messagesIn tables row).table K := fun k hk =>
      congrArg (fun t => KeyedTable.filter t _) (hstable k hk).1
    obtain ⟨fuel, rows, hrows⟩ : ∃ fuel rows,
        (messagesIn tables row).stream 100 fuel 1 (some 0) = some rows :=
      Growth.exists_stream hmessages
    exact ⟨fuel, exists_exportRows (exists_openItem (hdecrypt hmode)) hrows⟩

end Document

/-- **Streaming export.** Let every message of the conversation be one that can be decrypted, if it
is not a private one. Then an export never fails. The chunks that it yields are together the UTF-8
encoding of a JSON text: of the metadata with an array of the items of the rows, which are in order,
none of them twice, and all those among them that were there when the export began. And it ends when
the tables no longer grow. -/
theorem streamed_export (isoformat : Int → String)
    (decryptMessage : ExportedSession → StoredMessage β → Except ε String) (tables : Tables β)
    (row : ExportedSession)
    (hdecrypt : row.securityMode ≠ .privateE2ee → Decryptable decryptMessage tables row) :
    (∀ fuel result, streamSessionExport isoformat decryptMessage tables row fuel = some result →
      ∃ chunks text items, result = .ok chunks ∧ chunks.flatten = utf8 text ∧
        Json.IsJson text.toList (.obj (metadata isoformat row ++ [("messages", .arr items)])) ∧
        IsExported isoformat decryptMessage tables row items) ∧
      ((∃ K, ∀ k, K ≤ k → tables.messages.table k = tables.messages.table K ∧
          tables.envelopes.table k = tables.envelopes.table K) →
        ∃ fuel result, streamSessionExport isoformat decryptMessage tables row fuel =
          some result) := by
  constructor
  · intro fuel result h
    rw [streamSessionExport_eq] at h
    obtain ⟨inner, hinner, rfl⟩ := Option.map_eq_some_iff.mp h
    obtain ⟨chunks, rfl⟩ := exportedChunks_ok hdecrypt hinner
    obtain ⟨items, htext, hitems⟩ := exported_of_chunks hinner
    refine ⟨_, String.ofList _, items, rfl, flatten_document htext, ?_, hitems⟩
    rw [String.toList_ofList]
    exact Json.isJson_text _
  · rintro ⟨K, hstable⟩
    obtain ⟨fuel, chunks, hchunks⟩ : ∃ fuel chunks,
        exportedChunks isoformat decryptMessage tables row fuel = some (.ok chunks) :=
      exists_chunks hdecrypt hstable
    exact ⟨fuel, _, by rw [streamSessionExport_eq, hchunks]; rfl⟩

/-! ### A message that arrives during the export -/

def sampleRow : ExportedSession := ⟨"s1", "Plans", "u1", .secure, .confidential, 0⟩

/-- A message whose content is stored as it is. -/
def sampleMessage (n : Nat) (sessionId content : String) : StoredMessage String :=
  ⟨n + 1, n.succ_pos, sessionId, .user, content, 0⟩

/-- Messages of two conversations. -/
def earlyMessages : KeyedTable (StoredMessage.id (β := String)) :=
  (KeyedTable.empty.insertNew (sampleMessage 0 "s1" "hello")).insertNew
    (sampleMessage 1 "s2" "salut")

/-- One more message of the first conversation arrives after the second query. -/
def sampleTables : Tables String where
  messages := {
    table := fun k => if k < 2 then earlyMessages
      else earlyMessages.insertNew (sampleMessage 2 "s1" "bye")
    grows := by
      intro k
      split
      · split
        · exact List.Subset.refl _
        · exact fun _ => KeyedTable.mem_insertNew_of_mem
      · next hlate =>
        rw [if_neg (by omega)]
        exact List.Subset.refl _ }
  envelopes := ⟨fun _ => .empty, fun _ => List.Subset.refl _⟩

/-- The content of a message of this conversation. -/
def sampleDecrypt (row : ExportedSession) (m : StoredMessage String) : Except Unit String :=
  if m.sessionId = row.id then .ok m.stored else .error ()

theorem decryptable_sampleTables : Decryptable sampleDecrypt sampleTables sampleRow := by
  intro k m hm
  have hown : m.sessionId = sampleRow.id := of_decide_eq_true (KeyedTable.mem_filter.mp hm).2
  exact ⟨m.stored, if_pos hown⟩

theorem streamed_export_sample : ∃ fuel chunks text items,
    streamSessionExport (fun _ => "2026-01-01T00:00:00") sampleDecrypt sampleTables sampleRow fuel =
      some (.ok chunks) ∧ chunks.flatten = utf8 text ∧
    Json.IsJson text.toList (.obj (metadata (fun _ => "2026-01-01T00:00:00") sampleRow ++
      [("messages", .arr items)])) := by
  obtain ⟨hwritten, hends⟩ := streamed_export (fun _ => "2026-01-01T00:00:00") sampleDecrypt
    sampleTables sampleRow fun _ => decryptable_sampleTables
  have hstable : ∀ k, 2 ≤ k → sampleTables.messages.table k = sampleTables.messages.table 2 ∧
      sampleTables.envelopes.table k = sampleTables.envelopes.table 2 := by
    intro k hk
    refine ⟨?_, rfl⟩
    show (if k < 2 then earlyMessages else _) = _
    rw [if_neg (not_lt.mpr hk)]
    rfl
  obtain ⟨fuel, result, hresult⟩ := hends ⟨2, hstable⟩
  obtain ⟨chunks, text, items, rfl, htext, hjson, -⟩ := hwritten fuel result hresult
  exact ⟨fuel, chunks, text, items, hresult, htext, hjson⟩

end Scap.Transcripts
