import Scap.Dlp.Rules

/-!
# Decoded views

A view is a text with the source span of each of its characters. Percent runs and HTML entities are
decoded in place, a Base64 token becomes a view of its own. A decoded view reads pieces of the view
it comes from, one behind the other (`reads_decodedViews`), and so keeps what it knows of the source
(`Reads.traced`).
-/

namespace Scap.Dlp

open Scap.Lib Scap.Lib.Regex Scap.Py

/-- `_InspectionView`. -/
structure InspectionView where
  text : Str
  origins : List (Nat × Nat)
  depth : Nat
  deriving DecidableEq

/-- `_source_span`. -/
def InspectionView.sourceSpan (view : InspectionView) (start stop : Nat) : Nat × Nat :=
  ((view.origins.getD start (0, 0)).1, (view.origins.getD (stop - 1) (0, 0)).2)

/-- `text[start:stop]`. -/
def slice {α : Type} (l : List α) (start stop : Nat) : List α := (l.drop start).take (stop - start)

/-! ## Decoding -/

/-- `[0-9A-Fa-f]`. -/
def hexCharacter (c : CodePoint) : Bool := asciiDigit c || range 'A' 'F' c || range 'a' 'f' c

/-- `_PERCENT_RUN_RE`. -/
def percentRun : Pattern := plus (seqs [lit "%", within 2 2 (one hexCharacter)])

/-- `_HTML_ENTITY_RE`. -/
def htmlEntity : Pattern :=
  seqs [lit "&",
    alts [seqs [lit "#", one (among "xX"), within 1 8 (one hexCharacter)],
      seqs [lit "#", within 1 10 (one asciiDigit)],
      seqs [one letter, within 1 31 (one alphanumeric)]],
    lit ";"]

/-- The digits of both alphabets. -/
def base64Character (c : CodePoint) : Bool := alphanumeric c || among "+/_-" c

/-- `_BASE64_RE`. -/
def base64Token : Pattern :=
  seqs [notBehind base64Character, value (seqs [atLeast 6 (one base64Character),
    within 0 2 (lit "=")]), notNext fun c => base64Character c || c = 0x3D]

def hexValue (c : CodePoint) : Option Nat :=
  if asciiDigit c then some (c.val - 48)
  else if range 'A' 'F' c then some (c.val - 55)
  else if range 'a' 'f' c then some (c.val - 87)
  else none

/-- `bytes.fromhex(digits)`. -/
def fromHex : Str → Option Bytes
  | [] => some []
  | [_] => none
  | a :: b :: digits => do
      let high ← hexValue a
      let low ← hexValue b
      let rest ← fromHex digits
      return UInt8.ofNat (high * 16 + low) :: rest

/-- `data.decode("utf-8", errors="strict")`. -/
def decodeStrict (data : Bytes) : Option Str := (decodeUtf8 data).map Str.ofString

variable (C : Characters)

/-- What an entity or a percent run stands for, unless it cannot be decoded. -/
def decodeEscape (entities : Bool) (raw : Str) : Option Str :=
  if entities then some (C.unescape raw)
  else (fromHex (raw.filter fun c => c ≠ 0x25)).bind decodeStrict

/-- The loop variables of `_decode_escapes`. -/
structure Escapes where
  text : Str
  origins : List (Nat × Nat)
  cursor : Nat
  changed : Bool

def Escapes.init : Escapes := ⟨[], [], 0, false⟩

/-- One turn of the loop. -/
def replaceEscape (view : InspectionView) (entities : Bool) (acc : Escapes)
    (m : Match GroupName CodePoint) : Escapes :=
  match decodeEscape C entities m.text with
  | none => acc
  | some decoded =>
      if decoded = m.text then acc
      else
        let decoded := normalizeText C.toUnicode decoded
        { text := acc.text ++ slice view.text acc.cursor m.start ++ decoded
          origins := acc.origins ++ slice view.origins acc.cursor m.start ++
            List.replicate decoded.length (view.sourceSpan m.start m.stop)
          cursor := m.stop
          changed := true }

def escapes (view : InspectionView) (entities : Bool) : Escapes :=
  ((if entities then htmlEntity else percentRun).finditer view.text).foldl
    (replaceEscape C view entities) .init

/-- `_decode_escapes`. -/
def decodeEscapes (view : InspectionView) (entities : Bool) : Option InspectionView :=
  let acc := escapes C view entities
  if acc.changed then
    let decodedText := acc.text ++ view.text.drop acc.cursor
    let origins := acc.origins ++ view.origins.drop acc.cursor
    let canonical := normalizeText C.toUnicode decodedText
    if canonical ≠ decodedText then
      let source := ((origins.head?.getD (0, 0)).1, (origins.getLast?.getD (0, 0)).2)
      some ⟨canonical, List.replicate canonical.length source, view.depth + 1⟩
    else some ⟨canonical, origins, view.depth + 1⟩
  else none

/-- `str.maketrans("-_", "+/")`. -/
def standardDigit (c : Char) : Char := if c = '-' then '+' else if c = '_' then '/' else c

/-- `base64.b64encode(data).decode("ascii").rstrip("=")`. -/
def canonicalBase64 (data : Bytes) : List Char :=
  ((encodeGroups data).map standardDigit).rdropWhile (· = '=')

/-- The readable text of a candidate in canonical encoding. -/
def decodeBase64 (candidate : Str) : Option Str := do
  let digits ← candidate.chars?
  let data ← decodeGroups (digits ++ List.replicate ((4 - digits.length % 4) % 4) '=')
  let decoded ← decodeStrict data
  guard ((digits.map standardDigit).rdropWhile (· = '=') = canonicalBase64 data)
  guard (!decoded.any fun c => C.category c == "Cc" && !among "\t\r\n" c)
  return decoded

/-- `_decoded_views`. -/
def decodedViews (view : InspectionView) : List InspectionView :=
  ([false, true].filterMap fun entities => (decodeEscapes C view entities).filter fun escaped =>
    !escaped.text.isEmpty) ++
  (base64Token.finditer view.text).filterMap fun m => do
    let candidate ← m.group? .value
    let decoded ← decodeBase64 C candidate.text
    let decoded := normalizeText C.toUnicode decoded
    guard (!decoded.isEmpty)
    return ⟨decoded, List.replicate decoded.length (view.sourceSpan m.start m.stop), view.depth + 1⟩

/-! ## Pieces -/

/-- The characters of a view between two positions, and what they are read as. -/
structure Piece where
  start : Nat
  stop : Nat
  text : Str

namespace Piece

/-- The source spans of what is read. -/
def origins (view : InspectionView) (p : Piece) : List (Nat × Nat) :=
  List.replicate p.text.length (view.sourceSpan p.start p.stop)

/-- Pieces one behind the other, from `lo` to `hi`. -/
def Tiled : Nat → List Piece → Nat → Prop
  | lo, [], hi => lo = hi
  | lo, p :: ps, hi => p.start = lo ∧ p.start < p.stop ∧ Tiled p.stop ps hi

end Piece

variable {C} {view d : InspectionView} {ps qs : List Piece} {p : Piece} {lo mid hi a b size : Nat}

open Piece

theorem Piece.Tiled.append (h : Tiled lo ps mid) (h' : Tiled mid qs hi) : Tiled lo (ps ++ qs) hi := by
  induction ps generalizing lo with
  | nil =>
      obtain rfl := h
      exact h'
  | cons p ps ih => exact ⟨h.1, h.2.1, ih h.2.2⟩

theorem Piece.Tiled.le (h : Tiled lo ps hi) : lo ≤ hi := by
  induction ps generalizing lo with
  | nil => exact h.le
  | cons p ps ih =>
      obtain ⟨rfl, hlt, hrest⟩ := h
      exact hlt.le.trans (ih hrest)

theorem Piece.Tiled.bounds (h : Tiled lo ps hi) (hp : p ∈ ps) :
    lo ≤ p.start ∧ p.start < p.stop ∧ p.stop ≤ hi := by
  induction ps generalizing lo with
  | nil => cases hp
  | cons q ps ih =>
      obtain ⟨rfl, hlt, hrest⟩ := h
      rcases List.mem_cons.mp hp with rfl | hp
      · exact ⟨le_rfl, hlt, hrest.le⟩
      · obtain ⟨hstart, hpos, hstop⟩ := ih hrest hp
        exact ⟨hlt.le.trans hstart, hpos, hstop⟩

/-- The characters from `a` to `b`, each as it stands. -/
def keptPieces (view : InspectionView) (a b : Nat) : List Piece :=
  (List.range' a (b - a)).map fun i => ⟨i, i + 1, slice view.text i (i + 1)⟩

/-- What a piece may be read as: a character as it stands, an escape or a token as what it encodes,
or many pieces as the normal form of what they are read as together. -/
inductive Decodes (C : Characters) (view : InspectionView) : Piece → Prop
  | kept (i : Nat) : Decodes C view ⟨i, i + 1, slice view.text i (i + 1)⟩
  | escape (entities : Bool) {a b : Nat} {decoded : Str}
      (h : decodeEscape C entities (slice view.text a b) = some decoded) :
      Decodes C view ⟨a, b, normalizeText C.toUnicode decoded⟩
  | base64 {a b : Nat} {decoded : Str} (h : decodeBase64 C (slice view.text a b) = some decoded) :
      Decodes C view ⟨a, b, normalizeText C.toUnicode decoded⟩
  | recomposed {a b : Nat} {pieces : List Piece} (tiled : Tiled a pieces b)
      (decodes : ∀ p ∈ pieces, Decodes C view p) :
      Decodes C view ⟨a, b, normalizeText C.toUnicode (pieces.flatMap Piece.text)⟩

/-- How a decoded view reads the view that it comes from. -/
structure Reads (C : Characters) (view d : InspectionView) (ps : List Piece) : Prop where
  tiled : ∃ lo hi, Tiled lo ps hi ∧ hi ≤ view.text.length
  decodes : ∀ p ∈ ps, Decodes C view p
  text_eq : d.text = ps.flatMap Piece.text
  origins_eq : d.origins = ps.flatMap (Piece.origins view)
  depth_eq : d.depth = view.depth + 1

/-- What a view knows of a source of the given size: one span for each character, in order, none of
them empty and none beyond the end. -/
structure InspectionView.Traced (size : Nat) (view : InspectionView) : Prop where
  length_eq : view.origins.length = view.text.length
  ordered : view.origins.Pairwise (· ≤ ·)
  inside : ∀ o ∈ view.origins, o.1 < o.2 ∧ o.2 ≤ size

/-! ## Source spans -/

theorem slice_eq_drop {α : Type} {l : List α} (h : l.length ≤ b) : slice l a b = l.drop a := by
  apply List.take_of_length_le
  rw [List.length_drop]
  omega

theorem slice_one {α : Type} {l : List α} (h : a < l.length) : slice l a (a + 1) = [l[a]] := by
  rw [slice, Nat.add_sub_cancel_left, List.drop_eq_getElem_cons h]
  rfl

namespace InspectionView.Traced

variable {i j : Nat}

/-- The source span of some characters, in terms of the first and the last of them. -/
theorem sourceSpan_eq (hv : view.Traced size) (hab : a < b) (hb : b ≤ view.text.length) :
    view.sourceSpan a b = ((view.origins.get ⟨a, by rw [hv.length_eq]; omega⟩).1,
      (view.origins.get ⟨b - 1, by rw [hv.length_eq]; omega⟩).2) := by
  have hlength := hv.length_eq
  have ha : a < view.origins.length := by omega
  have hlast : b - 1 < view.origins.length := by omega
  simp [sourceSpan, List.getD_eq_getElem?_getD, List.getElem?_eq_getElem ha,
    List.getElem?_eq_getElem hlast]

theorem le_getElem (hv : view.Traced size) (hij : i ≤ j) (hj : j < view.origins.length) :
    view.origins[i] ≤ view.origins[j] := by
  rcases Nat.eq_or_lt_of_le hij with rfl | hlt
  · exact le_rfl
  · exact List.pairwise_iff_getElem.mp hv.ordered i j (by omega) hj hlt

/-- The source span of some characters is not empty, and it contains that of each of them. -/
theorem sourceSpan_spec (hv : view.Traced size) (hab : a < b) (hb : b ≤ view.text.length) :
    (view.sourceSpan a b).1 < (view.sourceSpan a b).2 ∧ (view.sourceSpan a b).2 ≤ size ∧
      ∀ i (hi : i < view.origins.length), a ≤ i → i < b →
        (view.sourceSpan a b).1 ≤ view.origins[i].1 ∧ view.origins[i].2 ≤ (view.sourceSpan a b).2 := by
  have hlength := hv.length_eq
  rw [hv.sourceSpan_eq hab hb]
  have hfirst := hv.inside _ (List.getElem_mem (l := view.origins) (n := a) (by omega))
  have hlast := hv.inside _ (List.getElem_mem (l := view.origins) (n := b - 1) (by omega))
  have hends := hv.le_getElem (i := a) (j := b - 1) (by omega) (by omega)
  refine ⟨hfirst.1.trans_le hends.2, hlast.2, ?_⟩
  intro i hi hai hib
  exact ⟨(hv.le_getElem hai hi).1, (hv.le_getElem (by omega) (by omega)).2⟩

theorem sourceSpan_mono (hv : view.Traced size) {a' b' : Nat} (hab : a < b) (hba : b ≤ a')
    (hab' : a' < b') (hb : b' ≤ view.text.length) : view.sourceSpan a b ≤ view.sourceSpan a' b' := by
  have hlength := hv.length_eq
  rw [hv.sourceSpan_eq hab (by omega), hv.sourceSpan_eq hab' hb]
  exact ⟨(hv.le_getElem (by omega) (by omega)).1, (hv.le_getElem (by omega) (by omega)).2⟩

end InspectionView.Traced

/-- **A view that reads a traced one is traced.** -/
theorem Reads.traced (h : Reads C view d ps) (hv : view.Traced size) : d.Traced size := by
  obtain ⟨lo, hi, htiled, hhi⟩ := h.tiled
  constructor
  · rw [h.origins_eq, h.text_eq, List.length_flatMap, List.length_flatMap]
    simp [Piece.origins]
  · rw [h.origins_eq]
    have htiles := htiled
    clear htiled h
    induction ps generalizing lo with
    | nil => exact .nil
    | cons p ps ih =>
        obtain ⟨rfl, hlt, hrest⟩ := htiles
        rw [List.flatMap_cons, List.pairwise_append]
        refine ⟨?_, ih _ hrest, ?_⟩
        · exact List.pairwise_replicate.mpr (.inr le_rfl)
        · intro x hx y hy
          obtain ⟨q, hq, hy⟩ := List.mem_flatMap.mp hy
          obtain ⟨hstart, hpos, hstop⟩ := hrest.bounds hq
          rw [List.eq_of_mem_replicate hx, List.eq_of_mem_replicate hy]
          exact hv.sourceSpan_mono hlt hstart hpos (hstop.trans hhi)
  · rw [h.origins_eq]
    intro o ho
    obtain ⟨p, hp, ho⟩ := List.mem_flatMap.mp ho
    obtain ⟨-, hpos, hstop⟩ := htiled.bounds hp
    obtain ⟨hlt, hle, -⟩ := hv.sourceSpan_spec hpos (hstop.trans hhi)
    rw [List.eq_of_mem_replicate ho]
    exact ⟨hlt, hle⟩

/-! ## What decoding reads -/

theorem tiled_keptPieces (h : a ≤ b) : Tiled a (keptPieces view a b) b := by
  obtain ⟨k, rfl⟩ := Nat.exists_eq_add_of_le h
  rw [keptPieces, Nat.add_sub_cancel_left]
  clear h
  induction k generalizing a with
  | zero => rfl
  | succ k ih =>
      refine ⟨rfl, Nat.lt_succ_self a, ?_⟩
      have hnext := ih (a := a + 1)
      rwa [Nat.add_assoc, Nat.add_comm 1 k] at hnext

theorem mem_keptPieces (h : p ∈ keptPieces view a b) :
    ∃ i, p = ⟨i, i + 1, slice view.text i (i + 1)⟩ := by
  obtain ⟨i, -, rfl⟩ := List.mem_map.mp h
  exact ⟨i, rfl⟩

theorem slice_cons {α : Type} {l : List α} (hab : a < b) (hb : b ≤ l.length) :
    slice l a b = l[a] :: slice l (a + 1) b := by
  obtain ⟨k, rfl⟩ := Nat.exists_eq_add_of_le hab
  have hfirst : a + 1 + k - a = k + 1 := by omega
  have hrest : a + 1 + k - (a + 1) = k := by omega
  rw [slice, slice, hfirst, hrest, List.drop_eq_getElem_cons (by omega), List.take_succ_cons]

theorem keptPieces_read (hv : view.Traced size) (hab : a ≤ b) (hb : b ≤ view.text.length) :
    (keptPieces view a b).flatMap Piece.text = slice view.text a b ∧
      (keptPieces view a b).flatMap (Piece.origins view) = slice view.origins a b := by
  have hlength := hv.length_eq
  obtain ⟨k, rfl⟩ := Nat.exists_eq_add_of_le hab
  clear hab
  induction k generalizing a with
  | zero => simp [keptPieces, slice]
  | succ k ih =>
      have hnext := ih (a := a + 1) (by omega)
      have hsame : a + 1 + k = a + (k + 1) := by omega
      have hpieces : keptPieces view a (a + (k + 1)) =
          ⟨a, a + 1, slice view.text a (a + 1)⟩ :: keptPieces view (a + 1) (a + (k + 1)) := by
        rw [keptPieces, keptPieces, Nat.add_sub_cancel_left, ← hsame, Nat.add_sub_cancel_left]
        rfl
      rw [hsame] at hnext
      have htext := slice_cons (l := view.text) (a := a) (b := a + (k + 1)) (by omega) (by omega)
      have horigins := slice_cons (l := view.origins) (a := a) (b := a + (k + 1)) (by omega)
        (by omega)
      have hone := slice_one (l := view.text) (a := a) (by omega)
      have hspan := hv.sourceSpan_eq (a := a) (b := a + 1) (by omega) (by omega)
      rw [hpieces, List.flatMap_cons, List.flatMap_cons, hnext.1, hnext.2, htext, horigins]
      simp [Piece.origins, hone, hspan]

/-- The loop of `_decode_escapes` has read the view up to its cursor. -/
structure Escapes.Read (C : Characters) (view : InspectionView) (acc : Escapes) (ps : List Piece) :
    Prop where
  tiled : Tiled 0 ps acc.cursor
  le : acc.cursor ≤ view.text.length
  decodes : ∀ p ∈ ps, Decodes C view p
  text_eq : acc.text = ps.flatMap Piece.text
  origins_eq : acc.origins = ps.flatMap (Piece.origins view)

variable {acc : Escapes} {entities : Bool} {pattern : Pattern}

/-- One turn of the loop goes on behind the match or leaves everything as it is. -/
theorem read_replaceEscape (hv : view.Traced size) (h : acc.Read C view ps)
    {m : Match GroupName CodePoint} (hm : m.Of pattern view.text) (hne : pattern.nullable = false)
    (hcursor : acc.cursor ≤ m.start) :
    ∃ qs, (replaceEscape C view entities acc m).Read C view qs ∧
      (replaceEscape C view entities acc m).cursor ≤ m.stop := by
  have hlt := hm.lt hne
  have hstop := hm.stop_le
  unfold replaceEscape
  split
  · exact ⟨ps, h, hcursor.trans hlt.le⟩
  · next decoded hdecoded =>
    split
    · exact ⟨ps, h, hcursor.trans hlt.le⟩
    · have hslice : decodeEscape C entities (slice view.text m.start m.stop) = some decoded := by
        rwa [hm.text_eq] at hdecoded
      obtain ⟨htext, horigins⟩ := keptPieces_read hv hcursor (by omega)
      refine ⟨ps ++ keptPieces view acc.cursor m.start ++
        [⟨m.start, m.stop, normalizeText C.toUnicode decoded⟩], ?_, le_rfl⟩
      constructor
      · exact (h.tiled.append (tiled_keptPieces hcursor)).append ⟨rfl, hlt, rfl⟩
      · exact hstop
      · intro p hp
        rcases List.mem_append.mp hp with hp | hp
        · rcases List.mem_append.mp hp with hp | hp
          · exact h.decodes p hp
          · obtain ⟨i, rfl⟩ := mem_keptPieces hp
            exact .kept i
        · rw [List.mem_singleton.mp hp]
          exact .escape entities hslice
      · simp [h.text_eq, htext]
      · simp [h.origins_eq, horigins, Piece.origins]

theorem read_foldl (hv : view.Traced size) (hne : pattern.nullable = false)
    {ms : List (Match GroupName CodePoint)} (hms : ∀ m ∈ ms, m.Of pattern view.text)
    (hpairs : ms.Pairwise fun a b => a.stop ≤ b.start) (h : acc.Read C view ps)
    (hcursor : ∀ m ∈ ms, acc.cursor ≤ m.start) :
    ∃ qs, (ms.foldl (replaceEscape C view entities) acc).Read C view qs := by
  induction ms generalizing acc ps with
  | nil => exact ⟨ps, h⟩
  | cons m ms ih =>
      obtain ⟨hfirst, hrest⟩ := List.pairwise_cons.mp hpairs
      obtain ⟨qs, hread, hle⟩ := read_replaceEscape hv h
        (hms m List.mem_cons_self) hne (hcursor m List.mem_cons_self)
      exact ih (fun m' hm' => hms m' (List.mem_cons_of_mem m hm')) hrest hread
        fun m' hm' => hle.trans (hfirst m' hm')

theorem read_escapes (hv : view.Traced size) (entities : Bool) :
    ∃ ps, (escapes C view entities).Read C view ps := by
  have hinit : Escapes.Read C view .init [] := ⟨rfl, Nat.zero_le _, by simp, rfl, rfl⟩
  have hne : (if entities then htmlEntity else percentRun).nullable = false := by
    cases entities with
    | false => decide
    | true => decide
  exact read_foldl hv hne (fun m hm => mem_finditer hm) pairwise_finditer hinit fun m _ =>
    Nat.zero_le _

/-- Reading the rest of the view as it stands. -/
theorem Escapes.Read.finish (h : acc.Read C view ps) (hv : view.Traced size) :
    ∃ qs, Tiled 0 qs view.text.length ∧ (∀ p ∈ qs, Decodes C view p) ∧
      acc.text ++ view.text.drop acc.cursor = qs.flatMap Piece.text ∧
      acc.origins ++ view.origins.drop acc.cursor = qs.flatMap (Piece.origins view) := by
  obtain ⟨htext, horigins⟩ := keptPieces_read hv h.le le_rfl
  rw [slice_eq_drop le_rfl] at htext
  rw [slice_eq_drop hv.length_eq.le] at horigins
  refine ⟨ps ++ keptPieces view acc.cursor view.text.length,
    h.tiled.append (tiled_keptPieces h.le), ?_, ?_, ?_⟩
  · intro p hp
    rcases List.mem_append.mp hp with hp | hp
    · exact h.decodes p hp
    · obtain ⟨i, rfl⟩ := mem_keptPieces hp
      exact .kept i
  · rw [List.flatMap_append, htext, h.text_eq]
  · rw [List.flatMap_append, horigins, h.origins_eq]

/-- The same reading, from the first piece on that is not read as nothing. -/
theorem Piece.Tiled.trim_front (view : InspectionView) (h : Tiled lo ps hi)
    (hne : ps.flatMap Piece.text ≠ []) :
    ∃ lo' qs, Tiled lo' qs hi ∧ qs ⊆ ps ∧ qs.flatMap Piece.text = ps.flatMap Piece.text ∧
      qs.flatMap (Piece.origins view) = ps.flatMap (Piece.origins view) ∧
        ∃ o, (ps.flatMap (Piece.origins view)).head? = some o ∧
          ∀ b, (view.sourceSpan lo' b).1 = o.1 := by
  induction ps generalizing lo with
  | nil => exact absurd rfl hne
  | cons p ps ih =>
      by_cases hempty : p.text = []
      · have hnone : p.origins view = [] := by rw [Piece.origins, hempty]; rfl
        rw [List.flatMap_cons, hempty, List.nil_append] at hne ⊢
        rw [List.flatMap_cons, hnone, List.nil_append]
        obtain ⟨lo', qs, htiled, hsub, hrest⟩ := ih h.2.2 hne
        exact ⟨lo', qs, htiled, fun q hq => List.mem_cons_of_mem p (hsub hq), hrest⟩
      · refine ⟨lo, p :: ps, h, List.Subset.refl _, rfl, rfl, view.sourceSpan p.start p.stop, ?_, ?_⟩
        · rw [List.flatMap_cons, Piece.origins,
            ← Nat.succ_pred_eq_of_pos (List.length_pos_iff.mpr hempty), List.replicate_succ]
          rfl
        · intro b
          rw [h.1]
          rfl

/-- The same reading, up to the last piece that is not read as nothing. -/
theorem Piece.Tiled.trim_back (view : InspectionView) (h : Tiled lo ps hi)
    (hne : ps.flatMap Piece.text ≠ []) :
    ∃ hi' qs, Tiled lo qs hi' ∧ hi' ≤ hi ∧ qs ⊆ ps ∧
      qs.flatMap Piece.text = ps.flatMap Piece.text ∧
      qs.flatMap (Piece.origins view) = ps.flatMap (Piece.origins view) ∧
        ∃ o, (ps.flatMap (Piece.origins view)).getLast? = some o ∧
          ∀ a, (view.sourceSpan a hi').2 = o.2 := by
  induction ps generalizing lo with
  | nil => exact absurd rfl hne
  | cons p ps ih =>
      obtain ⟨hstart, hlt, hrest⟩ := h
      by_cases hempty : ps.flatMap Piece.text = []
      · have hnone : ps.flatMap (Piece.origins view) = [] := by
          rw [List.flatMap_eq_nil_iff] at hempty ⊢
          intro q hq
          rw [Piece.origins, hempty q hq]
          rfl
        have htext : p.text ≠ [] := by
          intro htext
          rw [List.flatMap_cons, htext, hempty] at hne
          exact hne rfl
        refine ⟨p.stop, [p], ⟨hstart, hlt, rfl⟩, hrest.le, by simp, ?_, ?_,
          view.sourceSpan p.start p.stop, ?_, fun a => rfl⟩
        · rw [List.flatMap_cons, List.flatMap_cons, hempty, List.flatMap_nil]
        · rw [List.flatMap_cons, List.flatMap_cons, hnone, List.flatMap_nil]
        · rw [List.flatMap_cons, hnone, List.append_nil, Piece.origins, List.getLast?_replicate,
            if_neg (by simpa using htext)]
      · obtain ⟨hi', qs, htiled, hle, hsub, hqtext, hqorigins, o, ho, hspan⟩ := ih hrest hempty
        refine ⟨hi', p :: qs, ⟨hstart, hlt, htiled⟩, hle, List.cons_subset_cons p hsub, ?_, ?_, o, ?_,
          hspan⟩
        · rw [List.flatMap_cons, List.flatMap_cons, hqtext]
        · rw [List.flatMap_cons, List.flatMap_cons, hqorigins]
        · rw [List.flatMap_cons, List.getLast?_append, ho]
          rfl

theorem normalizeText_nil : normalizeText C.toUnicode [] = [] := by
  rw [normalizeText, C.nfkc_nil]
  rfl

theorem reads_decodeEscapes (hv : view.Traced size) (h : decodeEscapes C view entities = some d) :
    ∃ ps, Reads C view d ps := by
  obtain ⟨ps, hread⟩ := read_escapes (C := C) hv entities
  obtain ⟨qs, htiled, hdecodes, htext, horigins⟩ := hread.finish hv
  unfold decodeEscapes at h
  simp only [htext, horigins] at h
  split at h
  · split at h
    · next hchanged =>
      -- a recomposed text stands for everything that is not read as nothing
      obtain rfl := Option.some.inj h
      have hne : qs.flatMap Piece.text ≠ [] := by
        intro hnil
        rw [hnil, normalizeText_nil] at hchanged
        exact hchanged rfl
      obtain ⟨lo, rs, hrs, hsub, hrtext, hrorigins, first, hfirst, hlo⟩ := htiled.trim_front view hne
      obtain ⟨hi, us, hus, hle, husub, hutext, huorigins, last, hlast, hhi⟩ :=
        hrs.trim_back view (hrtext ▸ hne)
      have hposition : lo < hi := by
        cases us with
        | nil => exact absurd (hutext.trans hrtext).symm hne
        | cons u us => exact hus.1 ▸ hus.2.1.trans_le hus.2.2.le
      refine ⟨[⟨lo, hi, normalizeText C.toUnicode (us.flatMap Piece.text)⟩], ?_, ?_, ?_, ?_, rfl⟩
      · exact ⟨lo, hi, ⟨rfl, hposition, rfl⟩, hle⟩
      · intro p hp
        rw [List.mem_singleton.mp hp]
        exact .recomposed hus fun p hp => hdecodes p (hsub (husub hp))
      · simp [hutext, hrtext]
      · have hspan : view.sourceSpan lo hi = (first.1, last.2) :=
          Prod.ext (hlo hi) (hhi lo)
        rw [hrorigins] at hlast
        simp [Piece.origins, hspan, hfirst, hlast, hutext, hrtext]
    · next hsame =>
      obtain rfl := Option.some.inj h
      exact ⟨qs, ⟨0, _, htiled, le_rfl⟩, hdecodes, not_not.mp hsame, rfl, rfl⟩
  · cases h

/-- The group of a token is the whole token. -/
theorem base64Token_group {text : Str} {m : Match GroupName CodePoint} (hm : m.Of base64Token text)
    {c : Capture CodePoint} (hc : m.group? .value = some c) : c.text = slice text m.start m.stop := by
  rw [slice, ← hm.text_eq]
  obtain ⟨s, e, -, ⟨_, ⟨-, rfl⟩, _, ⟨a, -, rfl⟩, -, rfl⟩, rfl⟩ := hm.found
  obtain rfl := Option.some.inj hc
  rfl

theorem reads_decodedViews (hv : view.Traced size) (h : d ∈ decodedViews C view) :
    ∃ ps, Reads C view d ps := by
  rcases List.mem_append.mp h with h | h
  · obtain ⟨entities, -, hd⟩ := List.mem_filterMap.mp h
    exact reads_decodeEscapes hv (Option.eq_some_of_filter_eq_some hd)
  · obtain ⟨m, hm, hd⟩ := List.mem_filterMap.mp h
    have hof := mem_finditer hm
    simp only [Option.bind_eq_bind, Option.bind_eq_some_iff] at hd
    obtain ⟨candidate, hcandidate, decoded, hdecoded, -, -, hview⟩ := hd
    obtain rfl := Option.some.inj hview
    rw [base64Token_group hof hcandidate] at hdecoded
    refine ⟨[⟨m.start, m.stop, normalizeText C.toUnicode decoded⟩], ?_, ?_, by simp, ?_, rfl⟩
    · exact ⟨m.start, m.stop, ⟨rfl, hof.lt (by decide), rfl⟩, hof.stop_le⟩
    · intro p hp
      rw [List.mem_singleton.mp hp]
      exact .base64 hdecoded
    · simp [Piece.origins]

theorem ne_nil_decodedViews (h : d ∈ decodedViews C view) : d.text ≠ [] := by
  rcases List.mem_append.mp h with h | h
  · obtain ⟨entities, -, hd⟩ := List.mem_filterMap.mp h
    obtain ⟨-, hne⟩ := Option.filter_eq_some_iff.mp hd
    simpa using hne
  · obtain ⟨m, hm, hd⟩ := List.mem_filterMap.mp h
    simp only [Option.bind_eq_bind, Option.bind_eq_some_iff] at hd
    obtain ⟨candidate, -, decoded, -, _, hguard, hview⟩ := hd
    obtain rfl := Option.some.inj hview
    simpa using (Option.guard_eq_some' _).mp hguard

end Scap.Dlp
