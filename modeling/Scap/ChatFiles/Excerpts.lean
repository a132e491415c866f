import Mathlib.Data.List.Sort
import Mathlib.Data.Nat.Digits.Defs
import Scap.Py.Float
import Scap.Py.Text

/-!
# Excerpts of a long file

`_chunks` cuts a text behind a line or a word, and `select_file_excerpts` puts chunks together again
that fit into a budget. `chunks_spec`: nothing of the text is lost by the cuts. `file_excerpts`:
whatever the ranking, what is sent is the header and the selected chunks in their order, with a mark
where text was left out, and the cut to the budget at the end removes nothing.

The scores of `_rank` are logarithms, so the order that it yields is a parameter, `Ranking`. The
chunks that are spread over the text are computed as the source does it, by a division of floats and
`round`; `spread_le` says that this cannot lead behind the last chunk.
-/

namespace Scap.ChatFiles

open Scap.Py

/-! ## Chunks -/

/-- `EXCERPT_CHUNK_CHARS`. -/
def excerptChunkChars : Nat := 1800

/-- `text[start:stop]`. -/
def slice (text : Str) (start stop : Nat) : Str := (text.drop start).take (stop - start)

/-- `text.rfind(c, start, stop)`. -/
def rfind (text : Str) (c : CodePoint) (start stop : Nat) : Option Nat :=
  ((List.range' start (stop - start)).filter fun i => text[i]? = some c).getLast?

/-- Where the chunk that begins at `start` ends. -/
def chunkEnd (text : Str) (size start : Nat) : Nat :=
  let stop := min (start + size) text.length
  if stop < text.length then
    match rfind text 0x0A (start + size / 2) stop with
    | some cut => cut + 1
    | none =>
        match rfind text 0x20 (start + size / 2) stop with
        | some cut => cut + 1
        | none => stop
  else stop

theorem rfind_bounds {text : Str} {c : CodePoint} {start stop cut : Nat}
    (h : rfind text c start stop = some cut) : start ≤ cut ∧ cut < stop := by
  have hmem := List.mem_range'_1.mp (List.mem_of_mem_filter (List.mem_of_getLast? h))
  omega

/-- A chunk is not empty and not larger than it may be. -/
theorem chunkEnd_bounds {text : Str} {size start : Nat} (hsize : 0 < size)
    (hstart : start < text.length) : start < chunkEnd text size start ∧
      chunkEnd text size start ≤ start + size ∧ chunkEnd text size start ≤ text.length := by
  unfold chunkEnd
  simp only
  split
  · split
    · next cut hcut =>
      have hbounds := rfind_bounds hcut
      omega
    · split
      · next cut hcut =>
        have hbounds := rfind_bounds hcut
        omega
      · omega
  · omega

/-- The loop of `_chunks`. -/
def chunksFrom (text : Str) (size : Nat) (hsize : 0 < size) (start : Nat) : List Str :=
  if _h : start < text.length then
    slice text start (chunkEnd text size start) ::
      chunksFrom text size hsize (chunkEnd text size start)
  else []
termination_by text.length - start
decreasing_by
  have hbounds := chunkEnd_bounds hsize _h
  omega

/-- `_chunks`. -/
def chunks (text : Str) : List Str := chunksFrom text excerptChunkChars (by decide) 0

variable {text : Str} {size start : Nat} {hsize : 0 < size}

theorem length_slice (start : Nat) {stop : Nat} (h : stop ≤ text.length) :
    (slice text start stop).length = stop - start := by
  rw [slice, List.length_take, List.length_drop]
  omega

/-- A chunk that does not end the text is longer than half of what it may be, because `rfind` does not
look at the first half. -/
theorem half_lt_chunkEnd (text : Str) (start : Nat) (hsize : 0 < size) :
    start + size / 2 < chunkEnd text size start ∨ chunkEnd text size start = text.length := by
  unfold chunkEnd
  dsimp only
  split
  · left
    split
    · next cut hcut =>
      have hbounds := rfind_bounds hcut
      omega
    · split
      · next cut hcut =>
        have hbounds := rfind_bounds hcut
        omega
      · omega
  · exact .inr (by omega)

/-- So there are not many of them. -/
theorem length_chunksFrom_le (text : Str) (size : Nat) (hsize : 0 < size) (start : Nat) :
    (chunksFrom text size hsize start).length * (size / 2 + 1) ≤
      text.length - start + (size / 2 + 1) := by
  induction start using chunksFrom.induct text size hsize with
  | case1 start hlt ih =>
      rw [chunksFrom, dif_pos hlt, List.length_cons, Nat.add_mul, Nat.one_mul]
      rcases half_lt_chunkEnd text start hsize with hhalf | hend
      · have hend := (chunkEnd_bounds hsize hlt).2.2
        omega
      · -- the last chunk: nothing is left behind it
        rw [chunksFrom, dif_neg (by omega)]
        simp
  | case2 start hge =>
      rw [chunksFrom, dif_neg hge]
      simp

theorem chunksFrom_spec (text : Str) (size : Nat) (hsize : 0 < size) (start : Nat) :
    (chunksFrom text size hsize start).flatten = text.drop start ∧
      ∀ chunk ∈ chunksFrom text size hsize start, chunk ≠ [] ∧ chunk.length ≤ size := by
  induction start using chunksFrom.induct text size hsize with
  | case1 start hlt ih =>
      obtain ⟨hpos, hle, hlength⟩ := chunkEnd_bounds hsize hlt
      rw [chunksFrom, dif_pos hlt]
      constructor
      · have hdrop : text.drop (chunkEnd text size start) =
            (text.drop start).drop (chunkEnd text size start - start) := by
          rw [List.drop_drop]
          congr 1
          omega
        rw [List.flatten_cons, ih.1, hdrop, slice, List.take_append_drop]
      · intro chunk hchunk
        rcases List.mem_cons.mp hchunk with rfl | hchunk
        · have hslice := length_slice start hlength
          exact ⟨List.ne_nil_of_length_pos (by omega), by omega⟩
        · exact ih.2 chunk hchunk
  | case2 start hge =>
      rw [chunksFrom, dif_neg hge, List.drop_of_length_le (Nat.not_lt.mp hge)]
      simp

/-- **The chunks** make up the text, and none is empty or too large. -/
theorem chunks_spec (text : Str) : (chunks text).flatten = text ∧
    ∀ chunk ∈ chunks text, chunk ≠ [] ∧ chunk.length ≤ excerptChunkChars := by
  obtain ⟨hflatten, hchunks⟩ := chunksFrom_spec text excerptChunkChars (by decide) 0
  exact ⟨hflatten, hchunks⟩

/-! ## The selection -/

/-- `MAX_CHAT_FILE_CONTENT_CHARS`. -/
def maxChatFileContentChars : Nat := 30000

/-- `_GAP_MARKER`. -/
def gapMarker : Str := Str.ofString "\n\n[…]\n\n"

/-- `_HEADER_RESERVE`. -/
def headerReserve : Nat := 400

/-- What the selection takes from `_rank`: some order of chunks. -/
structure Ranking where
  rank : List Str → Str → List Nat
  rank_lt : ∀ cs question, ∀ i ∈ rank cs question, i < cs.length

/-- `spread`: as many chunks as there are slots, from the first to the last. The quotient of two
integers is a float. -/
def spread (slots last : Nat) : List Nat :=
  (List.range slots).map fun i =>
    (roundHalfEven (roundDouble ((i * last : Nat) / (slots - 1 : Nat)))).toNat

/-- The chunks that follow or come before one that is ranked. -/
def neighbours (ranked : List Nat) (last : Nat) : List Nat :=
  ranked.flatMap fun index =>
    (if index + 1 ≤ last then [index + 1] else []) ++ (if 0 < index then [index - 1] else [])

/-- One turn of the loop over the candidates, with `selected` and `used`. -/
def consider (cs : List Str) (available : Nat) (acc : List Nat × Nat) (index : Nat) :
    List Nat × Nat :=
  if index ∈ acc.1 then acc
  else
    let cost := (cs.getD index []).length + gapMarker.length
    if available < acc.2 + cost then acc else (index :: acc.1, acc.2 + cost)

/-- The candidates in the order in which they are considered. -/
def candidates (R : Ranking) (cs : List Str) (question : Str) (budget : Nat) : List Nat :=
  let available := budget - headerReserve
  let slots := max 2 (available / (excerptChunkChars + gapMarker.length))
  let last := cs.length - 1
  let ranked := R.rank cs question
  0 :: (ranked ++ neighbours ranked last ++ spread slots last)

/-- `selected` and `used` after the loop over the candidates. -/
def select (R : Ranking) (cs : List Str) (question : Str) (budget : Nat) : List Nat × Nat :=
  (candidates R cs question budget).foldl (consider cs (budget - headerReserve)) ([], 0)

/-- `sorted(selected)`. -/
def selection (R : Ranking) (cs : List Str) (question : Str) (budget : Nat) : List Nat :=
  (select R cs question budget).1.insertionSort fun a b => a ≤ b

/-- One turn of the loop over the selected chunks. `next` is `previous + 1`. -/
def assemble (cs : List Str) (acc : List Str × Nat) (index : Nat) : List Str × Nat :=
  let pieces := if index ≠ acc.2 then
      acc.1 ++ [if acc.1.isEmpty then Str.ofString "[…]\n\n" else gapMarker]
    else acc.1
  (pieces ++ [cs.getD index []], index + 1)

/-- `_GAP_MARKER.rstrip()`. -/
def endMarker : Str := Str.ofString "\n\n[…]"

/-- `pieces`. -/
def pieces (cs : List Str) (selected : List Nat) : List Str :=
  let (pieces, next) := selected.foldl (assemble cs) ([], 0)
  if next ≠ cs.length then pieces ++ [endMarker] else pieces

/-! ## The header -/

/-- Digits from the last one on, in groups of three. -/
def grouped : List Char → List Char
  | a :: b :: c :: d :: rest => a :: b :: c :: ',' :: grouped (d :: rest)
  | digits => digits

/-- `f"{n:,}"`. -/
def withCommas (n : Nat) : Str :=
  Str.ofString (String.ofList (grouped (Nat.toDigits 10 n).reverse).reverse)

/-- `f"{n}"`. -/
def plain (n : Nat) : Str := Str.ofString (String.ofList (Nat.toDigits 10 n))

/-- `mode`. -/
def mode (ranked : Bool) : Str :=
  if ranked then Str.ofString "liên quan nhất tới câu hỏi"
  else Str.ofString "rải đều toàn bộ tài liệu"

/-- `header`. -/
def header (total budget selected count : Nat) (ranked : Bool) : Str :=
  Str.ofString "[SCAP: tài liệu gốc dài " ++ withCommas total ++
    Str.ofString " ký tự, vượt giới hạn " ++ withCommas budget ++
    Str.ofString " ký tự cho mỗi lần gửi AI. Dưới đây là " ++ plain selected ++
    Str.ofString "/" ++ plain count ++ Str.ofString " đoạn trích " ++ mode ranked ++
    Str.ofString ", giữ nguyên thứ tự; dấu […] đánh dấu phần đã lược bớt.]\n\n"

/-- `select_file_excerpts`. -/
def selectFileExcerpts (R : Ranking) (text question : Str) (budget : Nat) : Str :=
  if text.length ≤ budget then text
  else
    let cs := chunks text
    let selected := selection R cs question budget
    let head := header text.length budget selected.length cs.length (!(R.rank cs question).isEmpty)
    Str.strip ((head ++ (pieces cs selected).flatten).take budget)

/-! ## What is selected -/

/-- What a selected chunk takes from the budget. -/
def cost (cs : List Str) (index : Nat) : Nat := (cs.getD index []).length + gapMarker.length

/-- The chunks selected so far are chunks of the text, each is selected once, and `used` is what
they take from the budget. -/
structure Selected (cs : List Str) (available : Nat) (acc : List Nat × Nat) : Prop where
  nodup : acc.1.Nodup
  lt : ∀ i ∈ acc.1, i < cs.length
  used : acc.2 = (acc.1.map (cost cs)).sum
  le : acc.2 ≤ available

section Selection

variable {R : Ranking} {cs : List Str} {question : Str} {budget available index : Nat}
  {acc : List Nat × Nat}

theorem Selected.consider (h : Selected cs available acc) (hindex : index < cs.length) :
    Selected cs available (consider cs available acc index) := by
  unfold ChatFiles.consider
  split
  · exact h
  · next hnew =>
    show Selected cs available (if available < acc.2 + cost cs index then acc
      else (index :: acc.1, acc.2 + cost cs index))
    split
    · exact h
    · next hfits =>
      refine ⟨List.nodup_cons.mpr ⟨hnew, h.nodup⟩, ?_, ?_, Nat.not_lt.mp hfits⟩
      · simpa using ⟨hindex, h.lt⟩
      · rw [List.map_cons, List.sum_cons, ← h.used, Nat.add_comm]

theorem Selected.foldl {indexes : List Nat} (h : Selected cs available acc)
    (hindexes : ∀ i ∈ indexes, i < cs.length) :
    Selected cs available (indexes.foldl (ChatFiles.consider cs available) acc) := by
  induction indexes generalizing acc with
  | nil => exact h
  | cons index indexes ih =>
      rw [List.foldl_cons]
      exact ih (h.consider (hindexes index List.mem_cons_self))
        fun i hi => hindexes i (List.mem_cons_of_mem _ hi)

/-- A chunk that is selected stays selected. -/
theorem mem_foldl_consider {indexes : List Nat} {i : Nat} (h : i ∈ acc.1) :
    i ∈ (indexes.foldl (consider cs available) acc).1 := by
  induction indexes generalizing acc with
  | nil => exact h
  | cons index indexes ih =>
      refine ih ?_
      unfold consider
      split
      · exact h
      · simp only
        split
        · exact h
        · exact List.mem_cons_of_mem _ h

/-- Chunks that are spread over the text are chunks of it, as long as their number is a float. -/
theorem spread_le {slots last : Nat} (hslots : 2 ≤ slots) (hlast : last < 2 ^ 53) :
    ∀ i ∈ spread slots last, i ≤ last := by
  intro j hj
  obtain ⟨i, hi, rfl⟩ := List.mem_map.mp hj
  have hle : i ≤ slots - 1 := Nat.le_sub_one_of_lt (List.mem_range.mp hi)
  have hpos : (0 : ℚ) < (slots - 1 : Nat) := by exact_mod_cast (by omega : 0 < slots - 1)
  apply round_le (by positivity) ?_ hlast
  rw [div_le_iff₀ hpos, mul_comm (last : ℚ)]
  exact_mod_cast Nat.mul_le_mul_right last hle

/-- Every candidate is a chunk of the text. -/
theorem candidates_lt (hcs : cs ≠ []) (hmany : cs.length ≤ 2 ^ 53) :
    ∀ i ∈ candidates R cs question budget, i < cs.length := by
  have hpos := List.length_pos_of_ne_nil hcs
  intro i hi
  simp only [candidates, List.mem_cons, List.mem_append] at hi
  rcases hi with rfl | (hi | hi) | hi
  · exact hpos
  · exact R.rank_lt cs question i hi
  · simp only [neighbours, List.mem_flatMap, List.mem_append] at hi
    obtain ⟨j, hj, hi⟩ := hi
    have hlt := R.rank_lt cs question j hj
    split_ifs at hi <;> simp at hi <;> omega
  · have hle := spread_le (le_max_left _ _) (by omega) i hi
    omega

/-- The first chunk is selected when the budget has room for one chunk. -/
theorem zero_mem_select (hroom : cost cs 0 ≤ budget - headerReserve) :
    0 ∈ (select R cs question budget).1 := by
  rw [select, candidates, List.foldl_cons]
  refine mem_foldl_consider ?_
  have hfits : ¬ budget - headerReserve < 0 + ((cs.getD 0 []).length + gapMarker.length) := by
    rw [Nat.zero_add]
    exact Nat.not_lt.mpr hroom
  simp only [consider, List.not_mem_nil, if_false, if_neg hfits, List.mem_singleton]

theorem selected_select (R : Ranking) (question : Str) (budget : Nat) (hcs : cs ≠ [])
    (hmany : cs.length ≤ 2 ^ 53) :
    Selected cs (budget - headerReserve) (select R cs question budget) :=
  Selected.foldl ⟨List.nodup_nil, by simp, rfl, Nat.zero_le _⟩ (candidates_lt hcs hmany)

/-- The selected chunks in their order: the first one, and others behind it that fit into the
budget. -/
theorem selection_spec (R : Ranking) (question : Str) (hcs : cs ≠ []) (hmany : cs.length ≤ 2 ^ 53)
    (hroom : cost cs 0 ≤ budget - headerReserve) :
    ∃ others, selection R cs question budget = 0 :: others ∧
      (0 :: others).Pairwise (· < ·) ∧ (∀ i ∈ 0 :: others, i < cs.length) ∧
      ((0 :: others).map (cost cs)).sum ≤ budget - headerReserve := by
  have hselected := selected_select R question budget hcs hmany
  have hperm : (selection R cs question budget).Perm (select R cs question budget).1 :=
    List.perm_insertionSort _ _
  have hsorted : (selection R cs question budget).Pairwise (· < ·) := by
    have hle : (selection R cs question budget).Pairwise (· ≤ ·) := List.pairwise_insertionSort _ _
    have hne := List.nodup_iff_pairwise_ne.mp (hperm.nodup_iff.mpr hselected.nodup)
    exact (hle.and hne).imp fun h => lt_of_le_of_ne h.1 h.2
  have hzero : 0 ∈ selection R cs question budget := hperm.mem_iff.mpr (zero_mem_select hroom)
  have hsum : ((selection R cs question budget).map (cost cs)).sum ≤ budget - headerReserve := by
    rw [(hperm.map _).sum_nat, ← hselected.used]
    exact hselected.le
  have hlt : ∀ i ∈ selection R cs question budget, i < cs.length :=
    fun i hi => hselected.lt i (hperm.mem_iff.mp hi)
  generalize selection R cs question budget = sorted at *
  cases sorted with
  | nil => cases hzero
  | cons first others =>
      rcases List.mem_cons.mp hzero with rfl | hlater
      · exact ⟨others, rfl, hsorted, hlt, hsum⟩
      · exact absurd (List.rel_of_pairwise_cons hsorted hlater) (Nat.not_lt_zero _)

end Selection

/-! ## What is put together -/

/-- The text between two chunks. -/
def leftOut (cs : List Str) (i j : Nat) : Str := ((cs.drop (i + 1)).take (j - (i + 1))).flatten

/-- The mark where text is left out, and nothing where none is. -/
def marked (cs : List Str) (mark : Str) (i j : Nat) : Str :=
  if leftOut cs i j = [] then [] else mark

/-- What follows chunk `i`: the later chunks, with marks where text between them is left out. -/
def continued (cs : List Str) : Nat → List Nat → Str
  | i, [] => marked cs endMarker i cs.length
  | i, j :: later => marked cs gapMarker i j ++ cs.getD j [] ++ continued cs j later

/-- The first chunk and the others. -/
def excerpts (cs : List Str) (others : List Nat) : Str := cs.getD 0 [] ++ continued cs 0 others

section Assembly

variable {cs : List Str} {i j : Nat} {others : List Nat}

/-- Text is left out between two chunks that do not follow one another. -/
theorem marked_eq {mark : Str} (hchunks : ∀ chunk ∈ cs, chunk ≠ []) (hij : i < j)
    (hj : j ≤ cs.length) : marked cs mark i j = if j = i + 1 then [] else mark := by
  have hiff : leftOut cs i j = [] ↔ j = i + 1 := by
    rw [leftOut, List.flatten_eq_nil_iff]
    constructor
    · intro hnil
      by_contra hne
      have hbound : i + 1 < cs.length := by omega
      have hmem : cs[i + 1] ∈ (cs.drop (i + 1)).take (j - (i + 1)) := by
        rw [List.mem_iff_getElem]
        exact ⟨0, by simp; omega, by simp⟩
      exact hchunks _ (List.getElem_mem hbound) (hnil _ hmem)
    · rintro rfl
      simp
  simp only [marked, hiff]

theorem foldl_assemble (hchunks : ∀ chunk ∈ cs, chunk ≠ []) (acc : List Str) (hacc : acc ≠ [])
    (hpairwise : (i :: others).Pairwise (· < ·)) (hlt : ∀ k ∈ i :: others, k < cs.length) :
    (others.foldl (assemble cs) (acc, i + 1)).1.flatten ++
      (if (others.foldl (assemble cs) (acc, i + 1)).2 ≠ cs.length then endMarker else []) =
      acc.flatten ++ continued cs i others := by
  induction others generalizing i acc with
  | nil =>
      have hi := hlt i List.mem_cons_self
      rw [continued, marked_eq hchunks hi (Nat.le_refl _), List.foldl_nil]
      by_cases hlast : cs.length = i + 1
      · simp [hlast]
      · simp [hlast, Ne.symm hlast]
  | cons j later ih =>
      obtain ⟨hi, hlater⟩ := List.pairwise_cons.mp hpairwise
      have hij := hi j List.mem_cons_self
      have hj := hlt j (by simp)
      have hempty : acc.isEmpty = false := by simpa using hacc
      have hstep : assemble cs (acc, i + 1) j =
          (acc ++ (if j = i + 1 then [] else [gapMarker]) ++ [cs.getD j []], j + 1) := by
        by_cases hnext : j = i + 1
        · simp [assemble, hnext]
        · simp [assemble, hnext, hempty]
      rw [List.foldl_cons, hstep,
        ih _ (by simp) hlater fun k hk => hlt k (List.mem_cons_of_mem _ hk), continued,
        marked_eq hchunks hij hj.le]
      by_cases hnext : j = i + 1
      · simp [hnext]
      · simp [hnext]

/-- **The pieces** are the chunks with a mark where, and only where, text is left out. -/
theorem pieces_eq (hchunks : ∀ chunk ∈ cs, chunk ≠ []) (hpairwise : (0 :: others).Pairwise (· < ·))
    (hlt : ∀ k ∈ 0 :: others, k < cs.length) :
    (pieces cs (0 :: others)).flatten = excerpts cs others := by
  have hfold := foldl_assemble hchunks [cs.getD 0 []] (by simp) hpairwise hlt
  have hfirst : assemble cs ([], 0) 0 = ([cs.getD 0 []], 0 + 1) := by simp [assemble]
  rw [List.flatten_singleton] at hfold
  rw [excerpts, ← hfold, pieces, List.foldl_cons, hfirst]
  simp only
  split <;> simp [*]

theorem length_marked_le (cs : List Str) (mark : Str) (i j : Nat) :
    (marked cs mark i j).length ≤ mark.length := by
  unfold marked
  split <;> simp

/-- Each chunk takes at most what it was counted with. -/
theorem length_continued_le (cs : List Str) (i : Nat) (others : List Nat) :
    (continued cs i others).length ≤ gapMarker.length + (others.map (cost cs)).sum := by
  induction others generalizing i with
  | nil =>
      have hmark := length_marked_le cs endMarker i cs.length
      have hend : endMarker.length ≤ gapMarker.length := by decide +kernel
      exact (hmark.trans hend).trans (Nat.le_add_right _ _)
  | cons j later ih =>
      have hmark := length_marked_le cs gapMarker i j
      have hlater := ih j
      simp only [continued, List.length_append, List.map_cons, List.sum_cons, cost] at *
      omega

theorem length_excerpts_le (cs : List Str) (others : List Nat) :
    (excerpts cs others).length ≤ ((0 :: others).map (cost cs)).sum := by
  have hlater := length_continued_le cs 0 others
  simp only [excerpts, List.length_append, List.map_cons, List.sum_cons, cost] at *
  omega

end Assembly

/-! ## What is sent -/

/-- `sys.maxsize`: no string is longer. -/
def maxsize : Nat := 2 ^ 63 - 1

/-- A text and its chunks are in the memory together, and a string of so many bytes is the largest
that there can be, so a text that is cut has at most half as many characters. -/
def maxText : Nat := maxsize / 2

theorem length_grouped_le (digits : List Char) :
    3 * (grouped digits).length ≤ 4 * digits.length := by
  induction digits using grouped.induct with
  | case1 a b c d rest ih =>
      simp only [grouped, List.length_cons] at ih ⊢
      omega
  | case2 digits h =>
      unfold grouped
      split
      · next a b c d rest => exact absurd rfl (h a b c d rest)
      · omega

theorem length_toDigits_le {n : Nat} (h : n ≤ maxsize) : (Nat.toDigits 10 n).length ≤ 19 :=
  (Nat.length_toDigits_le_iff (by decide) (by decide)).mpr (by
    unfold maxsize at h
    omega)

theorem length_plain_le {n : Nat} (h : n ≤ maxsize) : (plain n).length ≤ 19 := by
  simpa [plain, Str.ofString] using length_toDigits_le h

theorem length_withCommas_le {n : Nat} (h : n ≤ maxsize) : (withCommas n).length ≤ 25 := by
  have hgrouped := length_grouped_le (Nat.toDigits 10 n).reverse
  have hdigits := length_toDigits_le h
  rw [List.length_reverse] at hgrouped
  simp only [withCommas, Str.ofString, String.toList_ofList, List.length_map, List.length_reverse]
  omega

/-- The header fits into the space that is reserved for it. -/
theorem length_header_le {total budget selected count : Nat} (ranked : Bool)
    (htotal : total ≤ maxsize) (hbudget : budget ≤ maxsize) (hselected : selected ≤ maxsize)
    (hcount : count ≤ maxsize) :
    (header total budget selected count ranked).length ≤ headerReserve := by
  have htotal := length_withCommas_le htotal
  have hbudget := length_withCommas_le hbudget
  have hselected := length_plain_le hselected
  have hcount := length_plain_le hcount
  have hmode : (mode ranked).length ≤ 27 := by cases ranked <;> decide +kernel
  have hopening : (Str.ofString "[SCAP: tài liệu gốc dài ").length = 24 := by decide +kernel
  have hlimit : (Str.ofString " ký tự, vượt giới hạn ").length = 22 := by decide +kernel
  have hbelow : (Str.ofString " ký tự cho mỗi lần gửi AI. Dưới đây là ").length = 39 := by
    decide +kernel
  have hslash : (Str.ofString "/").length = 1 := by decide +kernel
  have hexcerpts : (Str.ofString " đoạn trích ").length = 12 := by decide +kernel
  have hclosing : (Str.ofString
      ", giữ nguyên thứ tự; dấu […] đánh dấu phần đã lược bớt.]\n\n").length = 58 := by
    decide +kernel
  have hreserve : headerReserve = 400 := rfl
  simp only [header, List.length_append]
  omega

theorem length_le_length_flatten {cs : List Str} (hchunks : ∀ chunk ∈ cs, chunk ≠ []) :
    cs.length ≤ cs.flatten.length := by
  induction cs with
  | nil => exact Nat.le_refl _
  | cons chunk cs ih =>
      have hpos := List.length_pos_of_ne_nil (hchunks chunk List.mem_cons_self)
      have hrest := ih fun c hc => hchunks c (List.mem_cons_of_mem _ hc)
      simp only [List.length_cons, List.flatten_cons, List.length_append]
      omega

/-- A text that begins with a bracket loses white space at its end only. -/
theorem strip_of_bracket (rest : Str) : ∃ trailing, (0x5B :: rest : Str) =
    Str.strip (0x5B :: rest) ++ trailing ∧ ∀ c ∈ trailing, c.char?.any isSpace := by
  rw [Str.strip, List.dropWhile_cons_of_neg (by decide)]
  exact ⟨_, List.rdropWhile_append_rtakeWhile.symm, fun c hc =>
    List.mem_rtakeWhile_imp (p := fun c : CodePoint => c.char?.any isSpace) hc⟩

variable (R : Ranking)

/-- **File excerpts.** The chunks of a text are its parts. Of a text that is longer than the default
budget, whatever the ranking, the header and the selected chunks are sent, in the order of the text
and with marks where text is left out: they fit into the budget, and all that is taken away from
them is white space at the end. -/
theorem file_excerpts :
    (∀ text, (chunks text).flatten = text ∧
      ∀ chunk ∈ chunks text, chunk ≠ [] ∧ chunk.length ≤ excerptChunkChars) ∧
    ∀ text question, maxChatFileContentChars < text.length → text.length ≤ maxText →
      ∃ others trailing,
        selection R (chunks text) question maxChatFileContentChars = 0 :: others ∧
        (0 :: others).Pairwise (· < ·) ∧ (∀ i ∈ 0 :: others, i < (chunks text).length) ∧
        header text.length maxChatFileContentChars (others.length + 1) (chunks text).length
            (!(R.rank (chunks text) question).isEmpty) ++ excerpts (chunks text) others =
          selectFileExcerpts R text question maxChatFileContentChars ++ trailing ∧
        (∀ c ∈ trailing, c.char?.any isSpace) ∧
        (selectFileExcerpts R text question maxChatFileContentChars ++ trailing).length ≤
          maxChatFileContentChars := by
  refine ⟨chunks_spec, fun text question hlong htext => ?_⟩
  have hmax : text.length ≤ maxsize := htext.trans (Nat.div_le_self _ _)
  obtain ⟨hflatten, hchunks⟩ := chunks_spec text
  have hnonempty : ∀ chunk ∈ chunks text, chunk ≠ [] := fun chunk h => (hchunks chunk h).1
  have hcs : chunks text ≠ [] := by
    intro hnil
    rw [hnil] at hflatten
    simp [← hflatten] at hlong
  have hroom : cost (chunks text) 0 ≤ maxChatFileContentChars - headerReserve := by
    have hfirst : ((chunks text).getD 0 []).length ≤ excerptChunkChars := by
      have hpos := List.length_pos_of_ne_nil hcs
      rw [List.getD_eq_getElem?_getD, List.getElem?_eq_getElem hpos]
      exact (hchunks _ (List.getElem_mem hpos)).2
    have hmarker : gapMarker.length = 7 := by decide +kernel
    simp only [cost, hmarker, maxChatFileContentChars, headerReserve, excerptChunkChars] at *
    omega
  have hmany : (chunks text).length ≤ 2 ^ 53 := by
    have hle := length_chunksFrom_le text excerptChunkChars (by decide) 0
    replace hle : (chunks text).length * 901 ≤ text.length + 901 := hle
    unfold maxText maxsize at htext
    omega
  obtain ⟨others, hselection, hpairwise, hlt, hsum⟩ :=
    selection_spec R question hcs hmany hroom
  have hcount : (chunks text).length ≤ maxsize := by
    have hle := length_le_length_flatten hnonempty
    rw [hflatten] at hle
    exact hle.trans hmax
  have hselected : others.length + 1 ≤ maxsize := by
    have hsubset : (0 :: others) ⊆ List.range (chunks text).length :=
      fun i hi => List.mem_range.mpr (hlt i hi)
    have hle := (List.subperm_of_subset (hpairwise.imp ne_of_lt) hsubset).length_le
    rw [List.length_range] at hle
    exact hle.trans hcount
  let whole := header text.length maxChatFileContentChars (others.length + 1) (chunks text).length
    (!(R.rank (chunks text) question).isEmpty) ++ excerpts (chunks text) others
  have hfits : whole.length ≤ maxChatFileContentChars := by
    have hheader := length_header_le (!(R.rank (chunks text) question).isEmpty) hmax
      (show maxChatFileContentChars ≤ maxsize by decide) hselected hcount
    have hbody := length_excerpts_le (chunks text) others
    rw [List.length_append]
    simp only [maxChatFileContentChars, headerReserve] at *
    omega
  -- nothing is cut off, and the text begins with the bracket of the header
  have hsent : selectFileExcerpts R text question maxChatFileContentChars = Str.strip whole := by
    rw [selectFileExcerpts, if_neg (Nat.not_le.mpr hlong)]
    simp only [hselection, List.length_cons, pieces_eq hnonempty hpairwise hlt]
    rw [List.take_of_length_le hfits]
  obtain ⟨rest, hwhole⟩ : ∃ rest, whole = 0x5B :: rest := ⟨_, rfl⟩
  obtain ⟨trailing, hstrip, hspace⟩ := strip_of_bracket rest
  rw [← hwhole, ← hsent] at hstrip
  refine ⟨others, trailing, hselection, hpairwise, hlt, hstrip, hspace, ?_⟩
  rw [← hstrip]
  exact hfits

/-- A ranking that takes every chunk, in the order of the text. -/
def sampleRanking : Ranking := ⟨fun cs _ => List.range cs.length, fun _ _ _ => List.mem_range.mp⟩

/-- Forty thousand times the same letter. -/
def sampleText : Str := List.replicate 40000 0x61

theorem file_excerpts_sample : 0 ∈ selection sampleRanking (chunks sampleText) []
      maxChatFileContentChars ∧
    (selectFileExcerpts sampleRanking sampleText [] maxChatFileContentChars).length ≤
      maxChatFileContentChars := by
  have hlength : sampleText.length = 40000 := List.length_replicate
  obtain ⟨others, trailing, hselection, -, -, -, -, hfits⟩ :=
    (file_excerpts sampleRanking).2 sampleText [] (by rw [hlength]; decide) (by rw [hlength]; decide)
  rw [List.length_append] at hfits
  exact ⟨hselection ▸ List.mem_cons_self, by omega⟩

end Scap.ChatFiles
