import Mathlib.Data.List.TakeWhile
import FreeOnline.Net.ParseHeader

/-!
# The walk over the chunks of a request

The loop of `parseHeader` takes one chunk after the other off the body. It ends at a line
of value zero, where it leaves the buffer, or where a chunk is not complete.
-/

set_option autoImplicit false

namespace FreeOnline.Net.StreamSocket

open FreeOnline.Library
open FreeOnline.Net.Http (Bytes cr lf)
open FreeOnline.Net.Http.Response (hexDigitFromChar)

/-!
## Lines
-/

theorem isSpace_of_isDigit {ch : UInt8} (isDigit : hexDigitFromChar ch ≠ none) :
    isSpace ch = false := by
  cases blank : isSpace ch with
  | false => rfl
  | true =>
      refine absurd ?_ isDigit
      simp only [isSpace, Bool.or_eq_true, Bool.and_eq_true, decide_eq_true_eq,
        UInt8.le_iff_toNat_le, ← UInt8.toNat_inj] at blank
      simp only [hexDigitFromChar, UInt8.le_iff_toNat_le]
      rw [if_neg, if_neg, if_neg]
      all_goals
        simp only [UInt8.toNat_ofNat] at blank ⊢
        omega

/-- No digit comes next. -/
def StartsOther (rest : Bytes) : Prop := ∀ ch ∈ rest.head?, hexDigitFromChar ch = none

/-- The digits that `readChunkLen` takes, and that it takes them whatever else follows. -/
theorem readChunkLen_split (chunkLen : Nat) (p : Bytes) :
    ∃ digits rest, p = digits ++ rest ∧ StartsOther rest ∧
      (∀ ch ∈ digits, hexDigitFromChar ch ≠ none) ∧
      ∀ more, StartsOther more →
        readChunkLen chunkLen (digits ++ more) = ((readChunkLen chunkLen p).1, more) := by
  induction p generalizing chunkLen with
  | nil =>
      refine ⟨[], [], rfl, nofun, nofun, ?_⟩
      intro more other
      cases more with
      | nil => rfl
      | cons ch more => simp [readChunkLen, other ch rfl]
  | cons ch p ih =>
      cases isDigit : hexDigitFromChar ch with
      | none =>
          refine ⟨[], ch :: p, rfl, ?_, nofun, ?_⟩
          · intro first isFirst
            cases isFirst
            exact isDigit
          · intro more other
            cases more with
            | nil => simp [readChunkLen, isDigit]
            | cons first more => simp [readChunkLen, isDigit, other first rfl]
      | some digit =>
          obtain ⟨digits, rest, rfl, other, areDigits, same⟩ := ih (sizeT (chunkLen * 16 + digit))
          refine ⟨ch :: digits, rest, rfl, other, ?_, ?_⟩
          · intro first isMember
            rcases List.mem_cons.mp isMember with rfl | isMember
            · simp [isDigit]
            · exact areDigits first isMember
          · intro more moreOther
            simp only [List.cons_append, readChunkLen, isDigit]
            exact same more moreOther

private theorem dropWhile_line {junk rest : Bytes} (oneLine : lf ∉ junk) :
    ((junk ++ lf :: rest).dropWhile (· ≠ lf)).drop 1 = rest := by
  have skipped : (junk ++ lf :: rest).dropWhile (· ≠ lf) = lf :: rest := by
    rw [List.dropWhile_append_of_pos]
    · simp
    · intro ch isMember
      rw [decide_eq_true_eq]
      rintro rfl
      exact oneLine isMember
  rw [skipped]
  rfl

/-- Blanks, digits and what else stands in the line. -/
theorem readChunkLine_eq {blanks digits junk : Bytes} (areBlanks : ∀ ch ∈ blanks, isSpace ch = true)
    (notEmpty : digits ≠ []) (areDigits : ∀ ch ∈ digits, hexDigitFromChar ch ≠ none)
    (other : StartsOther junk) (oneLine : lf ∉ junk) (more : Bytes) :
    readChunkLine (blanks ++ (digits ++ (junk ++ lf :: more))) =
      ((readChunkLen 0 digits).1, more) := by
  have atDigits : (blanks ++ (digits ++ (junk ++ lf :: more))).dropWhile isSpace =
      digits ++ (junk ++ lf :: more) := by
    rw [List.dropWhile_append_of_pos areBlanks]
    cases digits with
    | nil => exact absurd rfl notEmpty
    | cons ch digits =>
        have notBlank := isSpace_of_isDigit (areDigits ch List.mem_cons_self)
        simp [notBlank]
  have otherMore : StartsOther (junk ++ lf :: more) := by
    intro ch isFirst
    cases junk with
    | nil =>
        cases isFirst
        decide
    | cons first junk => exact other ch isFirst
  have isLength : readChunkLen 0 (digits ++ (junk ++ lf :: more)) =
      ((readChunkLen 0 digits).1, junk ++ lf :: more) := by
    obtain ⟨taken, rest, isSplit, restOther, -, same⟩ := readChunkLen_split 0 digits
    -- All of them are taken, since they are digits.
    have noRest : rest = [] := by
      cases rest with
      | nil => rfl
      | cons ch rest =>
          have isMember : ch ∈ digits := by simp [isSplit]
          exact absurd (restOther ch rfl) (areDigits ch isMember)
    rw [noRest, List.append_nil] at isSplit
    rw [← isSplit] at same
    exact same _ otherMore
  unfold readChunkLine
  rw [atDigits, isLength]
  dsimp only
  rw [dropWhile_line oneLine]

private theorem exists_line {p tail : Bytes} (isTail : (p.dropWhile (· ≠ lf)).drop 1 = tail)
    (more : tail ≠ []) : ∃ junk, p = junk ++ lf :: tail ∧ lf ∉ junk := by
  by_cases hasLine : lf ∈ p
  · obtain ⟨junk, rest, rfl, oneLine⟩ := List.eq_append_cons_of_mem hasLine
    rw [dropWhile_line oneLine] at isTail
    exact ⟨junk, by rw [isTail], oneLine⟩
  · have nothing : p.dropWhile (· ≠ lf) = [] := by
      rw [List.dropWhile_eq_nil_iff]
      intro ch isMember
      rw [decide_eq_true_eq]
      rintro rfl
      exact hasLine isMember
    rw [nothing] at isTail
    exact absurd isTail.symm more

/-- Behind a line that ends in the buffer, the parser is at the same place whatever follows. -/
theorem readChunkLine_split {p tail : Bytes} {chunkLen : Nat}
    (isLine : readChunkLine p = (chunkLen, tail)) (positive : 0 < chunkLen) (more : tail ≠ []) :
    ∃ line, p = line ++ tail ∧ ∀ more, readChunkLine (line ++ more) = (chunkLen, more) := by
  have isBlanks : p = p.takeWhile isSpace ++ p.dropWhile isSpace :=
    List.takeWhile_append_dropWhile.symm
  obtain ⟨digits, rest, isDigits, other, areDigits, same⟩ :=
    readChunkLen_split 0 (p.dropWhile isSpace)
  have isRest := same rest other
  rw [← isDigits] at isRest
  unfold readChunkLine at isLine
  rw [isRest] at isLine
  obtain ⟨isLength, isTail⟩ := Prod.mk.inj isLine
  obtain ⟨junk, rfl, oneLine⟩ := exists_line isTail more
  have junkOther : StartsOther junk := by
    intro ch isFirst
    cases junk with
    | nil => cases isFirst
    | cons first junk => exact other ch isFirst
  have value : (readChunkLen 0 digits).1 = chunkLen := by
    have alone := same [] nofun
    rw [List.append_nil] at alone
    rw [alone]
    exact isLength
  have notEmpty : digits ≠ [] := by
    rintro rfl
    rw [← value] at positive
    exact absurd positive (Nat.lt_irrefl 0)
  have areBlanks : ∀ ch ∈ p.takeWhile isSpace, isSpace ch = true := fun ch isMember =>
    List.mem_takeWhile_imp isMember
  refine ⟨p.takeWhile isSpace ++ (digits ++ (junk ++ [lf])), ?_, ?_⟩
  · rw [isDigits] at isBlanks
    simpa using isBlanks
  · intro more
    have isLine := readChunkLine_eq areBlanks notEmpty areDigits junkOther oneLine more
    rw [value] at isLine
    simpa using isLine

theorem length_readChunkLine (p : Bytes) : (readChunkLine p).2.length ≤ p.length := by
  obtain ⟨digits, rest, isDigits, other, -, same⟩ := readChunkLen_split 0 (p.dropWhile isSpace)
  have isRest := same rest other
  rw [← isDigits] at isRest
  have atDigits := (List.dropWhile_suffix isSpace (l := p)).length_le
  have inLine := (List.dropWhile_suffix (fun ch => decide (ch ≠ lf)) (l := rest)).length_le
  unfold readChunkLine
  rw [isRest]
  dsimp only
  rw [isDigits, List.length_append] at atDigits
  rw [List.length_drop]
  omega

/-!
## One chunk
-/

/-- A chunk as the parser takes it: its line and the data of that length. -/
structure RequestChunk where
  line : Bytes
  data : Bytes
  notEmpty : data ≠ []
  isLine : ∀ more, readChunkLine (line ++ more) = (data.length, more)

def RequestChunk.bytes (chunk : RequestChunk) : Bytes :=
  chunk.line ++ (chunk.data ++ [cr, lf])

/-- The spans of chunks that follow each other from an offset on. -/
def spansFrom (offset : Nat) : List RequestChunk → List (Nat × Nat)
  | [] => []
  | chunk :: chunks =>
      (offset + chunk.line.length, chunk.data.length) ::
        spansFrom (offset + chunk.bytes.length) chunks

def IsLast (rest : Bytes) : Prop := rest ≠ [] ∧ (readChunkLine rest).1 = 0

/-- A chunk that is taken for complete though its end is not in the buffer. -/
def Oversteps (rest : Bytes) : Prop :=
  let (chunkLen, tail) := readChunkLine rest
  rest ≠ [] ∧ 0 < chunkLen ∧ chunkLen ≤ tail.length + 2 ∧
    (tail.length ≤ chunkLen ∨ tail.length = chunkLen + 1 ∧ tail[chunkLen]? = some cr)

/-- What one round of the loop does. -/
inductive ChunkStep (size : Nat) (map : MessageMap) (p : Bytes) :
    Progress MessageMap UInt8 Parsed → Prop where
  | wait (empty : p = []) : ChunkStep size map p (.wait map)
  | last (isLast : IsLast p) :
      ChunkStep size map p
        (.stop (.ok (true, { map with messageSize := size - (readChunkLine p).2.length })))
  | overstep {fault : Fault} (oversteps : Oversteps p) :
      ChunkStep size map p (.stop (.error fault))
  | incomplete {next : MessageMap} (inside : ¬ Oversteps p) (notLast : ¬ IsLast p) :
      ChunkStep size map p (.stop (.ok (false, next)))
  | chunk {chunk : RequestChunk} {rest : Bytes} (isChunk : p = chunk.bytes ++ rest) :
      ChunkStep size map p
        (.advance
          { map with
            spans := map.spans ++ [(size - p.length + chunk.line.length, chunk.data.length)] }
          rest)

private theorem oversteps_iff {p tail : Bytes} {chunkLen : Nat} (filled : p ≠ [])
    (isLine : readChunkLine p = (chunkLen, tail)) :
    Oversteps p ↔ 0 < chunkLen ∧ chunkLen ≤ tail.length + 2 ∧
      (tail.length ≤ chunkLen ∨ tail.length = chunkLen + 1 ∧ tail[chunkLen]? = some cr) := by
  simp [Oversteps, isLine, filled]

/-- With the data in the buffer, it depends on the next two bytes. -/
private theorem chunkStep_parseChunkEnd {size : Nat} (map : MessageMap) {p data behind : Bytes}
    (inside : p.length ≤ size) (notEmpty : data ≠ []) (filled : p ≠ [])
    (isLine : readChunkLine p = (data.length, data ++ behind)) :
    ChunkStep size map p
      (parseChunkEnd
        { map with spans := map.spans ++ [(size - (data ++ behind).length, data.length)] }
        behind) := by
  have positive := List.length_pos_of_ne_nil notEmpty
  have notLast : ¬ IsLast p := by simp [IsLast, isLine, notEmpty]
  have past := oversteps_iff filled isLine
  rw [List.length_append, List.getElem?_append_right (Nat.le_refl _), Nat.sub_self] at past
  cases behind with
  | nil => exact .overstep (past.mpr ⟨positive, by simp, .inl (by simp)⟩)
  | cons first behind =>
      rw [parseChunkEnd.eq_def]
      dsimp only
      by_cases isCr : first = cr
      · rw [if_neg (not_not.mpr isCr)]
        cases behind with
        | nil => exact .overstep (past.mpr ⟨positive, by omega, .inr ⟨rfl, by simp [isCr]⟩⟩)
        | cons second rest =>
            dsimp only
            by_cases isLf : second = lf
            · rw [if_neg (not_not.mpr isLf)]
              obtain ⟨line, isWhole, sameLine⟩ := readChunkLine_split isLine positive (by simp)
              have isChunk : p = RequestChunk.bytes ⟨line, data, notEmpty, sameLine⟩ ++ rest := by
                rw [isWhole, isCr, isLf]
                simp [RequestChunk.bytes]
              have offset : size - p.length + line.length =
                  size - (data ++ first :: second :: rest).length := by
                rw [isWhole, List.length_append] at inside ⊢
                omega
              have step : ChunkStep size map p _ := .chunk isChunk
              rwa [offset] at step
            · rw [if_pos isLf]
              refine .incomplete ?_ notLast
              rw [past, List.length_cons, List.length_cons]
              omega
      · rw [if_pos isCr]
        refine .incomplete ?_ notLast
        rw [past, List.length_cons]
        simp [isCr]

theorem chunkStep_parseChunk {size : Nat} (fits : size < 2 ^ 63) (map : MessageMap) {p : Bytes}
    (inside : p.length ≤ size) : ChunkStep size map p (parseChunk size map p) := by
  by_cases empty : p = []
  · rw [parseChunk, if_pos (by simp [empty])]
    exact .wait empty
  have shorter := length_readChunkLine p
  cases isLine : readChunkLine p with
  | mk chunkLen tail =>
      rw [isLine] at shorter
      dsimp only at shorter
      have available : size - (size - tail.length) = tail.length := by omega
      have noWrap : sizeT ((tail.length : Int) + 2) = tail.length + 2 := by
        unfold sizeT
        omega
      have isLast_iff : IsLast p ↔ chunkLen = 0 := by simp [IsLast, isLine, empty]
      have past := oversteps_iff empty isLine
      rw [parseChunk, if_neg (by simpa using empty), isLine]
      dsimp only
      rw [available, noWrap]
      by_cases zero : chunkLen = 0
      · rw [if_pos zero]
        have step : ChunkStep size map p _ := .last (isLast_iff.mpr zero)
        rwa [isLine] at step
      rw [if_neg zero]
      by_cases long : tail.length + 2 < chunkLen
      · rw [if_pos long]
        refine .incomplete ?_ (mt isLast_iff.mp zero)
        rw [past]
        omega
      rw [if_neg long]
      by_cases short : tail.length < chunkLen
      · rw [if_pos short]
        exact .overstep (past.mpr (by omega))
      rw [if_neg short]
      have dataLength : (tail.take chunkLen).length = chunkLen := by
        rw [List.length_take]
        omega
      have isData : readChunkLine p =
          ((tail.take chunkLen).length, tail.take chunkLen ++ tail.drop chunkLen) := by
        rw [isLine, dataLength, List.take_append_drop]
      have step := chunkStep_parseChunkEnd map inside (List.length_pos_iff.mp (by omega)) empty isData
      rwa [dataLength, List.take_append_drop] at step

theorem parseChunk_chunk {size : Nat} (fits : size < 2 ^ 63) (map : MessageMap)
    (chunk : RequestChunk) {rest : Bytes} (inside : (chunk.bytes ++ rest).length ≤ size) :
    parseChunk size map (chunk.bytes ++ rest) =
      .advance
        { map with
          spans := map.spans ++
            [(size - (chunk.bytes ++ rest).length + chunk.line.length, chunk.data.length)] }
        rest := by
  have isWhole : chunk.bytes ++ rest = chunk.line ++ (chunk.data ++ cr :: lf :: rest) := by
    simp [RequestChunk.bytes]
  have positive := List.length_pos_of_ne_nil chunk.notEmpty
  have length : (chunk.data ++ cr :: lf :: rest).length = chunk.data.length + 2 + rest.length := by
    simp
    omega
  rw [isWhole] at inside ⊢
  rw [List.length_append] at inside
  have available : size - (size - (chunk.data ++ cr :: lf :: rest).length) =
      (chunk.data ++ cr :: lf :: rest).length := by omega
  have enough : ¬ sizeT (((chunk.data ++ cr :: lf :: rest).length : Nat) + 2 : Int) <
      chunk.data.length := by
    unfold sizeT
    omega
  have offset : size - (chunk.line ++ (chunk.data ++ cr :: lf :: rest)).length + chunk.line.length =
      size - (chunk.data ++ cr :: lf :: rest).length := by
    rw [List.length_append]
    omega
  rw [parseChunk, if_neg (by simp), chunk.isLine]
  dsimp only
  rw [available, if_neg (by omega), if_neg enough, if_neg (by omega), List.drop_left, offset]
  rfl

private theorem length_of_parseChunkEnd {map next : MessageMap} {p rest : Bytes}
    (progress : parseChunkEnd map p = .advance next rest) : rest.length < p.length := by
  unfold parseChunkEnd at progress
  repeat' split at progress
  all_goals cases progress
  rw [List.length_cons, List.length_cons]
  omega

theorem parseChunk_shrinks (size : Nat) : Shrinks (parseChunk size) := by
  intro map p next rest progress
  have behindLine := length_readChunkLine p
  unfold parseChunk at progress
  dsimp only at progress
  repeat' split at progress
  all_goals try cases progress
  have shorter := length_of_parseChunkEnd progress
  rw [List.length_drop] at shorter
  omega

/-!
## Walks
-/

/-- Chunks at the front are taken one after the other, with their spans. -/
theorem drain_chunks {size : Nat} (fits : size < 2 ^ 63) (map : MessageMap)
    (chunks : List RequestChunk) {rest : Bytes} {offset : Nat}
    (isOffset : offset + (chunks.flatMap RequestChunk.bytes ++ rest).length = size) :
    drain (parseChunk size) map (chunks.flatMap RequestChunk.bytes ++ rest) =
      drain (parseChunk size) { map with spans := map.spans ++ spansFrom offset chunks } rest := by
  induction chunks generalizing map offset with
  | nil => simp [spansFrom]
  | cons chunk chunks ih =>
      have isFront : (chunk :: chunks).flatMap RequestChunk.bytes ++ rest =
          chunk.bytes ++ (chunks.flatMap RequestChunk.bytes ++ rest) := by simp
      rw [isFront] at isOffset ⊢
      have here : size - (chunk.bytes ++ (chunks.flatMap RequestChunk.bytes ++ rest)).length =
          offset := by omega
      have behind : offset + chunk.bytes.length +
          (chunks.flatMap RequestChunk.bytes ++ rest).length = size := by
        rw [List.length_append] at isOffset
        omega
      rw [(parseChunk_shrinks size).drain_advance (parseChunk_chunk fits map chunk (by omega)), here,
        ih _ behind]
      simp [spansFrom]

/-- How the loop ends. -/
inductive WalkEnd (size : Nat) (map : MessageMap) (rest : Bytes) : Parsed → Prop where
  | last (isLast : IsLast rest) :
      WalkEnd size map rest
        (.ok (true, { map with messageSize := size - (readChunkLine rest).2.length }))
  | overstep {fault : Fault} (oversteps : Oversteps rest) : WalkEnd size map rest (.error fault)
  | incomplete {next : MessageMap} (inside : ¬ Oversteps rest) (notLast : ¬ IsLast rest) :
      WalkEnd size map rest (.ok (false, next))

theorem exists_walk {size : Nat} (fits : size < 2 ^ 63) (map : MessageMap) {p : Bytes} {offset : Nat}
    (isOffset : offset + p.length = size) :
    ∃ chunks rest, p = chunks.flatMap RequestChunk.bytes ++ rest ∧
      WalkEnd size { map with spans := map.spans ++ spansFrom offset chunks } rest
        (parseChunks size map p) := by
  induction length : p.length using Nat.strongRecOn generalizing map p offset with
  | _ n ih =>
      have step := chunkStep_parseChunk fits map (p := p) (by omega)
      unfold parseChunks
      cases progress : parseChunk size map p with
      | wait next =>
          rw [progress] at step
          cases step with
          | wait empty =>
              rw [Incremental.drain_wait progress, empty]
              refine ⟨[], [], rfl, .incomplete ?_ ?_⟩
              · simp [Oversteps]
              · simp [IsLast]
      | stop result =>
          rw [progress] at step
          rw [Incremental.drain_stop progress]
          refine ⟨[], p, rfl, ?_⟩
          rw [spansFrom, List.append_nil]
          cases step with
          | last isLast => exact .last isLast
          | overstep oversteps => exact .overstep oversteps
          | incomplete inside notLast => exact .incomplete inside notLast
      | advance next rest =>
          have shorter := parseChunk_shrinks size _ _ _ _ progress
          rw [(parseChunk_shrinks size).drain_advance progress]
          rw [progress] at step
          cases step with
          | @chunk chunk _ isChunk =>
              have isRest : offset + chunk.bytes.length + rest.length = size := by
                rw [isChunk, List.length_append] at isOffset
                omega
              have here : size - p.length + chunk.line.length = offset + chunk.line.length := by omega
              rw [here]
              obtain ⟨chunks, left, rfl, ended⟩ := ih rest.length (by omega)
                { map with
                  spans := map.spans ++ [(offset + chunk.line.length, chunk.data.length)] }
                isRest rfl
              refine ⟨chunk :: chunks, left, by simp [isChunk], ?_⟩
              rw [List.append_assoc] at ended
              exact ended

private theorem RequestChunk.not_oversteps (chunk : RequestChunk) (rest : Bytes) :
    ¬ Oversteps (chunk.bytes ++ rest) ∧ ¬ IsLast (chunk.bytes ++ rest) := by
  have isLine : readChunkLine (chunk.bytes ++ rest) =
      (chunk.data.length, chunk.data ++ cr :: lf :: rest) := by
    rw [← chunk.isLine]
    simp [RequestChunk.bytes]
  have positive := List.length_pos_of_ne_nil chunk.notEmpty
  constructor
  · simp only [Oversteps, isLine, List.length_append, List.length_cons]
    omega
  · simp only [IsLast, isLine]
    omega

/-- The loop ends where the chunks end at which it can not go on. -/
theorem walkEnd_of_chunks {size : Nat} (fits : size < 2 ^ 63) (map : MessageMap)
    {chunks : List RequestChunk} {rest : Bytes} {offset : Nat}
    (isOffset : offset + (chunks.flatMap RequestChunk.bytes ++ rest).length = size)
    (ends : Oversteps rest ∨ IsLast rest) :
    WalkEnd size { map with spans := map.spans ++ spansFrom offset chunks } rest
      (parseChunks size map (chunks.flatMap RequestChunk.bytes ++ rest)) := by
  have inside : rest.length ≤ size := by
    rw [List.length_append] at isOffset
    omega
  unfold parseChunks
  rw [drain_chunks fits map chunks isOffset]
  generalize { map with spans := map.spans ++ spansFrom offset chunks } = reached
  have step := chunkStep_parseChunk fits reached inside
  cases progress : parseChunk size reached rest with
  | wait next =>
      rw [progress] at step
      cases step with
      | wait empty => simp [empty, Oversteps, IsLast] at ends
  | stop result =>
      rw [progress] at step
      rw [Incremental.drain_stop progress]
      cases step with
      | last isLast => exact .last isLast
      | overstep oversteps => exact .overstep oversteps
      | incomplete inside notLast => exact .incomplete inside notLast
  | advance next left =>
      rw [progress] at step
      cases step with
      | @chunk chunk _ isChunk =>
          obtain ⟨inside, notLast⟩ := chunk.not_oversteps left
          rw [isChunk] at ends
          exact absurd ends (not_or.mpr ⟨inside, notLast⟩)

theorem not_isLast_of_oversteps {rest : Bytes} (oversteps : Oversteps rest) : ¬ IsLast rest := by
  rintro ⟨-, zero⟩
  have positive : 0 < (readChunkLine rest).1 := oversteps.2.1
  omega

end FreeOnline.Net.StreamSocket
