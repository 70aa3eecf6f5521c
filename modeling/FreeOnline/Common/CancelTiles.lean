import FreeOnline.Common.TileQueue

/-!
# Cancelled tiles

Versions of tiles that nobody waits for any more, and what becomes of the queue.
-/

set_option autoImplicit false

namespace FreeOnline.Common

open FreeOnline.Library
open FreeOnline.Wsd (TileDesc commaList)

namespace TileQueue

/-- As the tile cache prints it. -/
def cancelMessage (versions : List Int) : Payload :=
  "canceltiles".toList ++ ' ' :: commaList (versions.map printInt)

/-- A request of a tile that is no preview, in one of these versions. -/
def IsPlainRequest (versions : List Int) (message : Payload) : Prop :=
  getFirstToken message = "tile".toList ∧
    (TileDesc.parseMessage message).any fun tile => tile.id < 0 ∧ tile.ver ∈ versions

instance (versions : List Int) (message : Payload) : Decidable (IsPlainRequest versions message) :=
  inferInstanceAs (Decidable (_ ∧ _))

/-- What is expected of the message. -/
def Cancels (reader : CallbackReader) (queue : List Payload) (versions : List Int) : Prop :=
  putImpl reader queue (cancelMessage versions) =
    some (queue.filter fun message => ¬IsPlainRequest versions message)

/-- A text in which the version is looked for. -/
def versionText (version : Int) : Text := "ver=".toList ++ printInt version

/-- The letters `id=` stand in no request that has to go, and its version is written as the
version of the list is. In every other message these letters stand, or nowhere a version
of the list. -/
def IsTellable (versions : List Int) (message : Payload) : Prop :=
  if IsPlainRequest versions message then
    ¬"id=".toList <:+: message ∧ ∃ version ∈ versions, versionText version <:+: message
  else "id=".toList <:+: message ∨ ∀ version ∈ versions, ¬versionText version <:+: message

instance (versions : List Int) (message : Payload) : Decidable (IsTellable versions message) :=
  inferInstanceAs (Decidable (if IsPlainRequest versions message then
      ¬"id=".toList <:+: message ∧ ∃ version ∈ versions, versionText version <:+: message
    else "id=".toList <:+: message ∨ ∀ version ∈ versions, ¬versionText version <:+: message))

theorem isCancelled_iff {tokens : List Text} {message : Payload} :
    isCancelled tokens message = true ↔
      ¬"id=".toList <:+: message ∧ ∃ token ∈ tokens, "ver=".toList ++ token <:+: message := by
  unfold isCancelled
  rw [← findText_isSome_iff]
  cases (findText "id=".toList message).isSome with
  | true => exact iff_of_false nofun fun both => both.1 rfl
  | false =>
      rw [if_neg Bool.false_ne_true, List.any_eq_true, and_iff_right Bool.false_ne_true]
      simp only [findText_isSome_iff]

/-- The versions are read as they were printed. -/
theorem putImpl_cancelMessage (reader : CallbackReader) (queue : List Payload)
    (versions : List Int) :
    putImpl reader queue (cancelMessage versions) =
      some (cancelTiles queue (versions.map printInt)) := by
  have size : "canceltiles".toList.length = 11 := by decide
  have firstToken : getFirstToken (cancelMessage versions) = "canceltiles".toList :=
    getFirstToken_append (by decide) _
  have long : ¬(cancelMessage versions).length < 12 := by
    unfold cancelMessage
    rw [List.length_append, size]
    simp only [List.length_cons]
    omega
  have rest : (cancelMessage versions).drop 12 = commaList (versions.map printInt) := by
    unfold cancelMessage
    rw [List.drop_append, size, List.drop_of_length_le (by rw [size]; decide)]
    exact List.nil_append _
  have tokens : tokenize (commaList (versions.map printInt)) ',' = versions.map printInt := by
    refine FreeOnline.Wsd.TileCombined.tokenize_commaList ?_ ?_
    · intro value member
      obtain ⟨version, -, rfl⟩ := List.mem_map.mp member
      exact FreeOnline.Wsd.TileCombined.isWord_printInt version
    · intro value member
      obtain ⟨version, -, rfl⟩ := List.mem_map.mp member
      exact notMem_printInt (by decide) (by decide)
  unfold putImpl
  rw [firstToken, if_pos rfl, if_neg long, rest, tokens]

theorem filter_eq_filter_iff {Entry : Type} {keep other : Entry → Bool} {entries : List Entry} :
    entries.filter keep = entries.filter other ↔ ∀ entry ∈ entries, keep entry = other entry := by
  constructor
  · intro same entry member
    have both := congrArg (entry ∈ ·) same
    simpa [member] using both
  · exact List.filter_congr

theorem cancels_iff_tellable {reader : CallbackReader} {queue : List Payload}
    {versions : List Int} :
    Cancels reader queue versions ↔ ∀ message ∈ queue, IsTellable versions message := by
  rw [Cancels, putImpl_cancelMessage, Option.some.injEq, cancelTiles, filter_eq_filter_iff]
  refine forall₂_congr fun message _ => ?_
  have removed := @isCancelled_iff (versions.map printInt) message
  simp only [List.mem_map, exists_exists_and_eq_and] at removed
  unfold IsTellable
  split
  · next wanted =>
      rw [decide_eq_false (not_not_intro wanted), Bool.not_eq_false', removed]
      exact Iff.rfl
  · next unwanted =>
      rw [decide_eq_true unwanted, Bool.not_eq_true', ← Bool.not_eq_true, removed, not_and_or, not_not,
        not_exists]
      simp only [not_and]
      exact Iff.rfl

theorem cancels_single_iff {reader : CallbackReader} {message : Payload} {versions : List Int} :
    Cancels reader [message] versions ↔ IsTellable versions message :=
  cancels_iff_tellable.trans (List.forall_mem_singleton)

/-- Every descriptor is printed with the letters that stand for a preview, those of the view. -/
theorem isCancelled_serialize (tokens : List Text) (tile : TileDesc) (start : Text) :
    isCancelled tokens (tile.serialize start) = false := by
  rw [← Bool.not_eq_true, isCancelled_iff, not_and_or, not_not]
  refine .inl ?_
  have inName : "id=".toList <:+: nameValue "nviewid".toList (printInt tile.normalizedViewId) :=
    ⟨"nview".toList, printInt tile.normalizedViewId, by simp [nameValue]⟩
  refine inName.trans ?_
  have inWords : nameValue "nviewid".toList (printInt tile.normalizedViewId) ∈ tile.words :=
    List.mem_append_left _ List.mem_cons_self
  refine List.infix_append_of_infix_right ?_
  rw [List.flatMap_def]
  exact (List.infix_cons List.infix_rfl).trans
    (List.infix_of_mem_flatten (List.mem_map_of_mem inWords))

/-- Exactly what is expected is cancelled if and only if every queued message can be told by the
texts that are looked for in it; and no request that was printed ever goes. -/
theorem cancels_iff (reader : CallbackReader) (queue : List Payload) (versions : List Int) :
    (Cancels reader queue versions ↔ ∀ message ∈ queue, IsTellable versions message) ∧
      ∃ left, putImpl reader queue (cancelMessage versions) = some left ∧
        ∀ (tile : TileDesc) (start : Text), tile.serialize start ∈ queue →
          tile.serialize start ∈ left := by
  refine ⟨cancels_iff_tellable, _, putImpl_cancelMessage reader queue versions, ?_⟩
  intro tile start member
  have kept := isCancelled_serialize (versions.map printInt) tile start
  exact List.mem_filter.mpr ⟨member, by rw [kept, Bool.not_false]⟩

/-- As the descriptor of a tile in version 1 is printed. -/
def printedRequest : Payload :=
  "tile nviewid=0 part=0 width=256 height=256 tileposx=0 tileposy=0".toList ++
    " tilewidth=3840 tileheight=3840 oldwid=0 wid=0 ver=1".toList

/-- A request of version 12 without ids. -/
def writtenRequest : Payload :=
  "tile part=0 width=256 height=256 tileposx=0 tileposy=0".toList ++
    " tilewidth=3840 tileheight=3840 ver=12".toList

set_option maxRecDepth 4000 in
/-- When version 1 is cancelled, the first request stays, and the second one goes. -/
theorem not_cancels :
    let reader : CallbackReader := ⟨fun _ => .other, fun _ => none⟩
    ¬Cancels reader [printedRequest] [1] ∧ ¬Cancels reader [writtenRequest] [1] := by
  refine ⟨mt cancels_single_iff.mp ?_, mt cancels_single_iff.mp ?_⟩
  · decide +kernel
  · decide +kernel

end TileQueue

end FreeOnline.Common
