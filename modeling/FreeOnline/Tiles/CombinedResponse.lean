import Mathlib.Data.List.Perm.Basic
import FreeOnline.Kit.CombinedRendering
import FreeOnline.Library.Run
import FreeOnline.Library.Utf8
import FreeOnline.Wsd.TileCombinedText

/-!
# Responses with several tiles

The tiles of a combined request are compressed by the threads of a pool. Their bytes follow one
another in the response, and only the sizes in its first line tell where a tile begins.
-/

set_option autoImplicit false

namespace FreeOnline.Tiles

open FreeOnline.Common FreeOnline.Kit FreeOnline.Library FreeOnline.Wsd

/-!
## The pool
-/

/-- What is left to a thread of the pool. -/
structure RenderTask (combined : TileCombined) where
  tile : TileDesc
  wireId : TileWireId
  isTile : tile ∈ combined.tiles

namespace RenderTask

variable {combined : TileCombined}

/-- The descriptor of the tile in the response. -/
def rendered (task : RenderTask combined) (data : List UInt8) : TileDesc :=
  task.tile.asRendered task.wireId data.length

theorem header_rendered (task : RenderTask combined) (data : List UInt8) :
    (task.rendered data).header = combined.header :=
  combined.uniform task.tile task.isTile

end RenderTask

/-- The work that is pushed, where so many wire ids have been given out. -/
def renderTasks (combined : TileCombined) (nextId : TileWireId) : List (RenderTask combined) :=
  combined.tiles.attach.mapIdx fun index tile =>
    ⟨tile.1, nextId + UInt32.ofNat (index + 1), tile.2⟩

/-- The pool and what its threads have written. `finished` and `failed` are history. -/
structure RenderPool (combined : TileCombined) where
  pending : List (RenderTask combined)
  output : List UInt8
  renderedTiles : List TileDesc
  finished : List (RenderTask combined × List UInt8)
  failed : List (RenderTask combined)
  uniform : ∀ tile ∈ renderedTiles, tile.header = combined.header

namespace RenderPool

variable {combined : TileCombined}

def start (tasks : List (RenderTask combined)) : RenderPool combined where
  pending := tasks
  output := []
  renderedTiles := []
  finished := []
  failed := []
  uniform := fun _ member => absurd member List.not_mem_nil

def pushRendered (pool : RenderPool combined) (task : RenderTask combined) (data : List UInt8) :
    RenderPool combined where
  pending := pool.pending
  output := pool.output ++ data
  renderedTiles := pool.renderedTiles ++ [task.rendered data]
  finished := pool.finished ++ [(task, data)]
  failed := pool.failed
  uniform := by
    intro tile member
    cases List.mem_append.mp member with
    | inl old => exact pool.uniform tile old
    | inr new => exact List.mem_singleton.mp new ▸ task.header_rendered data

/-- There is nothing to write, as the encoder has failed or there was an exception. -/
def pushFailed (pool : RenderPool combined) (task : RenderTask combined) : RenderPool combined :=
  { pool with failed := pool.failed ++ [task] }

def take (pool : RenderPool combined) (position : Nat) : RenderPool combined :=
  { pool with pending := pool.pending.eraseIdx position }

end RenderPool

/-- A thread is done with one of the tasks, with the bytes of the tile or without any. -/
inductive PoolEvent where
  | finish (position : Nat) (data : List UInt8)
  | fail (position : Nat)

namespace RenderPool

variable {combined : TileCombined}

def step (pool : RenderPool combined) : PoolEvent → RenderPool combined
  | .finish position data =>
      match pool.pending[position]? with
      | none => pool
      | some task => (pool.take position).pushRendered task data
  | .fail position =>
      match pool.pending[position]? with
      | none => pool
      | some task => (pool.take position).pushFailed task

/-- The image sizes are ints. -/
def Allowed (_ : RenderPool combined) : PoolEvent → Prop
  | .finish _ data => (data.length : Int) ≤ intMax
  | .fail _ => True

/-!
## The response
-/

def responseTiles (pool : RenderPool combined) : TileCombined :=
  ⟨combined.header, pool.renderedTiles, pool.uniform⟩

def tileMsg (pool : RenderPool combined) : Text :=
  pool.responseTiles.serialize "tilecombine:".toList ++ ['\n']

def response (pool : RenderPool combined) : List UInt8 :=
  Utf8.encode pool.tileMsg ++ pool.output

end RenderPool

/-- The tiles from this offset on, and the bytes each of them is saved with. -/
def slices (buffer : List UInt8) (offset : Nat) : List TileDesc → List (TileDesc × List UInt8)
  | [] => []
  | tile :: tiles =>
      (tile, (buffer.drop offset).take tile.imgSize.toNat) ::
        slices buffer (offset + tile.imgSize.toNat) tiles

/-- What is saved in the cache, in this order. -/
def handleTileCombinedResponse (message : List UInt8) : List (TileDesc × List UInt8) :=
  let firstLine := message.takeWhile (· ≠ 10)
  if firstLine.length + 1 ≤ message.length then
    match TileCombined.parseMessage (Utf8.decode firstLine) with
    | none => []
    | some combined => slices message (firstLine.length + 1) combined.tiles
  else []

/-!
## What the pool has done
-/

namespace RenderPool

variable {combined : TileCombined} {pool : RenderPool combined}
  {tasks : List (RenderTask combined)}

/-- The descriptors and bytes that have been written are those of the finished tasks, in the same
order, and no task is done twice or lost. -/
structure Accounts (tasks : List (RenderTask combined)) (pool : RenderPool combined) : Prop where
  renderedTiles : pool.renderedTiles = pool.finished.map fun done => done.1.rendered done.2
  output : pool.output = (pool.finished.map Prod.snd).flatten
  sizes : ∀ done ∈ pool.finished, (done.2.length : Int) ≤ intMax
  each : (pool.finished.map Prod.fst ++ (pool.failed ++ pool.pending)).Perm tasks

theorem accounts_start (tasks : List (RenderTask combined)) : Accounts tasks (start tasks) where
  renderedTiles := rfl
  output := rfl
  sizes := fun _ member => absurd member List.not_mem_nil
  each := .refl _

/-- A task that is done is no longer pending. -/
theorem perm_eraseIdx {position : Nat} {task : RenderTask combined}
    (isTask : pool.pending[position]? = some task) :
    (task :: pool.pending.eraseIdx position).Perm pool.pending := by
  obtain ⟨inside, isTask⟩ := List.getElem?_eq_some_iff.mp isTask
  exact isTask ▸ List.getElem_cons_eraseIdx_perm inside

theorem Accounts.pushRendered (accounts : Accounts tasks pool) {position : Nat}
    {task : RenderTask combined} (isTask : pool.pending[position]? = some task)
    {data : List UInt8} (fits : (data.length : Int) ≤ intMax) :
    Accounts tasks ((pool.take position).pushRendered task data) where
  renderedTiles := by
    simp only [RenderPool.pushRendered, take, accounts.renderedTiles, List.map_append, List.map_cons,
      List.map_nil]
  output := by
    simp only [RenderPool.pushRendered, take, accounts.output, List.map_append, List.map_cons,
      List.map_nil, List.flatten_append, List.flatten_cons, List.flatten_nil, List.append_nil]
  sizes := by
    intro done member
    cases List.mem_append.mp member with
    | inl old => exact accounts.sizes done old
    | inr new => exact List.mem_singleton.mp new ▸ fits
  each := by
    refine List.Perm.trans ?_ accounts.each
    simp only [RenderPool.pushRendered, take, List.map_append, List.map_cons, List.map_nil,
      List.append_assoc, List.cons_append, List.nil_append]
    exact List.Perm.append_left _
      (List.perm_middle.symm.trans (List.Perm.append_left _ (perm_eraseIdx isTask)))

theorem Accounts.pushFailed (accounts : Accounts tasks pool) {position : Nat}
    {task : RenderTask combined} (isTask : pool.pending[position]? = some task) :
    Accounts tasks ((pool.take position).pushFailed task) where
  renderedTiles := accounts.renderedTiles
  output := accounts.output
  sizes := accounts.sizes
  each := by
    refine List.Perm.trans ?_ accounts.each
    simp only [RenderPool.pushFailed, take, List.append_assoc, List.cons_append, List.nil_append]
    exact List.Perm.append_left _ (List.Perm.append_left _ (perm_eraseIdx isTask))

theorem Accounts.step (accounts : Accounts tasks pool) {event : PoolEvent}
    (allowed : pool.Allowed event) : Accounts tasks (pool.step event) := by
  cases event with
  | finish position data =>
      cases isTask : pool.pending[position]? with
      | none =>
          simp only [RenderPool.step, isTask]
          exact accounts
      | some task =>
          simp only [RenderPool.step, isTask]
          exact accounts.pushRendered isTask allowed
  | fail position =>
      cases isTask : pool.pending[position]? with
      | none =>
          simp only [RenderPool.step, isTask]
          exact accounts
      | some task =>
          simp only [RenderPool.step, isTask]
          exact accounts.pushFailed isTask

theorem accounts_run {events : List PoolEvent}
    (permitted : Permitted step Allowed (start tasks) events) :
    Accounts tasks (run step (start tasks) events) :=
  run_invariant (Accounts tasks) (fun _ _ accounts allowed => accounts.step allowed)
    (accounts_start tasks) permitted

end RenderPool

/-!
## The first line
-/

section

variable (combined : TileCombined)

/-- The words of a response without tiles: of an empty list only the name is left. -/
def emptyWords : List Text :=
  [nameValue "nviewid".toList (printInt combined.header.normalizedViewId),
    nameValue "part".toList (printInt combined.header.part),
    nameValue "width".toList (printInt combined.header.width),
    nameValue "height".toList (printInt combined.header.height), "tileposx".toList,
    "tileposy".toList, "imgsize".toList,
    nameValue "tilewidth".toList (printInt combined.header.tileWidth),
    nameValue "tileheight".toList (printInt combined.header.tileHeight), "ver".toList,
    "oldwid".toList, nameValue "wid".toList []] ++
  if combined.header.mode ≠ 0 then [nameValue "mode".toList (printInt combined.header.mode)] else []

theorem dropLast_listWord_nil (text : Text) (name : String) :
    (text ++ TileCombined.listWord name []).dropLast = text ++ ' ' :: name.toList := by
  have closed : text ++ TileCombined.listWord name [] = (text ++ ' ' :: name.toList) ++ ['='] := by
    simp only [TileCombined.listWord, nameValue, commaList, List.flatMap_nil, List.append_assoc,
      List.cons_append]
  rw [closed, List.dropLast_concat]

theorem serialize_nil (isNil : combined.tiles = []) (start : Text) :
    combined.serialize start = start ++ (emptyWords combined).flatMap (' ' :: ·) := by
  unfold TileCombined.serialize emptyWords
  simp only [isNil, List.map_nil]
  rw [dropLast_listWord_nil, dropLast_listWord_nil, dropLast_listWord_nil, dropLast_listWord_nil,
    dropLast_listWord_nil]
  split
  · simp
  · simp

theorem isWord_emptyWords : ∀ word ∈ emptyWords combined, IsWord ' ' word := by
  unfold emptyWords
  rw [List.forall_mem_append]
  constructor
  · simp only [List.forall_mem_cons, List.not_mem_nil, false_implies, implies_true, and_true]
    exact ⟨isWord_printed (by decide) _, isWord_printed (by decide) _,
      isWord_printed (by decide) _, isWord_printed (by decide) _,
      ⟨by decide, by decide, by decide⟩, ⟨by decide, by decide, by decide⟩,
      ⟨by decide, by decide, by decide⟩, isWord_printed (by decide) _,
      isWord_printed (by decide) _, ⟨by decide, by decide, by decide⟩,
      ⟨by decide, by decide, by decide⟩, ⟨by decide, by decide, by decide⟩⟩
  · split
    · simpa using isWord_printed (by decide) _
    · simp

theorem newline_notMem_words {start : Text} (isStart : IsCommand start) {words : List Text}
    (areWords : ∀ word ∈ words, IsWord ' ' word) : '\n' ∉ start ++ words.flatMap (' ' :: ·) := by
  intro member
  cases List.mem_append.mp member with
  | inl inStart =>
      cases isStart.isWord with
      | inl isNil =>
          rw [isNil] at inStart
          cases inStart
      | inr isWord => exact isWord.notNewline inStart
  | inr inWords =>
      obtain ⟨word, isWord, inWord⟩ := List.mem_flatMap.mp inWords
      cases inWord with
      | tail _ inWord => exact (areWords word isWord).notNewline inWord

theorem newline_notMem_serialize {start : Text} (isStart : IsCommand start) :
    '\n' ∉ combined.serialize start := by
  by_cases isNil : combined.tiles = []
  · rw [serialize_nil combined isNil]
    exact newline_notMem_words isStart (isWord_emptyWords combined)
  · rw [combined.serialize_eq isNil]
    exact newline_notMem_words isStart (combined.isWord_words isNil)

/-- No word tells where a tile is. -/
theorem tilePositionsX_parseToken {word : Text} (isWord : word ∈ emptyWords combined)
    (known : TileCombined.CombinedPairs) :
    (known.parseToken word).tilePositionsX = known.tilePositionsX := by
  have ofPair {name value : Text} (noEquals : '=' ∉ name) (other : name ≠ "tileposx".toList) :
      (known.parseToken (nameValue name value)).tilePositionsX = known.tilePositionsX := by
    unfold TileCombined.CombinedPairs.parseToken
    rw [parseNameValuePair_nameValue noEquals]
    dsimp only
    rw [if_neg other]
    repeat (split; · rfl)
    rfl
  have ofName {name : Text} (noEquals : '=' ∉ name) :
      (known.parseToken name).tilePositionsX = known.tilePositionsX := by
    rw [TileCombined.CombinedPairs.parseToken_of_notMem noEquals]
  unfold emptyWords at isWord
  simp only [List.mem_append, List.mem_cons, List.not_mem_nil, or_false] at isWord
  rcases isWord with (rfl | rfl | rfl | rfl | rfl | rfl | rfl | rfl | rfl | rfl | rfl | rfl) | isMode
  · exact ofPair (by decide) (by decide)
  · exact ofPair (by decide) (by decide)
  · exact ofPair (by decide) (by decide)
  · exact ofPair (by decide) (by decide)
  · exact ofName (by decide)
  · exact ofName (by decide)
  · exact ofName (by decide)
  · exact ofPair (by decide) (by decide)
  · exact ofPair (by decide) (by decide)
  · exact ofName (by decide)
  · exact ofName (by decide)
  · exact ofPair (by decide) (by decide)
  · split at isMode
    · exact List.mem_singleton.mp isMode ▸ ofPair (by decide) (by decide)
    · exact absurd isMode List.not_mem_nil

theorem tiles_create?_nil {header : TileHeader}
    {tilePositionsY vers imgSizes oldWireIds wireIds : Text} {request : TileCombined}
    (isRequest : TileCombined.create? header [] tilePositionsY vers imgSizes oldWireIds wireIds =
      some request) : request.tiles = [] := by
  unfold TileCombined.create? at isRequest
  split at isRequest
  · cases isRequest
  · dsimp only at isRequest
    split at isRequest
    · cases isRequest
    · split at isRequest
      · cases isRequest
      · next tiles areTiles =>
          cases isRequest
          exact (Option.some.inj areTiles).symm

/-- A response without tiles is read as one. -/
theorem tiles_parseMessage_nil (isNil : combined.tiles = []) {start : Text}
    (isStart : IsCommand start) {request : TileCombined}
    (isRequest : TileCombined.parseMessage (combined.serialize start) = some request) :
    request.tiles = [] := by
  rw [serialize_nil combined isNil, TileCombined.parseMessage,
    tokenize_words (isWord_emptyWords combined) isStart.isWord isStart.noNul] at isRequest
  have kept (words : List Text) (areWords : ∀ word ∈ words, word ∈ emptyWords combined ∨ word = start)
      (known : TileCombined.CombinedPairs) :
      (words.foldl TileCombined.CombinedPairs.parseToken known).tilePositionsX =
        known.tilePositionsX := by
    induction words generalizing known with
    | nil => rfl
    | cons word words ih =>
        obtain ⟨isWord, areWords⟩ := List.forall_mem_cons.mp areWords
        rw [List.foldl_cons, ih areWords]
        cases isWord with
        | inl isWord => exact tilePositionsX_parseToken combined isWord known
        | inr isWord =>
            rw [isWord, TileCombined.CombinedPairs.parseToken_of_notMem isStart.noEquals]
  unfold TileCombined.parse at isRequest
  dsimp only at isRequest
  rw [kept _ ?_] at isRequest
  · exact tiles_create?_nil isRequest
  · intro word member
    split at member
    · exact .inl member
    · cases member with
      | head => exact .inr rfl
      | tail _ member => exact .inl member

end

/-!
## The slices
-/

theorem slices_append {front : List UInt8} {done : List (TileDesc × List UInt8)}
    (sizes : ∀ part ∈ done, part.1.imgSize = part.2.length) :
    slices (front ++ (done.map Prod.snd).flatten) front.length (done.map Prod.fst) = done := by
  induction done generalizing front with
  | nil => rfl
  | cons part done ih =>
      obtain ⟨size, sizes⟩ := List.forall_mem_cons.mp sizes
      have isSize : part.1.imgSize.toNat = part.2.length := by rw [size, Int.toNat_natCast]
      have others := @ih (front ++ part.2) sizes
      rw [List.length_append, List.append_assoc] at others
      rw [List.map_cons, List.map_cons, List.flatten_cons, slices, isSize, others,
        List.drop_left, List.take_left]

namespace RenderPool

variable {combined : TileCombined} {pool : RenderPool combined}
  {tasks : List (RenderTask combined)}

theorem isTileOf_rendered
    (areTiles : ∀ tile ∈ combined.tiles, TileCombined.IsTileOf combined.header tile)
    (task : RenderTask combined) {data : List UInt8} (fits : (data.length : Int) ≤ intMax) :
    TileCombined.IsTileOf combined.header (task.rendered data) := by
  have isTile := areTiles task.tile task.isTile
  exact
    { header := task.header_rendered data
      id := isTile.id
      broadcast := isTile.broadcast
      fits := { isTile.fits with imgSize := fits } }

theorem isCommand_tilecombine : IsCommand "tilecombine:".toList :=
  ⟨.inr ⟨by decide, by decide, by decide⟩, by decide, by decide⟩

/-- What is behind the first line of the response, and what the line says. -/
theorem handleTileCombinedResponse_response (pool : RenderPool combined) :
    handleTileCombinedResponse pool.response =
      match TileCombined.parseMessage (pool.responseTiles.serialize "tilecombine:".toList) with
      | none => []
      | some request =>
          slices pool.response
            ((Utf8.encode (pool.responseTiles.serialize "tilecombine:".toList) ++ [10]).length)
            request.tiles := by
  have noNewline := newline_notMem_serialize pool.responseTiles isCommand_tilecombine
  generalize isText : pool.responseTiles.serialize "tilecombine:".toList = text at noNewline ⊢
  have isResponse : pool.response = Utf8.encode text ++ 10 :: pool.output := by
    rw [response, tileMsg, isText, Utf8.encode_append, List.append_assoc]
    rfl
  have isLine : pool.response.takeWhile (· ≠ 10) = Utf8.encode text := by
    rw [isResponse, List.takeWhile_append_of_pos]
    · rw [List.takeWhile_cons_of_neg (by decide), List.append_nil]
    · intro byte member
      have different : byte ≠ 10 := by
        rintro rfl
        exact noNewline (Utf8.newline_mem_encode member)
      exact decide_eq_true different
  have isLonger : (Utf8.encode text).length + 1 ≤ pool.response.length := by
    rw [isResponse, List.length_append, List.length_cons]
    exact Nat.add_le_add_left (Nat.le_add_left _ _) _
  unfold handleTileCombinedResponse
  dsimp only
  rw [isLine, if_pos isLonger, Utf8.decode_encode, List.length_append]
  rfl

/-- Every tile of the response is saved with its own bytes. -/
theorem Accounts.handleTileCombinedResponse
    (areTiles : ∀ tile ∈ combined.tiles, TileCombined.IsTileOf combined.header tile)
    (accounts : Accounts tasks pool) : handleTileCombinedResponse pool.response =
      pool.finished.map fun done => (done.1.rendered done.2, done.2) := by
  rw [handleTileCombinedResponse_response]
  by_cases isNil : pool.renderedTiles = []
  · have nothing : pool.finished = [] := by
      rw [accounts.renderedTiles] at isNil
      exact List.map_eq_nil_iff.mp isNil
    rw [nothing]
    split
    · rfl
    · next request isRequest =>
        rw [tiles_parseMessage_nil pool.responseTiles isNil isCommand_tilecombine isRequest]
        rfl
  · have isTiles : pool.responseTiles.tiles =
        pool.finished.map fun done => done.1.rendered done.2 := accounts.renderedTiles
    have areRendered : ∀ tile ∈ pool.responseTiles.tiles,
        TileCombined.IsTileOf pool.responseTiles.header tile := by
      intro tile member
      rw [isTiles] at member
      obtain ⟨done, isDone, rfl⟩ := List.mem_map.mp member
      exact isTileOf_rendered areTiles done.1 (accounts.sizes done isDone)
    rw [TileCombined.parseMessage_serialize _ isNil areRendered isCommand_tilecombine]
    dsimp only
    have sliced := @slices_append
      (Utf8.encode (pool.responseTiles.serialize "tilecombine:".toList) ++ [10])
      (pool.finished.map fun done => (done.1.rendered done.2, done.2)) (by
        intro part member
        obtain ⟨done, -, rfl⟩ := List.mem_map.mp member
        rfl)
    rw [List.map_map, List.map_map] at sliced
    have isResponse : pool.response =
        Utf8.encode (pool.responseTiles.serialize "tilecombine:".toList) ++ [10] ++
          (pool.finished.map Prod.snd).flatten := by
      rw [response, tileMsg, Utf8.encode_append, accounts.output]
      rfl
    rw [isResponse, isTiles]
    exact sliced

theorem tile_renderTasks (combined : TileCombined) (nextId : TileWireId) :
    (renderTasks combined nextId).map RenderTask.tile = combined.tiles := by
  have sameTiles : (renderTasks combined nextId).map RenderTask.tile =
      combined.tiles.attach.map Subtype.val := by
    refine List.ext_getElem? fun index => ?_
    rw [renderTasks, List.getElem?_map, List.getElem?_mapIdx, List.getElem?_map, Option.map_map]
    rfl
  rw [sameTiles, List.attach_map_subtype_val]

/-- A tile of the first column. -/
def columnTile (row : Nat) : TileDesc where
  normalizedViewId := 0
  part := 0
  mode := 0
  width := 256
  height := 256
  tilePosX := 0
  tilePosY := row * 3840
  tileWidth := 3840
  tileHeight := 3840
  ver := 1
  imgSize := 0
  id := -1
  broadcast := false
  oldWireId := 0
  wireId := 0
  valid := by omega

/-- The first and the third tile of a column. -/
def apart : TileCombined :=
  TileCombined.create (columnTile 0) [columnTile 2]

end RenderPool

end FreeOnline.Tiles
