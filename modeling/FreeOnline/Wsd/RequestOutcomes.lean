import FreeOnline.Wsd.SendRequestedTiles

/-!
# What becomes of the requested tiles

Each round of the loop over the requested tiles takes the first one. It is sent from the cache, or
the session waits for it, or it goes to the end of the list, where the loop does not come to it
again.
-/

set_option autoImplicit false

namespace FreeOnline.Wsd

open FreeOnline.Library

/-!
## Waiting for a tile
-/

/-- The session is a subscriber of the rendering of the tile. -/
def TileCache.Awaits (tileCache : TileCache) (session : SessionId) (tile : TileDesc) : Prop :=
  ∃ rendering, tileCache.rendering? tile.cacheKey = some rendering ∧
    session ∈ rendering.subscribers

namespace TileCache

variable {tileCache : TileCache} {session : SessionId} {tile asked : TileDesc}

theorem awaits_subscribeToTileRendering (tileCache : TileCache) (session : SessionId) (now : Nat)
    (sameKey : tile.cacheKey = asked.cacheKey) :
    (tileCache.subscribeToTileRendering asked session now).Awaits session tile := by
  unfold Awaits
  rw [rendering?_subscribeToTileRendering, if_pos sameKey]
  exact ⟨_, rfl, mem_subscribed.mpr (.inl rfl)⟩

/-- No subscription is lost. -/
theorem Awaits.subscribeToTileRendering (awaits : tileCache.Awaits session tile)
    (asked : TileDesc) (other : SessionId) (now : Nat) :
    (tileCache.subscribeToTileRendering asked other now).Awaits session tile := by
  obtain ⟨rendering, found, subscribes⟩ := awaits
  unfold Awaits
  rw [rendering?_subscribeToTileRendering]
  by_cases sameKey : tile.cacheKey = asked.cacheKey
  · rw [if_pos sameKey]
    refine ⟨_, rfl, mem_subscribed.mpr (.inr ⟨rendering, ?_, subscribes⟩)⟩
    rw [← sameKey]
    exact found
  · rw [if_neg sameKey]
    exact ⟨rendering, found, subscribes⟩

end TileCache

/-!
## Outcomes
-/

inductive Outcome where
  | sent
  | awaited
  | delayed
deriving DecidableEq

/-- The tiles of that outcome, as they were visited. -/
def Outcome.tiles (outcome : Outcome) (outcomes : List (TileDesc × Outcome)) : List TileDesc :=
  (outcomes.filter fun visited => visited.2 = outcome).map Prod.fst

theorem Outcome.tiles_append (outcome : Outcome) (outcomes : List (TileDesc × Outcome))
    (tile : TileDesc) (last : Outcome) :
    outcome.tiles (outcomes ++ [(tile, last)]) =
      outcome.tiles outcomes ++ if last = outcome then [tile] else [] := by
  unfold tiles
  rw [List.filter_append, List.map_append, List.filter_singleton]
  by_cases same : last = outcome
  · simp [same]
  · simp [same]

/-- The loop has visited tiles with these outcomes, and not yet the others. -/
structure SendLoop.Reached (loop : SendLoop) (outcomes : List (TileDesc × Outcome))
    (unvisited : List TileDesc) (next : SendLoop) : Prop where
  id : next.work.session.id = loop.work.session.id
  cache : next.work.tileCache.cache = loop.work.tileCache.cache
  dontCache : next.work.tileCache.dontCache = loop.work.tileCache.dontCache
  requestedTiles :
    next.work.session.requestedTiles = unvisited ++ Outcome.delayed.tiles outcomes
  delayedTiles : next.delayedTiles = (Outcome.delayed.tiles outcomes).length
  sent : next.work.sent = loop.work.sent ++ Outcome.sent.tiles outcomes
  cached : ∀ tile ∈ Outcome.sent.tiles outcomes, loop.work.tileCache.isValid tile = true
  awaits : ∀ tile ∈ Outcome.awaited.tiles outcomes,
    next.work.tileCache.Awaits loop.work.session.id tile
  twice : ∀ tile ∈ Outcome.delayed.tiles outcomes,
    2 ≤ next.work.session.countIdenticalTilesOnFly tile

namespace SendLoop

variable {loop next after : SendLoop} {outcomes : List (TileDesc × Outcome)}
  {tile : TileDesc} {unvisited : List TileDesc} {tilesOnFlyUpperLimit now : Nat}

/-- What a round does. -/
theorem round_cases (isRound : next.round tilesOnFlyUpperLimit now = some after) :
    ∃ tile rest, next.work.session.requestedTiles = tile :: rest ∧
      next.delayedTiles < (tile :: rest).length ∧
      ((2 ≤ next.work.session.countIdenticalTilesOnFly tile ∧
          after = { next.setRequestedTiles (rest ++ [tile]) with
            delayedTiles := next.delayedTiles + 1 }) ∨
        (∃ cachedTile, (next.work.tileCache.lookupTile tile).filter TileData.valid = some cachedTile ∧
          after = { next with work := next.work.sendTile tile cachedTile now }.setRequestedTiles
            rest) ∨
        after = (next.render tile now).setRequestedTiles rest) := by
  unfold round at isRound
  cases isList : next.work.session.requestedTiles with
  | nil =>
      rw [isList] at isRound
      cases isRound
  | cons tile rest =>
      rw [isList] at isRound
      dsimp only at isRound
      refine ⟨tile, rest, rfl, ?_⟩
      split at isRound
      · next continues =>
          refine ⟨continues.2, ?_⟩
          split at isRound
          · next twice =>
              cases isRound
              exact .inl ⟨twice, rfl⟩
          · cases found : (next.work.tileCache.lookupTile tile).filter TileData.valid with
            | some cachedTile =>
                rw [found] at isRound
                cases isRound
                exact .inr (.inl ⟨cachedTile, rfl, rfl⟩)
            | none =>
                rw [found] at isRound
                cases isRound
                exact .inr (.inr rfl)
      · cases isRound

/-- The session waits for the tile, for this version or for another one. -/
theorem render_cases (next : SendLoop) (tile : TileDesc) (now : Nat) :
    ∃ (asked : TileDesc) (version : Nat) (tiles : List TileDesc), tile.cacheKey = asked.cacheKey ∧
      next.render tile now =
        { next with
          work := { next.work with tileVersion := version }.subscribeToTileRendering asked now
          beingRendered := next.beingRendered + 1
          tilesNeedsRendering := tiles } := by
  unfold render
  split
  · refine ⟨_, next.work.tileVersion + 1, _, ?_, rfl⟩
    split
    · rfl
    · rfl
  · exact ⟨tile, next.work.tileVersion, next.tilesNeedsRendering, rfl, rfl⟩

theorem Reached.start (delayedTiles : loop.delayedTiles = 0) :
    Reached loop [] loop.work.session.requestedTiles loop where
  id := rfl
  cache := rfl
  dontCache := rfl
  requestedTiles := (List.append_nil _).symm
  delayedTiles := delayedTiles
  sent := (List.append_nil _).symm
  cached := fun _ member => absurd member List.not_mem_nil
  awaits := fun _ member => absurd member List.not_mem_nil
  twice := fun _ member => absurd member List.not_mem_nil

/-- The list of tiles on the fly only grows. -/
theorem countIdenticalTilesOnFly_le {session sent : TileSession} (sends : session.Sends tile sent)
    (other : TileDesc) :
    session.countIdenticalTilesOnFly other ≤ sent.countIdenticalTilesOnFly other := by
  unfold TileSession.countIdenticalTilesOnFly
  cases sends.tilesOnFly with
  | inl same => rw [same]
  | inr added =>
      obtain ⟨time, added⟩ := added
      rw [added, List.countP_append]
      exact Nat.le_add_right _ _

section Round

variable (reached : Reached loop outcomes (tile :: unvisited) next)

include reached

theorem Reached.delay (twice : 2 ≤ next.work.session.countIdenticalTilesOnFly tile) :
    Reached loop (outcomes ++ [(tile, .delayed)]) unvisited
      { next.setRequestedTiles (unvisited ++ Outcome.delayed.tiles outcomes ++ [tile]) with
        delayedTiles := next.delayedTiles + 1 } where
  id := reached.id
  cache := reached.cache
  dontCache := reached.dontCache
  requestedTiles := by simp [setRequestedTiles, Outcome.tiles_append]
  delayedTiles := by simp [Outcome.tiles_append, reached.delayedTiles]
  sent := by simpa [setRequestedTiles, Outcome.tiles_append] using reached.sent
  cached := by simpa [Outcome.tiles_append] using reached.cached
  awaits := by simpa [setRequestedTiles, Outcome.tiles_append] using reached.awaits
  twice := by
    intro other member
    rw [Outcome.tiles_append, if_pos rfl] at member
    cases List.mem_append.mp member with
    | inl old => exact reached.twice other old
    | inr last =>
        cases List.mem_singleton.mp last
        exact twice

theorem Reached.serve {cachedTile : TileData}
    (found : (next.work.tileCache.lookupTile tile).filter TileData.valid = some cachedTile) :
    Reached loop (outcomes ++ [(tile, .sent)]) unvisited
      ({ next with work := next.work.sendTile tile cachedTile now }.setRequestedTiles
        (unvisited ++ Outcome.delayed.tiles outcomes)) where
  id := (next.work.session.sends_sendTile tile cachedTile now).id.trans reached.id
  cache := reached.cache
  dontCache := reached.dontCache
  requestedTiles := by simp [setRequestedTiles, Outcome.tiles_append]
  delayedTiles := by
    simpa [setRequestedTiles, Outcome.tiles_append] using reached.delayedTiles
  sent := by simp [setRequestedTiles, TileWork.sendTile, Outcome.tiles_append, reached.sent]
  cached := by
    intro other member
    rw [Outcome.tiles_append, if_pos rfl] at member
    cases List.mem_append.mp member with
    | inl old => exact reached.cached other old
    | inr last =>
        cases List.mem_singleton.mp last
        rw [TileCache.lookupTile_congr reached.cache reached.dontCache rfl] at found
        exact isValid_eq_true found
  awaits := by
    simpa [setRequestedTiles, TileWork.sendTile, Outcome.tiles_append] using reached.awaits
  twice := by
    intro other member
    rw [Outcome.tiles_append, if_neg (by decide), List.append_nil] at member
    exact Nat.le_trans (reached.twice other member) (countIdenticalTilesOnFly_le
      (next.work.session.sends_sendTile tile cachedTile now) other)

theorem Reached.render :
    Reached loop (outcomes ++ [(tile, .awaited)]) unvisited
      ((next.render tile now).setRequestedTiles
        (unvisited ++ Outcome.delayed.tiles outcomes)) := by
  obtain ⟨asked, version, tiles, sameKey, rendered⟩ := next.render_cases tile now
  obtain ⟨sameCache, sameDontCache⟩ := next.work.tileCache.cache_subscribeToTileRendering asked
    next.work.session.id now
  rw [rendered]
  exact
    { id := reached.id
      cache := sameCache.trans reached.cache
      dontCache := sameDontCache.trans reached.dontCache
      requestedTiles := by simp [setRequestedTiles, Outcome.tiles_append]
      delayedTiles := by
        simpa [setRequestedTiles, Outcome.tiles_append] using reached.delayedTiles
      sent := by
        simpa [setRequestedTiles, TileWork.subscribeToTileRendering, Outcome.tiles_append] using
          reached.sent
      cached := by simpa [Outcome.tiles_append] using reached.cached
      awaits := by
        intro other member
        rw [Outcome.tiles_append, if_pos rfl] at member
        cases List.mem_append.mp member with
        | inl old =>
            exact (reached.awaits other old).subscribeToTileRendering asked
              next.work.session.id now
        | inr last =>
            cases List.mem_singleton.mp last
            rw [← reached.id]
            exact next.work.tileCache.awaits_subscribeToTileRendering next.work.session.id now
              sameKey
      twice := by
        intro other member
        rw [Outcome.tiles_append, if_neg (by decide), List.append_nil] at member
        exact reached.twice other member }

/-- A round visits the first of the tiles. -/
theorem Reached.round (isRound : next.round tilesOnFlyUpperLimit now = some after) :
    ∃ outcome, Reached loop (outcomes ++ [(tile, outcome)]) unvisited after := by
  obtain ⟨first, rest, isList, -, cases⟩ := round_cases isRound
  rw [reached.requestedTiles, List.cons_append, List.cons.injEq] at isList
  obtain ⟨isFirst, isRest⟩ := isList
  cases isFirst
  cases isRest
  rcases cases with ⟨twice, isAfter⟩ | ⟨cachedTile, found, isAfter⟩ | isAfter
  · rw [isAfter]
    exact ⟨.delayed, reached.delay twice⟩
  · rw [isAfter]
    exact ⟨.sent, reached.serve found⟩
  · rw [isAfter]
    exact ⟨.awaited, reached.render⟩

end Round

/-- When every tile was visited the loop is over, since those that are left are delayed. -/
theorem Reached.isOver (reached : Reached loop outcomes [] next) :
    next.round tilesOnFlyUpperLimit now = none := by
  cases isRound : next.round tilesOnFlyUpperLimit now with
  | none => rfl
  | some after =>
      obtain ⟨tile, rest, isList, inside, -⟩ := round_cases isRound
      rw [← isList, reached.requestedTiles, reached.delayedTiles, List.nil_append] at inside
      exact absurd inside (Nat.lt_irrefl _)

/-- The loop ends after at most as many rounds as there are tiles that were not visited. -/
theorem Reached.rounds (tilesOnFlyUpperLimit now : Nat)
    (reached : Reached loop outcomes unvisited next) :
    ∃ more rest last, unvisited = more.map Prod.fst ++ rest ∧
      Reached loop (outcomes ++ more) rest last ∧
      last.round tilesOnFlyUpperLimit now = none ∧
      ∀ fuel, unvisited.length ≤ fuel →
        Library.loop (SendLoop.round tilesOnFlyUpperLimit now) fuel next = last := by
  induction unvisited generalizing outcomes next with
  | nil =>
      have isOver : next.round tilesOnFlyUpperLimit now = none := reached.isOver
      refine ⟨[], [], next, rfl, by simpa using reached, isOver, fun fuel _ => ?_⟩
      exact Library.loop_of_none isOver fuel
  | cons tile unvisited ih =>
      cases isRound : next.round tilesOnFlyUpperLimit now with
      | none =>
          refine ⟨[], tile :: unvisited, next, rfl, by simpa using reached, isRound, ?_⟩
          exact fun fuel _ => Library.loop_of_none isRound fuel
      | some after =>
          obtain ⟨outcome, visited⟩ := reached.round isRound
          obtain ⟨more, rest, last, split, finished, isOver, ends⟩ := ih visited
          refine ⟨(tile, outcome) :: more, rest, last, ?_, ?_, isOver, ?_⟩
          · rw [split, List.map_cons, List.cons_append]
          · simpa using finished
          · intro fuel enough
            cases fuel with
            | zero => cases enough
            | succ fuel =>
                rw [Library.loop, isRound]
                exact ends fuel (Nat.le_of_succ_le_succ enough)

end SendLoop

/-- The loop over the requested tiles ends, however much fuel it has beyond their number. Then each
tile of the former list was sent from the cache, or the session waits for it, or it is still in the
list: first those that were not visited, behind them those that were delayed. -/
theorem sendRequestedTiles_outcomes (work : TileWork) (tilesOnFlyUpperLimit now : Nat) :
    ∃ outcomes unvisited last,
      work.session.requestedTiles = outcomes.map Prod.fst ++ unvisited ∧
      (∀ fuel, work.session.requestedTiles.length ≤ fuel →
        loop (SendLoop.round tilesOnFlyUpperLimit now) fuel (SendLoop.start work now) = last) ∧
      last.round tilesOnFlyUpperLimit now = none ∧
      SendLoop.Reached (SendLoop.start work now) outcomes unvisited last ∧
      (sendRequestedTiles work tilesOnFlyUpperLimit now).session = last.work.session ∧
      (sendRequestedTiles work tilesOnFlyUpperLimit now).tileCache = last.work.tileCache ∧
      (sendRequestedTiles work tilesOnFlyUpperLimit now).sent = last.work.sent := by
  have started : SendLoop.Reached (SendLoop.start work now) [] work.session.requestedTiles
      (SendLoop.start work now) := SendLoop.Reached.start rfl
  obtain ⟨outcomes, unvisited, last, split, reached, isOver, ends⟩ :=
    started.rounds tilesOnFlyUpperLimit now
  rw [List.nil_append] at reached
  refine ⟨outcomes, unvisited, last, split, ends, isOver, reached, ?_⟩
  have isLast := ends work.session.requestedTiles.length (Nat.le_refl _)
  unfold sendRequestedTiles
  by_cases empty : work.session.requestedTiles = []
  · rw [empty, List.length_nil, loop] at isLast
    rw [if_pos empty, isLast]
    exact ⟨rfl, rfl, rfl⟩
  · rw [if_neg empty, isLast]
    exact ⟨rfl, rfl, rfl⟩

end FreeOnline.Wsd
