import FreeOnline.Browser.NumberText
import FreeOnline.Browser.SpanEncoding

/-!
# Keys of tiles

A tile is known by a key of five numbers. Only of a key of four would the mode be read again, so
that all tiles come back with mode zero.
-/

set_option autoImplicit false

namespace FreeOnline.Browser.TileKeys

open FreeOnline.Library
open FreeOnline.Browser.SheetGeometry (split split_append split_word)

/-- Coordinates whose numbers need not be whole. -/
structure TileCoordData where
  x : JsNumber
  y : JsNumber
  z : JsNumber
  part : JsNumber
  mode : JsNumber

def TileCoordData.key (coords : TileCoordData) : Text :=
  coords.x.toText ++ ':' :: (coords.y.toText ++ ':' :: (coords.z.toText ++
    ':' :: (coords.part.toText ++ ':' :: coords.mode.toText)))

/-- `+k[index]`, which is NaN where the element is missing. -/
def numberAt (k : List Text) (index : Nat) : JsNumber :=
  match k[index]? with
  | none => .nan
  | some text => .ofText text

def parseKey (keyString : Text) : TileCoordData :=
  let k := split ':' keyString
  let mode := if k.length = 4 then numberAt k 4 else JsNumber.ofRat 0
  ⟨numberAt k 0, numberAt k 1, numberAt k 2, numberAt k 3, mode⟩

/-!
## What is read of a key
-/

theorem colon_notMem_positiveText (q : ℚ) : ':' ∉ JsNumber.positiveText q := by
  intro member
  unfold JsNumber.positiveText at member
  split at member
  · cases JsNumber.inDecimal_of_mem member with
    | inl isDigit => exact absurd isDigit (by decide)
    | inr isSign => exact absurd isSign (by decide)
  · cases member

theorem colon_notMem_toText (number : JsNumber) : ':' ∉ number.toText := by
  cases number with
  | nan => decide
  | infinite negative =>
      cases negative with
      | false => decide
      | true => decide
  | finite number =>
      rw [JsNumber.toText]
      split
      · decide
      · split
        · intro member
          cases member with
          | tail _ member => exact colon_notMem_positiveText _ member
        · exact colon_notMem_positiveText _

theorem split_key (coords : TileCoordData) :
    split ':' coords.key =
      [coords.x.toText, coords.y.toText, coords.z.toText, coords.part.toText, coords.mode.toText] := by
  unfold TileCoordData.key
  rw [split_append (colon_notMem_toText _), split_append (colon_notMem_toText _),
    split_append (colon_notMem_toText _), split_append (colon_notMem_toText _),
    split_word (colon_notMem_toText _)]

/-- Everything but the mode is read again. -/
theorem parseKey_key (coords : TileCoordData) :
    parseKey coords.key = { coords with mode := JsNumber.ofRat 0 } := by
  have isNumber (k : List Text) (index : Nat) (number : JsNumber)
      (isText : k[index]? = some number.toText) : numberAt k index = number := by
    rw [numberAt, isText]
    exact JsNumber.ofText_toText number
  unfold parseKey
  rw [split_key]
  dsimp only
  rw [isNumber _ 0 coords.x rfl, isNumber _ 1 coords.y rfl, isNumber _ 2 coords.z rfl,
    isNumber _ 3 coords.part rfl, if_neg (by simp)]

theorem toText_injective : Function.Injective JsNumber.toText :=
  Function.LeftInverse.injective JsNumber.ofText_toText

/-- A key tells five numbers apart. -/
theorem key_injective : Function.Injective TileCoordData.key := by
  intro coords other same
  have sameTexts := congrArg (split ':') same
  rw [split_key, split_key] at sameTexts
  injection sameTexts with sameX sameTexts
  injection sameTexts with sameY sameTexts
  injection sameTexts with sameZ sameTexts
  injection sameTexts with samePart sameTexts
  injection sameTexts with sameMode
  cases coords
  cases other
  congr
  · exact toText_injective sameX
  · exact toText_injective sameY
  · exact toText_injective sameZ
  · exact toText_injective samePart
  · exact toText_injective sameMode

theorem key_round_trip_iff (coords : TileCoordData) :
    (parseKey coords.key = coords ∧ ∀ other : TileCoordData, coords.key = other.key → coords = other) ↔
      coords.mode = JsNumber.ofRat 0 := by
  constructor
  · rintro ⟨isRead, -⟩
    rw [parseKey_key] at isRead
    exact (congrArg TileCoordData.mode isRead).symm
  · intro isZero
    refine ⟨?_, fun other same => key_injective same⟩
    rw [parseKey_key, ← isZero]

theorem ofRat_one_ne_zero : JsNumber.ofRat 1 ≠ JsNumber.ofRat 0 := by
  have isOne : IsDouble 1 := by
    refine ⟨1, 0, by norm_num, by norm_num, by norm_num, ?_⟩
    rw [abs_one]
    exact one_lt_pow₀ (by norm_num) (by norm_num)
  have isZero : IsDouble 0 := ⟨0, 0, by norm_num, by norm_num, by norm_num, by norm_num⟩
  rw [@JsNumber.ofRat_value ⟨1, isOne⟩ 1 (roundDigits_of_isDouble isOne),
    @JsNumber.ofRat_value ⟨0, isZero⟩ 0 (roundDigits_of_isDouble isZero)]
  intro same
  injection same with same
  injection same with same
  exact absurd same (by norm_num)

/-- A tile of mode one comes back as one of mode zero. -/
theorem key_loses_mode_one :
    parseKey (TileCoordData.key ⟨.ofRat 0, .ofRat 0, .ofRat 0, .ofRat 0, .ofRat 1⟩) ≠
      ⟨.ofRat 0, .ofRat 0, .ofRat 0, .ofRat 0, .ofRat 1⟩ := by
  rw [parseKey_key]
  intro same
  exact ofRat_one_ne_zero (congrArg TileCoordData.mode same).symm

end FreeOnline.Browser.TileKeys
