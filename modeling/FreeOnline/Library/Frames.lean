import Mathlib.Data.List.Basic

/-!
# Streams of frames

A decoder starts over at a key frame and changes what it shows at any other
frame. A stream may be thinned out on the way: a frame can be left out where the
next one is a key frame.
-/

set_option autoImplicit false

namespace FreeOnline.Library

universe u v

structure Decoder (Frame : Type u) (Picture : Type v) where
  isKey : Frame → Bool
  start : Frame → Picture
  patch : Picture → Frame → Picture

namespace Decoder

variable {Frame : Type u} {Picture : Type v} (decoder : Decoder Frame Picture)

def next (shown : Option Picture) (frame : Frame) : Option Picture :=
  if decoder.isKey frame then some (decoder.start frame)
  else shown.map (decoder.patch · frame)

def replay (frames : List Frame) : Option Picture :=
  frames.foldl decoder.next none

theorem next_key {frame : Frame} (key : decoder.isKey frame = true)
    (shown other : Option Picture) : decoder.next shown frame = decoder.next other frame := by
  simp only [next, key, if_true]

theorem foldl_isSome (frames : List Frame) {shown : Option Picture} (some : shown.isSome = true) :
    (frames.foldl decoder.next shown).isSome = true := by
  induction frames generalizing shown with
  | nil => exact some
  | cons frame frames ih =>
      apply ih
      unfold next
      split
      · rfl
      · simpa only [Option.isSome_map] using some

theorem replay_isSome {first : Frame} (key : decoder.isKey first = true) (rest : List Frame) :
    (decoder.replay (first :: rest)).isSome = true := by
  have shown : (decoder.next none first).isSome = true := by
    simp only [next, key, if_true, Option.isSome_some]
  exact decoder.foldl_isSome rest shown

end Decoder

/-- The second list is the first one with frames left out, each right before a key frame. -/
inductive Thinned {Frame : Type u} (isKey : Frame → Bool) : List Frame → List Frame → Prop where
  | nil : Thinned isKey [] []
  | push {all kept : List Frame} (frame : Frame) :
      Thinned isKey all kept → Thinned isKey (all ++ [frame]) (kept ++ [frame])
  | drop {all before after : List Frame} (dropped : Frame) {key : Frame} :
      isKey key = true → Thinned isKey all (before ++ dropped :: key :: after) →
        Thinned isKey all (before ++ key :: after)

namespace Thinned

variable {Frame : Type u} {Picture : Type v} {isKey : Frame → Bool} {all kept : List Frame}

theorem getLast?_eq (thinned : Thinned isKey all kept) : kept.getLast? = all.getLast? := by
  induction thinned with
  | nil => rfl
  | push frame _ _ => simp only [List.getLast?_concat]
  | drop dropped _ _ ih => simpa only [List.getLast?_append, List.getLast?_cons_cons] using ih

/-- A frame that is not a key frame keeps the frame before it. -/
theorem predecessor (thinned : Thinned isKey all kept) {before after : List Frame} {frame : Frame}
    (split : kept = before ++ frame :: after) (notKey : isKey frame = false) :
    ∃ allBefore allAfter, all = allBefore ++ frame :: allAfter ∧
      allBefore.getLast? = before.getLast? := by
  induction thinned generalizing before after with
  | nil => simp at split
  | @push all kept last thinned ih =>
      rcases List.eq_nil_or_concat after with rfl | ⟨after, other, rfl⟩
      · obtain ⟨rfl, same⟩ := List.append_inj' split rfl
        cases same
        exact ⟨all, [], rfl, thinned.getLast?_eq.symm⟩
      · rw [List.concat_eq_append, ← List.cons_append, ← List.append_assoc] at split
        obtain ⟨split, -⟩ := List.append_inj' split rfl
        obtain ⟨allBefore, allAfter, rfl, previous⟩ := ih split
        exact ⟨allBefore, allAfter ++ [last], by simp, previous⟩
  | @drop all first rest dropped key isKeyFrame thinned ih =>
      rcases List.append_eq_append_iff.mp split with ⟨middle, rfl, tail⟩ | ⟨middle, rfl, tail⟩
      · cases middle with
        | nil =>
            cases tail
            rw [isKeyFrame] at notKey
            cases notKey
        | cons head middle =>
            obtain ⟨rfl, rfl⟩ := List.cons.inj tail
            have longer : first ++ dropped :: key :: (middle ++ frame :: after) =
                (first ++ dropped :: key :: middle) ++ frame :: after := by
              simp only [List.append_assoc, List.cons_append]
            obtain ⟨allBefore, allAfter, found, previous⟩ := ih longer
            exact ⟨allBefore, allAfter, found, by simpa using previous⟩
      · cases middle with
        | nil =>
            cases tail
            rw [isKeyFrame] at notKey
            cases notKey
        | cons head middle =>
            obtain ⟨rfl, rfl⟩ := List.cons.inj tail
            have longer : before ++ frame :: middle ++ dropped :: key :: rest =
                before ++ frame :: (middle ++ dropped :: key :: rest) := by
              simp only [List.append_assoc, List.cons_append]
            exact ih longer

theorem replay_eq {decoder : Decoder Frame Picture} (thinned : Thinned decoder.isKey all kept) :
    decoder.replay kept = decoder.replay all := by
  induction thinned with
  | nil => rfl
  | push frame _ ih =>
      simp only [Decoder.replay, List.foldl_append] at ih ⊢
      rw [ih]
  | drop dropped isKeyFrame _ ih =>
      rw [← ih]
      simp only [Decoder.replay, List.foldl_append, List.foldl_cons]
      rw [decoder.next_key isKeyFrame]

end Thinned

end FreeOnline.Library
