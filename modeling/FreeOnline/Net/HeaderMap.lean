import Mathlib.Data.List.Induction
import Mathlib.Data.List.Nodup
import FreeOnline.Net.HttpRequest

/-!
# The header as a map

A field is replaced where its name is spelled the same, and is found however its name is spelled.
The header answers as a map whose keys have no case while every key has one spelling.
-/

set_option autoImplicit false

namespace FreeOnline.Net.Http

open FreeOnline.Library

namespace Header

/-- `get` with the value for a key that is missing. -/
def getOr (header : Header) (key default : Bytes) : Bytes :=
  match header.headers.find? fun pair => iequal pair.1 key with
  | some pair => pair.2
  | none => default

def fieldText (pair : Bytes × Bytes) : Bytes := pair.1 ++ bytesOf ": " ++ pair.2 ++ [cr, lf]

def serialize (header : Header) : Bytes := header.headers.flatMap fieldText

/-- Each pair is set, one after the other. -/
def setAll (header : Header) (history : List (Bytes × Bytes)) : Header :=
  history.foldl (fun header pair => header.set pair.1 pair.2) header

/-- The fields that answer for a key. -/
def fields (header : Header) (key : Bytes) : List (Bytes × Bytes) :=
  header.headers.filter fun pair => iequal pair.1 key

theorem writeData_eq (header : Header) (out : Bytes) :
    header.writeData out = out ++ header.serialize := by
  have isBreak : bytesOf "\r\n" = [cr, lf] := by decide
  unfold writeData serialize
  rw [isBreak]
  induction header.headers generalizing out with
  | nil => exact (List.append_nil out).symm
  | cons pair pairs ih =>
      rw [List.foldl_cons, ih, List.flatMap_cons, fieldText]
      simp only [List.append_assoc]

theorem getOr_eq (header : Header) (key default : Bytes) :
    header.getOr key default = ((header.fields key).head?.map Prod.snd).getD default := by
  unfold getOr fields
  rw [List.head?_filter]
  cases header.headers.find? fun pair => iequal pair.1 key with
  | none => rfl
  | some pair => rfl

theorem has_eq (header : Header) (key : Bytes) : header.has key = (header.fields key).head?.isSome := by
  unfold has fields
  rw [List.head?_filter, List.isSome_find?]

end Header

/-!
## One step
-/

section

variable {header : Header} {key : Bytes}

/-- A new field comes last, and an old one keeps its place. -/
theorem set_cases (header : Header) (key value : Bytes) :
    (key ∉ header.headers.map Prod.fst ∧
      header.set key value = { header with headers := header.headers ++ [(key, value)] }) ∨
    ∃ before old after, header.headers = before ++ (key, old) :: after ∧
      header.set key value = { header with headers := before ++ (key, value) :: after } := by
  unfold Header.set
  cases found : header.headers.findIdx? (fun pair => pair.1 = key) with
  | none =>
      rw [List.findIdx?_eq_none_iff] at found
      refine .inl ⟨fun member => ?_, rfl⟩
      obtain ⟨pair, isPair, same⟩ := List.mem_map.mp member
      exact of_decide_eq_false (found pair isPair) same
  | some index =>
      obtain ⟨inside, isKey, -⟩ := List.findIdx?_eq_some_iff_getElem.mp found
      have isField : (key, header.headers[index].2) = header.headers[index] :=
        Prod.ext (of_decide_eq_true isKey).symm rfl
      refine .inr ⟨header.headers.take index, header.headers[index].2,
        header.headers.drop (index + 1), ?_, ?_⟩
      · rw [isField, List.getElem_cons_drop, List.take_append_drop]
      · dsimp only
        rw [List.set_eq_take_append_cons_drop, if_pos inside]

theorem set_new (new : key ∉ header.headers.map Prod.fst) (value : Bytes) :
    header.set key value = { header with headers := header.headers ++ [(key, value)] } := by
  cases set_cases header key value with
  | inl isNew => exact isNew.2
  | inr isOld =>
      obtain ⟨before, old, after, isSplit, -⟩ := isOld
      rw [isSplit, List.map_append] at new
      exact absurd (List.mem_append_right _ List.mem_cons_self) new

theorem mem_keys_set (header : Header) (key value : Bytes) {other : Bytes} :
    other ∈ (header.set key value).headers.map Prod.fst ↔
      other ∈ header.headers.map Prod.fst ∨ other = key := by
  cases set_cases header key value with
  | inl isNew => simp [isNew.2]
  | inr isOld =>
      obtain ⟨before, old, after, isSplit, isSet⟩ := isOld
      simp only [isSet, isSplit, List.map_append, List.map_cons, List.mem_append, List.mem_cons]
      tauto

/-- No name is there twice. -/
theorem nodup_set (distinct : (header.headers.map Prod.fst).Nodup) (key value : Bytes) :
    ((header.set key value).headers.map Prod.fst).Nodup := by
  cases set_cases header key value with
  | inl isNew =>
      rw [isNew.2, List.map_append]
      refine List.nodup_append_comm.mp ?_
      exact List.nodup_cons.mpr ⟨isNew.1, distinct⟩
  | inr isOld =>
      obtain ⟨before, old, after, isSplit, isSet⟩ := isOld
      rw [isSplit, List.map_append] at distinct
      rw [isSet, List.map_append]
      exact distinct

/-- What does not answer for the key is as before. -/
theorem fields_set_other {other : Bytes} (different : iequal key other = false) (value : Bytes) :
    (header.set key value).fields other = header.fields other := by
  unfold Header.fields
  cases set_cases header key value with
  | inl isNew => simp [isNew.2, different]
  | inr isOld =>
      obtain ⟨before, old, after, isSplit, isSet⟩ := isOld
      simp [isSplit, isSet, different]

theorem iequal_iff {lhs rhs : Bytes} : iequal lhs rhs = true ↔ lhs.map toLower = rhs.map toLower :=
  decide_eq_true_iff

/-- Where the key is spelled one way only, its field is the one that answers. -/
theorem fields_set_same {other : Bytes} (distinct : (header.headers.map Prod.fst).Nodup)
    (spelled : ∀ pair ∈ header.headers, iequal pair.1 key = true → pair.1 = key)
    (same : iequal key other = true) (value : Bytes) :
    (header.set key value).fields other = [(key, value)] := by
  have none {pairs : List (Bytes × Bytes)} (part : ∀ pair ∈ pairs, pair ∈ header.headers)
      (absent : key ∉ pairs.map Prod.fst) :
      pairs.filter (fun pair => iequal pair.1 other) = [] := by
    rw [List.filter_eq_nil_iff]
    intro pair member answers
    have isKey : iequal pair.1 key = true :=
      iequal_iff.mpr ((iequal_iff.mp answers).trans (iequal_iff.mp same).symm)
    exact absent (spelled pair (part pair member) isKey ▸ List.mem_map_of_mem member)
  unfold Header.fields
  cases set_cases header key value with
  | inl isNew =>
      rw [isNew.2, List.filter_append, none (fun _ => id) isNew.1]
      simp [same]
  | inr isOld =>
      obtain ⟨before, old, after, isSplit, isSet⟩ := isOld
      rw [isSplit, List.map_append, List.map_cons, List.nodup_middle, List.nodup_cons,
        List.mem_append, not_or] at distinct
      have noneBefore : before.filter (fun pair => iequal pair.1 other) = [] := by
        refine none (fun pair member => ?_) distinct.1.1
        rw [isSplit]
        exact List.mem_append_left _ member
      have noneAfter : after.filter (fun pair => iequal pair.1 other) = [] := by
        refine none (fun pair member => ?_) distinct.1.2
        rw [isSplit]
        exact List.mem_append_right _ (List.mem_cons_of_mem _ member)
      rw [isSet, List.filter_append, List.filter_cons, noneBefore, noneAfter]
      simp [same]

end

/-!
## Every history
-/

/-- The last pair whose key is this one but for the case. -/
def lastSet (history : List (Bytes × Bytes)) (key : Bytes) : Option (Bytes × Bytes) :=
  history.reverse.find? fun pair => iequal pair.1 key

/-- No key is set in two spellings. -/
def OneSpelling (history : List (Bytes × Bytes)) : Prop :=
  ∀ pair ∈ history, ∀ other ∈ history, iequal pair.1 other.1 = true → pair.1 = other.1

/-- A header with this history answers as a map. -/
structure MapLaw (history : List (Bytes × Bytes)) (header : Header) : Prop where
  get : ∀ key default,
    header.getOr key default = ((lastSet history key).map Prod.snd).getD default
  has : ∀ key, header.has key = (lastSet history key).isSome
  writeData : ∀ out, header.writeData out = out ++ header.serialize
  /-- Of the fields that are serialized, one is this key's. -/
  once : ∀ key, (header.headers.filter fun pair => iequal pair.1 key).map Prod.snd =
    ((lastSet history key).map Prod.snd).toList
  others : ∀ key value other default, iequal key other = false →
    (header.set key value).getOr other default = header.getOr other default ∧
      (header.set key value).has other = header.has other

def Header.empty : Header := ⟨[], false⟩

section

variable {history : List (Bytes × Bytes)}

theorem setAll_concat (header : Header) (history : List (Bytes × Bytes)) (pair : Bytes × Bytes) :
    header.setAll (history ++ [pair]) = (header.setAll history).set pair.1 pair.2 := by
  unfold Header.setAll
  rw [List.foldl_append]
  rfl

theorem mem_keys_setAll (history : List (Bytes × Bytes)) {key : Bytes} :
    key ∈ (Header.empty.setAll history).headers.map Prod.fst ↔ key ∈ history.map Prod.fst := by
  induction history using List.reverseRecOn with
  | nil => rfl
  | append_singleton history pair ih =>
      rw [setAll_concat, mem_keys_set, ih, List.map_append, List.mem_append, List.map_singleton,
        List.mem_singleton]

theorem nodup_setAll (history : List (Bytes × Bytes)) :
    ((Header.empty.setAll history).headers.map Prod.fst).Nodup := by
  induction history using List.reverseRecOn with
  | nil => exact List.nodup_nil
  | append_singleton history pair ih =>
      rw [setAll_concat]
      exact nodup_set ih pair.1 pair.2

theorem lastSet_concat (history : List (Bytes × Bytes)) (pair : Bytes × Bytes) (key : Bytes) :
    lastSet (history ++ [pair]) key =
      if iequal pair.1 key then some pair else lastSet history key := by
  unfold lastSet
  rw [List.reverse_append, List.reverse_singleton, List.singleton_append, List.find?_cons]
  cases iequal pair.1 key with
  | false => rfl
  | true => rfl

/-- What answers for a key is what was set last. -/
theorem fields_setAll (oneSpelling : OneSpelling history) (key : Bytes) :
    (Header.empty.setAll history).fields key = (lastSet history key).toList := by
  induction history using List.reverseRecOn with
  | nil => rfl
  | append_singleton history pair ih =>
      have earlier : OneSpelling history := fun first isFirst second isSecond =>
        oneSpelling first (List.mem_append_left _ isFirst) second (List.mem_append_left _ isSecond)
      rw [setAll_concat, lastSet_concat]
      cases same : iequal pair.1 key with
      | false => rw [fields_set_other same, ih earlier]; rfl
      | true =>
          refine fields_set_same (nodup_setAll history) (fun field isField => ?_) same pair.2
          have isKey : field.1 ∈ history.map Prod.fst :=
            (mem_keys_setAll history).mp (List.mem_map_of_mem isField)
          obtain ⟨old, isOld, isName⟩ := List.mem_map.mp isKey
          rw [← isName]
          exact oneSpelling old (List.mem_append_left _ isOld) pair
            (List.mem_append_right _ List.mem_cons_self)

/-- Two spellings of a key are two fields. -/
theorem OneSpelling.of_once (once : ∀ key,
    ((Header.empty.setAll history).fields key).length ≤ 1) : OneSpelling history := by
  intro pair isPair other isOther same
  have isField {key : Bytes} (isKey : key ∈ history.map Prod.fst)
      (answers : iequal key other.1 = true) :
      ∃ field ∈ (Header.empty.setAll history).fields other.1, field.1 = key := by
    obtain ⟨field, member, rfl⟩ := List.mem_map.mp ((mem_keys_setAll history).mpr isKey)
    exact ⟨field, List.mem_filter.mpr ⟨member, answers⟩, rfl⟩
  obtain ⟨first, isFirst, isSpelled⟩ := isField (List.mem_map_of_mem isPair) same
  obtain ⟨second, isSecond, isName⟩ :=
    isField (List.mem_map_of_mem isOther) (iequal_iff.mpr rfl)
  cases isFields : (Header.empty.setAll history).fields other.1 with
  | nil =>
      rw [isFields] at isFirst
      cases isFirst
  | cons field others =>
      have single := once other.1
      rw [isFields, List.length_cons, Nat.succ_le_succ_iff, Nat.le_zero, List.length_eq_zero_iff]
        at single
      rw [isFields, single] at isFirst isSecond
      rw [← isSpelled, List.mem_singleton.mp isFirst, ← isName, List.mem_singleton.mp isSecond]

end

/-- The header is a map without case exactly if its history spells every key in one way. -/
theorem header_map_law (history : List (Bytes × Bytes)) :
    MapLaw history (Header.empty.setAll history) ↔ OneSpelling history := by
  constructor
  · intro law
    refine OneSpelling.of_once fun key => ?_
    have once := congrArg List.length (law.once key)
    rw [List.length_map] at once
    unfold Header.fields
    rw [once]
    exact Option.length_toList_le
  · intro oneSpelling
    have answers (key : Bytes) := fields_setAll oneSpelling key
    refine ⟨fun key default => ?_, fun key => ?_, fun out => ?_, fun key => ?_, ?_⟩
    · rw [Header.getOr_eq, answers, Option.head?_toList]
    · rw [Header.has_eq, answers, Option.head?_toList]
    · exact Header.writeData_eq _ out
    · rw [← Header.fields, answers, Option.toList_map]
    · intro key value other default different
      rw [Header.getOr_eq, Header.getOr_eq, Header.has_eq, Header.has_eq,
        fields_set_other different]
      exact ⟨rfl, rfl⟩

/-- A length that is set again in another spelling is listed twice, and the old one is found. -/
theorem header_keeps_old_length :
    ¬MapLaw [(bytesOf "content-length", bytesOf "1"), (bytesOf "Content-Length", bytesOf "2")]
      (Header.empty.setAll
        [(bytesOf "content-length", bytesOf "1"), (bytesOf "Content-Length", bytesOf "2")]) := by
  intro law
  have isLast := law.get (bytesOf "Content-Length") []
  exact absurd isLast (by decide)

end FreeOnline.Net.Http
