import FreeOnline.Library.Text

/-!
# Formats with numbers

Texts in which numbers stand between fixed characters, how they are written and how they are
scanned.
-/

set_option autoImplicit false

namespace FreeOnline.Library

inductive Directive where
  | number
  | literal (ch : Char)
deriving DecidableEq, Repr

abbrev Format := List Directive

/-- The number at the begin of the text, behind spaces, and what follows it. -/
def scanInt (text : Text) : Option (Int × Text) :=
  let (negative, rest) := readSign (text.dropWhile isSpace)
  let digits := leadingDigits rest
  if digits = [] then none
  else
    let value : Int := Nat.ofDigitChars 10 digits 0
    some (if negative then -value else value, rest.drop digits.length)

theorem scanInt_printInt (n : Int) {rest : Text} (stops : StopsDigits rest) :
    scanInt (printInt n ++ rest) = some (n, rest) := by
  have digits : leadingDigits (Nat.toDigits 10 n.natAbs ++ rest) = Nat.toDigits 10 n.natAbs :=
    leadingDigits_append (fun _ => isDigit_of_mem_toDigits) stops
  simp only [scanInt, dropSpaces_printInt, readSign_printInt, digits, Nat.toDigits_ne_nil,
    ↓reduceIte, Nat.ofDigitChars_ten_toDigits, natAbs_of_sign, List.drop_left]

namespace Format

def write : Format → List Int → Text
  | [], _ => []
  | .literal ch :: format, values => ch :: write format values
  | .number :: format, value :: values => printInt value ++ write format values
  | .number :: _, [] => []

/-- The numbers that are found. The scan ends where the text does not fit. -/
def scan : Format → Text → List Int
  | [], _ => []
  | .literal ch :: format, first :: rest => if first = ch then scan format rest else []
  | .literal _ :: _, [] => []
  | .number :: format, text =>
      match scanInt text with
      | some (value, rest) => value :: scan format rest
      | none => []

def arity : Format → Nat
  | [] => 0
  | .literal _ :: format => arity format
  | .number :: format => arity format + 1

/-- What follows a number cannot be taken for a part of it. -/
inductive Separated : Format → Prop where
  | nil : Separated []
  | literal {ch format} : Separated format → Separated (.literal ch :: format)
  | last : Separated [.number]
  | number {ch format} : ch.isDigit = false → Separated (.literal ch :: format) →
      Separated (.number :: .literal ch :: format)

/-- What is written is found again. -/
theorem scan_write {format : Format} (separated : Separated format) {values : List Int}
    (enough : values.length = arity format) : scan format (write format values) = values := by
  induction separated generalizing values with
  | nil =>
      cases values with
      | nil => rfl
      | cons value values => cases enough
  | @literal ch format _ ih =>
      simpa only [write, scan, ↓reduceIte] using ih enough
  | last =>
      match values, enough with
      | [value], _ =>
          have found := @scanInt_printInt value [] nofun
          simp only [write, scan, found]
  | @number ch format notDigit _ ih =>
      cases values with
      | nil => cases enough
      | cons value values =>
          have stops : StopsDigits (write (.literal ch :: format) values) := by
            rintro first isFirst
            cases isFirst
            exact notDigit
          have others := ih (Nat.succ.inj enough)
          simp only [write] at stops others ⊢
          simp only [scan, scanInt_printInt value stops] at others ⊢
          rw [others]

end Format

end FreeOnline.Library
