import Mathlib.Data.Nat.Notation
import PhoRent.Lib.Machine
import PhoRent.Lib.Unicode

/-!
# `PersonalViewController`: the phone number

The alert that changes the number has a text field, and the controller is its
delegate: every edit is refused, and the field is set to what the edit would
have made of it, formatted. What is in the field when the alert is confirmed
goes to the presenter, which looks at its length only.

A string is its Unicode scalars, and the range of an edit counts them. The
digits and the characters of the mask do not combine with each other, so for
what is formatted the scalars are the characters.
-/

namespace PhoRent

namespace PersonalViewController

/-- `components(separatedBy: CharacterSet.decimalDigits.inverted)`, joined. -/
def cleanPhoneNumber (number : String) : List Char :=
  (number.toList.splitOnP fun c => !Unicode.decimalDigit c).flatten

def mask : List Char := "X (XXX) XXX-XX-XX".toList

/-- The loop over the mask: `result` so far, and the digits `index` has not
passed. With none left its `where` skips what is left of the mask. -/
def forMask (result digits : List Char) : List Char → List Char
  | [] => result
  | ch :: rest =>
      match digits with
      | [] => forMask result [] rest
      | digit :: digits =>
          if ch = 'X' then forMask (result ++ [digit]) digits rest
          else forMask (result ++ [ch]) (digit :: digits) rest

def formattedNumber (number : String) : String :=
  .ofList (forMask [] (cleanPhoneNumber number) mask)

structure NSRange where
  location : ℕ
  length : ℕ
  deriving DecidableEq, Repr

/-- `replacingCharacters(in:with:)`, which traps outside of the string. -/
def replacingCharacters (text : String) (range : NSRange) (string : String) :
    Option String :=
  if range.location + range.length ≤ text.length then
    some (.ofList (text.toList.take range.location ++ string.toList ++
      text.toList.drop (range.location + range.length)))
  else none

structure PhoneField where
  text : Option String
  deriving DecidableEq, Repr

def PhoneField.fresh : PhoneField := ⟨some ""⟩

structure PhoneEdit where
  range : NSRange
  string : String
  deriving DecidableEq, Repr

def textField (field : PhoneField) (edit : PhoneEdit) : Option PhoneField :=
  match field.text with
  | none => some field
  | some text =>
      (replacingCharacters text edit.range edit.string).map fun newString =>
        ⟨some (formattedNumber newString)⟩

end PersonalViewController

namespace PersonalPresenter

/-- What becomes of the number: it is sent to the backend, or an alert. -/
inductive PhoneAction
  | setPhone (phone : String)
  | showErrorAlert
  deriving DecidableEq, Repr

def checkPhone : Option String → Option PhoneAction
  | none => none
  | some phone =>
      if phone.length = 17 then some (.setPhone phone)
      else some .showErrorAlert

end PersonalPresenter

end PhoRent
