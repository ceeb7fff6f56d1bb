import Rehearsal.Text.Numeral

/-!
# Addresses to listen on

The address of a server is four numbers with dots between them, or eight groups of hexadecimal
digits in brackets.  Names of hosts are not looked up.
-/

namespace Rehearsal.Command.Address

/-- One of the four numbers: at most three digits, no leading zero, at most `255`. -/
def isOctet (text : List Char) : Bool :=
  match Text.readDigits? text with
  | none => false
  | some n => text.length ≤ 3 && n ≤ 255 && (text.length == 1 || text.head? != some '0')

/-- Four numbers with dots between them. -/
def isDotted (text : List Char) : Bool :=
  let parts := text.splitOn '.'
  parts.length == 4 && parts.all isOctet

/-- A group of one to four hexadecimal digits of either case. -/
def isGroup (text : List Char) : Bool :=
  !text.isEmpty && text.length ≤ 4 &&
    text.all fun c => c.isDigit || ('a' ≤ c && c ≤ 'f') || ('A' ≤ c && c ≤ 'F')

/-- How many groups a text with colons consists of, none if it does not.  The last part may be
four numbers with dots, which take the place of two groups. -/
def groups? (dotted : Bool) (text : List Char) : Option Nat :=
  let parts := text.splitOn ':'
  if text.isEmpty then some 0
  else if parts.all isGroup then some parts.length
  else if dotted && parts.dropLast.all isGroup && isDotted (parts.getLast?.getD []) then
    some (parts.length + 1)
  else none

/-- The parts before and after the first double colon. -/
def splitDouble : List Char → Option (List Char × List Char)
  | ':' :: ':' :: rest => some ([], rest)
  | c :: rest => (splitDouble rest).map fun (before, after) => (c :: before, after)
  | [] => none

/-- Eight groups, or fewer with a double colon in place of the missing ones. -/
def isGrouped (text : List Char) : Bool :=
  match splitDouble text with
  | none => groups? true text == some 8
  | some (before, after) =>
      match groups? false before, groups? true after with
      | some m, some n => m + n ≤ 7
      | _, _ => false

/-- A grouped address may name the zone it is for by a number after a percent sign. -/
def isZoned (text : List Char) : Bool :=
  let address := text.takeWhile (· != '%')
  match text.dropWhile (· != '%') with
  | [] => isGrouped address
  | _ :: zone =>
      isGrouped address &&
        match Text.readDigits? zone with
        | none => false
        | some n => n < UInt32.size

/-- Whether a text is an address to listen on. -/
def isValid (address : String) : Bool :=
  match address.toList with
  | '[' :: rest => rest.getLast? == some ']' && isZoned rest.dropLast
  | text => isDotted text

end Rehearsal.Command.Address
