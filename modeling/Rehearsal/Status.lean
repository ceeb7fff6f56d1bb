/-!
# Statuses

The seventeen RPC status codes, and the `(code, message)` pair with which a caller scripts the
outcome it wants to see.  A caller may put any 32-bit number into a status: `Code.ofInt32` sends
the numbers outside `0 … 16` to `unknown`, and only the number `0` stands for success
(`Status.failure?`), whatever the message says.
-/

namespace Rehearsal

/-- The canonical RPC status codes, in numerical order from `0`. -/
inductive Code where
  | ok
  | cancelled
  | unknown
  | invalidArgument
  | deadlineExceeded
  | notFound
  | alreadyExists
  | permissionDenied
  | resourceExhausted
  | failedPrecondition
  | aborted
  | outOfRange
  | unimplemented
  | internal
  | unavailable
  | dataLoss
  | unauthenticated
  deriving DecidableEq, Repr

namespace Code

/-- Every code, each at the position of its number. -/
def all : List Code :=
  [ok, cancelled, unknown, invalidArgument, deadlineExceeded, notFound, alreadyExists,
    permissionDenied, resourceExhausted, failedPrecondition, aborted, outOfRange, unimplemented,
    internal, unavailable, dataLoss, unauthenticated]

/-- The number of a code on the wire. -/
def toInt32 : Code → Int32
  | ok => 0
  | cancelled => 1
  | unknown => 2
  | invalidArgument => 3
  | deadlineExceeded => 4
  | notFound => 5
  | alreadyExists => 6
  | permissionDenied => 7
  | resourceExhausted => 8
  | failedPrecondition => 9
  | aborted => 10
  | outOfRange => 11
  | unimplemented => 12
  | internal => 13
  | unavailable => 14
  | dataLoss => 15
  | unauthenticated => 16

/-- The code with a given number; a number that no code has means `unknown`. -/
def ofInt32 (number : Int32) : Code :=
  (all.find? fun code => code.toInt32 == number).getD unknown

/-- The name under which a code is shown. -/
def name : Code → String
  | ok => "Ok"
  | cancelled => "Cancelled"
  | unknown => "Unknown"
  | invalidArgument => "InvalidArgument"
  | deadlineExceeded => "DeadlineExceeded"
  | notFound => "NotFound"
  | alreadyExists => "AlreadyExists"
  | permissionDenied => "PermissionDenied"
  | resourceExhausted => "ResourceExhausted"
  | failedPrecondition => "FailedPrecondition"
  | aborted => "Aborted"
  | outOfRange => "OutOfRange"
  | unimplemented => "Unimplemented"
  | internal => "Internal"
  | unavailable => "Unavailable"
  | dataLoss => "DataLoss"
  | unauthenticated => "Unauthenticated"

theorem ofInt32_toInt32 (code : Code) : ofInt32 code.toInt32 = code := by
  cases code <;> decide

theorem toInt32_bounds (code : Code) : 0 ≤ code.toInt32 ∧ code.toInt32 ≤ 16 := by
  cases code <;> decide

/-- Every number from `0` to `16` is the number of a code. -/
theorem exists_toInt32 {number : Int32} (h : 0 ≤ number ∧ number ≤ 16) :
    ∃ code : Code, code.toInt32 = number := by
  have all_numbers : ∀ i : Fin 17, ∃ code ∈ all, code.toInt32 = Int32.ofNat i.val := by decide
  obtain ⟨hlow, hhigh⟩ := h
  rw [Int32.le_iff_toInt_le] at hlow hhigh
  have hlow' : 0 ≤ number.toInt := hlow
  have hhigh' : number.toInt ≤ 16 := hhigh
  obtain ⟨code, -, hcode⟩ := all_numbers ⟨number.toInt.toNat, by omega⟩
  refine ⟨code, hcode.trans (Int32.toInt_inj.1 ?_)⟩
  rw [Int32.toInt_ofNat_of_lt (by dsimp only; omega)]
  dsimp only
  omega

theorem toInt32_ofInt32 {number : Int32} (h : 0 ≤ number ∧ number ≤ 16) :
    (ofInt32 number).toInt32 = number := by
  obtain ⟨code, rfl⟩ := exists_toInt32 h
  rw [ofInt32_toInt32]

theorem ofInt32_of_not {number : Int32} (h : ¬ (0 ≤ number ∧ number ≤ 16)) :
    ofInt32 number = unknown := by
  have hnone : all.find? (fun code => code.toInt32 == number) = none := by
    rw [List.find?_eq_none]
    intro code _ hcode
    exact h (beq_iff_eq.1 hcode ▸ toInt32_bounds code)
  rw [ofInt32, hnone, Option.getD_none]
end Code

/-- An outcome a caller asks for: the number of a code, not necessarily a known one, and a
message. -/
structure Status where
  code : Int32
  message : String
  deriving DecidableEq, Repr

namespace Status

/-- The status of a known code. -/
def ofCode (code : Code) (message : String) : Status := ⟨code.toInt32, message⟩

/-- The number `0` alone means success. -/
def isOk (status : Status) : Bool := status.code == 0

/-- The known code that the number stands for. -/
def kind (status : Status) : Code := .ofInt32 status.code

/-- The failure that an optional status asks for, if it asks for one. -/
def failure? (status : Option Status) : Option Status := status.filter fun s => !s.isOk

end Status

end Rehearsal
