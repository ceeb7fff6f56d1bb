/-!
# Settings of a service

The two numbers a service is built with.  Both are positive and the page size is at most
`maxPageSize`: `Settings.of` replaces what does not fit, so every service has usable settings.
-/

namespace Rehearsal

/-- The page size of a service that is given none. -/
def fallbackPageSize : Int32 := 10

/-- The largest page that one pagination request may ask for. -/
def maxPageSize : Int32 := 10000

/-- What a service is built with. -/
structure Settings where
  /-- The size of a page for which the request names no size. -/
  pageSize : Int32 := fallbackPageSize
  /-- How many items may be queued in each direction of a stream. -/
  streamBuffer : Nat := 1
  pageSize_pos : 0 < pageSize := by decide
  pageSize_le : pageSize ≤ maxPageSize := by decide
  streamBuffer_pos : 0 < streamBuffer := by decide
  deriving DecidableEq, Repr

namespace Settings

/-- Settings from any two numbers: a page size that is not positive gives way to the fallback, one
that is too large to the maximum, and an empty buffer to a buffer of one. -/
def of (pageSize : Int32) (streamBuffer : Nat) : Settings where
  pageSize :=
    if pageSize ≤ 0 then fallbackPageSize
    else if maxPageSize < pageSize then maxPageSize else pageSize
  streamBuffer := max streamBuffer 1
  pageSize_pos := by
    split
    · decide
    · split
      · decide
      · exact Int32.not_le.1 ‹_›
  pageSize_le := by
    split
    · decide
    · split
      · decide
      · exact Int32.not_lt.1 ‹_›
  streamBuffer_pos := by omega

end Settings

instance : Inhabited Settings := ⟨{}⟩

end Rehearsal
