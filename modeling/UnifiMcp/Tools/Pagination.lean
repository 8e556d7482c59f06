import UnifiMcp.Model.Error
import UnifiMcp.Json.Value

/-!
# Local pagination

The reports and the statistics page their result themselves, once it is in hand.  Which
offsets and limits are accepted is decided by a crate that is not part of the repository,
so `page` is a parameter.
-/

namespace UnifiMcp

/-- Items per page when a caller does not name a limit. -/
def defaultPageSize : UInt32 := 200

/-- The window `mecmcp_openapi::page` grants. -/
structure PageWindow where
  start : UInt32
  size : UInt32
  deriving DecidableEq, Repr

/-- `mecmcp_openapi::page` with its default limits: the window at an offset and a limit, or
why they are refused. -/
abbrev PageFn := UInt64 → UInt64 → Except String PageWindow

/-- A page of items, together with the total it was cut from. -/
structure Paged where
  items : List Json
  offset : UInt64
  limit : UInt32
  total : Nat

/-- Validate `offset` and `limit` and slice `items` to the requested window. -/
def paginate (page : PageFn) (items : List Json) (offset : Option UInt64)
    (limit : Option UInt32) : Except UnifiError Paged := do
  let window ← (page (offset.getD 0) (limit.getD defaultPageSize).toUInt64).mapError .malformed
  pure
    { items := (items.drop window.start.toNat).take window.size.toNat
      offset := window.start.toUInt64
      limit := window.size
      total := items.length }

/-- A `usize` as a number.  No vector is longer than `usize::MAX`, so the bound is never
reached. -/
def Json.ofUsize (n : Nat) : Json := .num (.posInt (UInt64.ofNat (min n (2 ^ 64 - 1))))

end UnifiMcp
