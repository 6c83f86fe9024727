import D2xCios.Ra.Protocol

/-!
# Module state touched by a response

The statics of the module that parsing a response may change. The watchlist and
the pending query are arrays with a count, and each carries the proof that its
count stays within the array, so a state that claims more entries than the
array has cannot be built: every update has to present the guard the code checks.
-/

namespace D2xCios.Ra

open D2xCios.Lib

/-- `ra_watchlist` and `ra_watchlist_count`. -/
structure Watchlist where
  cells : Cells UInt32
  count : Nat
  fits : count ≤ raMaxWatchAddrs

/-- `ra_pending_query_addrs` and `ra_pending_query_count`. -/
structure PendingQuery where
  cells : Cells UInt32
  count : Nat
  fits : count ≤ raAddrQueryMax

namespace Watchlist

/-- The watched addresses, in order. -/
def addrs (watchlist : Watchlist) : List UInt32 := watchlist.cells.window 0 watchlist.count

@[simp] theorem addrs_length (watchlist : Watchlist) :
    watchlist.addrs.length = watchlist.count := by
  simp [addrs]

/-- The list at power-on. -/
def empty : Watchlist where
  cells := fun _ => 0
  count := 0
  fits := Nat.zero_le _

/-- Append `count` addresses by a counting loop; the guard is the one the code
checks before the loop. -/
def append (watchlist : Watchlist) (count : Nat) (source : Nat → UInt32)
    (room : watchlist.count + count ≤ raMaxWatchAddrs) : Watchlist where
  cells := watchlist.cells.fill watchlist.count count source
  count := watchlist.count + count
  fits := room

/-- The addresses that were appended are at the end. -/
theorem append_addrs (watchlist : Watchlist) (count : Nat) (source : Nat → UInt32)
    (room : watchlist.count + count ≤ raMaxWatchAddrs) :
    (watchlist.append count source room).addrs =
      watchlist.addrs ++ (List.range count).map source :=
  Cells.window_fill watchlist.cells watchlist.count count source

end Watchlist

namespace PendingQuery

/-- The addresses the adapter waits for, in order. -/
def addrs (pending : PendingQuery) : List UInt32 := pending.cells.window 0 pending.count

/-- No query waits for an answer. -/
def none : PendingQuery where
  cells := fun _ => 0
  count := 0
  fits := Nat.zero_le _

end PendingQuery

/-- The statics that `ra_parse_response` reads and writes. -/
structure RaState where
  watchlist : Watchlist
  pending : PendingQuery
  wlSeq : UInt16
  resyncPending : Bool
  resyncSeq : UInt16
  ledCelebrate : Nat

/-- The statics at power-on. -/
def RaState.boot : RaState where
  watchlist := .empty
  pending := .none
  wlSeq := 0
  resyncPending := false
  resyncSeq := 0
  ledCelebrate := 0

end D2xCios.Ra
