import D2xCios.Lib.Lifetimes
import D2xCios.Lib.Runs
import Mathlib.Data.List.Basic

/-!
# Sessions on WBFS discs

`WBFS_OpenDisc` and `WBFS_Read` of the USB module and of the EHCI module, and the functions
`__SDHC_WBFS_OpenDisc` and `__SDHC_WBFS_Read` of the SDHC server. Each server keeps two
handles of libwbfs, the partition and the disc, and replaces them when a disc is opened. If
the partition cannot be opened again, the disc handle stays although it was closed.
-/

namespace D2xCios.Disk.Sessions

open D2xCios.Lib

/-! ## The servers -/

/-- How the steps of an open end: the results of start-up and of the capacity, and whether
libwbfs opens the partition and the disc. -/
structure OpenResults where
  startup : Int
  capacity : Int
  openHd : Bool
  openDisc : Bool

/-- `hdd` and `disc` of a server. The rest are ghosts: the handles of libwbfs that are open, what
the latest `wbfs_open_disc` has returned, and the calls of the current request. -/
structure Session where
  hdd : Option Nat
  disc : Option Nat
  lib : Lifetimes
  latest : Option Nat
  calls : List Lifetimes.Use

/-- A server just started. -/
def Session.boot : Session where
  hdd := none
  disc := none
  lib := .none
  latest := none
  calls := []

/-- A call of libwbfs. -/
def Session.call (use : Lifetimes.Use) (s : Session) : Session :=
  { s with lib := s.lib.after use, calls := s.calls ++ [use] }

/-- The disc and the partition are closed. -/
def closeDisc (s : Session) : Session :=
  match s.disc with
  | some disc => s.call (.closeChild disc)
  | none => s

def closeHd (s : Session) : Session :=
  match s.hdd with
  | some hdd => s.call (.closeParent hdd)
  | none => s

/-- `hdd = wbfs_open_hd(...)` -/
def openHd (ok : Bool) (s : Session) : Session :=
  { s.call (.openParent ok) with hdd := if ok then some s.lib.next else none }

/-- `disc = wbfs_open_disc(hdd, discid)` -/
def openDisc (hdd : Nat) (ok : Bool) (s : Session) : Session :=
  let disc := if ok then some s.lib.next else none
  { s.call (.openChild hdd ok) with disc := disc, latest := disc }

/-- The part of an open that the servers share, with their codes. -/
def reopen (hdFailed discFailed : Int) (results : OpenResults) (s : Session) : Int × Session :=
  let s := openHd results.openHd (closeHd (closeDisc s))
  match s.hdd with
  | none => (hdFailed, s)
  | some hdd =>
    let s := openDisc hdd results.openDisc s
    match s.disc with
    | none => (discFailed, s)
    | some _ => (0, s)

/-- `WBFS_OpenDisc` of the USB module. -/
def usbOpenDisc (results : OpenResults) (s : Session) : Int × Session :=
  if results.startup = 0 then (1, s)
  else if results.capacity = 0 then (2, s)
  else reopen 3 4 results s

/-- `WBFS_OpenDisc` of the EHCI module, where start-up returns 0 when it succeeds. -/
def ehciOpenDisc (results : OpenResults) (s : Session) : Int × Session :=
  if results.startup ≠ 0 then (1, s)
  else if results.capacity = 0 then (2, s)
  else reopen 3 4 results s

/-- `__SDHC_WBFS_OpenDisc` -/
def sdhcOpenDisc (results : OpenResults) (s : Session) : Int × Session :=
  if results.startup = 0 then (1, s) else reopen 2 3 results s

/-- `WBFS_Read` of both modules and `__SDHC_WBFS_Read`; `ret` is what `wbfs_disc_read` returns. -/
def read (ret : Int) (s : Session) : Int × Session :=
  match s.disc with
  | none => (1, s)
  | some disc => (ret, s.call (.useChild disc))

/-- The servers. -/
inductive Server where
  | usb
  | ehci
  | sdhc
  deriving DecidableEq

/-- The requests, with how their steps end. -/
inductive Request where
  | openDisc (results : OpenResults)
  | readDisc (ret : Int)

/-- The answer of a server to a request. -/
def Server.serve (server : Server) (request : Request) (s : Session) : Int × Session :=
  let s := { s with calls := [] }
  match request with
  | .openDisc results =>
    match server with
    | .usb => usbOpenDisc results s
    | .ehci => ehciOpenDisc results s
    | .sdhc => sdhcOpenDisc results s
  | .readDisc ret => read ret s

/-- The session behind a request. -/
def Server.step (server : Server) (request : Request) (s : Session) : Session :=
  (server.serve request s).2

/-! ## Live handles -/

/-- A read is served from the disc that was opened last, if that is open, and fails otherwise. -/
def ReadServed (ret : Int) (s : Session) (answer : Int × Session) : Prop :=
  match s.latest with
  | some disc =>
    if s.lib.Live disc then answer.1 = ret ∧ answer.2.calls = [.useChild disc]
    else answer.1 ≠ 0 ∧ answer.2.calls = []
  | none => answer.1 ≠ 0 ∧ answer.2.calls = []

/-- A request uses live handles only. -/
structure Server.Right (server : Server) (request : Request) (s : Session) : Prop where
  allowed : s.lib.Allowed (server.serve request s).2.calls
  served : ∀ ret, request = .readDisc ret → ReadServed ret s (server.serve request s)

/-- The open gets past start-up and the capacity. -/
def Server.Passes (server : Server) (results : OpenResults) : Prop :=
  match server with
  | .usb => results.startup ≠ 0 ∧ results.capacity ≠ 0
  | .ehci => results.startup = 0 ∧ results.capacity ≠ 0
  | .sdhc => results.startup ≠ 0

/-- The partition could not be opened again, and the disc is still the one before that. -/
def Session.Stale (s : Session) : Prop := s.hdd = none ∧ s.disc ≠ none

/-- A stale disc is neither read nor replaced. -/
def Server.Guarded (server : Server) (request : Request) (s : Session) : Prop :=
  match request with
  | .openDisc results => server.Passes results → ¬ s.Stale
  | .readDisc _ => ¬ s.Stale

/-! ## One request -/

/-- The handles are those that libwbfs has open, but for a disc without a partition. -/
structure Session.Sound (s : Session) : Prop where
  holds : s.lib.Holds s.hdd s.disc
  latest : s.latest = s.disc

/-- A session is sound at the start. -/
theorem sound_boot : Session.boot.Sound where
  holds := ⟨rfl, rfl⟩
  latest := rfl

variable {s : Session}

/-- The handles are closed. -/
theorem Session.Sound.closed (sound : s.Sound) (fresh : s.calls = []) :
    (s.lib.Allowed (closeHd (closeDisc s)).calls ↔ ¬ s.Stale) ∧
      (closeHd (closeDisc s)).lib = s.lib.afterAll (closeHd (closeDisc s)).calls ∧
      (¬ s.Stale → (closeHd (closeDisc s)).lib.Holds none none) := by
  obtain ⟨hdd, disc, ⟨next, parents, children⟩, latest, calls⟩ := s
  obtain ⟨⟨hdds, discs⟩, -⟩ := sound
  dsimp only at hdds discs fresh
  subst hdds discs fresh
  cases hdd with
  | none =>
    cases disc with
    | none =>
      simp [closeHd, closeDisc, Session.Stale, Lifetimes.Holds, Lifetimes.afterAll]
    | some disc =>
      simp [closeHd, closeDisc, Session.Stale, Session.call, Lifetimes.Allowed,
        Lifetimes.Use.Allowed, Lifetimes.Live, Lifetimes.afterAll]
  | some hdd =>
    cases disc with
    | none =>
      simp [closeHd, closeDisc, Session.Stale, Session.call, Lifetimes.Allowed,
        Lifetimes.Use.Allowed, Lifetimes.Holds, Lifetimes.afterAll, Lifetimes.after]
    | some disc =>
      simp [closeHd, closeDisc, Session.Stale, Session.call, Lifetimes.Allowed,
        Lifetimes.Use.Allowed, Lifetimes.Live, Lifetimes.Holds, Lifetimes.afterAll,
        Lifetimes.after]

/-- Closing leaves the variable of the disc as it is. -/
theorem close_kept (s : Session) :
    (closeHd (closeDisc s)).disc = s.disc ∧ (closeHd (closeDisc s)).latest = s.latest := by
  have disc : (closeDisc s).disc = s.disc ∧ (closeDisc s).latest = s.latest := by
    unfold closeDisc
    split <;> exact ⟨rfl, rfl⟩
  have hdd (s : Session) : (closeHd s).disc = s.disc ∧ (closeHd s).latest = s.latest := by
    unfold closeHd
    split <;> exact ⟨rfl, rfl⟩
  exact ⟨(hdd _).1.trans disc.1, (hdd _).2.trans disc.2⟩

/-- Handles that are closed are replaced by those that libwbfs opens. -/
theorem reopen_calls (hdFailed discFailed : Int) (results : OpenResults) {s : Session}
    (latest : s.latest = s.disc) :
    ∃ uses, (reopen hdFailed discFailed results s).2.calls =
        (closeHd (closeDisc s)).calls ++ uses ∧
      (closeHd (closeDisc s)).lib.Allowed uses ∧
      ((closeHd (closeDisc s)).lib.Holds none none →
        (reopen hdFailed discFailed results s).2.Sound) := by
  have same := close_kept s
  unfold reopen openHd
  generalize closeHd (closeDisc s) = closed at *
  obtain ⟨startup, capacity, hdOpens, discOpens⟩ := results
  cases hdOpens with
  | false =>
    refine ⟨[.openParent false], rfl, ⟨trivial, trivial⟩, fun none => ⟨?_, ?_⟩⟩
    · exact ⟨none.1, none.2.trans (List.zip_nil_right).symm⟩
    · exact same.2.trans (latest.trans same.1.symm)
  | true =>
    refine ⟨[.openParent true, .openChild closed.lib.next discOpens], ?_,
      ⟨trivial, List.mem_cons_self, trivial⟩, fun none => ?_⟩
    · cases discOpens <;> simp [openDisc, Session.call]
    · cases discOpens with
      | false => exact ⟨⟨congrArg _ none.1, none.2⟩, rfl⟩
      | true => exact ⟨⟨congrArg _ none.1, congrArg _ none.2⟩, rfl⟩

/-- An open that gets past start-up uses live handles, unless the disc is stale. -/
theorem Session.Sound.reopen (sound : s.Sound) (fresh : s.calls = [])
    (hdFailed discFailed : Int) (results : OpenResults) :
    (s.lib.Allowed (reopen hdFailed discFailed results s).2.calls ↔ ¬ s.Stale) ∧
      (¬ s.Stale → (reopen hdFailed discFailed results s).2.Sound) := by
  obtain ⟨uses, calls, allowed, opened⟩ :=
    reopen_calls hdFailed discFailed results sound.latest
  obtain ⟨closes, lib, none⟩ := sound.closed fresh
  refine ⟨?_, fun live => opened (none live)⟩
  rw [calls, Lifetimes.allowed_append, ← lib, closes]
  exact and_iff_left allowed

/-- A read uses a live handle, unless the disc is stale. -/
theorem Session.Sound.read (sound : s.Sound) (fresh : s.calls = []) (ret : Int) :
    (s.lib.Allowed (read ret s).2.calls ↔ ¬ s.Stale) ∧
      (¬ s.Stale → ReadServed ret s (read ret s)) ∧ (read ret s).2.Sound := by
  obtain ⟨hdd, disc, lib, latest, calls⟩ := s
  obtain ⟨holds, same⟩ := sound
  dsimp only at holds same fresh
  subst same fresh
  have live := fun handle => @Lifetimes.Holds.live_iff _ _ _ holds handle
  cases latest with
  | none => exact ⟨by simp [Sessions.read, Session.Stale], fun _ => ⟨Int.one_ne_zero, rfl⟩,
      ⟨holds, rfl⟩⟩
  | some handle =>
    have open_iff : lib.Live handle ↔ ¬ Session.Stale ⟨hdd, some handle, lib, some handle, []⟩ := by
      rw [live, Session.Stale]
      simp
    refine ⟨(and_iff_left trivial).trans open_iff, fun fine => ?_, ⟨holds, rfl⟩⟩
    simp only [ReadServed, if_pos (open_iff.2 fine)]
    exact ⟨rfl, rfl⟩

/-- The opens of the servers get past start-up, or leave the session as it is. -/
theorem Server.openDisc_cases (server : Server) (results : OpenResults) (s : Session) :
    (server.Passes results ∧ ∃ hdFailed discFailed,
      server.serve (.openDisc results) s =
        Sessions.reopen hdFailed discFailed results { s with calls := [] }) ∨
    (¬ server.Passes results ∧
      (server.serve (.openDisc results) s).2 = { s with calls := [] }) := by
  cases server with
  | usb =>
    by_cases started : results.startup = 0
    · exact .inr ⟨fun passes => passes.1 started, by simp [serve, usbOpenDisc, started]⟩
    by_cases empty : results.capacity = 0
    · exact .inr ⟨fun passes => passes.2 empty, by simp [serve, usbOpenDisc, started, empty]⟩
    · exact .inl ⟨⟨started, empty⟩, 3, 4, by simp [serve, usbOpenDisc, started, empty]⟩
  | ehci =>
    by_cases started : results.startup = 0
    · by_cases empty : results.capacity = 0
      · exact .inr ⟨fun passes => passes.2 empty, by simp [serve, ehciOpenDisc, started, empty]⟩
      · exact .inl ⟨⟨started, empty⟩, 3, 4, by simp [serve, ehciOpenDisc, started, empty]⟩
    · exact .inr ⟨fun passes => started passes.1, by simp [serve, ehciOpenDisc, started]⟩
  | sdhc =>
    by_cases started : results.startup = 0
    · exact .inr ⟨fun passes => passes started, by simp [serve, sdhcOpenDisc, started]⟩
    · exact .inl ⟨started, 2, 3, by simp [serve, sdhcOpenDisc, started]⟩

/-- One request of a session. -/
theorem Server.right_iff (server : Server) (sound : s.Sound) (request : Request) :
    (server.Right request s ↔ server.Guarded request s) ∧
      (server.Right request s → (server.serve request s).2.Sound) := by
  have fresh : Session.Sound { s with calls := [] } := ⟨sound.holds, sound.latest⟩
  cases request with
  | openDisc results =>
    rcases server.openDisc_cases results s with ⟨passes, hd, disc, answer⟩ | ⟨stays, after⟩
    · obtain ⟨allowed, opened⟩ := fresh.reopen rfl hd disc results
      have right : server.Right (.openDisc results) s ↔ ¬ s.Stale := by
        refine ⟨fun right => allowed.1 (answer ▸ right.allowed), fun live => ⟨?_, nofun⟩⟩
        rw [answer]
        exact allowed.2 live
      refine ⟨right.trans ⟨fun live _ => live, fun guarded => guarded passes⟩, fun fine => ?_⟩
      rw [answer]
      exact opened (right.1 fine)
    · refine ⟨iff_of_true ⟨?_, nofun⟩ fun passes => absurd passes stays, fun _ => ?_⟩
      · rw [after]
        trivial
      · rw [after]
        exact fresh
  | readDisc ret =>
    obtain ⟨allowed, served, after⟩ := fresh.read rfl ret
    refine ⟨⟨fun right => allowed.1 right.allowed, fun live => ⟨allowed.2 live, ?_⟩⟩,
      fun _ => after⟩
    intro other same
    cases same
    exact served live

/-- In every run of a server the handles are used while they are open, exactly if no stale disc is
read or replaced. -/
theorem Server.always_handled_iff (server : Server) (requests : List Request) :
    Throughout server.step server.Right requests .boot ↔
      Throughout server.step server.Guarded requests .boot := by
  have each (request : Request) (s : Session) (_ : True) (sound : s.Sound) :
      (server.Right request s ↔ server.Guarded request s) ∧
        (server.Guarded request s → (server.step request s).Sound) := by
    obtain ⟨one, next⟩ := server.right_iff sound request
    exact ⟨one, fun guarded => next (one.2 guarded)⟩
  exact Throughout.iff_of_invariant each (.of_forall fun _ _ => trivial) sound_boot

/-! ## A read behind a failed open -/

/-- An open in which every step succeeds at the USB module, and one that finds no partition. -/
def opened : Request := .openDisc { startup := 1, capacity := 1, openHd := true, openDisc := true }

def unpartitioned : Request :=
  .openDisc { startup := 1, capacity := 1, openHd := false, openDisc := false }

/-- A disc is opened, cannot be opened again, and is read. -/
theorem closedDisc_read :
    ¬ Throughout Server.usb.step Server.usb.Right [opened, unpartitioned, .readDisc 0] .boot := by
  rintro ⟨-, -, ⟨⟨live, -⟩, -⟩, -⟩
  exact absurd live (by decide)

end D2xCios.Disk.Sessions
